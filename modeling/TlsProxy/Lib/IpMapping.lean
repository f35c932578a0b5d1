import TlsProxy.Lib.IpAddr

/-! An IPv4 address has a second form as an IPv4-mapped IPv6 address. The canonical
form of an address is the plain one. -/

namespace Ipv4Addr

def halves (ip : Ipv4Addr) : List UInt16 :=
  [UInt16.ofNat ((ip.octets.get 0).toNat * 256 + (ip.octets.get 1).toNat),
    UInt16.ofNat ((ip.octets.get 2).toNat * 256 + (ip.octets.get 3).toNat)]

def toIpv6Mapped (ip : Ipv4Addr) : Ipv6Addr :=
  ⟨⟨([0, 0, 0, 0, 0, 0xffff] ++ ip.halves).toArray, rfl⟩⟩

def unspecified : Ipv4Addr := ⟨#v[0, 0, 0, 0]⟩

def isLoopback (ip : Ipv4Addr) : Bool := ip.octets.get 0 == 127

def isUnspecified (ip : Ipv4Addr) : Bool := ip.octets.toList == [0, 0, 0, 0]

end Ipv4Addr

namespace Ipv6Addr

def localhost : Ipv6Addr := ⟨#v[0, 0, 0, 0, 0, 0, 0, 1]⟩

def unspecified : Ipv6Addr := ⟨#v[0, 0, 0, 0, 0, 0, 0, 0]⟩

def isLoopback (ip : Ipv6Addr) : Bool := ip.segments.toList == [0, 0, 0, 0, 0, 0, 0, 1]

def isUnspecified (ip : Ipv6Addr) : Bool := ip.segments.toList == [0, 0, 0, 0, 0, 0, 0, 0]

end Ipv6Addr

namespace IpAddr

def isIpv4 : IpAddr → Bool
  | v4 _ => true
  | v6 _ => false

def isLoopback : IpAddr → Bool
  | v4 ip => ip.isLoopback
  | v6 ip => ip.isLoopback

def isUnspecified : IpAddr → Bool
  | v4 ip => ip.isUnspecified
  | v6 ip => ip.isUnspecified

def toCanonical : IpAddr → IpAddr
  | v4 ip => v4 ip
  | v6 ip =>
    match ip.toIpv4Mapped with
    | some mapped => v4 mapped
    | none => v6 ip

def toV6 : IpAddr → Ipv6Addr
  | v4 ip => ip.toIpv6Mapped
  | v6 ip => ip

end IpAddr

structure SocketAddr where
  ip : IpAddr
  port : UInt16
deriving DecidableEq

theorem toNat_high (segment : UInt16) : (segment >>> 8).toUInt8.toNat = segment.toNat / 256 := by
  have bound := segment.toNat_lt
  grind [UInt16.toNat_shiftRight, Nat.shiftRight_eq_div_pow, UInt16.toNat_toUInt8]

theorem toNat_low (segment : UInt16) : segment.toUInt8.toNat = segment.toNat % 256 := UInt16.toNat_toUInt8 segment

theorem toNat_pair (high low : UInt8) :
    (UInt16.ofNat (high.toNat * 256 + low.toNat)).toNat = high.toNat * 256 + low.toNat := by
  grind [UInt8.toNat_lt, UInt16.toNat_ofNat_of_lt']

theorem high_pair (high low : UInt8) : (UInt16.ofNat (high.toNat * 256 + low.toNat) >>> 8).toUInt8 = high := by
  have second := low.toNat_lt
  rw [← UInt8.toNat_inj, toNat_high, toNat_pair]
  omega

theorem low_pair (high low : UInt8) : (UInt16.ofNat (high.toNat * 256 + low.toNat)).toUInt8 = low := by
  have second := low.toNat_lt
  rw [← UInt8.toNat_inj, toNat_low, toNat_pair]
  omega

theorem pair_high_low (segment : UInt16) :
    UInt16.ofNat ((segment >>> 8).toUInt8.toNat * 256 + segment.toUInt8.toNat) = segment := by
  rw [← UInt16.toNat_inj, toNat_pair, toNat_high, toNat_low]
  omega

theorem octets_eq (ip : Ipv4Addr) :
    #v[ip.octets.get 0, ip.octets.get 1, ip.octets.get 2, ip.octets.get 3] = ip.octets := by
  obtain ⟨⟨⟨octets⟩, four⟩⟩ := ip
  match octets, four with
  | [_, _, _, _], _ => rfl

theorem segments_toList (ip : Ipv6Addr) :
    ip.segments.toList = ip.segments.toList.take 6 ++ [ip.segments.get 6, ip.segments.get 7] := by
  obtain ⟨⟨⟨segments⟩, eight⟩⟩ := ip
  match segments, eight with
  | [_, _, _, _, _, _, _, _], _ => rfl

theorem eq_of_segments {ip other : Ipv6Addr} (same : ip.segments.toList = other.segments.toList) : ip = other := by
  obtain ⟨segments⟩ := ip
  obtain ⟨others⟩ := other
  exact congrArg Ipv6Addr.mk (Vector.toList_inj.mp same)

theorem toIpv6Mapped_segments (ip : Ipv4Addr) :
    ip.toIpv6Mapped.segments.toList = [0, 0, 0, 0, 0, 0xffff] ++ ip.halves := rfl

theorem halves_eq (ip : Ipv6Addr) :
    Ipv4Addr.halves ⟨#v[(ip.segments.get 6 >>> 8).toUInt8, (ip.segments.get 6).toUInt8,
      (ip.segments.get 7 >>> 8).toUInt8, (ip.segments.get 7).toUInt8]⟩ = [ip.segments.get 6, ip.segments.get 7] := by
  change [UInt16.ofNat _, UInt16.ofNat _] = _
  congr 2
  · exact pair_high_low _
  · exact pair_high_low _

theorem toIpv6Mapped_of_mapped {ip : Ipv6Addr} {mapped : Ipv4Addr} (has : ip.toIpv4Mapped = some mapped) :
    mapped.toIpv6Mapped = ip := by
  rw [Ipv6Addr.toIpv4Mapped, Option.ite_none_right_eq_some] at has
  obtain ⟨front, same⟩ := has
  obtain rfl := Option.some.inj same
  apply eq_of_segments
  rw [toIpv6Mapped_segments, halves_eq, ← front, ← segments_toList]

theorem octets_of_halves {ip : Ipv4Addr} {high low : UInt16} (same : [high, low] = ip.halves) :
    #v[(high >>> 8).toUInt8, high.toUInt8, (low >>> 8).toUInt8, low.toUInt8] = ip.octets := by
  rw [Ipv4Addr.halves, List.cons.injEq, List.cons.injEq] at same
  grind [high_pair, low_pair, octets_eq]

theorem toIpv4Mapped_toIpv6Mapped (ip : Ipv4Addr) : ip.toIpv6Mapped.toIpv4Mapped = some ip := by
  have front : ip.toIpv6Mapped.segments.toList.take 6 = [0, 0, 0, 0, 0, 0xffff] := rfl
  have whole := segments_toList ip.toIpv6Mapped
  rw [front, toIpv6Mapped_segments] at whole
  rw [Ipv6Addr.toIpv4Mapped, if_pos front]
  exact congrArg (some ∘ Ipv4Addr.mk) (octets_of_halves (List.append_cancel_left whole).symm)

theorem toCanonical_v6 (ip : IpAddr) : IpAddr.toCanonical (.v6 ip.toV6) = ip.toCanonical := by
  cases ip with
  | v4 ip =>
    change IpAddr.toCanonical (.v6 ip.toIpv6Mapped) = .v4 ip
    rw [IpAddr.toCanonical, toIpv4Mapped_toIpv6Mapped]
  | v6 ip => rfl

theorem toCanonical_toCanonical (ip : IpAddr) : ip.toCanonical.toCanonical = ip.toCanonical := by
  cases ip with
  | v4 ip => rfl
  | v6 ip => grind [IpAddr.toCanonical]
