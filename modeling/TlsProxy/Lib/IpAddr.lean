import TlsProxy.Lib.Text

/-! The canonical text form of an IPv6 address compresses the first longest run of
at least two zero segments; an IPv4-mapped address ends in dotted form. -/

structure Ipv4Addr where
  octets : Vector UInt8 4
deriving DecidableEq

structure Ipv6Addr where
  segments : Vector UInt16 8
deriving DecidableEq

inductive IpAddr
  | v4 (ip : Ipv4Addr)
  | v6 (ip : Ipv6Addr)
deriving DecidableEq

namespace Ipv4Addr

def localhost : Ipv4Addr := ⟨#v[127, 0, 0, 1]⟩

def display (ip : Ipv4Addr) : Text :=
  Text.join ['.'] (ip.octets.toList.map fun octet => Text.ofNat octet.toNat)

end Ipv4Addr

namespace Ipv6Addr

structure Span where
  start : Nat := 0
  len : Nat := 0

def longestZeroSpan (longest current : Span) : Nat → List UInt16 → Span
  | _, [] => longest
  | index, segment :: rest =>
    if segment = 0 then
      let current : Span :=
        { start := if current.len = 0 then index else current.start, len := current.len + 1 }
      longestZeroSpan (if current.len > longest.len then current else longest) current (index + 1) rest
    else longestZeroSpan longest {} (index + 1) rest

def subslice (segments : List UInt16) : Text :=
  Text.join [':'] (segments.map fun segment => Nat.toDigits 16 segment.toNat)

def toIpv4Mapped (ip : Ipv6Addr) : Option Ipv4Addr :=
  if ip.segments.toList.take 6 = [0, 0, 0, 0, 0, 0xffff] then
    let high := ip.segments.get 6
    let low := ip.segments.get 7
    some ⟨#v[(high >>> 8).toUInt8, high.toUInt8, (low >>> 8).toUInt8, low.toUInt8]⟩
  else none

def display (ip : Ipv6Addr) : Text :=
  match ip.toIpv4Mapped with
  | some ipv4 => "::ffff:".toList ++ ipv4.display
  | none =>
    let segments := ip.segments.toList
    let zeroes := longestZeroSpan {} {} 0 segments
    if zeroes.len > 1 then
      subslice (segments.take zeroes.start) ++ "::".toList ++
        subslice (segments.drop (zeroes.start + zeroes.len))
    else subslice segments

end Ipv6Addr

namespace IpAddr

def display : IpAddr → Text
  | v4 ip => ip.display
  | v6 ip => ip.display

end IpAddr

namespace Text

theorem isWhitespace_digitChar (n : Nat) : isWhitespace (Nat.digitChar n) = false := by
  rcases Nat.lt_or_ge n 16 with small | large
  · exact (by decide : ∀ m < 16, isWhitespace (Nat.digitChar m) = false) n small
  · rw [Nat.digitChar_eq_star.mpr large]
    decide

theorem solid_toDigitsCore (base fuel n : Nat) {cs : Text} (solid : ∀ c ∈ cs, isWhitespace c = false) :
    ∀ c ∈ Nat.toDigitsCore base fuel n cs, isWhitespace c = false := by
  induction fuel generalizing n cs with
  | zero => exact solid
  | succ fuel ih =>
    have extended : ∀ c ∈ Nat.digitChar (n % base) :: cs, isWhitespace c = false :=
      List.forall_mem_cons.mpr ⟨isWhitespace_digitChar _, solid⟩
    grind [Nat.toDigitsCore]

theorem solid_toDigits (base n : Nat) : ∀ c ∈ Nat.toDigits base n, isWhitespace c = false :=
  solid_toDigitsCore base _ n (by simp)

theorem newline_not_mem_of_solid {t : Text} (solid : ∀ c ∈ t, isWhitespace c = false) : '\n' ∉ t := by
  intro member
  exact absurd (solid _ member) (by decide)

end Text

/-! The text form of an address contains no white space. -/
namespace IpAddr

open Text (isWhitespace)

theorem solid_ipv4 (ip : Ipv4Addr) : ∀ c ∈ ip.display, isWhitespace c = false := by
  intro c member
  rcases Text.mem_join member with dot | ⟨part, inParts, inPart⟩
  · rw [List.mem_singleton.mp dot]
    decide
  · obtain ⟨octet, -, rfl⟩ := List.mem_map.mp inParts
    exact Text.solid_toDigits 10 _ c inPart

theorem solid_subslice (segments : List UInt16) : ∀ c ∈ Ipv6Addr.subslice segments, isWhitespace c = false := by
  intro c member
  rcases Text.mem_join member with colon | ⟨part, inParts, inPart⟩
  · rw [List.mem_singleton.mp colon]
    decide
  · grind [Text.solid_toDigits]

theorem solid_ipv6 (ip : Ipv6Addr) : ∀ c ∈ ip.display, isWhitespace c = false := by
  unfold Ipv6Addr.display
  split
  · exact List.forall_mem_append.mpr ⟨List.forall_iff_forall_mem.mp (by decide), solid_ipv4 _⟩
  · simp only
    split
    · exact List.forall_mem_append.mpr
        ⟨List.forall_mem_append.mpr ⟨solid_subslice _, List.forall_iff_forall_mem.mp (by decide)⟩, solid_subslice _⟩
    · exact solid_subslice _

theorem solid_display (ip : IpAddr) : ∀ c ∈ ip.display, isWhitespace c = false := by
  cases ip with
  | v4 ip => exact solid_ipv4 ip
  | v6 ip => exact solid_ipv6 ip

theorem ipv4_ne_nil (ip : Ipv4Addr) : ip.display ≠ [] := by
  obtain ⟨⟨⟨octets⟩, four⟩⟩ := ip
  match octets, four with
  | [a, b, c, d], _ => simp [Ipv4Addr.display, Text.join_cons_cons]

theorem subslice_ne_nil (segments : Vector UInt16 8) : Ipv6Addr.subslice segments.toList ≠ [] := by
  obtain ⟨⟨segments⟩, eight⟩ := segments
  match segments, eight with
  | a :: b :: rest, _ => simp [Ipv6Addr.subslice, Text.join_cons_cons]

theorem display_ne_nil (ip : IpAddr) : ip.display ≠ [] := by
  cases ip with
  | v4 ip => exact ipv4_ne_nil ip
  | v6 ip =>
    change ip.display ≠ []
    unfold Ipv6Addr.display
    split
    · simp
    · simp only
      split
      · simp
      · exact subslice_ne_nil ip.segments

end IpAddr

/-- Four decimal octets without leading zeros. -/
def Ipv4Addr.isLiteral (t : Text) : Bool :=
  (t.splitOn '.').length == 4 && (t.splitOn '.').all fun octet =>
    !octet.isEmpty && octet.all Char.isDigit && (octet.length == 1 || octet.head? != some '0') &&
      decide (Nat.ofDigitChars 10 octet 0 < 256)

namespace Ipv6Addr

def isSegment (t : Text) : Bool := !t.isEmpty && decide (t.length ≤ 4) && t.all fun c => (Text.digit? 16 c).isSome

def colonParts (t : Text) : List Text := if t.isEmpty then [] else t.splitOn ':'

/-- The number of segments that the parts spell. The last part may be an IPv4 address, which is two segments. -/
def segmentCount : List Text → Option Nat
  | [] => some 0
  | [last] => if isSegment last then some 1 else if Ipv4Addr.isLiteral last then some 2 else none
  | first :: rest => if isSegment first then (segmentCount rest).map (· + 1) else none

/-- Eight segments, or fewer with one double colon for the zero segments left out. -/
def isLiteral (t : Text) : Bool :=
  match Text.splitOnceText "::".toList t with
  | none => segmentCount (colonParts t) == some 8
  | some (before, after) =>
    (colonParts before).all isSegment &&
      (segmentCount (colonParts after)).any fun count => decide ((colonParts before).length + count ≤ 7)

def literalChar (c : Char) : Prop := c = ':' ∨ c = '.' ∨ (Text.digit? 16 c).isSome = true

theorem literalChar_of_isSegment {t : Text} (segment : isSegment t = true) : ∀ c ∈ t, literalChar c := by
  simp only [isSegment, Bool.and_eq_true, List.all_eq_true] at segment
  exact fun c member => .inr (.inr (segment.2 c member))

theorem literalChar_of_isDigit {c : Char} (digit : c.isDigit = true) : literalChar c := by
  refine .inr (.inr ?_)
  simp only [Char.isDigit, Bool.and_eq_true, decide_eq_true_eq] at digit
  have range : '0' ≤ c ∧ c ≤ '9' := digit
  have high : c.toNat ≤ 57 := digit.2
  grind [Text.digit?]

theorem literalChar_of_ipv4 {t : Text} (literal : Ipv4Addr.isLiteral t = true) : ∀ c ∈ t, literalChar c := by
  simp only [Ipv4Addr.isLiteral, Bool.and_eq_true, List.all_eq_true] at literal
  have whole : Text.join ['.'] (t.splitOn '.') = t := List.intercalate_splitOn '.'
  intro c member
  rw [← whole] at member
  rcases Text.mem_join member with dot | ⟨part, inParts, inPart⟩
  · exact .inr (.inl (List.mem_singleton.mp dot))
  · grind [literalChar_of_isDigit]

theorem literalChar_of_segmentCount {parts : List Text} {n : Nat} (counted : segmentCount parts = some n) :
    ∀ part ∈ parts, ∀ c ∈ part, literalChar c := by
  induction parts using segmentCount.induct generalizing n with
  | case1 => simp
  | case2 last segment => simpa using literalChar_of_isSegment segment
  | case3 last _ ipv4 => simpa using literalChar_of_ipv4 ipv4
  | case4 last other notIpv4 => simp [segmentCount, other, notIpv4] at counted
  | case5 first rest several segment ih =>
    rw [segmentCount, if_pos segment] at counted
    · obtain ⟨m, later, -⟩ := Option.map_eq_some_iff.mp counted
      grind [literalChar_of_isSegment]
    · exact several
  | case6 first rest several other => grind [segmentCount]

theorem literalChar_of_colonParts {t : Text} (parts : ∀ part ∈ colonParts t, ∀ c ∈ part, literalChar c) :
    ∀ c ∈ t, literalChar c := by
  intro c member
  have filled : ¬ t.isEmpty = true := by grind
  rw [colonParts, if_neg filled] at parts
  have whole : Text.join [':'] (t.splitOn ':') = t := List.intercalate_splitOn ':'
  rw [← whole] at member
  rcases Text.mem_join member with colon | ⟨part, inParts, inPart⟩
  · exact .inl (List.mem_singleton.mp colon)
  · exact parts part inParts c inPart

theorem literalChar_of_isLiteral {t : Text} (literal : isLiteral t = true) : ∀ c ∈ t, literalChar c := by
  unfold isLiteral at literal
  split at literal
  · exact literalChar_of_colonParts (literalChar_of_segmentCount (beq_iff_eq.mp literal))
  · rename_i before after found
    simp only [Bool.and_eq_true, List.all_eq_true, Option.any_eq_true] at literal
    obtain ⟨segments, count, counted, -⟩ := literal
    rw [Text.eq_of_splitOnceText found, List.forall_mem_append, List.forall_mem_append]
    exact ⟨⟨literalChar_of_colonParts fun part member => literalChar_of_isSegment (segments part member),
      by simp [literalChar]⟩, literalChar_of_colonParts (literalChar_of_segmentCount counted)⟩

theorem solid_of_isLiteral {t : Text} (literal : isLiteral t = true) : ∀ c ∈ t, Text.isWhitespace c = false := by
  intro c member
  rcases literalChar_of_isLiteral literal c member with rfl | rfl | digit
  · decide
  · decide
  · obtain ⟨d, value⟩ := Option.isSome_iff_exists.mp digit
    exact Text.isWhitespace_of_digit? value

theorem bracket_not_mem_of_isLiteral {t : Text} (literal : isLiteral t = true) : ']' ∉ t := by
  intro member
  rcases literalChar_of_isLiteral literal _ member with colon | dot | digit
  · exact absurd colon (by decide)
  · exact absurd dot (by decide)
  · exact absurd digit (by decide)

theorem colon_mem_of_isLiteral {t : Text} (literal : isLiteral t = true) : ':' ∈ t := by
  unfold isLiteral at literal
  split at literal
  · by_contra absent
    have counted := beq_iff_eq.mp literal
    rw [colonParts, List.splitOn_eq_singleton absent] at counted
    split at counted
    · cases counted
    · grind [segmentCount]
  · rename_i before after found
    rw [Text.eq_of_splitOnceText found]
    simp

example : ["::", "::1", "1::", "2001:db8::7", "1:2:3:4:5:6:7:8", "::ffff:10.0.0.1"].all (isLiteral ·.toList) = true := by
  decide

example : ["", ":", "1", ":1", "1:2:3:4:5:6:7", "::1::", ":::", "12345::", "::g", "::10.0.0.01", "a.example"].all
    (!isLiteral ·.toList) = true := by
  decide

end Ipv6Addr
