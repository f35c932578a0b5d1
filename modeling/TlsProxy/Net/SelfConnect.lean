import TlsProxy.Lib.IpMapping

/-! `reject_obvious_self_connect` of `relay.rs`, the only guard of a raw forward
listener against a target that leads back to this proxy. -/

namespace TlsProxy.Net

structure SelfEndpoints where
  bound : List SocketAddr := []
  localIps : List IpAddr := []
  selfIps : List IpAddr := []

def upstreamLandsOn (upstream bound : SocketAddr) (localIps selfIps : List IpAddr) : Bool :=
  if upstream.port != bound.port then false
  else if bound.ip.isUnspecified then
    upstream.ip.isLoopback || localIps.contains upstream.ip || selfIps.contains upstream.ip
  else upstream.ip == bound.ip || (!bound.ip.isLoopback && selfIps.contains upstream.ip)

def checkAddresses (ownBind : Option SocketAddr) (endpoints : SelfEndpoints) : List SocketAddr → Except Text Unit
  | [] => .ok ()
  | upstream :: rest =>
    if ownBind.any fun bind => upstreamLandsOn upstream bind endpoints.localIps endpoints.selfIps then
      .error "detected self-connection loop".toList
    else if endpoints.bound.any fun bound => upstreamLandsOn upstream bound endpoints.localIps endpoints.selfIps then
      .error "detected self-connection loop".toList
    else checkAddresses ownBind endpoints rest

/-- The check of a target; one that does not resolve passes. -/
def rejectObviousSelfConnect (ownBind : Option SocketAddr) (endpoints : SelfEndpoints)
    (upstreamAddrs : Option (List SocketAddr)) : Except Text Unit :=
  match upstreamAddrs with
  | none => .ok ()
  | some addresses => checkAddresses ownBind endpoints addresses

/-- The addresses that a bound socket receives, with IPv4 in either form. -/
def Reaches (upstream bound : SocketAddr) (localIps selfIps : List IpAddr) : Prop :=
  upstream.port = bound.port ∧
    (upstream.ip.toCanonical = bound.ip.toCanonical ∨
      bound.ip.toCanonical.isUnspecified = true ∧ (upstream.ip.toCanonical.isLoopback = true ∨
        upstream.ip.toCanonical.isUnspecified = true ∨ upstream.ip.toCanonical ∈ localIps.map IpAddr.toCanonical) ∨
      bound.ip.toCanonical.isLoopback = false ∧ upstream.ip.toCanonical ∈ selfIps.map IpAddr.toCanonical)

def Plain (ip : IpAddr) : Prop := ip.toCanonical = ip

theorem plain_of_ipv6 {ip : IpAddr} (other : ip.toCanonical.isIpv4 = false) : Plain ip := by
  cases ip with
  | v4 ip => rfl
  | v6 ip =>
    cases mapped : ip.toIpv4Mapped with
    | none => simp only [Plain, IpAddr.toCanonical, mapped]
    | some plain =>
      simp only [IpAddr.toCanonical, mapped] at other
      cases other

theorem special_of_mapped {ip : Ipv6Addr} {plain : Ipv4Addr} (mapped : ip.toIpv4Mapped = some plain) :
    ip.isLoopback = false ∧ ip.isUnspecified = false := by
  rw [← toIpv6Mapped_of_mapped mapped]
  grind [Ipv6Addr.isLoopback, toIpv6Mapped_segments, Ipv6Addr.isUnspecified]

theorem plain_of_special {ip : IpAddr} (special : ip.isLoopback = true ∨ ip.isUnspecified = true) : Plain ip := by
  cases ip with
  | v4 ip => rfl
  | v6 ip =>
    cases mapped : ip.toIpv4Mapped with
    | none => simp only [Plain, IpAddr.toCanonical, mapped]
    | some plain =>
      obtain ⟨loopback, unspecified⟩ := special_of_mapped mapped
      rcases special with is | is
      · exact absurd (is.symm.trans loopback) (by decide)
      · exact absurd (is.symm.trans unspecified) (by decide)

/-- The other list writes the same addresses, each in either form. -/
def SameAddresses (ips ips' : List IpAddr) : Prop := ips'.map IpAddr.toCanonical = ips.map IpAddr.toCanonical

theorem mem_iff_of_ipv6 {ip : IpAddr} (other : ip.toCanonical.isIpv4 = false) {ips : List IpAddr} :
    ip ∈ ips ↔ ip.toCanonical ∈ ips.map IpAddr.toCanonical := by
  refine ⟨List.mem_map_of_mem, fun member => ?_⟩
  obtain ⟨listed, inside, same⟩ := List.mem_map.mp member
  have plain : Plain listed := plain_of_ipv6 (same ▸ other)
  rwa [(plain_of_ipv6 other).symm.trans (same.symm.trans plain)]

/-- The answer is the same with every address in any of its forms. -/
def FormIndependent (upstream bound : SocketAddr) (localIps selfIps : List IpAddr) : Prop :=
  ∀ upstream' bound' localIps' selfIps', upstream'.port = upstream.port → bound'.port = bound.port →
    upstream'.ip.toCanonical = upstream.ip.toCanonical → bound'.ip.toCanonical = bound.ip.toCanonical →
    SameAddresses localIps localIps' → SameAddresses selfIps selfIps' →
    upstreamLandsOn upstream' bound' localIps' selfIps' = upstreamLandsOn upstream bound localIps selfIps

/-- The form of no address can matter: an IPv4 upstream is none that the check looks for, and for one that is not
IPv4 the two answers that the forms of an IPv4 bind lead to agree. The addresses are canonical ones. -/
structure FormFree (upstream bound : IpAddr) (localIps selfIps : List IpAddr) : Prop where
  ipv4 : upstream.isIpv4 = true →
    upstream ≠ bound ∧ (upstream ∈ selfIps → bound.isLoopback = true ∧ bound.isIpv4 = false) ∧
      (bound.isUnspecified = true → upstream.isLoopback = false ∧ upstream ∉ localIps)
  other : upstream.isIpv4 = false → bound.isIpv4 = true → (bound.isLoopback = true → upstream ∉ selfIps) ∧
    (bound.isUnspecified = true → upstream.isLoopback = true ∨ upstream ∈ localIps → upstream ∈ selfIps)

section Plain

variable {upstream bound : SocketAddr} {localIps selfIps : List IpAddr}

theorem map_toCanonical {ips : List IpAddr} (plain : ∀ ip ∈ ips, Plain ip) : ips.map IpAddr.toCanonical = ips := by
  rw [List.map_congr_left plain, List.map_id']

theorem isLoopback_of_isUnspecified {ip : IpAddr} (unspecified : ip.isUnspecified = true) : ip.isLoopback = false := by
  cases ip with
  | v4 ip =>
    obtain ⟨⟨⟨octets⟩, four⟩⟩ := ip
    obtain rfl : octets = [0, 0, 0, 0] := beq_iff_eq.mp unspecified
    rfl
  | v6 ip =>
    have zeros : ip.segments.toList = [0, 0, 0, 0, 0, 0, 0, 0] := beq_iff_eq.mp unspecified
    change (ip.segments.toList == _) = false
    rw [zeros]
    decide

/-- Without IPv4-mapped addresses the check decides what reaches the listener, the unspecified
target apart. -/
theorem upstreamLandsOn_iff (upstreamPlain : Plain upstream.ip) (boundPlain : Plain bound.ip)
    (localsPlain : ∀ ip ∈ localIps, Plain ip) (selvesPlain : ∀ ip ∈ selfIps, Plain ip)
    (specified : upstream.ip.isUnspecified = false) :
    upstreamLandsOn upstream bound localIps selfIps = true ↔ Reaches upstream bound localIps selfIps := by
  rw [Reaches, upstreamPlain, boundPlain, map_toCanonical localsPlain, map_toCanonical selvesPlain, specified]
  cases unspecified : bound.ip.isUnspecified with
  | true => grind [upstreamLandsOn, isLoopback_of_isUnspecified]
  | false => simp [upstreamLandsOn, unspecified]

end Plain

/-- A target passes where no address of it lands on the own bind or on a bound listener. -/
theorem checkAddresses_eq_ok {ownBind : Option SocketAddr} {endpoints : SelfEndpoints} {addresses : List SocketAddr} :
    checkAddresses ownBind endpoints addresses = .ok () ↔
      ∀ upstream ∈ addresses, ∀ bound ∈ ownBind.toList ++ endpoints.bound,
        upstreamLandsOn upstream bound endpoints.localIps endpoints.selfIps = false := by
  induction addresses with
  | nil => simp [checkAddresses]
  | cons upstream rest ih =>
    have own : (ownBind.any fun bind => upstreamLandsOn upstream bind endpoints.localIps endpoints.selfIps) = false ↔
        ∀ bind ∈ ownBind.toList, upstreamLandsOn upstream bind endpoints.localIps endpoints.selfIps = false := by
      cases ownBind <;> simp
    have others : (endpoints.bound.any fun bound =>
        upstreamLandsOn upstream bound endpoints.localIps endpoints.selfIps) = false ↔
        ∀ bound ∈ endpoints.bound, upstreamLandsOn upstream bound endpoints.localIps endpoints.selfIps = false := by
      simp
    rw [List.forall_mem_cons, List.forall_mem_append, ← ih, ← own, ← others, checkAddresses]
    split
    · simp [*]
    · split <;> simp [*]

/-- What the check lets pass leads to no listener, the unspecified target apart. -/
theorem not_reaches_of_passes {ownBind : Option SocketAddr} {endpoints : SelfEndpoints} {addresses : List SocketAddr}
    (plain : ∀ ip ∈ (addresses ++ ownBind.toList ++ endpoints.bound).map SocketAddr.ip ++ endpoints.localIps ++
      endpoints.selfIps, Plain ip)
    (passes : rejectObviousSelfConnect ownBind endpoints (some addresses) = .ok ()) :
    ∀ upstream ∈ addresses, upstream.ip.isUnspecified = false →
      ∀ bound ∈ ownBind.toList ++ endpoints.bound, ¬ Reaches upstream bound endpoints.localIps endpoints.selfIps := by
  intro upstream target specified bound isBound reaches
  simp only [List.forall_mem_append, List.map_append, List.forall_mem_map] at plain
  obtain ⟨⟨⟨⟨targets, own⟩, others⟩, locals⟩, selves⟩ := plain
  have boundPlain : Plain bound.ip := (List.mem_append.mp isBound).elim (own bound) (others bound)
  have lands := (upstreamLandsOn_iff (targets upstream target) boundPlain locals selves specified).mpr reaches
  rw [checkAddresses_eq_ok.mp passes upstream target bound isBound] at lands
  cases lands

theorem not_reaches_of_passes_localhost :
    rejectObviousSelfConnect none { bound := [⟨.v6 Ipv6Addr.localhost, 443⟩] } (some [⟨.v4 Ipv4Addr.localhost, 443⟩]) =
        .ok () ∧
      ¬ Reaches ⟨.v4 Ipv4Addr.localhost, 443⟩ ⟨.v6 Ipv6Addr.localhost, 443⟩ [] [] := by
  have passes : rejectObviousSelfConnect none { bound := [⟨.v6 Ipv6Addr.localhost, 443⟩] }
      (some [⟨.v4 Ipv4Addr.localhost, 443⟩]) = .ok () := rfl
  refine ⟨passes, not_reaches_of_passes ?_ passes _ List.mem_cons_self rfl _ List.mem_cons_self⟩
  exact List.forall_iff_forall_mem.mp ⟨rfl, rfl⟩

theorem mapped_not_mem {ip : Ipv4Addr} {ips : List IpAddr} (plain : ∀ ip ∈ ips, Plain ip) :
    .v6 ip.toIpv6Mapped ∉ ips := by
  intro member
  have same := toCanonical_v6 (.v4 ip)
  rw [IpAddr.toV6, plain _ member] at same
  cases same

/-- The plain and the mapped form of the two addresses are enough to tell whether the form matters. -/
theorem formFree_of_agree {upstream bound : IpAddr} (upstreamPlain : Plain upstream) (boundPlain : Plain bound)
    {localIps selfIps : List IpAddr} (localsPlain : ∀ ip ∈ localIps, Plain ip) (selvesPlain : ∀ ip ∈ selfIps, Plain ip)
    {port : UInt16} {answer : Bool} (agree : ∀ upstream' ∈ [upstream, .v6 upstream.toV6], ∀ bound' ∈ [bound, .v6 bound.toV6],
      upstreamLandsOn ⟨upstream', port⟩ ⟨bound', port⟩ localIps selfIps = answer) :
    FormFree upstream bound localIps selfIps := by
  have special (ip : Ipv4Addr) := special_of_mapped (toIpv4Mapped_toIpv6Mapped ip)
  have mapped (ip : Ipv4Addr) (other : IpAddr) (plain : Plain other) : .v6 ip.toIpv6Mapped ≠ other := by
    rintro rfl
    exact @mapped_not_mem ip [.v6 ip.toIpv6Mapped] (by simpa using plain) List.mem_cons_self
  have plainForms := agree upstream (by simp) bound (by simp)
  have mappedBound := agree upstream (by simp) (.v6 bound.toV6) (by simp)
  have mappedUpstream := agree (.v6 upstream.toV6) (by simp) bound (by simp)
  have mappedForms := agree (.v6 upstream.toV6) (by simp) (.v6 bound.toV6) (by simp)
  cases upstream with
  | v4 ip =>
    have missed : answer = false := by
      rw [← mappedUpstream]
      simp [upstreamLandsOn, IpAddr.toV6, IpAddr.isLoopback, special ip, mapped_not_mem localsPlain,
        mapped_not_mem selvesPlain, mapped ip bound boundPlain]
    subst missed
    refine ⟨fun _ => ⟨?_, ?_, ?_⟩, nofun⟩
    · rintro rfl
      simp [upstreamLandsOn, IpAddr.toV6, IpAddr.isUnspecified, special ip] at mappedForms
    · intro member
      cases bound with
      | v4 other =>
        simp [upstreamLandsOn, IpAddr.toV6, IpAddr.isUnspecified, IpAddr.isLoopback, special other, member] at mappedBound
      | v6 other =>
        refine ⟨?_, rfl⟩
        by_contra notLoopback
        simp [upstreamLandsOn, notLoopback, member] at plainForms
    · intro unspecified
      have nowhere : ((IpAddr.v4 ip).isLoopback = false ∧ .v4 ip ∉ localIps) ∧ .v4 ip ∉ selfIps := by
        simpa [upstreamLandsOn, unspecified] using plainForms
      exact nowhere.1
  | v6 ip =>
    refine ⟨nofun, fun _ ipv4 => ?_⟩
    cases bound with
    | v6 other => cases ipv4
    | v4 other =>
      have missed : IpAddr.v6 ip ≠ .v6 other.toIpv6Mapped := (mapped other (.v6 ip) upstreamPlain).symm
      have decided : (.v6 ip ∈ selfIps) ↔ answer = true := by
        rw [← mappedBound]
        simp [upstreamLandsOn, IpAddr.toV6, IpAddr.isUnspecified, IpAddr.isLoopback, special other, missed]
      rw [decided, ← plainForms]
      constructor
      · intro loopback
        have specified : (IpAddr.v4 other).isUnspecified = false :=
          Bool.eq_false_iff.mpr fun is => by simp [isLoopback_of_isUnspecified is] at loopback
        simp [upstreamLandsOn, loopback, specified]
      · intro unspecified found
        simp [upstreamLandsOn, unspecified, found]

section Forms

variable {upstream bound : SocketAddr} {localIps selfIps : List IpAddr}
  (free : FormFree upstream.ip.toCanonical bound.ip.toCanonical (localIps.map IpAddr.toCanonical)
    (selfIps.map IpAddr.toCanonical))

include free

theorem upstreamLandsOn_of_ipv4 (ipv4 : upstream.ip.toCanonical.isIpv4 = true) :
    upstreamLandsOn upstream bound localIps selfIps = false := by
  obtain ⟨different, selves, unspecified⟩ := free.ipv4 ipv4
  have notBound : upstream.ip ≠ bound.ip := fun same => different (congrArg IpAddr.toCanonical same)
  have listed (ips : List IpAddr) (member : upstream.ip ∈ ips) :
      upstream.ip.toCanonical ∈ ips.map IpAddr.toCanonical := List.mem_map_of_mem member
  unfold upstreamLandsOn
  split
  · rfl
  · split
    · rename_i isUnspecified
      have plain : Plain bound.ip := plain_of_special (.inr isUnspecified)
      obtain ⟨notLoopback, notLocal⟩ := unspecified (plain.symm ▸ isUnspecified)
      have loopback : upstream.ip.isLoopback = false := by
        cases is : upstream.ip.isLoopback with
        | false => rfl
        | true =>
          have upstreamPlain : Plain upstream.ip := plain_of_special (.inl is)
          rw [upstreamPlain, is] at notLoopback
          cases notLoopback
      have notSelf : upstream.ip ∉ selfIps := by
        intro member
        have boundLoopback := (selves (listed selfIps member)).1
        rw [plain, isLoopback_of_isUnspecified isUnspecified] at boundLoopback
        cases boundLoopback
      have notListed : upstream.ip ∉ localIps := fun member => notLocal (listed localIps member)
      simp [loopback, notSelf, notListed]
    · by_cases member : upstream.ip ∈ selfIps
      · obtain ⟨loopback, ipv6⟩ := selves (listed selfIps member)
        have plain : Plain bound.ip := plain_of_ipv6 ipv6
        rw [plain] at loopback
        simp [notBound, loopback]
      · simp [notBound, member]

/-- Where the bind is IPv4 and the upstream is not, only the list of own addresses decides. -/
theorem upstreamLandsOn_of_families (ports : upstream.port = bound.port) (ipv6 : upstream.ip.toCanonical.isIpv4 = false)
    (ipv4 : bound.ip.toCanonical.isIpv4 = true) :
    upstreamLandsOn upstream bound localIps selfIps = true ↔
      upstream.ip.toCanonical ∈ selfIps.map IpAddr.toCanonical := by
  obtain ⟨loopback, unspecified⟩ := free.other ipv6 ipv4
  have different : upstream.ip ≠ bound.ip := by
    intro same
    rw [same, ipv4] at ipv6
    cases ipv6
  have upstreamPlain : Plain upstream.ip := plain_of_ipv6 ipv6
  simp only [← mem_iff_of_ipv6 ipv6] at loopback unspecified ⊢
  unfold upstreamLandsOn
  rw [if_neg (by simp [ports])]
  split
  · rename_i isUnspecified
    have plain : Plain bound.ip := plain_of_special (.inr isUnspecified)
    have only := unspecified (plain.symm ▸ isUnspecified)
    rw [upstreamPlain] at only
    simp only [Bool.or_eq_true, List.contains_iff_mem]
    exact ⟨fun found => found.elim only id, .inr⟩
  · cases isLoopback : bound.ip.isLoopback with
    | false => simp [different]
    | true =>
      have plain : Plain bound.ip := plain_of_special (.inl isLoopback)
      simp [different, loopback (plain.symm ▸ isLoopback)]

theorem formIndependent_of_formFree : FormIndependent upstream bound localIps selfIps := by
  intro upstream' bound' localIps' selfIps' upstreamPort boundPort upstreamForm boundForm locals selves
  have free' := free
  rw [← upstreamForm, ← boundForm, ← locals, ← selves] at free'
  by_cases ports : upstream.port = bound.port
  · cases ipv4 : upstream.ip.toCanonical.isIpv4 with
    | true => rw [upstreamLandsOn_of_ipv4 free ipv4, upstreamLandsOn_of_ipv4 free' (upstreamForm ▸ ipv4)]
    | false =>
      have ipv6' : upstream'.ip.toCanonical.isIpv4 = false := upstreamForm ▸ ipv4
      have ports' : upstream'.port = bound'.port := upstreamPort.trans (ports.trans boundPort.symm)
      cases family : bound.ip.toCanonical.isIpv4 with
      | true =>
        rw [Bool.eq_iff_iff, upstreamLandsOn_of_families free ports ipv4 family,
          upstreamLandsOn_of_families free' ports' ipv6' (boundForm ▸ family), upstreamForm, selves]
      | false =>
        have sameBound : bound'.ip = bound.ip := by
          have plain : Plain bound'.ip := plain_of_ipv6 (boundForm ▸ family)
          exact plain.symm.trans (boundForm.trans (plain_of_ipv6 family))
        have sameUpstream : upstream'.ip = upstream.ip := by
          have plain : Plain upstream'.ip := plain_of_ipv6 ipv6'
          exact plain.symm.trans (upstreamForm.trans (plain_of_ipv6 ipv4))
        have sameList {ips ips' : List IpAddr} (same : SameAddresses ips ips') :
            ips'.contains upstream.ip = ips.contains upstream.ip := by
          rw [Bool.eq_iff_iff, List.contains_iff_mem, List.contains_iff_mem, mem_iff_of_ipv6 ipv4, mem_iff_of_ipv6 ipv4,
            same]
        rw [upstreamLandsOn, upstreamLandsOn, upstreamPort, boundPort, sameBound, sameUpstream, sameList locals,
          sameList selves]
  · simp [upstreamLandsOn, upstreamPort, boundPort, ports]

/-- Where the form does not matter, a target is missed only if it and the bind are unspecified. -/
theorem upstreamLandsOn_of_reaches
    (unspecified : upstream.ip.toCanonical.isUnspecified = true → bound.ip.toCanonical.isUnspecified = true →
      upstream.ip.toCanonical ∈ localIps.map IpAddr.toCanonical ∨ upstream.ip.toCanonical ∈ selfIps.map IpAddr.toCanonical)
    (reaches : Reaches upstream bound localIps selfIps) : upstreamLandsOn upstream bound localIps selfIps = true := by
  obtain ⟨ports, reaches⟩ := reaches
  have notBoth (ip : IpAddr) : ip.isUnspecified = true → ip.isLoopback = false := isLoopback_of_isUnspecified
  cases ipv4 : upstream.ip.toCanonical.isIpv4 with
  | true => grind [FormFree.ipv4]
  | false =>
    cases family : bound.ip.toCanonical.isIpv4 with
    | true => grind [upstreamLandsOn_of_families, FormFree.other]
    | false =>
      have boundPlain : Plain bound.ip := plain_of_ipv6 family
      have upstreamPlain : Plain upstream.ip := plain_of_ipv6 ipv4
      simp only [← mem_iff_of_ipv6 ipv4] at reaches unspecified
      rw [boundPlain, upstreamPlain] at reaches unspecified
      cases isUnspecified : bound.ip.isUnspecified with
      | true => grind [upstreamLandsOn]
      | false => grind [upstreamLandsOn]

end Forms

/-- The answer depends on no form and every target that reaches the listener is found, if and only if the ports differ,
or no form can matter and an unspecified target of an unspecified bind is in one of the lists. -/
theorem self_connect_check (upstream bound : SocketAddr) (localIps selfIps : List IpAddr) :
    (FormIndependent upstream bound localIps selfIps ∧
      (Reaches upstream bound localIps selfIps → upstreamLandsOn upstream bound localIps selfIps = true)) ↔
    upstream.port ≠ bound.port ∨
      FormFree upstream.ip.toCanonical bound.ip.toCanonical (localIps.map IpAddr.toCanonical)
        (selfIps.map IpAddr.toCanonical) ∧
      (upstream.ip.toCanonical.isUnspecified = true → bound.ip.toCanonical.isUnspecified = true →
        upstream.ip.toCanonical ∈ localIps.map IpAddr.toCanonical ∨
          upstream.ip.toCanonical ∈ selfIps.map IpAddr.toCanonical) := by
  constructor
  · rintro ⟨independent, found⟩
    by_cases ports : upstream.port = bound.port
    · have plain (ip : IpAddr) : Plain ip.toCanonical := toCanonical_toCanonical ip
      have plains (ips : List IpAddr) : ∀ ip ∈ ips.map IpAddr.toCanonical, Plain ip :=
        List.forall_mem_map.mpr fun ip _ => plain ip
      have form (ips : List IpAddr) : SameAddresses ips (ips.map IpAddr.toCanonical) := map_toCanonical (plains ips)
      have forms (ip : IpAddr) : ∀ ip' ∈ [ip.toCanonical, .v6 ip.toCanonical.toV6], ip'.toCanonical = ip.toCanonical := by
        simp [toCanonical_v6, toCanonical_toCanonical]
      have agree : ∀ upstream' ∈ [upstream.ip.toCanonical, .v6 upstream.ip.toCanonical.toV6],
          ∀ bound' ∈ [bound.ip.toCanonical, .v6 bound.ip.toCanonical.toV6],
          upstreamLandsOn ⟨upstream', bound.port⟩ ⟨bound', bound.port⟩ (localIps.map IpAddr.toCanonical)
            (selfIps.map IpAddr.toCanonical) = upstreamLandsOn upstream bound localIps selfIps :=
        fun upstream' isUpstream bound' isBound => independent _ _ _ _ ports.symm rfl (forms _ _ isUpstream)
          (forms _ _ isBound) (form localIps) (form selfIps)
      refine .inr ⟨formFree_of_agree (plain _) (plain _) (plains _) (plains _) agree, fun upstreamAny boundAny => ?_⟩
      have lands := found ⟨ports, .inr (.inl ⟨boundAny, .inr (.inl upstreamAny)⟩)⟩
      rw [← agree _ List.mem_cons_self _ List.mem_cons_self] at lands
      have notLoopback := isLoopback_of_isUnspecified upstreamAny
      simpa [upstreamLandsOn, boundAny, notLoopback] using lands
    · exact .inl ports
  · rintro (ports | ⟨free, unspecified⟩)
    · refine ⟨?_, fun reaches => absurd reaches.1 ports⟩
      intro upstream' bound' localIps' selfIps' upstreamPort boundPort _ _ _ _
      simp [upstreamLandsOn, upstreamPort, boundPort, ports]
    · exact ⟨formIndependent_of_formFree free, upstreamLandsOn_of_reaches free unspecified⟩

theorem self_connect_check_loopback :
    FormIndependent ⟨.v6 .localhost, 443⟩ ⟨.v6 .unspecified, 443⟩ [.v4 .localhost] [] ∧
      upstreamLandsOn ⟨.v6 .localhost, 443⟩ ⟨.v6 .unspecified, 443⟩ [.v4 .localhost] [] = true :=
  ⟨((self_connect_check _ _ _ _).mpr (.inr ⟨⟨fun ipv4 => absurd ipv4 (by decide), fun _ ipv4 => absurd ipv4 (by decide)⟩,
    fun unspecified => absurd unspecified (by decide)⟩)).1, rfl⟩

/-- The loopback address is found in its plain form and missed in its mapped form, and the
unspecified address, which is the bound one, is missed. -/
theorem mapped_loopback_missed :
    upstreamLandsOn ⟨.v4 Ipv4Addr.localhost, 443⟩ ⟨.v4 Ipv4Addr.unspecified, 443⟩ [] [] = true ∧
    upstreamLandsOn ⟨.v6 Ipv4Addr.localhost.toIpv6Mapped, 443⟩ ⟨.v4 Ipv4Addr.unspecified, 443⟩ [] [] = false ∧
    Reaches ⟨.v4 Ipv4Addr.unspecified, 443⟩ ⟨.v4 Ipv4Addr.unspecified, 443⟩ [] [] ∧
    upstreamLandsOn ⟨.v4 Ipv4Addr.unspecified, 443⟩ ⟨.v4 Ipv4Addr.unspecified, 443⟩ [] [] = false :=
  ⟨by decide, by decide, ⟨rfl, .inl rfl⟩, by decide⟩

end TlsProxy.Net
