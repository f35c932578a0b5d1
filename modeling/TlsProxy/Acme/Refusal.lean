import TlsProxy.Acme.Registration
import TlsProxy.Acme.Alone

/-! `register_automatic` on its own, with nothing else running: the calls of the
store do what their sequential descriptions say, and the only write before the
record itself is that of the DNS diagnostics. -/
namespace TlsProxy.Acme

open Config Checks Certificates Programs

variable {w : World} {domain : Text}

theorem dnsCheckAllows_alone (registrar : Registrar) (script domain : Text) (failureTtl : Nat) (w : World) :
    ∃ allowed rejections, Task.alone (dnsCheckAllows registrar script domain failureTtl) w =
      some (.ok allowed, { w with rejections }) := by
  have recalled : Task.alone (ask (.recallRejection (script, domain) registrar.askedAt failureTtl) fun w =>
        .ok (w.rejections.recall (script, domain) registrar.askedAt failureTtl).1) w =
      some (.ok (w.rejections.recall (script, domain) registrar.askedAt failureTtl).1,
        { w with rejections := (w.rejections.recall (script, domain) registrar.askedAt failureTtl).2 }) := rfl
  unfold dnsCheckAllows
  dsimp only
  rw [alone_bind_ok recalled]
  split
  · exact ⟨false, _, rfl⟩
  · cases registrar.runDnsCheckScript script domain with
    | true => exact ⟨true, _, rfl⟩
    | false => exact ⟨false, _, rfl⟩

/-- Asking the script changes neither the store nor the configuration, and without a script nothing happens. -/
theorem dnsCheckPermitsNewIssuance_alone (registrar : Registrar) (domain : Text) (w : World) :
    ∃ result rejections, Task.alone (dnsCheckPermitsNewIssuance registrar domain) w =
        some (result, { w with rejections }) ∧
      ((dnsCheckScript w.live).isEmpty = true → result = .ok () ∧ rejections = w.rejections) := by
  have loaded : Task.alone (ask (.load .permitsNewIssuance) fun w => .ok w.live) w = some (.ok w.live, w) := rfl
  unfold dnsCheckPermitsNewIssuance
  rw [alone_bind_ok loaded]
  dsimp only
  split
  · exact ⟨.ok (), w.rejections, rfl, fun _ => ⟨rfl, rfl⟩⟩
  · rename_i scripted
    split
    · exact ⟨.ok (), w.rejections, rfl, fun blank => absurd blank scripted⟩
    · obtain ⟨allowed, rejections, asked⟩ := dnsCheckAllows_alone registrar (dnsCheckScript w.live) domain
        w.live.acme.cacheFailureTimeSecs.toNat w
      rw [alone_bind_ok asked]
      exact ⟨_, rejections, rfl, fun blank => absurd blank scripted⟩

def checkedRows (resolving : Resolving) (control : ControlPlaneConfig) (domain name : Text) (selfIps : List IpAddr) :
    List DnsDiagnostic :=
  (lookupAll resolving control.publicResolvers name).map (ResolverResult.diagnostic resolving domain name selfIps)

def withRows (store : Certificates.Store) (domain : Text) (rows : List DnsDiagnostic) : Certificates.Store :=
  Families.write store (diagnosticsBatch domain (diagnosticKeys store domain) rows)

theorem withRows_of_ne {store : Certificates.Store} {rows : List DnsDiagnostic} {family : ColumnFamily}
    (other : family ≠ .dnsDiagnostics) : withRows store domain rows family = store family := by
  apply Families.write_of_untouched
  intro item member
  rcases List.mem_append.mp member with deleted | added
  · obtain ⟨key, -, rfl⟩ := List.mem_map.mp deleted
    exact Families.Write.on_delete_of_ne other.symm key
  · obtain ⟨value, -, rfl⟩ := List.mem_map.mp added
    exact Families.Write.on_put_of_ne other.symm _ _

/-- Under the domain the store has these diagnostics and no others; of two with one key the later counts. -/
def Recorded (store : Certificates.Store) (domain : Text) (rows : List DnsDiagnostic) : Prop :=
  ∀ key, (domain ++ ['\x00']) <+: key →
    (store .dnsDiagnostics)[key]? = (rows.reverse.find? fun row => diagnosticKey domain row = key).map .ok

theorem getElem?_withRows (store : Certificates.Store) (domain : Text) (rows : List DnsDiagnostic) (key : Text) :
    (withRows store domain rows .dnsDiagnostics)[key]? =
      ((rows.reverse.find? fun row => diagnosticKey domain row = key).map (some ∘ Except.ok)).getD
        (if (domain ++ ['\x00']) <+: key then none else (store .dnsDiagnostics)[key]?) := by
  have changes : (diagnosticsBatch domain (diagnosticKeys store domain) rows).filterMap
      (Families.Write.on .dnsDiagnostics) = (diagnosticKeys store domain).map (fun old => (old, none)) ++
        rows.map fun row => (diagnosticKey domain row, some (.ok row)) := by simp [diagnosticsBatch]
  rw [withRows, Families.write, changes, Families.getElem?_assignAll, List.reverse_append, List.find?_append,
    ← List.map_reverse, ← List.map_reverse, List.find?_map, List.find?_map]
  simp only [Function.comp_def]
  cases rows.reverse.find? fun row => diagnosticKey domain row = key with
  | some row => rfl
  | none =>
    simp only [Option.map_none, Option.none_or, Option.getD_none]
    cases deleted : (diagnosticKeys store domain).reverse.find? fun old => old = key with
    | some old =>
      have same : old = key := by simpa using List.find?_some deleted
      have listed := mem_keys_withPrefix.mp (List.mem_reverse.mp (List.mem_of_find?_eq_some deleted))
      grind
    | none =>
      split
      · rename_i under
        by_contra there
        have listed := List.mem_reverse.mpr (mem_keys_withPrefix.mpr ⟨there, under⟩)
        simpa using List.find?_eq_none.mp deleted key listed
      · rfl

theorem withRows_eq_iff {store : Certificates.Store} {rows : List DnsDiagnostic} :
    withRows store domain rows = store ↔ Recorded store domain rows := by
  constructor
  · intro same key under
    have found := getElem?_withRows store domain rows key
    rw [same, if_pos under] at found
    cases last : rows.reverse.find? fun row => diagnosticKey domain row = key <;> simpa [last] using found
  · intro recorded
    funext family
    by_cases other : family = .dnsDiagnostics
    · subst other
      apply Std.ExtTreeMap.ext_getElem?
      intro key
      rw [getElem?_withRows]
      by_cases under : (domain ++ ['\x00']) <+: key
      · rw [recorded key under]
        cases last : rows.reverse.find? fun row => diagnosticKey domain row = key <;> simp [under]
      · grind [prefix_diagnosticKey]
    · exact withRows_of_ne other

theorem saveDnsDiagnostics_alone (domain : Text) (rows : List DnsDiagnostic) (w : World) :
    Task.alone (saveDnsDiagnostics domain rows) w = some (.ok (), { w with store := withRows w.store domain rows }) :=
  rfl

theorem verify_alone {resolving : Resolving} {control : ControlPlaneConfig} {name : Text} {selfIps : List IpAddr}
    (normal : normalizeDomain domain = .ok name) (expected : expectedIps resolving control = .ok selfIps) (w : World) :
    Task.alone (verify resolving domain [domain] control) w =
      some (evaluateDomain resolving name selfIps (lookupAll resolving control.publicResolvers name)
          control.requireAllResolvers,
        { w with store := withRows w.store domain (checkedRows resolving control domain name selfIps) }) := by
  have saved := saveDnsDiagnostics_alone domain (checkedRows resolving control domain name selfIps) w
  rw [verify, expected]
  refine (alone_bind_ok (a := selfIps) rfl).trans ?_
  rw [verifyDomains, normal]
  cases evaluation : evaluateDomain resolving name selfIps (lookupAll resolving control.publicResolvers name)
    control.requireAllResolvers with
  | error cause =>
    refine alone_bind_error ((alone_bind_ok (a := name) rfl).trans ?_)
    simp only [evaluation]
    exact (alone_bind_ok saved).trans rfl
  | ok passed =>
    refine (alone_bind_ok (a := ()) ((alone_bind_ok (a := name) rfl).trans ?_)).trans rfl
    simp only [evaluation]
    exact saved

theorem verify_alone_error {resolving : Resolving} {control : ControlPlaneConfig} {cause : Text}
    (unexpected : expectedIps resolving control = .error cause) (domains : List Text) (w : World) :
    Task.alone (verify resolving domain domains control) w = some (.error cause, w) := by
  rw [verify, unexpected]
  rfl

/-- What keeps a registration that creates nothing from leaving diagnostics: there is a certificate or the lookup
fails, a script decides, the check cannot be made, the record is created after all, or the diagnostics are already
stored, down to the time of the check. -/
def Traceless (registrar : Registrar) (domain : Text) (w : World) : Prop :=
  Certificates.certificateForDomain w.store domain ≠ .ok none ∨ (dnsCheckScript w.live).isEmpty = false ∨
    (∃ cause, expectedIps registrar.resolving w.live.controlPlane = .error cause) ∨
    ∃ name selfIps, normalizeDomain domain = .ok name ∧
      expectedIps registrar.resolving w.live.controlPlane = .ok selfIps ∧
      (evaluateDomain registrar.resolving name selfIps
          (lookupAll registrar.resolving w.live.controlPlane.publicResolvers name)
          w.live.controlPlane.requireAllResolvers = .ok () ∧ Creatable w.store name registrar.now ∨
        Recorded w.store domain (checkedRows registrar.resolving w.live.controlPlane domain name selfIps))

/-- Only diagnostics are written, so a record can be created before iff it can be afterwards. -/
theorem creatable_withRows {store : Certificates.Store} {rows : List DnsDiagnostic} {name : Text}
    {now : OffsetDateTime} : Creatable (withRows store domain rows) name now ↔ Creatable store name now := by
  have certificates : withRows store domain rows .certificates = store .certificates := withRows_of_ne (by decide)
  have index : withRows store domain rows .domainIndex = store .domainIndex := withRows_of_ne (by decide)
  have providers : withRows store domain rows .providers = store .providers := withRows_of_ne (by decide)
  have owners : ∀ id, checkOwner (withRows store domain rows) id = checkOwner store id := by grind [checkOwner]
  simp only [Creatable, Certificates.certificateForDomain, managedCertificate, defaultProviderId,
    Certificates.providers, Certificates.saveManagedCertificateLocked, certificates, index, providers, owners]

theorem dnsPrerequisitePermits_alone_scripted {registrar : Registrar}
    (scripted : (dnsCheckScript w.live).isEmpty = false) :
    Task.alone (dnsPrerequisitePermits registrar domain) w = some (.ok (), w) := by
  have asked : Task.alone scriptGatesRegistration w = some (.ok true, w) := by
    change some (Except.ok (!(dnsCheckScript w.live).isEmpty), w) = _
    rw [scripted]
    rfl
  exact (alone_bind_ok asked).trans rfl

theorem dnsPrerequisitePermits_alone {registrar : Registrar} (blank : (dnsCheckScript w.live).isEmpty = true) :
    Task.alone (dnsPrerequisitePermits registrar domain) w =
      Task.alone (verify registrar.resolving domain [domain] w.live.controlPlane) w := by
  have asked : Task.alone scriptGatesRegistration w = some (.ok false, w) := by
    change some (Except.ok (!(dnsCheckScript w.live).isEmpty), w) = _
    rw [blank]
    rfl
  refine (alone_bind_ok asked).trans ?_
  exact alone_bind_ok (a := w.live.controlPlane) rfl

/-- Where the DNS check is made, it passes and the record can be created, or its diagnostics are stored already. -/
theorem traceless_iff {registrar : Registrar} {name : Text} {selfIps : List IpAddr}
    (found : Certificates.certificateForDomain w.store domain = .ok none)
    (blank : (dnsCheckScript w.live).isEmpty = true) (normal : normalizeDomain domain = .ok name)
    (expected : expectedIps registrar.resolving w.live.controlPlane = .ok selfIps) :
    Traceless registrar domain w ↔
      evaluateDomain registrar.resolving name selfIps
          (lookupAll registrar.resolving w.live.controlPlane.publicResolvers name)
          w.live.controlPlane.requireAllResolvers = .ok () ∧ Creatable w.store name registrar.now ∨
        Recorded w.store domain (checkedRows registrar.resolving w.live.controlPlane domain name selfIps) := by
  constructor
  · rintro (other | scripted | ⟨cause, unexpected⟩ | ⟨otherName, otherIps, again, same, either⟩)
    · exact absurd found other
    · cases blank.symm.trans scripted
    · cases expected.symm.trans unexpected
    · grind
  · intro either
    exact .inr (.inr (.inr ⟨name, selfIps, normal, expected, either⟩))

section Paths

variable {registrar : Registrar}

theorem registerAutomatic_found (registrar : Registrar)
    (known : Certificates.certificateForDomain w.store domain ≠ .ok none) :
    ∃ result, Task.alone (registerAutomatic registrar domain) w = some (result, w) := by
  have looked := certificateForDomain_alone domain w
  cases found : Certificates.certificateForDomain w.store domain with
  | error cause =>
    rw [found] at looked
    exact ⟨_, alone_bind_error looked⟩
  | ok certificate =>
    cases certificate with
    | none => exact absurd found known
    | some certificate =>
      rw [found] at looked
      exact ⟨_, alone_bind_ok looked⟩

theorem registerAutomatic_scripted (registrar : Registrar)
    (found : Certificates.certificateForDomain w.store domain = .ok none)
    (scripted : (dnsCheckScript w.live).isEmpty = false) (free : w.gate = false) :
    ∃ result next, Task.alone (registerAutomatic registrar domain) w = some (result, next) ∧
      (result ≠ .ok true → next.store = w.store) := by
  have looked := certificateForDomain_alone domain w
  rw [found] at looked
  obtain ⟨name, normal, -⟩ := bind_eq_ok.mp found
  obtain ⟨permitted, rejections, permits, -⟩ := dnsCheckPermitsNewIssuance_alone registrar domain w
  cases permitted with
  | error cause => exact ⟨_, _, (alone_bind_ok looked).trans (alone_bind_error permits), fun _ => rfl⟩
  | ok done =>
    have stands : Task.alone (dnsPrerequisitePermits registrar domain) { w with rejections } =
        some (.ok (), { w with rejections }) := dnsPrerequisitePermits_alone_scripted scripted
    obtain ⟨result, next, made, -, unchanged⟩ :=
      createAutomaticCertificateIfAbsent_alone (w := { w with rejections }) normal registrar.now free
    refine ⟨result, next, ?_, unchanged⟩
    exact (alone_bind_ok looked).trans ((alone_bind_ok permits).trans ((alone_bind_ok stands).trans made))

theorem registerAutomatic_unscripted (found : Certificates.certificateForDomain w.store domain = .ok none)
    (blank : (dnsCheckScript w.live).isEmpty = true) {result : Except Text Unit} {next : World}
    (checked : Task.alone (verify registrar.resolving domain [domain] w.live.controlPlane) w = some (result, next)) :
    Task.alone (registerAutomatic registrar domain) w =
      Task.alone (ofExcept result >>= fun _ => createAutomaticCertificateIfAbsent domain registrar.now) next := by
  have looked := certificateForDomain_alone domain w
  rw [found] at looked
  obtain ⟨permitted, rejections, permits, quiet⟩ := dnsCheckPermitsNewIssuance_alone registrar domain w
  obtain ⟨rfl, rfl⟩ := quiet blank
  refine (alone_bind_ok looked).trans ((alone_bind_ok permits).trans ?_)
  have verified := (dnsPrerequisitePermits_alone blank).trans checked
  cases result with
  | error cause => exact alone_bind_error verified
  | ok done => exact alone_bind_ok verified

/-- Where the DNS check is made, its diagnostics stay unless a record is created. -/
theorem registerAutomatic_checked (found : Certificates.certificateForDomain w.store domain = .ok none)
    (blank : (dnsCheckScript w.live).isEmpty = true) (free : w.gate = false) {name : Text} {selfIps : List IpAddr}
    (normal : normalizeDomain domain = .ok name)
    (expected : expectedIps registrar.resolving w.live.controlPlane = .ok selfIps) :
    ∃ result next, Task.alone (registerAutomatic registrar domain) w = some (result, next) ∧
      (result = .ok true ↔ evaluateDomain registrar.resolving name selfIps
          (lookupAll registrar.resolving w.live.controlPlane.publicResolvers name)
          w.live.controlPlane.requireAllResolvers = .ok () ∧ Creatable w.store name registrar.now) ∧
      (result ≠ .ok true → next.store =
        withRows w.store domain (checkedRows registrar.resolving w.live.controlPlane domain name selfIps)) := by
  rw [registerAutomatic_unscripted found blank (verify_alone normal expected w)]
  cases evaluation : evaluateDomain registrar.resolving name selfIps
    (lookupAll registrar.resolving w.live.controlPlane.publicResolvers name)
    w.live.controlPlane.requireAllResolvers with
  | error cause => exact ⟨_, _, rfl, by simp, fun _ => rfl⟩
  | ok done =>
    let rows := checkedRows registrar.resolving w.live.controlPlane domain name selfIps
    obtain ⟨result, next, made, created, unchanged⟩ := createAutomaticCertificateIfAbsent_alone
      (w := { w with store := withRows w.store domain rows }) normal registrar.now free
    refine ⟨result, next, (alone_bind_ok (a := ()) rfl).trans made, ?_, unchanged⟩
    rw [created, creatable_withRows]
    simp

end Paths

/-- A registration that creates nothing leaves the store as it was exactly when it is traceless. -/
theorem refusal_unchanged_iff (registrar : Registrar) (domain : Text) {w : World} (free : w.gate = false) :
    ∃ result next, Task.alone (registerAutomatic registrar domain) w = some (result, next) ∧
      ((result ≠ .ok true → next.store = w.store) ↔ Traceless registrar domain w) := by
  by_cases known : Certificates.certificateForDomain w.store domain ≠ .ok none
  · obtain ⟨result, done⟩ := registerAutomatic_found registrar known
    exact ⟨result, w, done, fun _ => .inl known, fun _ _ => rfl⟩
  have found := not_not.mp known
  obtain ⟨name, normal, -⟩ := bind_eq_ok.mp found
  cases blank : (dnsCheckScript w.live).isEmpty with
  | false =>
    obtain ⟨result, next, done, unchanged⟩ := registerAutomatic_scripted registrar found blank free
    exact ⟨result, next, done, fun _ => .inr (.inl blank), fun _ => unchanged⟩
  | true =>
    cases expected : expectedIps registrar.resolving w.live.controlPlane with
    | error cause =>
      refine ⟨.error cause, w, ?_, fun _ => .inr (.inr (.inl ⟨cause, expected⟩)), fun _ _ => rfl⟩
      exact registerAutomatic_unscripted found blank (verify_alone_error expected _ w)
    | ok selfIps =>
      obtain ⟨result, next, done, created, kept⟩ := registerAutomatic_checked found blank free normal expected
      refine ⟨result, next, done, ?_⟩
      rw [traceless_iff found blank normal expected, ← created, ← withRows_eq_iff]
      grind

section Example

/-- Two names that DNS points elsewhere are refused, and each leaves a row. -/
theorem refused_names_grow_store :
    ∃ first second : Text, ∃ next last : World,
      Task.alone (registerAutomatic (strictRegistrar elsewhere) pooledName) { live := suffixSite [] } =
        some (.error first, next) ∧
      Task.alone (registerAutomatic (strictRegistrar elsewhere) "y.pool.example".toList) next =
        some (.error second, last) ∧
      (last.store .certificates).size = 0 ∧ (next.store .dnsDiagnostics).size = 1 ∧
      (last.store .dnsDiagnostics).size = 2 := by
  have summary : ((Task.alone (registerAutomatic (strictRegistrar elsewhere) pooledName)
      { live := suffixSite [] }).bind fun first =>
        (Task.alone (registerAutomatic (strictRegistrar elsewhere) "y.pool.example".toList) first.2).map fun second =>
          (first.1.isOk, second.1.isOk, (second.2.store .certificates).size, (first.2.store .dnsDiagnostics).size,
            (second.2.store .dnsDiagnostics).size)) = some (false, false, 0, 1, 2) := by
    decide +kernel
  obtain ⟨⟨first, next⟩, refused, rest⟩ := Option.bind_eq_some_iff.mp summary
  obtain ⟨⟨second, last⟩, again, sizes⟩ := Option.map_eq_some_iff.mp rest
  cases first with
  | ok created => simp [Except.isOk, Except.toBool] at sizes
  | error cause =>
    cases second with
    | ok created => simp [Except.isOk, Except.toBool] at sizes
    | error other =>
      simp only [Prod.mk.injEq] at sizes
      exact ⟨cause, other, next, last, refused, again, sizes.2.2⟩

/-- A script that rejects the name, and no DNS check. -/
theorem refusal_unchanged_iff_scripted :
    ∃ result next, Task.alone (registerAutomatic (strictRegistrar elsewhere) pooledName)
        { live := suffixSite "/etc/check".toList } = some (result, next) ∧
      ((result ≠ .ok true → next.store = Certificates.Store.empty) ↔
        Traceless (strictRegistrar elsewhere) pooledName { live := suffixSite "/etc/check".toList }) ∧
      Traceless (strictRegistrar elsewhere) pooledName { live := suffixSite "/etc/check".toList } := by
  have traceless : Traceless (strictRegistrar elsewhere) pooledName { live := suffixSite "/etc/check".toList } :=
    .inr (.inl (by decide))
  obtain ⟨result, next, done, unchanged⟩ := refusal_unchanged_iff (strictRegistrar elsewhere) pooledName
    (w := { live := suffixSite "/etc/check".toList }) rfl
  grind

end Example

end TlsProxy.Acme
