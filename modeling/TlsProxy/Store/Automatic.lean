import TlsProxy.Store.Certificates

/-! `ensure_automatic_certificates` and `create_automatic_certificate_if_absent`
register hosts that terminate client TLS, on stores whose certificates are
listed under their one domain. -/
namespace TlsProxy.Certificates

open Config Checks Families

def terminates : TlsRouteAction → Bool
  | .terminate .. | .reverseProxy _ => true
  | .passthrough .. | .reject => false

def routeHosts (routes : List TlsHostRoute) : List Text :=
  (routes.filter fun route => terminates route.action).flatMap fun route => route.matcher.exact

/-- The exact hosts of the routes that terminate TLS, of disabled listeners too, in the order of their set. -/
def terminatingHosts (config : RuntimeConfig) : List Text :=
  (Std.ExtTreeSet.ofList (routeHosts config.defaultListener.ordinaryTraffic.routes ++
    config.additionalListeners.entries.flatMap fun entry =>
      match entry.2 with
      | .tls listener => routeHosts listener.routing.routes
      | _ => [])).toList

section Ensure

variable (providerId : Text) (clock : Text → OffsetDateTime)

def ensureHost (store : Store) (host : Text) : Except Text (Bool × Store) := do
  let domain ← normalizeDomain host
  match ← certificateForDomain store domain with
  | some _ => return (false, store)
  | none =>
    let batch ← saveManagedCertificateLocked store (automaticCertificate domain providerId) (clock domain)
    return (true, write store batch)

/-- The loop of `ensure_automatic_certificates`, for the store that it leaves if it succeeds. -/
def ensureHosts : Store → List Text → Except Text (Nat × Store)
  | store, [] => .ok (0, store)
  | store, host :: rest => do
    let (created, next) ← ensureHost providerId clock store host
    let (others, last) ← ensureHosts next rest
    return (created.toNat + others, last)

/-- The same loop with what a failure leaves: the records of the hosts before it stay written. -/
def registerHosts : Store → List Text → Except Text Nat × Store
  | store, [] => (.ok 0, store)
  | store, host :: rest =>
    match ensureHost providerId clock store host with
    | .error cause => (.error cause, store)
    | .ok (created, next) =>
      let others := registerHosts next rest
      (others.1.map (created.toNat + ·), others.2)

theorem ensureHosts_eq (store : Store) (hosts : List Text) :
    ensureHosts providerId clock store hosts =
      (registerHosts providerId clock store hosts).1.map
        fun created => (created, (registerHosts providerId clock store hosts).2) := by
  induction hosts generalizing store with
  | nil => rfl
  | cons host rest ih =>
    rw [ensureHosts, registerHosts]
    cases ensureHost providerId clock store host with
    | error cause => rfl
    | ok result =>
      obtain ⟨created, next⟩ := result
      change (ensureHosts providerId clock next rest >>= _) = _
      rw [ih]
      cases others : registerHosts providerId clock next rest with
      | mk answer last =>
        simp only [others]
        cases answer <;> rfl

end Ensure

def ensureAutomaticCertificates (store : Store) (config : RuntimeConfig) (clock : Text → OffsetDateTime) :
    Except Text (Nat × Store) :=
  if config.acme.enabled then do
    let providerId ← defaultProviderId store
    ensureHosts providerId clock store (terminatingHosts config)
  else .ok (0, store)

/-- Every row that can be read is a provider or a certificate of one domain, which is its ID, also when only after
normalization, and the index lists IDs under themselves. -/
structure Consistent (store : Store) : Prop where
  providers : ∀ (id : Text) (row : Json AcmeProvider), (store .providers)[id]? = some row →
    ∃ provider, row = .ok provider
  certificates : ∀ (id : Text) (row : Json ManagedCertificate), (store .certificates)[id]? = some row →
    ∃ certificate domain, row = .ok certificate ∧ certificate.domains = [domain] ∧
      (domain = id ∨ normalizeDomain domain = .ok id)
  index : ∀ domain id : Text, (store .domainIndex)[domain]? = some id → id = domain

def Listed (store : Store) (name : Text) : Prop :=
  (store .domainIndex)[name]? ≠ none ∧ (store .certificates)[name]? ≠ none

theorem Consistent.managedCertificate {store : Store} (consistent : Consistent store) (id : Text) :
    ∃ found, managedCertificate store id = .ok found ∧ (found = none ↔ (store .certificates)[id]? = none) ∧
      (normalizeDomain id = .ok id → ((found.map ManagedCertificate.domains).getD []).mapM normalizeDomain =
        .ok (found.map fun _ => id).toList) := by
  unfold Certificates.managedCertificate
  cases listed : (store .certificates)[id]? with
  | none => exact ⟨none, rfl, by simp, fun _ => rfl⟩
  | some row =>
    obtain ⟨certificate, domain, rfl, single, normal⟩ := consistent.certificates id row listed
    refine ⟨some certificate, rfl, by simp, fun fixed => ?_⟩
    rw [Option.map_some, Option.getD_some, single]
    refine mapM_eq_ok.mpr (.cons ?_ .nil)
    grind

theorem Consistent.certificateForDomain {store : Store} (consistent : Consistent store) {domain name : Text}
    (normal : normalizeDomain domain = .ok name) :
    ∃ found, certificateForDomain store domain = .ok found ∧ (found = none ↔ ¬ Listed store name) := by
  unfold Listed
  cases listed : (store .domainIndex)[name]? with
  | none => grind [certificateForDomain_of_unlisted]
  | some id =>
    cases consistent.index name id listed
    obtain ⟨found, read, none, -⟩ := consistent.managedCertificate name
    grind [certificateForDomain_of_listed]

theorem Consistent.defaultProviderId {store : Store} (consistent : Consistent store) :
    ∃ providerId, defaultProviderId store = .ok providerId := by
  have decodes : ∃ all, Certificates.providers store = .ok all := by
    refine mapM_isOk_iff.mpr ?_
    rintro ⟨id, row⟩ member
    exact consistent.providers id row (Std.ExtTreeMap.mem_toList_iff_getElem?_eq_some.mp member)
  obtain ⟨all, decodes⟩ := decodes
  exact ⟨_, bind_eq_ok.mpr ⟨all, decodes, rfl⟩⟩

theorem checkOwner_eq_ok {store : Store} {certificateId domain : Text} :
    checkOwner store certificateId domain = .ok () ↔
      ∀ owner, (store .domainIndex)[domain]? = some owner → owner = certificateId := by
  grind [checkOwner, require_eq_ok]

def Orderly : Write → Prop
  | .put .providers _ row => ∃ provider, row = .ok provider
  | .put .certificates id row => ∃ certificate domain, row = .ok certificate ∧
      certificate.domains = [domain] ∧ (domain = id ∨ normalizeDomain domain = .ok id)
  | .put .domainIndex domain id => id = domain
  | _ => True

theorem Consistent.write {store : Store} (consistent : Consistent store) {batch : List Write}
    (orderly : ∀ item ∈ batch, Orderly item) : Consistent (write store batch) := by
  refine ⟨?_, ?_, ?_⟩
  · intro id row found
    rcases mem_or_of_getElem?_write found with put | ⟨there, -⟩
    · exact orderly _ put
    · exact consistent.providers id row there
  · intro id row found
    rcases mem_or_of_getElem?_write found with put | ⟨there, -⟩
    · exact orderly _ put
    · exact consistent.certificates id row there
  · intro domain id found
    rcases mem_or_of_getElem?_write found with put | ⟨there, -⟩
    · exact orderly _ put
    · exact consistent.index domain id there

theorem saveBatch_orderly {certificate : ManagedCertificate} {existing : Option ManagedCertificate} {old : List Text}
    {now : OffsetDateTime} : ∀ item ∈ saveBatch certificate existing old [certificate.id] now, Orderly item := by
  intro item member
  simp only [saveBatch, List.map_cons, List.map_nil, List.append_assoc, List.mem_append, List.mem_map,
    List.mem_singleton] at member
  rcases member with ⟨name, -, rfl⟩ | rfl | rfl
  · trivial
  · rfl
  · exact ⟨_, certificate.id, rfl, rfl, .inl rfl⟩

theorem Consistent.listed_save {store : Store} (consistent : Consistent store) {certificate : ManagedCertificate}
    {now : OffsetDateTime} {batch : List Write}
    (saved : saveManagedCertificateLocked store certificate now = .ok batch)
    (fixed : normalizeDomain certificate.id = .ok certificate.id) (name : Text) :
    Listed (Families.write store batch) name ↔ name = certificate.id ∨ Listed store name := by
  obtain ⟨domain, existing, old, single, read, normal, plain, owned, released, rfl⟩ :=
    saveManagedCertificateLocked_eq_ok.mp saved
  obtain ⟨found, same, -, names⟩ := consistent.managedCertificate certificate.id
  cases read.symm.trans same
  cases released.symm.trans (names fixed)
  have kept : ((existing.map fun _ => certificate.id).toList.filter
      fun other => !([certificate.id].contains other)) = [] := by
    cases existing <;> simp
  rw [saveBatch, kept, List.map_nil, List.nil_append]
  unfold Listed
  change (((store .domainIndex).insert _ _)[name]? ≠ none ∧ ((store .certificates).insert _ _)[name]? ≠ none) ↔ _
  grind

/-- The host's normalized name is a fixed point, so that it can be the ID of a certificate. -/
def Names (host name : Text) : Prop := normalizeDomain host = .ok name ∧ normalizeDomain name = .ok name

/-- The host is listed under its name normalized again, or that is its name and no wildcard. -/
def HostPasses (listed : Text → Prop) (host : Text) : Prop :=
  ∃ name target, normalizeDomain host = .ok name ∧ normalizeDomain name = .ok target ∧
    (listed target ∨ target = name ∧ '*' ∉ name)

section Loop

variable {providerId : Text} {clock : Text → OffsetDateTime} {store : Store} {host : Text}

theorem Consistent.saveManagedCertificateLocked_isOk (consistent : Consistent store) (providerId : Text)
    (now : OffsetDateTime) {name target : Text} (normal : normalizeDomain name = .ok target) :
    (∃ batch, saveManagedCertificateLocked store (automaticCertificate name providerId) now = .ok batch) ↔
      target = name ∧ '*' ∉ name := by
  constructor
  · rintro ⟨batch, saved⟩
    obtain ⟨domain, existing, old, single, -, named, plain, -⟩ := saveManagedCertificateLocked_eq_ok.mp saved
    cases single
    cases normal.symm.trans named
    exact ⟨rfl, plain⟩
  · rintro ⟨rfl, plain⟩
    obtain ⟨found, read, -, names⟩ := consistent.managedCertificate target
    refine ⟨_, saveManagedCertificateLocked_eq_ok.mpr ⟨target, found, _, rfl, read, normal, plain, ?_, names normal, rfl⟩⟩
    refine checkOwner_eq_ok.mpr ?_
    grind [Consistent.index]

theorem Consistent.ensureHost_isOk (consistent : Consistent store) :
    (∃ result, ensureHost providerId clock store host = .ok result) ↔
      HostPasses (Listed store) host := by
  unfold ensureHost HostPasses
  constructor
  · rintro ⟨result, done⟩
    obtain ⟨name, first, done⟩ := bind_eq_ok.mp done
    obtain ⟨found, read, done⟩ := bind_eq_ok.mp done
    obtain ⟨target, second, -⟩ := bind_eq_ok.mp read
    refine ⟨name, target, first, second, ?_⟩
    obtain ⟨other, again, listed⟩ := consistent.certificateForDomain second
    cases read.symm.trans again
    cases found with
    | some certificate => grind
    | none =>
      obtain ⟨batch, saved, -⟩ := bind_eq_ok.mp done
      exact .inr ((consistent.saveManagedCertificateLocked_isOk _ _ second).mp ⟨batch, saved⟩)
  · rintro ⟨name, target, first, second, passes⟩
    obtain ⟨found, read, listed⟩ := consistent.certificateForDomain second
    cases found with
    | some certificate =>
      exact ⟨(false, store), bind_eq_ok.mpr ⟨name, first, bind_eq_ok.mpr ⟨some certificate, read, rfl⟩⟩⟩
    | none =>
      have plain := passes.resolve_left (listed.mp rfl)
      obtain ⟨batch, saved⟩ :=
        (consistent.saveManagedCertificateLocked_isOk providerId (clock name) second).mpr plain
      refine ⟨(true, Families.write store batch), bind_eq_ok.mpr ⟨name, first, bind_eq_ok.mpr ⟨none, read, ?_⟩⟩⟩
      exact bind_eq_ok.mpr ⟨batch, saved, rfl⟩

theorem Consistent.ensureHost (consistent : Consistent store) {result : Bool × Store}
    (done : ensureHost providerId clock store host = .ok result) :
    Consistent result.2 ∧ ∀ name, Listed result.2 name ↔ Listed store name ∨ Names host name := by
  obtain ⟨name, first, done⟩ := bind_eq_ok.mp done
  obtain ⟨found, read, done⟩ := bind_eq_ok.mp done
  obtain ⟨target, second, -⟩ := bind_eq_ok.mp read
  obtain ⟨other, again, listed⟩ := consistent.certificateForDomain second
  cases read.symm.trans again
  cases found with
  | some certificate =>
    cases done
    refine ⟨consistent, fun other => ⟨.inl, ?_⟩⟩
    rintro (there | ⟨named, fixed⟩)
    · exact there
    · grind
  | none =>
    obtain ⟨batch, saved, done⟩ := bind_eq_ok.mp done
    cases done
    obtain ⟨domain, existing, old, single, -, fixed, -, -, -, rfl⟩ := saveManagedCertificateLocked_eq_ok.mp saved
    cases single
    refine ⟨consistent.write saveBatch_orderly, fun other => ?_⟩
    rw [consistent.listed_save saved fixed, or_comm]
    refine or_congr_right ⟨?_, ?_⟩
    · rintro rfl
      exact ⟨first, fixed⟩
    · rintro ⟨named, -⟩
      cases first.symm.trans named
      rfl

end Loop

def HostsPass (store : Store) (hosts : List Text) : Prop :=
  ∀ before host after, hosts = before ++ host :: after →
    HostPasses (fun name => Listed store name ∨ ∃ earlier ∈ before, Names earlier name) host

theorem HostPasses.congr {listed other : Text → Prop} (same : ∀ name, listed name ↔ other name) {host : Text} :
    HostPasses listed host ↔ HostPasses other host := by
  unfold HostPasses
  simp only [same]

theorem hostsPass_cons {store next : Store} {host : Text} {rest : List Text}
    (first : HostPasses (Listed store) host)
    (lists : ∀ name, Listed next name ↔ Listed store name ∨ Names host name) :
    HostsPass store (host :: rest) ↔ HostsPass next rest := by
  have shift : ∀ (before : List Text) (name : Text),
      (Listed next name ∨ ∃ earlier ∈ before, Names earlier name) ↔
        (Listed store name ∨ ∃ earlier ∈ host :: before, Names earlier name) := by grind
  constructor
  · intro passes before other after split
    refine (HostPasses.congr (shift before)).mpr (passes (host :: before) other after ?_)
    rw [split, List.cons_append]
  · intro passes before other after split
    cases before with
    | nil => grind [HostPasses.congr]
    | cons earlier before =>
      cases split
      exact (HostPasses.congr (shift before)).mp (passes before other after rfl)

theorem Consistent.ensureHosts_isOk {providerId : Text} {clock : Text → OffsetDateTime} {store : Store}
    (consistent : Consistent store) {hosts : List Text} :
    (∃ result, ensureHosts providerId clock store hosts = .ok result) ↔ HostsPass store hosts := by
  induction hosts generalizing store with
  | nil =>
    refine ⟨fun _ before host after split => ?_, fun _ => ⟨_, rfl⟩⟩
    cases before <;> cases split
  | cons host rest ih =>
    constructor
    · rintro ⟨result, done⟩
      obtain ⟨⟨created, next⟩, one, done⟩ := bind_eq_ok.mp done
      obtain ⟨⟨others, last⟩, more, -⟩ := bind_eq_ok.mp done
      obtain ⟨kept, lists⟩ := consistent.ensureHost one
      exact (hostsPass_cons (consistent.ensureHost_isOk.mp ⟨_, one⟩) lists).mpr ((ih kept).mp ⟨_, more⟩)
    · intro passes
      have first : HostPasses (Listed store) host :=
        (HostPasses.congr fun name => by simp).mp (passes [] host rest rfl)
      obtain ⟨⟨created, next⟩, one⟩ := consistent.ensureHost_isOk.mpr first
      obtain ⟨kept, lists⟩ := consistent.ensureHost one
      obtain ⟨⟨others, last⟩, more⟩ := (ih kept).mpr ((hostsPass_cons first lists).mp passes)
      exact ⟨_, bind_eq_ok.mpr ⟨_, one, bind_eq_ok.mpr ⟨_, more, rfl⟩⟩⟩

theorem Consistent.ensureAutomaticCertificates_isOk {store : Store} (consistent : Consistent store)
    (config : RuntimeConfig) (clock : Text → OffsetDateTime) :
    (∃ result, ensureAutomaticCertificates store config clock = .ok result) ↔
      (config.acme.enabled = true → HostsPass store (terminatingHosts config)) := by
  unfold ensureAutomaticCertificates
  split
  · rename_i enabled
    obtain ⟨providerId, default⟩ := consistent.defaultProviderId
    simp only [enabled, forall_const, default]
    exact consistent.ensureHosts_isOk
  · grind

end TlsProxy.Certificates
