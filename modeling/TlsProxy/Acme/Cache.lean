import TlsProxy.Acme.Tasks

/-! `managed_tls.rs`: the cache is replaced as a whole by what the store holds.
An activation writes the new generation, loads the cache anew and puts it in
place; the three are separate steps. -/
namespace TlsProxy.Acme

open Config Checks Certificates Programs

structure Leaf where
  key : Text
  notAfter : OffsetDateTime
  /-- The DNS names of the subject alternative name, if there is one. -/
  subjectAltName : Option (List Text)

structure Tls where
  parse : CertificateGeneration → Except Text Leaf
  now : OffsetDateTime

def insertAll (cached : CachedCertificate) (domains : List Text) (entries : Cache) : Except Text Cache :=
  domains.foldlM (fun entries domain => do
    let domain ← normalizeDomain domain
    return entries.insert domain cached) entries

def Cache.resolve (entries : Cache) (sni : Text) : Option CachedCertificate :=
  (normalizeDomain sni).toOption.bind fun domain => entries[domain]?

section

variable (tls : Tls)

def prepareEntry (managed : ManagedCertificate) (generation : CertificateGeneration) :
    Except Text CachedCertificate := do
  require (generation.certificateId = managed.id) "generation belongs to a different managed certificate".toList
  let leaf ← tls.parse generation
  require (tls.now < leaf.notAfter) "managed certificate generation is expired".toList
  match leaf.subjectAltName with
  | none => throw "managed certificate leaf has no subjectAltName".toList
  | some names =>
    let sans := names.filterMap fun name => (normalizeDomain name).toOption
    managed.domains.forM fun domain => do
      let domain ← normalizeDomain domain
      require (sans.contains domain = true) ("issued certificate does not cover managed domain ".toList ++ quoted domain)
    return { certificateId := managed.id, generationId := generation.id, key := leaf.key }

def validateGeneration (managed : ManagedCertificate) (generation : CertificateGeneration) : Except Text Unit := do
  let _ ← prepareEntry tls managed generation

/-- The entries of one certificate; one that is disabled, not issued or not usable has none. -/
def loadEntry (store : Certificates.Store) (entries : Cache) (managed : ManagedCertificate) : Except Text Cache :=
  if managed.enabled then do
    match ← Certificates.activeGeneration store managed.id with
    | none => return entries
    | some generation =>
      match prepareEntry tls managed generation with
      | .error _ => return entries
      | .ok cached => insertAll cached managed.domains entries
  else .ok entries

def loadEntries (store : Certificates.Store) : Except Text Cache := do
  let certificates ← managedCertificates store
  certificates.foldlM (loadEntry tls store) ∅

def reload : Task Nat := do
  let entries ← query (loadEntries tls)
  ask (.swap entries) fun _ => .ok ()
  return entries.size

def activateAndReload (generation : CertificateGeneration) (renewal : RenewalState) : Task Nat := do
  activateGeneration generation renewal
  reload tls

end

section Loads

variable {tls : Tls} {managed : ManagedCertificate} {generation : CertificateGeneration} {cached : CachedCertificate}
  {name : Text}

def CachedCertificate.identity (cached : CachedCertificate) : Text × Text := (cached.certificateId, cached.generationId)

theorem identity_prepareEntry (prepared : prepareEntry tls managed generation = .ok cached) :
    cached.identity = (managed.id, generation.id) := by
  obtain ⟨-, -, prepared⟩ := bind_eq_ok.mp prepared
  obtain ⟨leaf, -, prepared⟩ := bind_eq_ok.mp prepared
  obtain ⟨-, -, prepared⟩ := bind_eq_ok.mp prepared
  split at prepared
  · cases prepared
  · obtain ⟨-, -, prepared⟩ := bind_eq_ok.mp prepared
    cases prepared
    rfl

theorem insertAll_cons {domain : Text} {rest : List Text} {entries next : Cache}
    (done : insertAll cached (domain :: rest) entries = .ok next) :
    ∃ other, normalizeDomain domain = .ok other ∧ insertAll cached rest (entries.insert other cached) = .ok next := by
  obtain ⟨inserted, first, done⟩ := bind_eq_ok.mp done
  obtain ⟨other, normal, first⟩ := bind_eq_ok.mp first
  cases first
  exact ⟨other, normal, done⟩

theorem getElem?_insertAll_of_named {domains : List Text} {entries next : Cache}
    (done : insertAll cached domains entries = .ok next)
    (named : entries[name]? = some cached ∨ ∃ domain ∈ domains, normalizeDomain domain = .ok name) :
    next[name]? = some cached := by
  induction domains generalizing entries with
  | nil =>
    cases done
    exact named.resolve_right (by simp)
  | cons domain rest ih =>
    obtain ⟨other, normal, done⟩ := insertAll_cons done
    apply ih done
    rw [Families.getElem?_insert]
    by_cases equal : other = name
    · exact .inl (if_pos equal)
    · rw [if_neg equal]
      grind

theorem getElem?_insertAll_of_unnamed {domains : List Text} {entries next : Cache}
    (done : insertAll cached domains entries = .ok next)
    (unnamed : ∀ domain ∈ domains, normalizeDomain domain ≠ .ok name) : next[name]? = entries[name]? := by
  induction domains generalizing entries with
  | nil =>
    cases done
    rfl
  | cons domain rest ih => grind [insertAll_cons]

variable {store : Certificates.Store} {entries next : Cache}

theorem getElem?_loadEntry_of_other (done : loadEntry tls store entries managed = .ok next)
    (other : managed.enabled = true → ¬ Covers managed name) : next[name]? = entries[name]? := by
  unfold loadEntry at done
  split at done
  · rename_i enabled
    obtain ⟨active, -, done⟩ := bind_eq_ok.mp done
    split at done
    · cases done
      rfl
    · split at done
      · cases done
        rfl
      · exact getElem?_insertAll_of_unnamed done fun domain member named => other enabled ⟨domain, member, named⟩
  · cases done
    rfl

theorem getElem?_loadEntry (done : loadEntry tls store entries managed = .ok next) (enabled : managed.enabled = true)
    (active : Certificates.activeGeneration store managed.id = .ok (some generation))
    (prepared : prepareEntry tls managed generation = .ok cached) (covers : Covers managed name) :
    next[name]? = some cached := by
  unfold loadEntry at done
  rw [if_pos enabled, active] at done
  change (match prepareEntry tls managed generation with
    | .error _ => Except.ok entries
    | .ok cached => insertAll cached managed.domains entries) = .ok next at done
  rw [prepared] at done
  exact getElem?_insertAll_of_named done (.inr covers)

/-- The certificate is enabled, and no other enabled certificate covers the name. -/
structure Serves (store : Certificates.Store) (managed : ManagedCertificate) (name : Text) : Prop where
  listed : (store .certificates)[managed.id]? = some (.ok managed)
  enabled : managed.enabled = true
  covers : Covers managed name
  alone : ∀ (id : Text) (other : ManagedCertificate), (store .certificates)[id]? = some (.ok other) →
    other.enabled = true → Covers other name → other = managed

theorem getElem?_foldlM_loadEntry {certificates : List ManagedCertificate}
    (done : certificates.foldlM (loadEntry tls store) entries = .ok next) (enabled : managed.enabled = true)
    (active : Certificates.activeGeneration store managed.id = .ok (some generation))
    (prepared : prepareEntry tls managed generation = .ok cached) (covers : Covers managed name)
    (alone : ∀ other ∈ certificates, other.enabled = true → Covers other name → other = managed)
    (listed : entries[name]? = some cached ∨ managed ∈ certificates) : next[name]? = some cached := by
  induction certificates generalizing entries with
  | nil =>
    cases done
    exact listed.resolve_right List.not_mem_nil
  | cons first rest ih =>
    obtain ⟨between, step, done⟩ := bind_eq_ok.mp done
    apply ih done (fun other later => alone other (List.mem_cons_of_mem _ later))
    by_cases own : first = managed
    · grind [getElem?_loadEntry]
    · rw [getElem?_loadEntry_of_other step fun on covered => own (alone first List.mem_cons_self on covered)]
      grind

theorem getElem?_loadEntries (loaded : loadEntries tls store = .ok entries) (serves : Serves store managed name)
    (active : Certificates.activeGeneration store managed.id = .ok (some generation))
    (prepared : prepareEntry tls managed generation = .ok cached) : entries[name]? = some cached := by
  obtain ⟨certificates, read, loaded⟩ := bind_eq_ok.mp loaded
  apply getElem?_foldlM_loadEntry loaded serves.enabled active prepared serves.covers
  · intro other member
    obtain ⟨id, found⟩ := (mem_managedCertificates store read).mp member
    exact serves.alone id other found
  · exact .inr ((mem_managedCertificates store read).mpr ⟨managed.id, serves.listed⟩)

end Loads

end TlsProxy.Acme
