import TlsProxy.Lib.Checks
import TlsProxy.Lib.Families
import TlsProxy.Config.Names

/-! The column families of `store/acme.rs` that hold ACME providers, managed
certificates and what belongs to them. A function that writes is the batch it
hands to RocksDB, computed from the rows it reads before. -/
namespace TlsProxy.Certificates

open Config Checks

structure AcmeProvider where
  id : Text := []
  name : Text := []
  directoryUrl : Text := []
  contacts : List Text := []
  eabKeyId : Option Text := none
  eabHmacKey : Option Text := none
  staging : Bool := false
  isDefault : Bool := false
  directoryCaPem : Option Text := none
deriving DecidableEq

structure PublishPolicy where
  enabled : Bool := false
  allowPrivateKey : Bool := false
deriving DecidableEq

abbrev OffsetDateTime := Int

structure ManagedCertificate where
  id : Text := []
  domains : List Text := []
  providerId : Text := []
  enabled : Bool := true
  automatic : Bool := false
  publish : PublishPolicy := {}
  createdAt : Option OffsetDateTime := none
  updatedAt : Option OffsetDateTime := none
deriving DecidableEq

structure CertificateGeneration where
  id : Text := []
  certificateId : Text := []
  certificatePem : Text := []
  chainPem : Text := []
  privateKeyPem : Text := []
  fingerprintSha256 : Text := []
  notBefore : Option OffsetDateTime := none
  notAfter : Option OffsetDateTime := none
  issuedAt : Option OffsetDateTime := none
deriving DecidableEq

structure RenewalState where
  certificateId : Text := []
  lastAttempt : Option OffsetDateTime := none
  lastSuccess : Option OffsetDateTime := none
  nextAttempt : Option OffsetDateTime := none
  caRetryAfter : Option OffsetDateTime := none
  consecutiveFailures : UInt32 := 0
  lastError : Option Text := none
  ariSuggestedAt : Option OffsetDateTime := none
  ariExplanationUrl : Option Text := none
  ariCheckedAt : Option OffsetDateTime := none
  ariNextCheck : Option OffsetDateTime := none
deriving DecidableEq

structure DnsDiagnostic where
  certificateId : Text := []
  domain : Text := []
  resolver : Text := []
  addresses : Std.ExtTreeSet Text := ∅
  passed : Bool := false
  error : Option Text := none
  checkedAt : Option OffsetDateTime := none
deriving DecidableEq

structure RetrievalToken where
  id : Text := []
  tokenHash : Text := []
  /-- The certificates it is limited to; none means every published one. -/
  certificateIds : Std.ExtTreeSet Text := ∅
  allowPrivateKey : Bool := false
  expiresAt : Option OffsetDateTime := none
  disabled : Bool := false
deriving DecidableEq

inductive ColumnFamily
  | providers
  | certificates
  | domainIndex
  | generations
  | activeGenerations
  | renewals
  | tokens
  | dnsDiagnostics
deriving DecidableEq

def Covers (certificate : ManagedCertificate) (name : Text) : Prop :=
  ∃ domain ∈ certificate.domains, normalizeDomain domain = .ok name

/-- A row as its reader sees it: a value, or the error of the decoder. -/
abbrev Json (α : Type) := Except Text α

@[reducible] def ColumnFamily.Row : ColumnFamily → Type
  | .providers => Json AcmeProvider
  | .certificates => Json ManagedCertificate
  | .domainIndex => Text
  | .generations => Json CertificateGeneration
  | .activeGenerations => Text
  | .renewals => Json RenewalState
  | .tokens => Json RetrievalToken
  | .dnsDiagnostics => Json DnsDiagnostic

abbrev Store := Families.Database Text ColumnFamily.Row

abbrev Write := Families.Write Text ColumnFamily.Row

def Store.empty : Store := fun _ => ∅

def decoded {α : Type} : Option (Json α) → Except Text (Option α)
  | none => .ok none
  | some (.ok value) => .ok (some value)
  | some (.error cause) => .error cause

theorem decoded_eq_ok {α : Type} {row : Option (Json α)} {found : Option α} (read : decoded row = .ok found) (value : α) :
    found = some value ↔ row = some (.ok value) := by
  unfold decoded at read
  split at read
  · cases read
    simp
  · cases read
    simp
  · cases read

/-- The rows of a table whose keys have the prefix, which is what an iterator from the prefix on finds before the
first other key. -/
def withPrefix {ν : Type} (start : Text) (table : Std.ExtTreeMap Text ν) : List (Text × ν) :=
  table.toList.filter fun row => start.isPrefixOf row.1

theorem mem_withPrefix {ν : Type} {start key : Text} {value : ν} {table : Std.ExtTreeMap Text ν} :
    (key, value) ∈ withPrefix start table ↔ table[key]? = some value ∧ start <+: key := by grind [withPrefix]

theorem mem_keys_withPrefix {ν : Type} {start key : Text} {table : Std.ExtTreeMap Text ν} :
    key ∈ (withPrefix start table).map Prod.fst ↔ table[key]? ≠ none ∧ start <+: key := by
  simp only [List.mem_map, Prod.exists, exists_and_right, exists_eq_right, mem_withPrefix,
    Option.ne_none_iff_exists']

def generationKey (certificateId generationId : Text) : Text := certificateId ++ '\x00' :: generationId

theorem prefix_generationKey (id generationId : Text) : generationKey id [] <+: generationKey id generationId :=
  ⟨generationId, by simp [generationKey]⟩

theorem not_mem_normalizeDomain {domain name : Text} (normal : normalizeDomain domain = .ok name) :
    '\x00' ∉ name := by
  unfold normalizeDomain at normal
  dsimp only at normal
  split at normal
  · cases normal
  · grind

theorem eq_of_prefix_generationKey {id other generationId : Text} (plain : '\x00' ∉ id) (separated : '\x00' ∉ other)
    (starts : generationKey other [] <+: generationKey id generationId) : other = id := by
  have before : ∀ name rest : Text, '\x00' ∉ name → (name ++ '\x00' :: rest).takeWhile (· != '\x00') = name := by
    grind [List.takeWhile_append_of_pos, List.takeWhile_cons_of_neg]
  obtain ⟨rest, same⟩ := starts
  grind [generationKey]

def diagnosticKey (certificateId : Text) (value : DnsDiagnostic) : Text :=
  certificateId ++ '\x00' :: value.domain ++ '\x00' :: value.resolver

theorem diagnosticKey_eq (id : Text) (value : DnsDiagnostic) :
    diagnosticKey id value = generationKey id (value.domain ++ '\x00' :: value.resolver) := by
  simp [diagnosticKey, generationKey]

theorem prefix_diagnosticKey (id : Text) (value : DnsDiagnostic) : (id ++ ['\x00']) <+: diagnosticKey id value := by
  rw [diagnosticKey_eq]
  exact prefix_generationKey id _

section Reads

variable (store : Store)

def provider (providerId : Text) : Except Text (Option AcmeProvider) := decoded (store .providers)[providerId]?

def providers : Except Text (List AcmeProvider) := (store .providers).toList.mapM Prod.snd

def defaultProviderId : Except Text Text := do
  let all ← providers store
  return ((all.find? AcmeProvider.isDefault).map AcmeProvider.id).getD "letsencrypt-production".toList

def managedCertificate (certificateId : Text) : Except Text (Option ManagedCertificate) :=
  decoded (store .certificates)[certificateId]?

def managedCertificates : Except Text (List ManagedCertificate) := (store .certificates).toList.mapM Prod.snd

theorem mem_managedCertificates {certificates : List ManagedCertificate}
    (read : managedCertificates store = .ok certificates) {certificate : ManagedCertificate} :
    certificate ∈ certificates ↔ ∃ id : Text, (store .certificates)[id]? = some (.ok certificate) := by
  constructor
  · intro member
    obtain ⟨⟨id, row⟩, listed, rfl⟩ := exists_of_mem_mapM read member
    grind
  · rintro ⟨id, found⟩
    exact mem_of_mapM read (Std.ExtTreeMap.mem_toList_iff_getElem?_eq_some.mpr found) rfl

def certificateForDomain (domain : Text) : Except Text (Option ManagedCertificate) := do
  let domain ← normalizeDomain domain
  match (store .domainIndex)[domain]? with
  | none => return none
  | some id => managedCertificate store id

def renewalState (certificateId : Text) : Except Text (Option RenewalState) :=
  decoded (store .renewals)[certificateId]?

def activeGeneration (certificateId : Text) : Except Text (Option CertificateGeneration) :=
  match (store .activeGenerations)[certificateId]? with
  | none => .ok none
  | some generationId => decoded (store .generations)[generationKey certificateId generationId]?

theorem certificateForDomain_of_unlisted {domain name : Text} (normal : normalizeDomain domain = .ok name)
    (absent : (store .domainIndex)[name]? = none) : certificateForDomain store domain = .ok none := by
  refine bind_eq_ok.mpr ⟨name, normal, ?_⟩
  rw [absent]
  rfl

theorem certificateForDomain_of_listed {domain name id : Text} (normal : normalizeDomain domain = .ok name)
    (listed : (store .domainIndex)[name]? = some id) :
    certificateForDomain store domain = managedCertificate store id := by
  rw [certificateForDomain, normal]
  change (match (store .domainIndex)[name]? with
    | none => pure none
    | some id => managedCertificate store id) = _
  rw [listed]

end Reads

def generationKeys (store : Store) (certificateId : Text) : List Text :=
  (withPrefix (generationKey certificateId []) (store .generations)).map Prod.fst

def diagnosticKeys (store : Store) (certificateId : Text) : List Text :=
  (withPrefix (certificateId ++ ['\x00']) (store .dnsDiagnostics)).map Prod.fst

def diagnosticsBatch (certificateId : Text) (keys : List Text) (values : List DnsDiagnostic) : List Write :=
  keys.map (.delete .dnsDiagnostics) ++ values.map fun value =>
    .put .dnsDiagnostics (diagnosticKey certificateId value) (.ok value)

def checkOwner (store : Store) (certificateId domain : Text) : Except Text Unit :=
  match (store .domainIndex)[domain]? with
  | none => .ok ()
  | some owner => require (owner = certificateId)
      ("domain ".toList ++ quoted domain ++ " is already managed by another certificate".toList)

def checkNames (certificateId : Text) (normalized : List Text) : Except Text Unit := do
  require (normalized.head? = some certificateId)
    ("managed certificate ID must equal its normalized domain ".toList ++ quoted (normalized.headD []))
  require (∀ domain ∈ normalized, '*' ∉ domain)
    "wildcard managed certificates are not supported by TLS-ALPN-01".toList
  require normalized.Nodup "managed certificate contains duplicate domains".toList

def saveBatch (certificate : ManagedCertificate) (existing : Option ManagedCertificate) (old normalized : List Text)
    (now : OffsetDateTime) : List Write :=
  let value := { certificate with
    domains := normalized
    createdAt := (existing.bind ManagedCertificate.createdAt).or (some now)
    updatedAt := some now }
  (old.filter fun domain => !normalized.contains domain).map (.delete .domainIndex) ++
    normalized.map (fun domain => .put .domainIndex domain certificate.id) ++
    [.put .certificates certificate.id (.ok value)]

/-- The batch of `save_managed_certificate_locked`, when nothing else is written meanwhile. -/
def saveManagedCertificateLocked (store : Store) (certificate : ManagedCertificate) (now : OffsetDateTime) :
    Except Text (List Write) := do
  require (certificate.domains.length = 1) "managed certificate must contain exactly one domain".toList
  let existing ← managedCertificate store certificate.id
  let normalized ← certificate.domains.mapM normalizeDomain
  checkNames certificate.id normalized
  normalized.forM (checkOwner store certificate.id)
  let old ← ((existing.map ManagedCertificate.domains).getD []).mapM normalizeDomain
  return saveBatch certificate existing old normalized now

/-- The batch of `delete_managed_certificate`: the index entries it owns, and the keys that it has found under it. -/
def deleteBatch (certificateId : Text) (domains generations diagnostics : List Text) : List Write :=
  [.delete .certificates certificateId, .delete .activeGenerations certificateId, .delete .renewals certificateId] ++
    domains.map (.delete .domainIndex) ++ generations.map (.delete .generations) ++
    diagnostics.map (.delete .dnsDiagnostics)

theorem checkNames_eq_ok {id name : Text} : checkNames id [name] = .ok () ↔ name = id ∧ '*' ∉ name := by
  unfold checkNames
  constructor
  · intro passed
    obtain ⟨⟨⟩, named, passed⟩ := bind_eq_ok.mp passed
    obtain ⟨⟨⟩, plain, -⟩ := bind_eq_ok.mp passed
    cases require_eq_ok.mp named
    exact ⟨rfl, require_eq_ok.mp plain _ (List.mem_singleton_self _)⟩
  · rintro ⟨rfl, plain⟩
    refine bind_eq_ok.mpr ⟨(), require_eq_ok.mpr rfl, bind_eq_ok.mpr ⟨(), require_eq_ok.mpr ?_, ?_⟩⟩
    · grind
    · exact require_eq_ok.mpr (List.nodup_singleton _)

theorem saveManagedCertificateLocked_eq_ok {store : Store} {certificate : ManagedCertificate} {now : OffsetDateTime}
    {batch : List Write} :
    saveManagedCertificateLocked store certificate now = .ok batch ↔
      ∃ domain existing old, certificate.domains = [domain] ∧
        managedCertificate store certificate.id = .ok existing ∧ normalizeDomain domain = .ok certificate.id ∧
        '*' ∉ certificate.id ∧ checkOwner store certificate.id certificate.id = .ok () ∧
        ((existing.map ManagedCertificate.domains).getD []).mapM normalizeDomain = .ok old ∧
        batch = saveBatch certificate existing old [certificate.id] now := by
  unfold saveManagedCertificateLocked
  constructor
  · intro saved
    obtain ⟨⟨⟩, one, saved⟩ := bind_eq_ok.mp saved
    obtain ⟨existing, read, saved⟩ := bind_eq_ok.mp saved
    obtain ⟨normalized, mapped, saved⟩ := bind_eq_ok.mp saved
    obtain ⟨⟨⟩, named, saved⟩ := bind_eq_ok.mp saved
    obtain ⟨⟨⟩, owned, saved⟩ := bind_eq_ok.mp saved
    obtain ⟨old, released, saved⟩ := bind_eq_ok.mp saved
    cases saved
    obtain ⟨domain, single⟩ := List.length_eq_one_iff.mp (require_eq_ok.mp one)
    rw [single] at mapped
    obtain ⟨name, normal, mapped⟩ := bind_eq_ok.mp mapped
    cases mapped
    obtain ⟨rfl, plain⟩ := checkNames_eq_ok.mp named
    refine ⟨domain, existing, old, single, read, normal, plain, ?_, released, rfl⟩
    exact forM_eq_ok.mp owned _ (List.mem_singleton_self _)
  · rintro ⟨domain, existing, old, single, read, normal, plain, owned, released, rfl⟩
    have mapped : certificate.domains.mapM normalizeDomain = .ok [certificate.id] := by
      rw [single]
      exact mapM_eq_ok.mpr (.cons normal .nil)
    refine bind_eq_ok.mpr ⟨(), require_eq_ok.mpr (by rw [single]; rfl), ?_⟩
    refine bind_eq_ok.mpr ⟨existing, read, ?_⟩
    refine bind_eq_ok.mpr ⟨[certificate.id], mapped, ?_⟩
    refine bind_eq_ok.mpr ⟨(), checkNames_eq_ok.mpr ⟨rfl, plain⟩, ?_⟩
    refine bind_eq_ok.mpr ⟨(), forM_eq_ok.mpr ?_, ?_⟩
    · grind
    exact bind_eq_ok.mpr ⟨old, released, rfl⟩

def activationBatch (generation : CertificateGeneration) (renewal : RenewalState) : Except Text (List Write) := do
  require (generation.id ≠ [] ∧ generation.certificateId ≠ [])
    "certificate generation and certificate IDs are required".toList
  require (generation.certificateId = renewal.certificateId)
    "generation and renewal state refer to different certificates".toList
  return [.put .generations (generationKey generation.certificateId generation.id) (.ok generation),
    .put .activeGenerations generation.certificateId generation.id,
    .put .renewals generation.certificateId (.ok renewal)]

def renewalBatch (renewal : RenewalState) : Except Text (List Write) := do
  require (Text.trim renewal.certificateId ≠ []) "renewal state certificate ID is required".toList
  return [.put .renewals renewal.certificateId (.ok renewal)]

/-- The record of a domain that terminates client TLS. -/
def automaticCertificate (domain providerId : Text) : ManagedCertificate :=
  { id := domain, domains := [domain], providerId, automatic := true }

end TlsProxy.Certificates
