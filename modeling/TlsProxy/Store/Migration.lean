import TlsProxy.Store.Certificates

/-! `migrate_certificates_to_single_domain_ids` of `store/acme.rs`: a certificate
with an arbitrary ID or several domains is replaced by one certificate for each
of its domains, with a copy of all that belongs to it. Everything is written in
one batch. -/
namespace TlsProxy.Certificates

open Config Checks Families

/-- More or fewer domains than one, or one whose normal form is not the ID. -/
def isLegacy (certificate : ManagedCertificate) : Bool :=
  match certificate.domains with
  | [domain] => (normalizeDomain domain).toOption != some certificate.id
  | _ => true

def decodedRows {α : Type} (rows : List (Text × Json α)) : Except Text (List (Text × α)) :=
  rows.mapM fun row => do
    let value ← row.2
    return (row.1, value)

structure OwnedRows where
  activeGenerationId : Option Text
  renewal : Option RenewalState
  generations : List (Text × CertificateGeneration)
  diagnostics : List (Text × DnsDiagnostic)

def ownedRows (store : Store) (id : Text) : Except Text OwnedRows := do
  let renewal ← renewalState store id
  let generations ← decodedRows (withPrefix (generationKey id []) (store .generations))
  let diagnostics ← decodedRows (withPrefix (id ++ ['\x00']) (store .dnsDiagnostics))
  return { activeGenerationId := (store .activeGenerations)[id]?, renewal, generations, diagnostics }

section

variable (certificate : ManagedCertificate) (rows : OwnedRows)

def removals : List Write :=
  [.delete .certificates certificate.id, .delete .activeGenerations certificate.id,
    .delete .renewals certificate.id] ++
  rows.generations.map (fun row => .delete .generations row.1) ++
  rows.diagnostics.map fun row => .delete .dnsDiagnostics row.1

def split (domain : Text) : List Write :=
  [.put .certificates domain (.ok { certificate with id := domain, domains := [domain] }),
    .put .domainIndex domain domain] ++
  rows.activeGenerationId.toList.map (fun generationId => .put .activeGenerations domain generationId) ++
  rows.renewal.toList.map (fun renewal => .put .renewals domain (.ok { renewal with certificateId := domain })) ++
  rows.generations.map (fun row => .put .generations (generationKey domain row.2.id)
    (.ok { row.2 with certificateId := domain })) ++
  (rows.diagnostics.filter fun row => (normalizeDomain row.2.domain).toOption == some domain).map fun row =>
    .put .dnsDiagnostics (diagnosticKey domain row.2) (.ok { row.2 with certificateId := domain })

end

def certificatePart (store : Store) (existingIds : List Text) (certificate : ManagedCertificate) :
    Except Text (List Text × List Write) := do
  let domains ← certificate.domains.mapM normalizeDomain
  domains.forM fun domain => require (existingIds.contains domain = true → domain = certificate.id)
    ("cannot migrate certificate ".toList ++ quoted certificate.id ++ ": domain ID ".toList ++ quoted domain ++
      " already exists".toList)
  let rows ← ownedRows store certificate.id
  return (domains, removals certificate rows ++ domains.flatMap (split certificate rows))

/-- The IDs of a token after the replacements, and whether one of them applies. No new ID is the old one of another
certificate, so their order does not matter. -/
def replaceIds (replacements : List (Text × List Text)) (ids : Std.ExtTreeSet Text) : Std.ExtTreeSet Text × Bool :=
  replacements.foldl (fun state replacement =>
    if state.1.contains replacement.1 then ((state.1.erase replacement.1).insertMany replacement.2, true)
    else state) (ids, false)

def tokenPart (store : Store) (replacements : List (Text × List Text)) : Except Text (List Write) := do
  let rows ← decodedRows (store .tokens).toList
  return rows.filterMap fun row =>
    let replaced := replaceIds replacements row.2.certificateIds
    if replaced.2 then some (.put .tokens row.1 (.ok { row.2 with certificateIds := replaced.1 })) else none

/-- The new IDs by old ID; of two certificates with one ID the later counts. -/
def replacements (legacy : List ManagedCertificate) (parts : List (List Text × List Write)) :
    Std.ExtTreeMap Text (List Text) :=
  assignAll ∅ ((legacy.zip parts).map fun pair => (pair.1.id, some pair.2.1))

def migrationBatch (store : Store) : Except Text (Nat × List Write) := do
  let certificates ← managedCertificates store
  let legacy := certificates.filter isLegacy
  if legacy.isEmpty then return (0, [])
  let parts ← legacy.mapM (certificatePart store (certificates.map ManagedCertificate.id))
  let tokens ← tokenPart store (replacements legacy parts).toList
  return (legacy.length, parts.flatMap Prod.snd ++ tokens)

def migrateCertificatesToSingleDomainIds (store : Store) : Except Text Nat × Store :=
  match migrationBatch store with
  | .error cause => (.error cause, store)
  | .ok (count, batch) => (.ok count, write store batch)

/-- The rows decode and are stored where their contents say; IDs of certificates do not contain the separator of
keys. -/
structure WellFormed (store : Store) : Prop where
  certificates : ∀ (id : Text) (row : Json ManagedCertificate), (store .certificates)[id]? = some row →
    '\x00' ∉ id ∧ ∃ certificate, row = .ok certificate ∧ certificate.id = id
  generations : ∀ (key : Text) (row : Json CertificateGeneration), (store .generations)[key]? = some row →
    ∃ generation, row = .ok generation ∧ '\x00' ∉ generation.certificateId ∧
      key = generationKey generation.certificateId generation.id
  renewals : ∀ (id : Text) (row : Json RenewalState), (store .renewals)[id]? = some row →
    ∃ renewal, row = .ok renewal ∧ renewal.certificateId = id
  diagnostics : ∀ (key : Text) (row : Json DnsDiagnostic), (store .dnsDiagnostics)[key]? = some row →
    ∃ diagnostic, row = .ok diagnostic ∧ '\x00' ∉ diagnostic.certificateId ∧
      key = diagnosticKey diagnostic.certificateId diagnostic
  tokens : ∀ (key : Text) (row : Json RetrievalToken), (store .tokens)[key]? = some row → ∃ token, row = .ok token

structure Legacy (store : Store) (certificate : ManagedCertificate) : Prop where
  listed : (store .certificates)[certificate.id]? = some (.ok certificate)
  legacy : isLegacy certificate = true

structure Migrated (store : Store) (certificate : ManagedCertificate) : Prop where
  listed : (store .certificates)[certificate.id]? = some (.ok certificate)
  current : isLegacy certificate = false

inductive Owed (store : Store) (certificate : ManagedCertificate) (domain : Text) :
    (family : ColumnFamily) → Text → family.Row → Prop
  | settings : Owed store certificate domain .certificates domain
      (.ok { certificate with id := domain, domains := [domain] } : Json ManagedCertificate)
  | index : Owed store certificate domain .domainIndex domain domain
  | active (generationId : Text) (found : (store .activeGenerations)[certificate.id]? = some generationId) :
      Owed store certificate domain .activeGenerations domain generationId
  | renewal (renewal : RenewalState) (found : (store .renewals)[certificate.id]? = some (.ok renewal)) :
      Owed store certificate domain .renewals domain (.ok { renewal with certificateId := domain } : Json RenewalState)
  | generation (generationId : Text) (generation : CertificateGeneration)
      (found : (store .generations)[generationKey certificate.id generationId]? = some (.ok generation)) :
      Owed store certificate domain .generations (generationKey domain generationId)
        (.ok { generation with certificateId := domain } : Json CertificateGeneration)
  | diagnostic (diagnostic : DnsDiagnostic)
      (found : (store .dnsDiagnostics)[diagnosticKey certificate.id diagnostic]? = some (.ok diagnostic))
      (matching : normalizeDomain diagnostic.domain = .ok domain) :
      Owed store certificate domain .dnsDiagnostics (diagnosticKey domain diagnostic)
        (.ok { diagnostic with certificateId := domain } : Json DnsDiagnostic)

def Belongs (id : Text) : ColumnFamily → Text → Prop
  | .certificates, key | .domainIndex, key | .activeGenerations, key | .renewals, key => key = id
  | .generations, key => generationKey id [] <+: key
  | .dnsDiagnostics, key => (id ++ ['\x00']) <+: key
  | .providers, _ | .tokens, _ => False

structure Lossless (store after : Store) : Prop where
  single : ∀ (id : Text) (row : Json ManagedCertificate), (after .certificates)[id]? = some row →
    ∃ certificate, row = .ok certificate ∧ certificate.id = id ∧ certificate.domains = [id]
  carried : ∀ certificate, Legacy store certificate → ∀ domain, Covers certificate domain →
    ∀ family key row, Owed store certificate domain family key row → (after family)[key]? = some row
  untouched : ∀ certificate, Migrated store certificate → ∀ family key, Belongs certificate.id family key →
    (after family)[key]? = (store family)[key]?
  settled : migrateCertificatesToSingleDomainIds after = (.ok 0, after)

section Reads

variable {store : Store} {id : Text} {rows : OwnedRows}

theorem mem_decodedRows {α : Type} {rows : List (Text × Json α)} {values : List (Text × α)}
    (read : decodedRows rows = .ok values) {key : Text} {value : α} :
    (key, value) ∈ values ↔ (key, .ok value) ∈ rows := by
  constructor
  · intro member
    obtain ⟨⟨other, row⟩, inside, made⟩ := exists_of_mem_mapM read member
    obtain ⟨found, rfl, same⟩ := bind_eq_ok.mp made
    cases same
    exact inside
  · intro member
    exact mem_of_mapM read member rfl

theorem decodedRows_isOk {α : Type} {rows : List (Text × Json α)} (all : ∀ row ∈ rows, ∃ value, row.2 = .ok value) :
    ∃ values, decodedRows rows = .ok values := by
  apply mapM_isOk_iff.mpr
  intro row member
  obtain ⟨value, same⟩ := all row member
  exact ⟨_, bind_eq_ok.mpr ⟨value, same, rfl⟩⟩

structure Owns (store : Store) (id : Text) (rows : OwnedRows) : Prop where
  active : rows.activeGenerationId = (store .activeGenerations)[id]?
  renewal : ∀ renewal, rows.renewal = some renewal ↔ (store .renewals)[id]? = some (.ok renewal)
  generations : ∀ key generation, (key, generation) ∈ rows.generations ↔
    (store .generations)[key]? = some (.ok generation) ∧ generationKey id [] <+: key
  diagnostics : ∀ key diagnostic, (key, diagnostic) ∈ rows.diagnostics ↔
    (store .dnsDiagnostics)[key]? = some (.ok diagnostic) ∧ (id ++ ['\x00']) <+: key

theorem owns_ownedRows (read : ownedRows store id = .ok rows) : Owns store id rows := by
  obtain ⟨renewal, first, read⟩ := bind_eq_ok.mp read
  obtain ⟨generations, second, read⟩ := bind_eq_ok.mp read
  obtain ⟨diagnostics, third, read⟩ := bind_eq_ok.mp read
  cases read
  refine ⟨rfl, decoded_eq_ok first, ?_, ?_⟩
  · intro key generation
    exact (mem_decodedRows second).trans mem_withPrefix
  · intro key diagnostic
    exact (mem_decodedRows third).trans mem_withPrefix

theorem WellFormed.ownedRows_isOk (wellFormed : WellFormed store) (id : Text) : ∃ rows, ownedRows store id = .ok rows := by
  have renewal : ∃ renewal, renewalState store id = .ok renewal := by
    unfold renewalState
    cases found : (store .renewals)[id]? with
    | none => exact ⟨none, rfl⟩
    | some row =>
      obtain ⟨renewal, rfl, -⟩ := wellFormed.renewals id row found
      exact ⟨some renewal, rfl⟩
  obtain ⟨renewal, first⟩ := renewal
  have generations : ∃ values, decodedRows (withPrefix (generationKey id []) (store .generations)) = .ok values := by
    apply decodedRows_isOk
    rintro ⟨key, row⟩ member
    obtain ⟨generation, same, -⟩ := wellFormed.generations key row (mem_withPrefix.mp member).1
    exact ⟨generation, same⟩
  have diagnostics : ∃ values, decodedRows (withPrefix (id ++ ['\x00']) (store .dnsDiagnostics)) = .ok values := by
    apply decodedRows_isOk
    rintro ⟨key, row⟩ member
    obtain ⟨diagnostic, same, -⟩ := wellFormed.diagnostics key row (mem_withPrefix.mp member).1
    exact ⟨diagnostic, same⟩
  obtain ⟨generations, second⟩ := generations
  obtain ⟨diagnostics, third⟩ := diagnostics
  exact ⟨_, bind_eq_ok.mpr ⟨_, first, bind_eq_ok.mpr ⟨_, second, bind_eq_ok.mpr ⟨_, third, rfl⟩⟩⟩⟩

end Reads

section Part

variable {store : Store} {certificate : ManagedCertificate} {rows : OwnedRows} {domain : Text}
  {family : ColumnFamily} {key : Text}

theorem Owed.belongs {row : family.Row} (owed : Owed store certificate domain family key row) :
    Belongs domain family key := by
  cases owed with
  | settings => exact rfl
  | index => exact rfl
  | active => exact rfl
  | renewal => exact rfl
  | generation generationId => exact prefix_generationKey domain generationId
  | diagnostic diagnostic => exact prefix_diagnosticKey domain diagnostic

theorem belongs_unique {id other : Text} (plain : '\x00' ∉ id) (separated : '\x00' ∉ other)
    (first : Belongs id family key) (second : Belongs other family key) : id = other := by
  have prefixes : generationKey id [] <+: key → generationKey other [] <+: key → id = other := by
    rintro ⟨rest, rfl⟩ second
    have whole : generationKey id [] ++ rest = generationKey id rest := by simp [generationKey]
    grind [eq_of_prefix_generationKey]
  cases family with
  | certificates | domainIndex | activeGenerations | renewals => exact first.symm.trans second
  | generations | dnsDiagnostics => exact prefixes first second
  | providers | tokens => exact first.elim

theorem WellFormed.generation_of_owned (wellFormed : WellFormed store) {id : Text} (plain : '\x00' ∉ id)
    {generation : CertificateGeneration} (found : (store .generations)[key]? = some (.ok generation))
    (owned : generationKey id [] <+: key) : key = generationKey id generation.id := by
  grind [WellFormed.generations, eq_of_prefix_generationKey]

theorem WellFormed.diagnostic_of_owned (wellFormed : WellFormed store) {id : Text} (plain : '\x00' ∉ id)
    {diagnostic : DnsDiagnostic} (found : (store .dnsDiagnostics)[key]? = some (.ok diagnostic))
    (owned : (id ++ ['\x00']) <+: key) : key = diagnosticKey id diagnostic := by
  obtain ⟨_, same, separated, rfl⟩ := wellFormed.diagnostics key _ found
  cases same
  rw [diagnosticKey_eq] at owned
  rw [eq_of_prefix_generationKey separated plain owned]

theorem put_split_iff (wellFormed : WellFormed store) (plain : '\x00' ∉ certificate.id)
    (owns : Owns store certificate.id rows) {row : family.Row} :
    .put family key row ∈ split certificate rows domain ↔ Owed store certificate domain family key row := by
  simp only [split, List.mem_append, List.mem_cons, List.not_mem_nil, or_false, List.mem_map, Option.mem_toList,
    List.mem_filter, beq_iff_eq, Prod.exists]
  constructor
  · rintro (((((same | same) | ⟨generationId, found, same⟩) | ⟨renewal, found, same⟩) | ⟨old, generation, member, same⟩) |
      ⟨old, diagnostic, ⟨member, matching⟩, same⟩)
    · cases same
      exact .settings
    · cases same
      exact .index
    · cases same
      exact .active generationId (owns.active ▸ found)
    · cases same
      exact .renewal renewal ((owns.renewal renewal).mp found)
    · cases same
      obtain ⟨found, owned⟩ := (owns.generations old generation).mp member
      rw [wellFormed.generation_of_owned plain found owned] at found
      exact .generation generation.id generation found
    · cases same
      obtain ⟨found, owned⟩ := (owns.diagnostics old diagnostic).mp member
      rw [wellFormed.diagnostic_of_owned plain found owned] at found
      exact .diagnostic diagnostic found (toOption_eq_some.mp matching)
  · intro owed
    cases owed with
    | settings => exact .inl (.inl (.inl (.inl (.inl rfl))))
    | index => exact .inl (.inl (.inl (.inl (.inr rfl))))
    | active generationId found => exact .inl (.inl (.inl (.inr ⟨generationId, owns.active.trans found, rfl⟩)))
    | renewal renewal found => grind [Owns.renewal]
    | generation generationId generation found =>
      have owned := prefix_generationKey certificate.id generationId
      have same := wellFormed.generation_of_owned plain found owned
      have equal : generationId = generation.id := by simpa [generationKey] using same
      exact .inl (.inr ⟨_, generation, (owns.generations _ generation).mpr ⟨found, owned⟩, by rw [equal]⟩)
    | diagnostic diagnostic found matching =>
      have owned := prefix_diagnosticKey certificate.id diagnostic
      exact .inr ⟨_, diagnostic, ⟨(owns.diagnostics _ diagnostic).mpr ⟨found, owned⟩, by rw [matching]; rfl⟩, rfl⟩

theorem delete_not_mem_split : Write.delete family key ∉ split certificate rows domain := by
  simp [split]

theorem put_not_mem_removals {row : family.Row} : Write.put family key row ∉ removals certificate rows := by
  simp [removals]

theorem belongs_of_delete (owns : Owns store certificate.id rows)
    (deleted : Write.delete family key ∈ removals certificate rows) : Belongs certificate.id family key := by
  simp only [removals, List.mem_append, List.mem_cons, List.not_mem_nil, or_false, List.mem_map, Prod.exists] at deleted
  rcases deleted with ((same | same | same) | ⟨old, generation, member, same⟩) | ⟨old, diagnostic, member, same⟩
  · cases same
    exact rfl
  · cases same
    exact rfl
  · cases same
    exact rfl
  · cases same
    exact ((owns.generations key generation).mp member).2
  · cases same
    exact ((owns.diagnostics key diagnostic).mp member).2

structure PartOf (store : Store) (certificate : ManagedCertificate) (batch : List Write) : Prop where
  named : ∀ domain ∈ certificate.domains, ∃ name, normalizeDomain domain = .ok name
  free : ∀ domain, Covers certificate domain → (store .certificates)[domain]? ≠ none → domain = certificate.id
  puts : ∀ (family : ColumnFamily) (key : Text) (row : family.Row), .put family key row ∈ batch →
    ∃ domain, Covers certificate domain ∧ Owed store certificate domain family key row
  deletes : ∀ (family : ColumnFamily) (key : Text), .delete family key ∈ batch → Belongs certificate.id family key
  removes : .delete .certificates certificate.id ∈ batch
  /-- What is put is put last. -/
  lasts : ∃ before after, batch = before ++ after ∧ (∀ (family : ColumnFamily) (key : Text), .delete family key ∉ after) ∧
    ∀ domain, Covers certificate domain → ∀ (family : ColumnFamily) (key : Text) (row : family.Row),
      Owed store certificate domain family key row → .put family key row ∈ after

theorem partOf_certificatePart (wellFormed : WellFormed store) (plain : '\x00' ∉ certificate.id)
    {existingIds domains : List Text} {batch : List Write}
    (listed : ∀ id : Text, (store .certificates)[id]? ≠ none → id ∈ existingIds)
    (made : certificatePart store existingIds certificate = .ok (domains, batch)) :
    PartOf store certificate batch := by
  obtain ⟨names, mapped, made⟩ := bind_eq_ok.mp made
  obtain ⟨⟨⟩, checked, made⟩ := bind_eq_ok.mp made
  obtain ⟨rows, read, made⟩ := bind_eq_ok.mp made
  cases made
  have owns := owns_ownedRows read
  have covers : ∀ domain, domain ∈ domains ↔ Covers certificate domain := by
    intro domain
    constructor
    · exact exists_of_mem_mapM mapped
    · rintro ⟨old, member, normal⟩
      exact mem_of_mapM mapped member normal
  constructor
  · exact mapM_isOk_iff.mp ⟨_, mapped⟩
  · intro domain covered there
    have passed := require_eq_ok.mp (forM_eq_ok.mp checked domain ((covers domain).mpr covered))
    grind
  · grind [put_not_mem_removals, put_split_iff]
  · grind [belongs_of_delete, delete_not_mem_split]
  · simp [removals]
  · refine ⟨_, _, rfl, ?_, ?_⟩
    · grind [delete_not_mem_split]
    · grind [put_split_iff]

end Part

section Batch

variable {store : Store} {count : Nat} {batch : List Write}

theorem mem_tokenPart {list : List (Text × List Text)} {tokens : List Write} (made : tokenPart store list = .ok tokens)
    {item : Write} : item ∈ tokens ↔ ∃ (key : Text) (token : RetrievalToken),
      (store .tokens)[key]? = some (.ok token) ∧ (replaceIds list token.certificateIds).2 = true ∧
      item = .put .tokens key (.ok { token with certificateIds := (replaceIds list token.certificateIds).1 }) := by
  obtain ⟨rows, read, made⟩ := bind_eq_ok.mp made
  cases made
  rw [List.mem_filterMap]
  constructor
  · rintro ⟨⟨key, token⟩, listed, same⟩
    dsimp only at same
    split at same
    · rename_i changed
      cases same
      exact ⟨key, token, Std.ExtTreeMap.mem_toList_iff_getElem?_eq_some.mp ((mem_decodedRows read).mp listed), changed, rfl⟩
    · cases same
  · rintro ⟨key, token, found, changed, rfl⟩
    refine ⟨(key, token), (mem_decodedRows read).mpr (Std.ExtTreeMap.mem_toList_iff_getElem?_eq_some.mpr found), ?_⟩
    exact if_pos changed

theorem migrationBatch_eq_ok (made : migrationBatch store = .ok (count, batch)) :
    ∃ certificates parts tokens, managedCertificates store = .ok certificates ∧
      (certificates.filter isLegacy).mapM (certificatePart store (certificates.map ManagedCertificate.id)) = .ok parts ∧
      (parts = [] ∧ tokens = [] ∨ tokenPart store (replacements (certificates.filter isLegacy) parts).toList = .ok tokens) ∧
      count = (certificates.filter isLegacy).length ∧ batch = (parts.map Prod.snd).flatten ++ tokens := by
  obtain ⟨certificates, read, made⟩ := bind_eq_ok.mp made
  dsimp only at made
  split at made
  · rename_i none
    cases made
    rw [List.isEmpty_iff] at none
    exact ⟨certificates, [], [], read, by rw [none]; rfl, .inl ⟨rfl, rfl⟩, by rw [none]; rfl, rfl⟩
  · obtain ⟨parts, mapped, made⟩ := bind_eq_ok.mp made
    obtain ⟨tokens, replaced, made⟩ := bind_eq_ok.mp made
    cases made
    grind

theorem WellFormed.mem_legacy (wellFormed : WellFormed store) {certificates : List ManagedCertificate}
    (read : managedCertificates store = .ok certificates) {certificate : ManagedCertificate} :
    certificate ∈ certificates.filter isLegacy ↔ Legacy store certificate := by
  rw [List.mem_filter, mem_managedCertificates store read]
  constructor
  · rintro ⟨⟨id, found⟩, legacy⟩
    obtain ⟨-, _, same, rfl⟩ := wellFormed.certificates id _ found
    cases same
    exact ⟨found, legacy⟩
  · intro legacy
    exact ⟨⟨_, legacy.listed⟩, legacy.legacy⟩

theorem WellFormed.mem_ids (wellFormed : WellFormed store) {certificates : List ManagedCertificate}
    (read : managedCertificates store = .ok certificates) {id : Text} (there : (store .certificates)[id]? ≠ none) :
    id ∈ certificates.map ManagedCertificate.id := by
  obtain ⟨row, found⟩ := Option.ne_none_iff_exists'.mp there
  obtain ⟨-, certificate, rfl, rfl⟩ := wellFormed.certificates id row found
  grind [mem_managedCertificates]

/-- The batch has a part for each legacy certificate, and changes tokens besides. -/
structure Parts (store : Store) (batch : List Write) (batches : List (List Write)) (tokens : List Write) : Prop where
  whole : batch = batches.flatten ++ tokens
  tokens : ∀ item ∈ tokens, ∃ key row, item = .put .tokens key row
  legacy : ∀ part ∈ batches, ∃ certificate, Legacy store certificate ∧ PartOf store certificate part
  part : ∀ certificate, Legacy store certificate → ∃ part ∈ batches, PartOf store certificate part

theorem WellFormed.parts (wellFormed : WellFormed store) (made : migrationBatch store = .ok (count, batch)) :
    ∃ batches tokens, Parts store batch batches tokens := by
  obtain ⟨certificates, parts, tokens, read, mapped, replaced, -, whole⟩ := migrationBatch_eq_ok made
  have only : ∀ item ∈ tokens, ∃ key row, item = .put .tokens key row := by grind [mem_tokenPart]
  have part : ∀ certificate part, Legacy store certificate →
      certificatePart store (certificates.map ManagedCertificate.id) certificate = .ok part →
      PartOf store certificate part.2 := by
    intro certificate part legacy made
    have plain := (wellFormed.certificates _ _ legacy.listed).1
    exact partOf_certificatePart wellFormed plain (fun id => wellFormed.mem_ids read) made
  refine ⟨parts.map Prod.snd, tokens, whole, only, ?_, ?_⟩
  · intro batch member
    obtain ⟨found, inside, rfl⟩ := List.mem_map.mp member
    obtain ⟨certificate, listed, made⟩ := exists_of_mem_mapM mapped inside
    have legacy := (wellFormed.mem_legacy read).mp listed
    grind
  · intro certificate legacy
    have listed := (wellFormed.mem_legacy read).mpr legacy
    obtain ⟨found, made⟩ := mapM_isOk_iff.mp ⟨_, mapped⟩ certificate listed
    grind [mem_of_mapM]

variable {batches : List (List Write)} {tokens : List Write} {family : ColumnFamily} {key : Text}

theorem Parts.puts (parts : Parts store batch batches tokens) {row : family.Row} (put : .put family key row ∈ batch)
    (other : family ≠ .tokens) : ∃ certificate domain, Legacy store certificate ∧ Covers certificate domain ∧
      Owed store certificate domain family key row := by
  rw [parts.whole] at put
  rcases List.mem_append.mp put with inside | token
  · obtain ⟨part, member, put⟩ := List.mem_flatten.mp inside
    grind [Parts.legacy, PartOf.puts]
  · grind [Parts.tokens]

theorem Parts.deletes (parts : Parts store batch batches tokens) (deleted : .delete family key ∈ batch) :
    ∃ certificate, Legacy store certificate ∧ Belongs certificate.id family key := by
  rw [parts.whole] at deleted
  rcases List.mem_append.mp deleted with inside | token
  · obtain ⟨part, member, deleted⟩ := List.mem_flatten.mp inside
    grind [Parts.legacy, PartOf.deletes]
  · grind [Parts.tokens]

theorem Parts.removes (parts : Parts store batch batches tokens) {certificate : ManagedCertificate}
    (legacy : Legacy store certificate) : .delete .certificates certificate.id ∈ batch := by
  obtain ⟨part, member, partOf⟩ := parts.part certificate legacy
  rw [parts.whole]
  exact List.mem_append_left _ (List.mem_flatten.mpr ⟨part, member, partOf.removes⟩)

end Batch

end TlsProxy.Certificates
