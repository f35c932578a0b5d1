import TlsProxy.Store.Migration

/-! The migration fails, or leaves what it should, on the stores described here:
its names are normal forms, and legacy certificates that share a domain agree on
everything that the domain gets. -/
namespace TlsProxy.Certificates

open Config Checks Families

/-- A legacy certificate has a domain that is no name, or that is the ID of another certificate. -/
def Blocked (store : Store) : Prop :=
  ∃ certificate, Legacy store certificate ∧ ∃ domain ∈ certificate.domains,
    (∀ name, normalizeDomain domain ≠ .ok name) ∨
      ∃ name, normalizeDomain domain = .ok name ∧ (store .certificates)[name]? ≠ none ∧ name ≠ certificate.id

structure Separable (store : Store) : Prop where
  /-- The domain of a migrated certificate is its ID as it stands, not only after normalization. -/
  exact : ∀ certificate, Migrated store certificate → certificate.domains = [certificate.id]
  /-- Names of legacy certificates do not change when they are normalized again. -/
  normal : ∀ certificate, Legacy store certificate → ∀ domain, Covers certificate domain →
    normalizeDomain domain = .ok domain
  /-- Legacy certificates with a common domain would give it the same rows. -/
  agree : ∀ certificate other, Legacy store certificate → Legacy store other →
    ∀ domain, Covers certificate domain → Covers other domain → ∀ family key row different,
      Owed store certificate domain family key row → Owed store other domain family key different → row = different

section Sufficient

variable {store : Store} {batch tokens : List Write} {batches : List (List Write)} {certificate : ManagedCertificate}
  {domain : Text} {family : ColumnFamily} {key : Text} {row : family.Row}

theorem Owed.family_ne (owed : Owed store certificate domain family key row) : family ≠ .tokens := by
  cases owed <;> nofun

theorem Covers.plain (covered : Covers certificate domain) : '\x00' ∉ domain := by
  obtain ⟨old, -, normal⟩ := covered
  exact not_mem_normalizeDomain normal

theorem Legacy.eq_of_id {other : ManagedCertificate} (legacy : Legacy store certificate)
    (listed : (store .certificates)[other.id]? = some (.ok other)) (same : other.id = certificate.id) :
    other = certificate := by grind [Legacy.listed]

theorem PartOf.settles {part : List Write} (partOf : PartOf store certificate part) (separable : Separable store)
    (legacy : Legacy store certificate) (covered : Covers certificate domain)
    (owed : Owed store certificate domain family key row) (db : Store) :
    (write db part family)[key]? = some row := by
  obtain ⟨before, after, rfl, kept, put⟩ := partOf.lasts
  rw [write_append]
  rcases getElem?_write_cases (write db before) after family key with ⟨value, added, found⟩ | ⟨deleted, -⟩ | ⟨none, -⟩
  · obtain ⟨other, named, value_owed⟩ := partOf.puts family key value (List.mem_append_right _ added)
    cases belongs_unique named.plain covered.plain value_owed.belongs owed.belongs
    grind [Separable.agree]
  · exact absurd deleted (kept family key)
  · grind

theorem PartOf.keeps {other : ManagedCertificate} {part : List Write} (partOf : PartOf store other part)
    (wellFormed : WellFormed store) (separable : Separable store) (legacy : Legacy store certificate)
    (also : Legacy store other) (covered : Covers certificate domain)
    (free : (store .certificates)[domain]? ≠ none → domain = certificate.id)
    (owed : Owed store certificate domain family key row) {db : Store} (there : (db family)[key]? = some row) :
    (write db part family)[key]? = some row := by
  rcases getElem?_write_cases db part family key with ⟨value, added, found⟩ | ⟨deleted, -⟩ | ⟨-, -, same⟩
  · obtain ⟨name, named, value_owed⟩ := partOf.puts family key value added
    cases belongs_unique named.plain covered.plain value_owed.belongs owed.belongs
    grind [Separable.agree]
  · -- The key belongs to the domain, so the certificate that deletes it has the domain as its ID: it is the same one.
    have plain := (wellFormed.certificates _ _ also.listed).1
    have equal := belongs_unique plain covered.plain (partOf.deletes family key deleted) owed.belongs
    have own := free (by grind [Legacy.listed])
    grind [Legacy.listed, PartOf.settles]
  · rw [same, there]

theorem Parts.carried (parts : Parts store batch batches tokens) (wellFormed : WellFormed store)
    (separable : Separable store) (legacy : Legacy store certificate) (covered : Covers certificate domain)
    (owed : Owed store certificate domain family key row) : (write store batch family)[key]? = some row := by
  have untouched : ∀ item ∈ tokens, Write.on family item = none := by
    intro item member
    obtain ⟨_, _, rfl⟩ := parts.tokens item member
    exact Write.on_put_of_ne owed.family_ne.symm _ _
  obtain ⟨part, member, partOf⟩ := parts.part certificate legacy
  rw [parts.whole, write_append, write_of_untouched untouched]
  refine @getElem?_write_flatten _ _ _ _ _ _ _ family key (· = some row) ?_ ?_ store
  · intro other inside db there
    obtain ⟨owner, also, otherPart⟩ := parts.legacy other inside
    grind [PartOf.keeps, PartOf.free]
  · grind [PartOf.settles]

/-- A certificate row afterwards: that of a legacy certificate's domain, or one that was migrated before. -/
theorem Parts.row_after (parts : Parts store batch batches tokens) (wellFormed : WellFormed store) {id : Text}
    {row : Json ManagedCertificate} (found : (write store batch .certificates)[id]? = some row) :
    (∃ certificate, Legacy store certificate ∧ Covers certificate id ∧
      row = .ok { certificate with id, domains := [id] }) ∨
      ∃ certificate, Migrated store certificate ∧ certificate.id = id ∧ row = .ok certificate := by
  rcases mem_or_of_getElem?_write found with put | ⟨before, kept⟩
  · obtain ⟨certificate, domain, legacy, covered, owed⟩ := parts.puts put (by decide)
    cases owed
    grind
  · obtain ⟨-, certificate, rfl, rfl⟩ := wellFormed.certificates id row before
    cases old : isLegacy certificate with
    | true => exact absurd (parts.removes ⟨before, old⟩) kept
    | false => exact .inr ⟨certificate, ⟨before, old⟩, rfl, rfl⟩

theorem Parts.untouched (parts : Parts store batch batches tokens) (wellFormed : WellFormed store)
    (migrated : Migrated store certificate) (own : Belongs certificate.id family key) :
    (write store batch family)[key]? = (store family)[key]? := by
  have plain := (wellFormed.certificates _ _ migrated.listed).1
  have other : ∀ old, Legacy store old → old.id ≠ certificate.id := by
    intro old legacy same
    cases legacy.eq_of_id migrated.listed same.symm
    cases legacy.legacy.symm.trans migrated.current
  rcases getElem?_write_cases store batch family key with ⟨value, put, -⟩ | ⟨deleted, -⟩ | ⟨-, -, same⟩
  · have foreign : family ≠ .tokens := by
      rintro rfl
      exact own
    obtain ⟨old, domain, legacy, covered, owed⟩ := parts.puts put foreign
    -- A new row under an existing ID has not passed the check.
    obtain ⟨part, -, partOf⟩ := parts.part old legacy
    have equal := belongs_unique covered.plain plain owed.belongs own
    have back := partOf.free domain covered (by grind [Migrated.listed])
    grind
  · obtain ⟨old, legacy, belongs⟩ := parts.deletes deleted
    exact absurd (belongs_unique (wellFormed.certificates _ _ legacy.listed).1 plain belongs own) (other old legacy)
  · exact same

theorem migrate_of_current {after : Store} (current : ∀ (id : Text) (row : Json ManagedCertificate),
    (after .certificates)[id]? = some row → ∃ certificate, row = .ok certificate ∧ isLegacy certificate = false) :
    migrateCertificatesToSingleDomainIds after = (.ok 0, after) := by
  have read : ∃ certificates, managedCertificates after = .ok certificates := by
    apply mapM_isOk_iff.mpr
    rintro ⟨id, row⟩ member
    obtain ⟨certificate, same, -⟩ := current id row (Std.ExtTreeMap.mem_toList_iff_getElem?_eq_some.mp member)
    exact ⟨certificate, same⟩
  obtain ⟨certificates, read⟩ := read
  have none : certificates.filter isLegacy = [] := by
    rw [List.filter_eq_nil_iff]
    intro certificate member
    obtain ⟨id, found⟩ := (mem_managedCertificates after read).mp member
    grind
  have batch : migrationBatch after = .ok (0, []) := by
    refine bind_eq_ok.mpr ⟨certificates, read, ?_⟩
    rw [none]
    rfl
  rw [migrateCertificatesToSingleDomainIds, batch]
  rfl

theorem Parts.lossless (parts : Parts store batch batches tokens) (wellFormed : WellFormed store)
    (separable : Separable store) : Lossless store (write store batch) where
  single := by grind [Parts.row_after, Separable.exact]
  carried := fun certificate legacy domain covered family key row owed =>
    parts.carried wellFormed separable legacy covered owed
  untouched := fun certificate migrated family key own => parts.untouched wellFormed migrated own
  settled := by
    apply migrate_of_current
    intro id row found
    rcases parts.row_after wellFormed found with ⟨certificate, legacy, covered, rfl⟩ | ⟨certificate, migrated, -, rfl⟩
    · grind [isLegacy, Separable.normal, Except.toOption]
    · exact ⟨certificate, rfl, migrated.current⟩

end Sufficient

section Necessary

variable {store after : Store}

theorem current_of_settled (settled : migrateCertificatesToSingleDomainIds after = (.ok 0, after)) {id : Text}
    {certificate : ManagedCertificate} (found : (after .certificates)[id]? = some (.ok certificate)) :
    isLegacy certificate = false := by
  unfold migrateCertificatesToSingleDomainIds at settled
  split at settled
  · cases settled
  · rename_i count batch made
    obtain ⟨certificates, parts, tokens, read, -, -, counted, -⟩ := migrationBatch_eq_ok made
    have none : count = 0 := Except.ok.inj (congrArg Prod.fst settled)
    grind [List.filter_eq_nil_iff, mem_managedCertificates]

theorem Lossless.separable (lossless : Lossless store after) : Separable store where
  exact := by
    intro certificate migrated
    have same := lossless.untouched certificate migrated .certificates certificate.id rfl
    grind [Lossless.single, Migrated.listed]
  normal := by
    intro certificate legacy domain covered
    have there := lossless.carried certificate legacy domain covered _ _ _ .settings
    simpa [isLegacy, toOption_eq_some] using current_of_settled lossless.settled there
  agree := by
    intro certificate other legacy also domain covered named family key row different owed second
    have first := lossless.carried certificate legacy domain covered family key row owed
    have again := lossless.carried other also domain named family key different second
    grind

end Necessary

section Failures

variable {store : Store}

theorem WellFormed.tokenPart_isOk (wellFormed : WellFormed store) (replacements : List (Text × List Text)) :
    ∃ tokens, tokenPart store replacements = .ok tokens := by
  have read : ∃ rows, decodedRows (store .tokens).toList = .ok rows := by
    apply decodedRows_isOk
    rintro ⟨key, row⟩ member
    exact wellFormed.tokens key row (Std.ExtTreeMap.mem_toList_iff_getElem?_eq_some.mp member)
  obtain ⟨rows, read⟩ := read
  exact ⟨_, bind_eq_ok.mpr ⟨rows, read, rfl⟩⟩

theorem WellFormed.certificatePart_isOk (wellFormed : WellFormed store) (free : ¬ Blocked store)
    {certificate : ManagedCertificate} (legacy : Legacy store certificate) {existingIds : List Text}
    (listed : ∀ id ∈ existingIds, (store .certificates)[id]? ≠ none) :
    ∃ part, certificatePart store existingIds certificate = .ok part := by
  have named : ∃ domains, certificate.domains.mapM normalizeDomain = .ok domains := by
    apply mapM_isOk_iff.mpr
    intro domain member
    by_contra unnamed
    exact free ⟨certificate, legacy, domain, member, .inl (not_exists.mp unnamed)⟩
  obtain ⟨domains, mapped⟩ := named
  obtain ⟨rows, read⟩ := wellFormed.ownedRows_isOk certificate.id
  refine ⟨_, bind_eq_ok.mpr ⟨domains, mapped, bind_eq_ok.mpr ⟨(), ?_, bind_eq_ok.mpr ⟨rows, read, rfl⟩⟩⟩⟩
  apply forM_eq_ok.mpr
  intro domain member
  refine require_eq_ok.mpr fun inside => ?_
  obtain ⟨old, there, normal⟩ := exists_of_mem_mapM mapped member
  by_contra other
  exact free ⟨certificate, legacy, old, there, .inr ⟨domain, normal, listed domain (List.contains_iff_mem.mp inside), other⟩⟩

theorem WellFormed.migrationBatch_isOk (wellFormed : WellFormed store) (free : ¬ Blocked store) :
    ∃ result, migrationBatch store = .ok result := by
  have read : ∃ certificates, managedCertificates store = .ok certificates := by
    apply mapM_isOk_iff.mpr
    rintro ⟨id, row⟩ member
    obtain ⟨-, certificate, same, -⟩ :=
      wellFormed.certificates id row (Std.ExtTreeMap.mem_toList_iff_getElem?_eq_some.mp member)
    exact ⟨certificate, same⟩
  obtain ⟨certificates, read⟩ := read
  have listed : ∀ id ∈ certificates.map ManagedCertificate.id, (store .certificates)[id]? ≠ none := by
    intro id member
    obtain ⟨certificate, inside, rfl⟩ := List.mem_map.mp member
    obtain ⟨id, found⟩ := (mem_managedCertificates store read).mp inside
    obtain ⟨-, _, same, rfl⟩ := wellFormed.certificates id _ found
    grind
  have parts : ∃ parts, (certificates.filter isLegacy).mapM
      (certificatePart store (certificates.map ManagedCertificate.id)) = .ok parts := by
    apply mapM_isOk_iff.mpr
    intro certificate member
    exact wellFormed.certificatePart_isOk free ((wellFormed.mem_legacy read).mp member) listed
  obtain ⟨parts, mapped⟩ := parts
  obtain ⟨tokens, last⟩ := wellFormed.tokenPart_isOk (replacements (certificates.filter isLegacy) parts).toList
  simp only [migrationBatch, bind_eq_ok]
  by_cases none : (certificates.filter isLegacy).isEmpty = true
  · exact ⟨(0, []), certificates, read, if_pos none⟩
  · refine ⟨((certificates.filter isLegacy).length, parts.flatMap Prod.snd ++ tokens), certificates, read, ?_⟩
    rw [if_neg none]
    exact bind_eq_ok.mpr ⟨parts, mapped, bind_eq_ok.mpr ⟨tokens, last, rfl⟩⟩

theorem Blocked.fails (blocked : Blocked store) (wellFormed : WellFormed store) :
    ∃ cause, migrationBatch store = .error cause := by
  cases made : migrationBatch store with
  | error cause => exact ⟨cause, rfl⟩
  | ok result =>
    obtain ⟨batches, tokens, parts⟩ := wellFormed.parts made
    obtain ⟨certificate, legacy, domain, member, either⟩ := blocked
    obtain ⟨part, -, partOf⟩ := parts.part certificate legacy
    rcases either with unnamed | ⟨name, normal, there, other⟩
    · grind [PartOf.named]
    · exact absurd (partOf.free name ⟨domain, member, normal⟩ there) other

end Failures

/-- The migration fails without a change or is lossless, exactly on stores that block it or can be separated. -/
theorem migration_lossless_iff {store : Store} (wellFormed : WellFormed store) :
    ((∃ cause, migrateCertificatesToSingleDomainIds store = (.error cause, store)) ∨
      ∃ count after, migrateCertificatesToSingleDomainIds store = (.ok count, after) ∧ Lossless store after) ↔
      Blocked store ∨ Separable store := by
  by_cases blocked : Blocked store
  · obtain ⟨cause, failed⟩ := blocked.fails wellFormed
    refine ⟨fun _ => .inl blocked, fun _ => .inl ⟨cause, ?_⟩⟩
    rw [migrateCertificatesToSingleDomainIds, failed]
  · obtain ⟨⟨count, batch⟩, made⟩ := wellFormed.migrationBatch_isOk blocked
    have done : migrateCertificatesToSingleDomainIds store = (.ok count, write store batch) := by
      rw [migrateCertificatesToSingleDomainIds, made]
    rw [done]
    constructor
    · grind [Lossless.separable]
    · grind [WellFormed.parts, Parts.lossless]

section Example

def holding (certificates : List ManagedCertificate) : Store :=
  write Store.empty (certificates.map fun certificate => .put .certificates certificate.id (.ok certificate))

theorem holding_cases {certificates : List ManagedCertificate} {id : Text} {row : Json ManagedCertificate}
    (found : (holding certificates .certificates)[id]? = some row) :
    ∃ certificate ∈ certificates, certificate.id = id ∧ row = .ok certificate := by
  rcases mem_or_of_getElem?_write found with put | ⟨absent, -⟩
  · grind
  · cases absent

theorem holding_of_ne (certificates : List ManagedCertificate) {family : ColumnFamily}
    (other : family ≠ .certificates) : holding certificates family = ∅ := by
  apply write_of_untouched
  intro item member
  obtain ⟨certificate, -, rfl⟩ := List.mem_map.mp member
  exact Write.on_put_of_ne other.symm _ _

theorem holding_wellFormed {certificates : List ManagedCertificate}
    (plain : ∀ certificate ∈ certificates, '\x00' ∉ certificate.id) : WellFormed (holding certificates) where
  certificates := by grind [holding_cases]
  generations := by simp [holding_of_ne]
  renewals := by simp [holding_of_ne]
  diagnostics := by simp [holding_of_ne]
  tokens := by simp [holding_of_ne]

def sharedName : Text := "shared.example".toList

def firstOwner : ManagedCertificate where
  id := "one".toList
  domains := [sharedName]
  providerId := "first".toList

def secondOwner : ManagedCertificate where
  id := "two".toList
  domains := [sharedName]
  providerId := "second".toList

/-- Two legacy certificates with one domain: the settings of the first are lost. -/
theorem shared_domain_loses_settings :
    WellFormed (holding [firstOwner, secondOwner]) ∧
    ¬ ((∃ cause, migrateCertificatesToSingleDomainIds (holding [firstOwner, secondOwner]) =
          (.error cause, holding [firstOwner, secondOwner])) ∨
      ∃ count after, migrateCertificatesToSingleDomainIds (holding [firstOwner, secondOwner]) = (.ok count, after) ∧
        Lossless (holding [firstOwner, secondOwner]) after) := by
  have summary : (migrateCertificatesToSingleDomainIds (holding [firstOwner, secondOwner])).1.toOption = some 2 ∧
      ((migrateCertificatesToSingleDomainIds (holding [firstOwner, secondOwner])).2 .certificates)[sharedName]? =
        some (.ok { secondOwner with id := sharedName, domains := [sharedName] }) := by
    decide +kernel
  have legacy : Legacy (holding [firstOwner, secondOwner]) firstOwner := ⟨by decide +kernel, by decide⟩
  refine ⟨holding_wellFormed (by decide), ?_⟩
  rintro (⟨cause, failed⟩ | ⟨count, after, done, lossless⟩)
  · rw [failed] at summary
    cases summary.1
  · rw [done] at summary
    have there := lossless.carried firstOwner legacy sharedName ⟨sharedName, by decide, by decide⟩ _ _ _ .settings
    cases there.symm.trans summary.2

def multiDomain : ManagedCertificate where
  id := "legacy-id".toList
  domains := ["one.example".toList, "two.example".toList]

theorem separable_multiDomain : Separable (holding [multiDomain]) where
  exact := by
    intro certificate migrated
    obtain ⟨_, member, -, same⟩ := holding_cases migrated.listed
    cases List.mem_singleton.mp member
    cases same
    cases migrated.current
  normal := by
    intro certificate legacy domain covered
    obtain ⟨_, member, -, same⟩ := holding_cases legacy.listed
    cases List.mem_singleton.mp member
    cases same
    obtain ⟨old, inside, normal⟩ := covered
    have each : ∀ old ∈ multiDomain.domains, normalizeDomain old = .ok old := by decide
    grind
  agree := by
    intro certificate other legacy also domain _ _ family key row different owed second
    obtain ⟨_, member, -, same⟩ := holding_cases legacy.listed
    cases List.mem_singleton.mp member
    cases same
    obtain ⟨_, member, -, same⟩ := holding_cases also.listed
    cases List.mem_singleton.mp member
    cases same
    cases owed with
    | settings =>
      cases second
      rfl
    | index =>
      cases second
      rfl
    | active generationId found => simp [holding_of_ne] at found
    | renewal renewal found => simp [holding_of_ne] at found
    | generation generationId generation found => simp [holding_of_ne] at found
    | diagnostic diagnostic found => simp [holding_of_ne] at found

/-- A certificate of two domains is split. -/
theorem migration_lossless_iff_multiDomain :
    WellFormed (holding [multiDomain]) ∧
    ((∃ cause, migrateCertificatesToSingleDomainIds (holding [multiDomain]) = (.error cause, holding [multiDomain])) ∨
      ∃ count after, migrateCertificatesToSingleDomainIds (holding [multiDomain]) = (.ok count, after) ∧
        Lossless (holding [multiDomain]) after) := by
  have wellFormed : WellFormed (holding [multiDomain]) := holding_wellFormed (by decide)
  exact ⟨wellFormed, (migration_lossless_iff wellFormed).mpr (.inr separable_multiDomain)⟩

end Example

end TlsProxy.Certificates
