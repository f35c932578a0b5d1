import TlsProxy.Store.Migration

/-! A token is limited to the certificates whose IDs it holds; one that holds none
is for every published certificate. -/
namespace TlsProxy.Certificates

open Config Checks Families

def RetrievalToken.admits (token : RetrievalToken) (id : Text) : Bool :=
  token.certificateIds.isEmpty || token.certificateIds.contains id

theorem admits_iff {token : RetrievalToken} {id : Text} :
    token.admits id = true ↔ token.certificateIds = ∅ ∨ id ∈ token.certificateIds := by
  grind [RetrievalToken.admits, Std.ExtTreeSet.isEmpty_iff]

/-- The domain is one of the certificate's, as it stands or as a normal form. -/
def Lists (certificate : ManagedCertificate) (domain : Text) : Prop :=
  domain ∈ certificate.domains ∨ Covers certificate domain

/-- Whatever certificate a token admits afterwards, it has admitted one with that domain before. -/
def NeverWidened (store after : Store) : Prop :=
  ∀ (key : Text) (token later : RetrievalToken),
    (store .tokens)[key]? = some (.ok token) → (after .tokens)[key]? = some (.ok later) →
    ∀ (id : Text) (certificate : ManagedCertificate) (domain : Text),
      (after .certificates)[id]? = some (.ok certificate) → domain ∈ certificate.domains →
      later.admits certificate.id = true →
      ∃ (oldId : Text) (old : ManagedCertificate), (store .certificates)[oldId]? = some (.ok old) ∧
        Lists old domain ∧ token.admits old.id = true

section Replacements

variable {list : List (Text × List Text)} {ids : Std.ExtTreeSet Text}

def replaceId (ids : Std.ExtTreeSet Text) (replacement : Text × List Text) : Std.ExtTreeSet Text :=
  if ids.contains replacement.1 then (ids.erase replacement.1).insertMany replacement.2 else ids

theorem replaceIds_fst (list : List (Text × List Text)) (ids : Std.ExtTreeSet Text) :
    (replaceIds list ids).1 = list.foldl replaceId ids := by
  have general : ∀ flag, (list.foldl (fun state replacement =>
      if state.1.contains replacement.1 then ((state.1.erase replacement.1).insertMany replacement.2, true)
      else state) (ids, flag)).1 = list.foldl replaceId ids := by
    induction list generalizing ids with
    | nil => exact fun _ => rfl
    | cons replacement rest ih =>
      intro flag
      rw [List.foldl_cons, List.foldl_cons, replaceId]
      split
      · exact ih _ true
      · exact ih _ flag
  exact general false

theorem replaceIds_unchanged (unchanged : (replaceIds list ids).2 = false) : (replaceIds list ids).1 = ids := by
  have general : ∀ list ids flag, (List.foldl (fun (state : Std.ExtTreeSet Text × Bool) (replacement : Text × List Text) =>
      if state.1.contains replacement.1 then ((state.1.erase replacement.1).insertMany replacement.2, true)
      else state) (ids, flag) list).2 = false → flag = false ∧ list.foldl replaceId ids = ids := by
    intro list
    induction list with
    | nil => exact fun _ _ kept => ⟨kept, rfl⟩
    | cons replacement rest ih =>
      intro ids flag
      rw [List.foldl_cons, List.foldl_cons, replaceId]
      split
      · grind
      · exact ih ids flag
  rw [replaceIds_fst]
  exact (general list ids false unchanged).2

theorem mem_replaceId {replacement : Text × List Text} {id : Text} :
    id ∈ replaceId ids replacement ↔ id ∈ ids ∧ id ≠ replacement.1 ∨ replacement.1 ∈ ids ∧ id ∈ replacement.2 ∨
      replacement.1 ∉ ids ∧ id ∈ ids := by
  unfold replaceId
  split
  · grind
  · rename_i absent
    grind

/-- A new ID is not the old one of another certificate, and no old ID occurs twice. -/
structure Separate (list : List (Text × List Text)) : Prop where
  distinct : (list.map Prod.fst).Nodup
  apart : ∀ first ∈ list, ∀ second ∈ list, second.1 ∈ first.2 → second = first

theorem mem_replaceIds (separate : Separate list) {id : Text} :
    id ∈ (replaceIds list ids).1 ↔
      id ∈ ids ∧ id ∉ list.map Prod.fst ∨ ∃ replacement ∈ list, replacement.1 ∈ ids ∧ id ∈ replacement.2 := by
  rw [replaceIds_fst]
  induction list generalizing ids with
  | nil => simp
  | cons first rest ih =>
    obtain ⟨fresh, distinct⟩ := List.nodup_cons.mp separate.distinct
    have later : Separate rest := by
      refine ⟨distinct, fun one inside other also => ?_⟩
      grind [Separate.apart]
    -- The old IDs of the rest are neither the first one nor among its new IDs.
    have other : ∀ replacement ∈ rest, replacement.1 ≠ first.1 ∧ replacement.1 ∉ first.2 := by
      grind [Separate.apart, List.mem_cons_self]
    have new : ∀ id ∈ first.2, id ∉ rest.map Prod.fst := by grind
    have same : ∀ replacement ∈ rest, (replacement.1 ∈ replaceId ids first ↔ replacement.1 ∈ ids) := by
      intro replacement inside
      obtain ⟨different, unlisted⟩ := other replacement inside
      rw [mem_replaceId]
      constructor
      · grind
      · grind
    rw [List.foldl_cons, ih later, mem_replaceId, List.exists_mem_cons_iff, List.map_cons, List.mem_cons]
    have changed : (∃ replacement ∈ rest, replacement.1 ∈ replaceId ids first ∧ id ∈ replacement.2) ↔
        ∃ replacement ∈ rest, replacement.1 ∈ ids ∧ id ∈ replacement.2 :=
      exists_congr fun replacement => and_congr_right fun inside => and_congr_left' (same replacement inside)
    rw [changed]
    refine (or_congr_left ⟨?_, ?_⟩).trans or_assoc
    · rintro ⟨⟨there, different⟩ | added | ⟨absent, there⟩, unlisted⟩
      · grind
      · exact .inr added
      · grind
    · rintro (⟨there, unlisted⟩ | ⟨there, added⟩)
      · grind
      · grind

end Replacements

/-- The certificate of one of the domains of a legacy certificate. -/
def ManagedCertificate.only (certificate : ManagedCertificate) (domain : Text) : ManagedCertificate :=
  { certificate with id := domain, domains := [domain] }

structure Splits (certificate : ManagedCertificate) (part : List Write) : Prop where
  puts : ∀ (key : Text) (row : Json ManagedCertificate), .put .certificates key row ∈ part →
    Covers certificate key ∧ row = .ok (certificate.only key)
  deletes : ∀ key, .delete .certificates key ∈ part → key = certificate.id
  tokens : ∀ item ∈ part, Write.on .tokens item = none
  makes : ∀ (db : Store) (key : Text), Covers certificate key →
    (write db part .certificates)[key]? = some (.ok (certificate.only key))

section Rows

variable {store : Store} {certificate : ManagedCertificate} {existingIds : List Text}
  {part : List Text × List Write}

theorem mem_names (made : certificatePart store existingIds certificate = .ok part) {name : Text} :
    name ∈ part.1 ↔ Covers certificate name := by
  obtain ⟨names, mapped, made⟩ := bind_eq_ok.mp made
  obtain ⟨⟨⟩, -, made⟩ := bind_eq_ok.mp made
  obtain ⟨rows, -, made⟩ := bind_eq_ok.mp made
  cases made
  constructor
  · exact exists_of_mem_mapM mapped
  · rintro ⟨domain, member, normal⟩
    exact mem_of_mapM mapped member normal

theorem named_of_part (made : certificatePart store existingIds certificate = .ok part) {domain : Text}
    (member : domain ∈ certificate.domains) : ∃ name ∈ part.1, normalizeDomain domain = .ok name := by
  obtain ⟨names, mapped, -⟩ := bind_eq_ok.mp made
  obtain ⟨name, normal⟩ := mapM_isOk_iff.mp ⟨names, mapped⟩ domain member
  exact ⟨name, (mem_names made).mpr ⟨domain, member, normal⟩, normal⟩

theorem free_of_part (made : certificatePart store existingIds certificate = .ok part) {name : Text}
    (covered : Covers certificate name) (existing : name ∈ existingIds) : name = certificate.id := by
  have listed := (mem_names made).mpr covered
  obtain ⟨names, mapped, made⟩ := bind_eq_ok.mp made
  obtain ⟨⟨⟩, checked, made⟩ := bind_eq_ok.mp made
  obtain ⟨rows, -, made⟩ := bind_eq_ok.mp made
  cases made
  exact require_eq_ok.mp (forM_eq_ok.mp checked name listed) (List.contains_iff_mem.mpr existing)

theorem splits_of_part (made : certificatePart store existingIds certificate = .ok part) : Splits certificate part.2 := by
  have names := fun name => @mem_names _ _ _ _ made name
  obtain ⟨domains, mapped, made⟩ := bind_eq_ok.mp made
  obtain ⟨⟨⟩, -, made⟩ := bind_eq_ok.mp made
  obtain ⟨rows, -, made⟩ := bind_eq_ok.mp made
  cases made
  have puts : ∀ (key : Text) (row : Json ManagedCertificate),
      .put .certificates key row ∈ domains.flatMap (split certificate rows) →
      key ∈ domains ∧ row = .ok (certificate.only key) := by
    intro key row put
    obtain ⟨domain, inside, put⟩ := List.mem_flatMap.mp put
    simp only [split, List.mem_append, List.mem_cons, List.not_mem_nil, or_false, List.mem_map] at put
    rcases put with ((((same | same) | ⟨_, _, same⟩) | ⟨_, _, same⟩) | ⟨_, _, same⟩) | ⟨_, _, same⟩ <;> cases same
    exact ⟨inside, rfl⟩
  have noDeletes : ∀ key, Write.delete .certificates key ∉ domains.flatMap (split certificate rows) := by
    grind [delete_not_mem_split]
  refine ⟨?_, ?_, ?_, ?_⟩
  · grind [put_not_mem_removals]
  · intro key deleted
    rcases List.mem_append.mp deleted with removed | added
    · simp only [removals, List.mem_append, List.mem_cons, List.not_mem_nil, or_false, List.mem_map] at removed
      grind
    · exact absurd added (noDeletes key)
  · intro item member
    rcases List.mem_append.mp member with removed | added
    · simp only [removals, List.mem_append, List.mem_cons, List.not_mem_nil, or_false, List.mem_map] at removed
      rcases removed with ((rfl | rfl | rfl) | ⟨_, _, rfl⟩) | ⟨_, _, rfl⟩ <;> simp
    · obtain ⟨domain, -, added⟩ := List.mem_flatMap.mp added
      simp only [split, List.mem_append, List.mem_cons, List.not_mem_nil, or_false, List.mem_map] at added
      rcases added with ((((rfl | rfl) | ⟨_, _, rfl⟩) | ⟨_, _, rfl⟩) | ⟨_, _, rfl⟩) | ⟨_, _, rfl⟩ <;> simp
  · intro db key covered
    rw [write_append]
    rcases getElem?_write_cases (write db (removals certificate rows)) (domains.flatMap (split certificate rows))
      .certificates key with ⟨row, put, found⟩ | ⟨deleted, -⟩ | ⟨none, -⟩
    · rw [found, (puts key row put).2]
    · exact absurd deleted (noDeletes key)
    · refine absurd (List.mem_flatMap.mpr ⟨key, (names key).mpr covered, ?_⟩) (none (.ok (certificate.only key)))
      simp [split, ManagedCertificate.only]

end Rows

structure Migration (store : Store) (list : List (Text × List Text)) (after : Store) : Prop where
  separate : Separate list
  replaced : ∀ (key : Text) (token : RetrievalToken), (store .tokens)[key]? = some (.ok token) →
    (after .tokens)[key]? = some (.ok { token with certificateIds := (replaceIds list token.certificateIds).1 })
  /-- The new IDs are the domains of a legacy certificate with the old ID. -/
  names : ∀ replacement ∈ list, ∃ (id : Text) (certificate : ManagedCertificate),
    (store .certificates)[id]? = some (.ok certificate) ∧ isLegacy certificate = true ∧
    certificate.id = replacement.1 ∧ (∀ name, name ∈ replacement.2 ↔ Covers certificate name) ∧
    ∀ domain ∈ certificate.domains, ∃ name ∈ replacement.2, normalizeDomain domain = .ok name
  listed : ∀ (id : Text) (certificate : ManagedCertificate), (store .certificates)[id]? = some (.ok certificate) →
    isLegacy certificate = true → certificate.id ∈ list.map Prod.fst
  free : ∀ (id other : Text) (certificate existing : ManagedCertificate) (name : Text),
    (store .certificates)[id]? = some (.ok certificate) → isLegacy certificate = true → Covers certificate name →
    (store .certificates)[other]? = some (.ok existing) → existing.id = name → name = certificate.id
  rows : ∀ (id : Text) (certificate : ManagedCertificate), (after .certificates)[id]? = some (.ok certificate) →
    (store .certificates)[id]? = some (.ok certificate) ∨
      ∃ (other : Text) (legacy : ManagedCertificate), (store .certificates)[other]? = some (.ok legacy) ∧
        isLegacy legacy = true ∧ Covers legacy id ∧ certificate = legacy.only id

section Whole

variable {store : Store} {count : Nat} {batch : List Write}

theorem mem_replacements {legacy : List ManagedCertificate} {parts : List (List Text × List Write)} {old : Text}
    {new : List Text} (listed : (old, new) ∈ (replacements legacy parts).toList) :
    ∃ pair ∈ legacy.zip parts, pair.1.id = old ∧ pair.2.1 = new := by
  have found := Std.ExtTreeMap.mem_toList_iff_getElem?_eq_some.mp listed
  rcases getElem?_assignAll_cases ∅ ((legacy.zip parts).map fun pair => (pair.1.id, some pair.2.1)) old with
    ⟨change, member, rfl, same⟩ | ⟨-, same⟩
  · obtain ⟨pair, inside, rfl⟩ := List.mem_map.mp member
    exact ⟨pair, inside, rfl, Option.some.inj (same.symm.trans found)⟩
  · cases same.symm.trans found

theorem exists_zip_of_mem {α β : Type} {related : α → β → Prop} {xs : List α} {ys : List β}
    (all : List.Forall₂ related xs ys) {x : α} (member : x ∈ xs) : ∃ y, (x, y) ∈ xs.zip ys := by
  induction all with
  | nil => cases member
  | cons first later ih => grind

/-- The legacy certificates of a store with their parts of the batch, and the writes of tokens. -/
structure Parted (store : Store) (certificates : List ManagedCertificate) (parts : List (List Text × List Write))
    (tokens : List Write) : Prop where
  read : managedCertificates store = .ok certificates
  mapped : (certificates.filter isLegacy).mapM (certificatePart store (certificates.map ManagedCertificate.id)) = .ok parts
  replaced : parts = [] ∧ tokens = [] ∨
    tokenPart store (replacements (certificates.filter isLegacy) parts).toList = .ok tokens

variable {certificates : List ManagedCertificate} {parts : List (List Text × List Write)} {tokens : List Write}

theorem Parted.mem_legacy (parted : Parted store certificates parts tokens) {certificate : ManagedCertificate} :
    certificate ∈ certificates.filter isLegacy ↔
      (∃ id : Text, (store .certificates)[id]? = some (.ok certificate)) ∧ isLegacy certificate = true := by
  rw [List.mem_filter, mem_managedCertificates store parted.read]

theorem Parted.mem_ids (parted : Parted store certificates parts tokens) {id : Text} {certificate : ManagedCertificate}
    (found : (store .certificates)[id]? = some (.ok certificate)) :
    certificate.id ∈ certificates.map ManagedCertificate.id :=
  List.mem_map_of_mem ((mem_managedCertificates store parted.read).mpr ⟨id, found⟩)

theorem Parted.of_pair (parted : Parted store certificates parts tokens)
    {pair : ManagedCertificate × (List Text × List Write)}
    (zipped : pair ∈ (certificates.filter isLegacy).zip parts) :
    (∃ id : Text, (store .certificates)[id]? = some (.ok pair.1)) ∧ isLegacy pair.1 = true ∧
      certificatePart store (certificates.map ManagedCertificate.id) pair.1 = .ok pair.2 := by
  obtain ⟨found, legacy⟩ := parted.mem_legacy.mp (List.of_mem_zip zipped).1
  exact ⟨found, legacy, (List.forall₂_iff_zip.mp (mapM_eq_ok.mp parted.mapped)).2 zipped⟩

theorem Parted.exists_part (parted : Parted store certificates parts tokens) {id : Text}
    {certificate : ManagedCertificate} (found : (store .certificates)[id]? = some (.ok certificate))
    (legacy : isLegacy certificate = true) :
    ∃ part, (certificate, part) ∈ (certificates.filter isLegacy).zip parts :=
  exists_zip_of_mem (mapM_eq_ok.mp parted.mapped) (parted.mem_legacy.mpr ⟨⟨id, found⟩, legacy⟩)

theorem Parted.splits (parted : Parted store certificates parts tokens) {part : List Write}
    (member : part ∈ parts.map Prod.snd) : ∃ certificate : ManagedCertificate,
      (∃ id : Text, (store .certificates)[id]? = some (.ok certificate)) ∧ isLegacy certificate = true ∧
        Splits certificate part := by
  obtain ⟨found, listed, rfl⟩ := List.mem_map.mp member
  obtain ⟨certificate, first, made⟩ := exists_of_mem_mapM parted.mapped listed
  obtain ⟨there, legacy⟩ := parted.mem_legacy.mp first
  exact ⟨certificate, there, legacy, splits_of_part made⟩

theorem Parted.separate (parted : Parted store certificates parts tokens) :
    Separate (replacements (certificates.filter isLegacy) parts).toList where
  distinct := by
    rw [List.Nodup, List.pairwise_map]
    refine Std.ExtTreeMap.distinct_keys_toList.imp fun different same => different ?_
    rw [same]
    exact Std.ReflCmp.compare_self
  apart := by
    rintro first one second other clash
    obtain ⟨pair, zipped, old, new⟩ := mem_replacements one
    obtain ⟨also, zippedToo, oldToo, -⟩ := mem_replacements other
    obtain ⟨-, -, part⟩ := parted.of_pair zipped
    obtain ⟨⟨key, found⟩, -⟩ := parted.of_pair zippedToo
    have covered := (mem_names part).mp (new ▸ clash)
    grind [Parted.mem_ids, free_of_part]

theorem Parted.key_mem (parted : Parted store certificates parts tokens) {id : Text} {certificate : ManagedCertificate}
    (found : (store .certificates)[id]? = some (.ok certificate)) (legacy : isLegacy certificate = true) :
    certificate.id ∈ (replacements (certificates.filter isLegacy) parts).toList.map Prod.fst := by
  obtain ⟨part, zipped⟩ := parted.exists_part found legacy
  have change := List.mem_map_of_mem (f := fun pair : ManagedCertificate × (List Text × List Write) =>
    (pair.1.id, some pair.2.1)) zipped
  rcases getElem?_assignAll_cases ∅ (((certificates.filter isLegacy).zip parts).map fun pair =>
    (pair.1.id, some pair.2.1)) certificate.id with ⟨other, member, -, same⟩ | ⟨untouched, -⟩
  · obtain ⟨pair, -, rfl⟩ := List.mem_map.mp member
    exact List.mem_map.mpr ⟨(certificate.id, pair.2.1), Std.ExtTreeMap.mem_toList_iff_getElem?_eq_some.mpr same, rfl⟩
  · exact absurd rfl (untouched _ change)

theorem Parted.token_after (parted : Parted store certificates parts tokens) {key : Text} {token : RetrievalToken}
    (found : (store .tokens)[key]? = some (.ok token)) :
    (write store ((parts.map Prod.snd).flatten ++ tokens) .tokens)[key]? = some (.ok { token with
      certificateIds :=
        (replaceIds (replacements (certificates.filter isLegacy) parts).toList token.certificateIds).1 }) := by
  have untouched : ∀ item ∈ (parts.map Prod.snd).flatten, Write.on .tokens item = none := by
    intro item member
    obtain ⟨part, inside, member⟩ := List.mem_flatten.mp member
    grind [Parted.splits, Splits.tokens]
  rw [write_append, write, write_of_untouched untouched, ← write]
  rcases parted.replaced with ⟨rfl, rfl⟩ | made
  · rw [replacements, List.zip_nil_right]
    exact found
  rcases getElem?_write_cases store tokens .tokens key with ⟨row, put, same⟩ | ⟨deleted, -⟩ | ⟨kept, -, same⟩
  · obtain ⟨other, stored, there, -, equal⟩ := (mem_tokenPart made).mp put
    grind
  · obtain ⟨_, _, _, _, equal⟩ := (mem_tokenPart made).mp deleted
    cases equal
  · rw [same, found, replaceIds_unchanged]
    by_contra changed
    exact kept _ ((mem_tokenPart made).mpr ⟨key, token, found, Bool.eq_true_of_not_eq_false changed, rfl⟩)

theorem Parted.row_after (parted : Parted store certificates parts tokens) {id : Text} {certificate : ManagedCertificate}
    (found : (write store ((parts.map Prod.snd).flatten ++ tokens) .certificates)[id]? = some (.ok certificate)) :
    (store .certificates)[id]? = some (.ok certificate) ∨
      ∃ (other : Text) (legacy : ManagedCertificate), (store .certificates)[other]? = some (.ok legacy) ∧
        isLegacy legacy = true ∧ Covers legacy id ∧ certificate = legacy.only id := by
  rcases mem_or_of_getElem?_write found with put | ⟨before, -⟩
  · rcases List.mem_append.mp put with inside | token
    · obtain ⟨part, member, put⟩ := List.mem_flatten.mp inside
      grind [Parted.splits, Splits.puts]
    · rcases parted.replaced with ⟨-, rfl⟩ | made
      · cases token
      · obtain ⟨_, _, _, _, equal⟩ := (mem_tokenPart made).mp token
        cases equal
  · exact .inl before

theorem Parted.migration (parted : Parted store certificates parts tokens) :
    Migration store (replacements (certificates.filter isLegacy) parts).toList
      (write store ((parts.map Prod.snd).flatten ++ tokens)) where
  separate := parted.separate
  replaced := fun _ _ => parted.token_after
  names := by
    rintro replacement listed
    obtain ⟨pair, zipped, old, new⟩ := mem_replacements listed
    obtain ⟨⟨id, found⟩, legacy, made⟩ := parted.of_pair zipped
    rw [← new]
    exact ⟨id, pair.1, found, legacy, old, fun name => mem_names made, fun domain => named_of_part made⟩
  listed := fun _ _ => parted.key_mem
  free := by
    intro id other certificate existing name found legacy covered there same
    obtain ⟨part, zipped⟩ := parted.exists_part found legacy
    obtain ⟨-, -, made⟩ := parted.of_pair zipped
    exact free_of_part made covered (same ▸ parted.mem_ids there)
  rows := fun _ _ => parted.row_after

end Whole

/-- A token with a scope keeps one: it holds an ID under which there is no certificate without domains, or there are
no domains at all. And an ID in it that is the domain of a legacy certificate is the ID of a certificate, or the
domain of one that the token admits. -/
def ScopesHold (store : Store) : Prop :=
  ∀ (key : Text) (token : RetrievalToken), (store .tokens)[key]? = some (.ok token) → token.certificateIds ≠ ∅ →
    ((∃ id ∈ token.certificateIds, ∀ (row : Text) (certificate : ManagedCertificate),
        (store .certificates)[row]? = some (.ok certificate) → certificate.id = id → certificate.domains ≠ []) ∨
      ∀ (row : Text) (certificate : ManagedCertificate), (store .certificates)[row]? = some (.ok certificate) →
        certificate.domains = []) ∧
    ∀ (row : Text) (certificate : ManagedCertificate), (store .certificates)[row]? = some (.ok certificate) →
      isLegacy certificate = true → ∀ name, Covers certificate name → name ∈ token.certificateIds →
      (∃ (other : Text) (existing : ManagedCertificate), (store .certificates)[other]? = some (.ok existing) ∧
        existing.id = name) ∨
      ∃ (other : Text) (old : ManagedCertificate), (store .certificates)[other]? = some (.ok old) ∧ Lists old name ∧
        old.id ∈ token.certificateIds

section Scopes

variable {store after : Store} {list : List (Text × List Text)} {token : RetrievalToken}

theorem Migration.replaceIds_ne_empty (migration : Migration store list after) {id : Text}
    (there : id ∈ token.certificateIds)
    (named : ∀ (row : Text) (certificate : ManagedCertificate), (store .certificates)[row]? = some (.ok certificate) →
      certificate.id = id → certificate.domains ≠ []) :
    (replaceIds list token.certificateIds).1 ≠ ∅ := by
  intro empty
  have none : ∀ other, other ∉ (replaceIds list token.certificateIds).1 := by grind
  simp only [mem_replaceIds migration.separate] at none
  by_cases old : id ∈ list.map Prod.fst
  · obtain ⟨replacement, listed, rfl⟩ := List.mem_map.mp old
    obtain ⟨row, certificate, found, -, same, -, names⟩ := migration.names replacement listed
    obtain ⟨domain, inside⟩ := List.exists_mem_of_ne_nil _ (named row certificate found same)
    grind
  · exact none id (.inl ⟨there, old⟩)

theorem Migration.neverWidened (migration : Migration store list after) (hold : ScopesHold store) :
    NeverWidened store after := by
  intro key token later before afterwards id certificate domain stored member admitted
  cases (migration.replaced key token before).symm.trans afterwards
  have origin := migration.rows id certificate stored
  by_cases unlimited : token.certificateIds = ∅
  · rcases origin with unchanged | ⟨other, legacy, found, -, covered, rfl⟩
    · exact ⟨id, certificate, unchanged, .inl member, admits_iff.mpr (.inl unlimited)⟩
    · cases List.mem_singleton.mp member
      exact ⟨other, legacy, found, .inr covered, admits_iff.mpr (.inl unlimited)⟩
  obtain ⟨kept, dangling⟩ := hold key token before unlimited
  rcases admits_iff.mp admitted with empty | inside
  · rcases kept with ⟨other, there, named⟩ | unnamed
    · exact absurd empty (migration.replaceIds_ne_empty there named)
    · rcases origin with unchanged | ⟨other, legacy, found, -, ⟨old, listed, -⟩, rfl⟩
      · grind
      · grind
  · rcases (mem_replaceIds migration.separate).mp inside with ⟨there, fresh⟩ | ⟨replacement, listed, there, new⟩
    · rcases origin with unchanged | ⟨other, legacy, found, old, covered, rfl⟩
      · exact ⟨id, certificate, unchanged, .inl member, admits_iff.mpr (.inr there)⟩
      · cases List.mem_singleton.mp member
        rcases dangling other legacy found old id covered there with ⟨row, existing, also, same⟩ |
          ⟨row, admittedOld, also, lists, there⟩
        · have own := migration.free other row legacy existing id found old covered also same
          exact absurd (migration.listed other legacy found old) (own ▸ fresh)
        · exact ⟨row, admittedOld, also, lists, admits_iff.mpr (.inr there)⟩
    · obtain ⟨other, legacy, found, old, same, names, -⟩ := migration.names replacement listed
      have covered := (names _).mp new
      rcases origin with unchanged | ⟨row, source, -, -, -, rfl⟩
      · have own := migration.free other id legacy certificate _ found old covered unchanged rfl
        refine ⟨id, certificate, unchanged, .inl member, admits_iff.mpr (.inr ?_)⟩
        rw [own, same]
        exact there
      · cases List.mem_singleton.mp member
        exact ⟨other, legacy, found, .inr covered, admits_iff.mpr (.inr (same ▸ there))⟩

end Scopes

def Filed (store : Store) : Prop :=
  ∀ (id : Text) (certificate : ManagedCertificate), (store .certificates)[id]? = some (.ok certificate) →
    certificate.id = id

section Filed

variable {store : Store} {certificates : List ManagedCertificate} {parts : List (List Text × List Write)}
  {tokens : List Write}

theorem Parted.write_certificates (parted : Parted store certificates parts tokens) :
    write store ((parts.map Prod.snd).flatten ++ tokens) .certificates =
      write store (parts.map Prod.snd).flatten .certificates := by
  rw [write_append]
  apply write_of_untouched
  intro item member
  rcases parted.replaced with ⟨-, rfl⟩ | made
  · cases member
  · grind [mem_tokenPart, Write.on_put_of_ne]

theorem Filed.eq_of_id (filed : Filed store) {id other : Text} {first second : ManagedCertificate}
    (one : (store .certificates)[id]? = some (.ok first)) (two : (store .certificates)[other]? = some (.ok second))
    (same : first.id = second.id) : first = second := by
  rw [filed id first one, filed other second two] at same
  subst same
  cases one.symm.trans two
  rfl

theorem Parted.made_after (parted : Parted store certificates parts tokens) (filed : Filed store) {id name : Text}
    {legacy : ManagedCertificate} (found : (store .certificates)[id]? = some (.ok legacy))
    (old : isLegacy legacy = true) (covered : Covers legacy name) :
    ∃ new : ManagedCertificate, (write store ((parts.map Prod.snd).flatten ++ tokens) .certificates)[name]? =
      some (.ok new) ∧ new.id = name ∧ new.domains = [name] := by
  rw [parted.write_certificates]
  obtain ⟨part, zipped⟩ := parted.exists_part found old
  obtain ⟨-, -, made⟩ := parted.of_pair zipped
  refine @getElem?_write_flatten _ _ _ _ _ _ _ .certificates name (fun row => ∃ new : ManagedCertificate,
    row = some (.ok new) ∧ new.id = name ∧ new.domains = [name]) ?_ ?_ store
  · intro batch member db there
    obtain ⟨other, ⟨key, stored⟩, also, splits⟩ := parted.splits member
    rcases getElem?_write_cases db batch .certificates name with ⟨row, put, same⟩ | ⟨deleted, -⟩ | ⟨-, -, same⟩
    · obtain ⟨-, rfl⟩ := splits.puts name row put
      exact ⟨_, same, rfl, rfl⟩
    · -- The ID that is deleted is a domain of the first certificate, so the two are one.
      have own := splits.deletes name deleted
      have back := free_of_part made covered (own ▸ parted.mem_ids stored)
      cases filed.eq_of_id stored found (own.symm.trans back)
      exact ⟨_, splits.makes db name covered, rfl, rfl⟩
    · rw [same]
      exact there
  · refine ⟨part.2, List.mem_map_of_mem (List.of_mem_zip zipped).2, fun db => ?_⟩
    exact ⟨_, (splits_of_part made).makes db name covered, rfl, rfl⟩

theorem Parted.kept_after (parted : Parted store certificates parts tokens) (filed : Filed store) {id : Text}
    {certificate : ManagedCertificate} (found : (store .certificates)[id]? = some (.ok certificate))
    (current : isLegacy certificate = false) :
    (write store ((parts.map Prod.snd).flatten ++ tokens) .certificates)[id]? = some (.ok certificate) := by
  have named := filed id certificate found
  have other : ∀ (key : Text) (legacy : ManagedCertificate), (store .certificates)[key]? = some (.ok legacy) →
      isLegacy legacy = true → legacy.id ≠ id := by
    intro key legacy stored old same
    cases filed.eq_of_id stored found (same.trans named.symm)
    cases old.symm.trans current
  rw [parted.write_certificates]
  rcases getElem?_write_cases store (parts.map Prod.snd).flatten .certificates id with ⟨row, put, -⟩ | ⟨deleted, -⟩ |
    ⟨-, -, same⟩
  · obtain ⟨part, member, put⟩ := List.mem_flatten.mp put
    obtain ⟨legacy, ⟨key, stored⟩, old, splits⟩ := parted.splits member
    obtain ⟨part, zipped⟩ := parted.exists_part stored old
    obtain ⟨-, -, made⟩ := parted.of_pair zipped
    have back := free_of_part made (splits.puts id row put).1 (named ▸ parted.mem_ids found)
    grind
  · obtain ⟨part, member, deleted⟩ := List.mem_flatten.mp deleted
    grind [Parted.splits, Splits.deletes]
  · rw [same, found]

/-- A domain of a certificate is the domain of one afterwards, in its normal form if it has been migrated. -/
theorem Parted.domain_after (parted : Parted store certificates parts tokens) (filed : Filed store) {id domain : Text}
    {certificate : ManagedCertificate} (found : (store .certificates)[id]? = some (.ok certificate))
    (member : domain ∈ certificate.domains) :
    ∃ (key name : Text) (new : ManagedCertificate),
      (write store ((parts.map Prod.snd).flatten ++ tokens) .certificates)[key]? = some (.ok new) ∧
        name ∈ new.domains := by
  cases old : isLegacy certificate with
  | false => exact ⟨id, domain, certificate, parted.kept_after filed found old, member⟩
  | true =>
    obtain ⟨part, zipped⟩ := parted.exists_part found old
    obtain ⟨-, -, made⟩ := parted.of_pair zipped
    obtain ⟨name, -, normal⟩ := named_of_part made member
    obtain ⟨new, stored, -, single⟩ := parted.made_after filed found old ⟨domain, member, normal⟩
    exact ⟨name, name, new, stored, by grind⟩

theorem not_lists_of_bare {certificate : ManagedCertificate} (bare : certificate.domains = []) (domain : Text) :
    ¬ Lists certificate domain := by
  rintro (member | ⟨_, member, -⟩) <;> rw [bare] at member <;> cases member

theorem Migration.replaceIds_eq_empty {list : List (Text × List Text)} {after : Store} {token : RetrievalToken}
    (migration : Migration store list after) (filed : Filed store)
    (bare : ∀ id ∈ token.certificateIds, ∃ (row : Text) (certificate : ManagedCertificate),
      (store .certificates)[row]? = some (.ok certificate) ∧ certificate.id = id ∧ certificate.domains = []) :
    (replaceIds list token.certificateIds).1 = ∅ := by
  refine Std.ExtTreeSet.ext_mem fun id => ?_
  rw [mem_replaceIds migration.separate]
  constructor
  · rintro (⟨there, fresh⟩ | ⟨replacement, listed, there, new⟩)
    · obtain ⟨row, certificate, found, rfl, empty⟩ := bare id there
      grind [isLegacy, Migration.listed]
    · obtain ⟨row, certificate, found, same, empty⟩ := bare _ there
      obtain ⟨other, legacy, also, -, named, names, -⟩ := migration.names replacement listed
      cases filed.eq_of_id found also (same.trans named.symm)
      exact absurd (.inr ((names id).mp new)) (not_lists_of_bare empty id)
  · simp

theorem Parted.scopesHold (parted : Parted store certificates parts tokens) (filed : Filed store)
    (never : NeverWidened store (write store ((parts.map Prod.snd).flatten ++ tokens))) : ScopesHold store := by
  intro key token before limited
  have migration := parted.migration
  have afterwards := migration.replaced key token before
  constructor
  · by_contra neither
    obtain ⟨unnamed, named⟩ := not_or.mp neither
    have bare : ∀ id ∈ token.certificateIds, ∃ (row : Text) (certificate : ManagedCertificate),
        (store .certificates)[row]? = some (.ok certificate) ∧ certificate.id = id ∧ certificate.domains = [] := by
      grind
    simp only [not_forall] at named
    obtain ⟨row, certificate, found, domains⟩ := named
    obtain ⟨domain, member⟩ := List.exists_mem_of_ne_nil _ domains
    obtain ⟨other, name, new, stored, inside⟩ := parted.domain_after filed found member
    have empty := migration.replaceIds_eq_empty filed bare
    obtain ⟨oldRow, old, there, lists, admitted⟩ :=
      never key token _ before afterwards other new name stored inside (admits_iff.mpr (.inl empty))
    obtain ⟨bareRow, bareOne, also, same, nothing⟩ := bare old.id ((admits_iff.mp admitted).resolve_left limited)
    cases filed.eq_of_id also there same
    exact not_lists_of_bare nothing name lists
  · intro row certificate found old name covered there
    refine or_iff_not_imp_left.mpr fun unknown => ?_
    obtain ⟨new, stored, named, single⟩ := parted.made_after filed found old covered
    have fresh : name ∉ (replacements (certificates.filter isLegacy) parts).toList.map Prod.fst := by
      grind [Migration.names]
    have admitted := (mem_replaceIds migration.separate).mpr (.inl ⟨there, fresh⟩)
    obtain ⟨oldRow, old, stored, lists, admitted⟩ := never key token _ before afterwards name new name stored
      (by grind) (admits_iff.mpr (.inr (named.symm ▸ admitted)))
    exact ⟨oldRow, old, stored, lists, (admits_iff.mp admitted).resolve_left limited⟩

end Filed

/-- Migration and token scopes: a migration that fails changes nothing; one that succeeds widens no token where the
scopes hold, and where certificates are stored under their IDs only there. -/
theorem migration_never_widens_iff {store after : Store} {result : Except Text Nat}
    (done : migrateCertificatesToSingleDomainIds store = (result, after)) :
    (∀ cause, result = .error cause → NeverWidened store after) ∧
      (ScopesHold store → NeverWidened store after) ∧
      ∀ count, result = .ok count → Filed store → (NeverWidened store after ↔ ScopesHold store) := by
  unfold migrateCertificatesToSingleDomainIds at done
  split at done
  · cases done
    have never : NeverWidened store store := by
      intro key token later before afterwards id certificate domain stored member admitted
      cases before.symm.trans afterwards
      exact ⟨id, certificate, stored, .inl member, admitted⟩
    grind
  · rename_i count batch made
    cases done
    obtain ⟨certificates, parts, tokens, read, mapped, replaced, -, rfl⟩ := migrationBatch_eq_ok made
    have parted : Parted store certificates parts tokens := ⟨read, mapped, replaced⟩
    refine ⟨?_, parted.migration.neverWidened, fun _ _ filed => ⟨parted.scopesHold filed, parted.migration.neverWidened⟩⟩
    intro cause same
    cases same

section Example

def siteName : Text := "site.example".toList

def site : ManagedCertificate where
  id := siteName
  domains := [siteName]

def limitedTo (id : Text) : RetrievalToken where
  id := "reader".toList
  certificateIds := {id}

def withReader (other : ManagedCertificate) : Store :=
  write Store.empty [.put .certificates siteName (.ok site), .put .certificates other.id (.ok other),
    .put .tokens "reader".toList (.ok (limitedTo other.id))]

theorem withReader_certificates {other certificate : ManagedCertificate} {id : Text}
    (found : (withReader other .certificates)[id]? = some (.ok certificate)) :
    certificate = site ∨ certificate = other := by
  rcases mem_or_of_getElem?_write found with put | ⟨absent, -⟩
  · grind
  · cases absent

theorem withReader_tokens {other : ManagedCertificate} {key : Text} {token : RetrievalToken}
    (found : (withReader other .tokens)[key]? = some (.ok token)) : token = limitedTo other.id := by
  rcases mem_or_of_getElem?_write found with put | ⟨absent, -⟩
  · grind
  · cases absent

def bareCertificate : ManagedCertificate where
  id := "old".toList
  domains := []

/-- A token limited to a legacy certificate without domains is for every certificate afterwards. -/
theorem bare_certificate_widens_scope :
    ∃ count after, migrateCertificatesToSingleDomainIds (withReader bareCertificate) = (.ok count, after) ∧
      ¬ NeverWidened (withReader bareCertificate) after := by
  have summary : (migrateCertificatesToSingleDomainIds (withReader bareCertificate)).1.toOption = some 1 ∧
      ((migrateCertificatesToSingleDomainIds (withReader bareCertificate)).2 .certificates)[siteName]? =
        some (.ok site) ∧
      ((migrateCertificatesToSingleDomainIds (withReader bareCertificate)).2 .tokens)["reader".toList]? =
        some (.ok { limitedTo bareCertificate.id with certificateIds := ∅ }) := by
    decide +kernel
  obtain ⟨done, stored, widened⟩ := summary
  refine ⟨1, _, Prod.ext (toOption_eq_some.mp done) rfl, fun never => ?_⟩
  have before : (withReader bareCertificate .tokens)["reader".toList]? =
      some (.ok (limitedTo bareCertificate.id)) := by
    decide +kernel
  obtain ⟨_, old, there, lists, admitted⟩ :=
    never _ _ _ before widened siteName site siteName stored List.mem_cons_self (admits_iff.mpr (.inl rfl))
  rcases withReader_certificates there with rfl | rfl
  · revert admitted
    decide +kernel
  · exact not_lists_of_bare rfl siteName lists

def twoDomains : ManagedCertificate where
  id := "old".toList
  domains := ["one.example".toList, "two.example".toList]

theorem scopesHold_twoDomains : ScopesHold (withReader twoDomains) := by
  intro key token found limited
  cases withReader_tokens found
  constructor
  · refine .inl ⟨twoDomains.id, by decide +kernel, fun row certificate stored _ => ?_⟩
    rcases withReader_certificates stored with rfl | rfl
    · exact List.cons_ne_nil _ _
    · exact List.cons_ne_nil _ _
  · intro row certificate stored _ name _ there
    have named : twoDomains.id = name := by
      rcases Std.ExtTreeSet.mem_insert.mp there with same | none
      · exact Std.LawfulEqCmp.eq_of_compare same
      · exact absurd none Std.ExtTreeSet.not_mem_empty
    exact .inl ⟨twoDomains.id, twoDomains, by decide +kernel, named⟩

/-- The certificate of the token is split in two. -/
theorem migration_never_widens_twoDomains :
    ∃ count after, migrateCertificatesToSingleDomainIds (withReader twoDomains) = (.ok count, after) ∧
      NeverWidened (withReader twoDomains) after := by
  have done : (migrateCertificatesToSingleDomainIds (withReader twoDomains)).1.toOption = some 1 := by decide +kernel
  have same := Prod.ext (toOption_eq_some.mp done) rfl
  exact ⟨1, _, same, (migration_never_widens_iff same).2.1 scopesHold_twoDomains⟩

end Example

end TlsProxy.Certificates
