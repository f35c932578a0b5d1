import TlsProxy.Acme.Alone
import TlsProxy.Acme.Ownership

/-! `delete_managed_certificate` finds the generations and the diagnostics of a
certificate by scans that start at its ID and a separator and break off at the
first other key. -/
namespace TlsProxy.Acme

open Config Checks Certificates Programs

/-- The scans of the source find the keys of the model. -/
theorem generationKeys_eq_scan (store : Certificates.Store) (id : Text) :
    generationKeys store id =
      (Families.scan (generationKey id []) (store .generations).toList).map Prod.fst := by
  rw [generationKeys, withPrefix, Families.scan_eq_filter _ Std.ExtTreeMap.ordered_keys_toList]

/-- The rows that belong to a certificate; its ID stands before the first separator of a composed key. -/
def RowOf (store : Certificates.Store) (id : Text) : ColumnFamily → Text → Prop
  | .certificates, key | .renewals, key | .activeGenerations, key => key = id
  | .generations, key | .dnsDiagnostics, key => ∃ rest, key = generationKey id rest
  | .domainIndex, key => (store .domainIndex)[key]? = some id
  | .providers, _ | .tokens, _ => False

theorem eq_of_rowOf {store : Certificates.Store} {id other key : Text} {family : ColumnFamily} (plain : '\x00' ∉ id)
    (separated : '\x00' ∉ other) (row : RowOf store id family key) (shared : RowOf store other family key) :
    other = id := by
  cases family with
  | certificates | renewals | activeGenerations => exact shared.symm.trans row
  | domainIndex => exact Option.some.inj (shared.symm.trans row)
  | generations | dnsDiagnostics =>
    obtain ⟨rest, rfl⟩ := row
    obtain ⟨others, same⟩ := shared
    exact eq_of_prefix_generationKey plain separated (same ▸ prefix_generationKey other others)
  | providers | tokens => exact row.elim

theorem mapM_normal {domains : List Text} (normal : ∀ domain ∈ domains, normalizeDomain domain = .ok domain) :
    domains.mapM normalizeDomain = .ok domains := by
  induction domains with
  | nil => rfl
  | cons domain rest ih =>
    obtain ⟨first, later⟩ := List.forall_mem_cons.mp normal
    rw [List.mapM_cons, first, ih later]
    rfl

section Delete

variable {w : World} {id : Text}

def deletion (store : Certificates.Store) (id : Text) (domains : List Text) : List Certificates.Write :=
  deleteBatch id (domains.filter fun name => (store .domainIndex)[name]? = some id) (generationKeys store id)
    (diagnosticKeys store id)

theorem deleteManagedCertificate_alone {certificate : ManagedCertificate}
    (found : (w.store .certificates)[id]? = some (.ok certificate))
    (normal : certificate.domains.mapM normalizeDomain = .ok certificate.domains) :
    Task.alone (deleteManagedCertificate id) w =
      some (.ok true, { w with store := Families.write w.store (deletion w.store id certificate.domains) }) := by
  have read : Task.alone (query (managedCertificate · id)) w = some (.ok (some certificate), w) := by
    change some (decoded (w.store .certificates)[id]?, w) = _
    rw [found]
    rfl
  refine (alone_bind_ok read).trans ((alone_bind_ok (ownedDomains_alone id normal w)).trans ?_)
  refine (alone_bind_ok (a := generationKeys w.store id) rfl).trans ?_
  exact (alone_bind_ok (a := diagnosticKeys w.store id) rfl).trans rfl

theorem mem_keys_scan {ν : Type} {table : Std.ExtTreeMap Text ν} {key : Text} :
    key ∈ (withPrefix (generationKey id []) table).map Prod.fst ↔
      table[key]? ≠ none ∧ ∃ rest, key = generationKey id rest := by
  rw [mem_keys_withPrefix]
  refine and_congr_right fun _ => ⟨?_, ?_⟩
  · rintro ⟨rest, rfl⟩
    exact ⟨rest, by simp [generationKey]⟩
  · rintro ⟨rest, rfl⟩
    exact prefix_generationKey id rest

theorem delete_mem_deletion (store : Certificates.Store) (id : Text) (domains : List Text) (family : ColumnFamily)
    (key : Text) :
    (.delete family key ∈ deletion store id domains → RowOf store id family key) ∧
      (RowOf store id family key → (family = .domainIndex → key ∈ domains) → (store family)[key]? ≠ none →
        .delete family key ∈ deletion store id domains) := by
  have generations : key ∈ generationKeys store id ↔ _ := mem_keys_scan
  have diagnostics : key ∈ diagnosticKeys store id ↔ _ := mem_keys_scan
  cases family with
  | generations => simp +contextual [deletion, deleteBatch, RowOf, generations]
  | dnsDiagnostics => simp +contextual [deletion, deleteBatch, RowOf, diagnostics]
  | _ => simp +contextual [deletion, deleteBatch, RowOf]

theorem getElem?_deletion {domains : List Text} {family : ColumnFamily} {key : Text} :
    (RowOf w.store id family key → (family = .domainIndex → key ∈ domains) →
        (Families.write w.store (deletion w.store id domains) family)[key]? = none) ∧
      (¬ RowOf w.store id family key →
        (Families.write w.store (deletion w.store id domains) family)[key]? = (w.store family)[key]?) := by
  have noPut : ∀ value, Families.Write.put family key value ∉ deletion w.store id domains := by
    intro value
    simp [deletion, deleteBatch]
  obtain ⟨gone, kept⟩ := Families.getElem?_write_of_removals w.store noPut
  obtain ⟨owned, complete⟩ := delete_mem_deletion w.store id domains family key
  refine ⟨fun row listed => ?_, fun other => kept fun deleted => other (owned deleted)⟩
  by_cases there : (w.store family)[key]? = none
  · by_cases deleted : .delete family key ∈ deletion w.store id domains
    · exact gone deleted
    · rw [kept deleted, there]
  · exact gone (complete row listed there)

end Delete

/-- Deleting a certificate with normal domains removes every row of it, of the index those of its domains, and changes
no row of another certificate; an unknown ID changes nothing. -/
theorem deletion_complete_and_local (w : World) {id : Text} (plain : '\x00' ∉ id) :
    ((w.store .certificates)[id]? = none → Task.alone (deleteManagedCertificate id) w = some (.ok false, w)) ∧
    ∀ certificate, (w.store .certificates)[id]? = some (.ok certificate) →
      (∀ domain ∈ certificate.domains, normalizeDomain domain = .ok domain) →
      ∃ after, Task.alone (deleteManagedCertificate id) w = some (.ok true, after) ∧
        (∀ family key, RowOf w.store id family key → (family = .domainIndex → key ∈ certificate.domains) →
          (after.store family)[key]? = none) ∧
        (∀ family key, ¬ RowOf w.store id family key → (after.store family)[key]? = (w.store family)[key]?) ∧
        ∀ other family key, '\x00' ∉ other → other ≠ id → RowOf w.store other family key →
          (after.store family)[key]? = (w.store family)[key]? := by
  refine ⟨fun unknown => ?_, fun certificate found normal => ?_⟩
  · have read : Task.alone (query (managedCertificate · id)) w = some (.ok none, w) := by
      change some (decoded (w.store .certificates)[id]?, w) = _
      rw [unknown]
      rfl
    exact (alone_bind_ok read).trans rfl
  · refine ⟨_, deleteManagedCertificate_alone found (mapM_normal normal), fun _ _ => getElem?_deletion.1,
      fun _ _ => getElem?_deletion.2, ?_⟩
    intro other family key separated different row
    exact getElem?_deletion.2 fun own => different (eq_of_rowOf plain separated own row)

def neighbour : Text := "shop.example.org".toList

/-- The shop and a neighbour whose ID begins like its own, each with a generation, a renewal state and a diagnostic. -/
def busyWorld : World where
  store := Families.write shopWorld.store ([shop.id, neighbour].flatMap fun id =>
    [.put .generations (generationKey id "1".toList) (.ok { id := "1".toList, certificateId := id }),
      .put .activeGenerations id "1".toList, .put .renewals id (.ok { certificateId := id }),
      .put .dnsDiagnostics (generationKey id id) (.ok { domain := id })])

/-- The shop goes with all its rows, and those of the neighbour stay. -/
theorem deletion_complete_and_local_shop :
    ∃ after, Task.alone (deleteManagedCertificate shop.id) busyWorld = some (.ok true, after) ∧
      (after.store .certificates)[shop.id]? = none ∧ (after.store .domainIndex)[shop.id]? = none ∧
      (after.store .generations)[generationKey shop.id "1".toList]? = none ∧
      (after.store .renewals)[shop.id]? = none ∧ (after.store .dnsDiagnostics)[generationKey shop.id shop.id]? = none ∧
      (after.store .generations)[generationKey neighbour "1".toList]? ≠ none ∧
      (after.store .dnsDiagnostics)[generationKey neighbour neighbour]? ≠ none := by
  have normal : ∀ domain ∈ [shop.id], normalizeDomain domain = .ok domain := by
    rintro _ (_ | ⟨_, ⟨⟩⟩)
    decide +kernel
  obtain ⟨after, done, gone, -, kept⟩ := (@deletion_complete_and_local busyWorld shop.id (by decide)).2 _ rfl normal
  refine ⟨after, done, gone .certificates _ rfl nofun, gone .domainIndex _ rfl fun _ => List.mem_singleton_self _,
    gone .generations _ ⟨_, rfl⟩ nofun, gone .renewals _ rfl nofun, gone .dnsDiagnostics _ ⟨_, rfl⟩ nofun, ?_, ?_⟩
  · rw [kept neighbour .generations _ (by decide) (by decide) ⟨_, rfl⟩]
    decide +kernel
  · rw [kept neighbour .dnsDiagnostics _ (by decide) (by decide) ⟨_, rfl⟩]
    decide +kernel

end TlsProxy.Acme
