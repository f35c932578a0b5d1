import TlsProxy.Lib.Base64
import TlsProxy.Lib.Checks
import TlsProxy.Lib.Families
import TlsProxy.Config.Names

/-! `export_json` and `import_json` of `store/mod.rs`. -/
namespace TlsProxy.Export

open Checks Config Families

abbrev Bytes := List UInt8

inductive ColumnFamily
  | default
  | metadata
  | config
  | configHistory
  | providers
  | accounts
  | certificates
  | domainIndex
  | generations
  | activeGenerations
  | renewals
  | tokens
  | users
  | sessions
  | audit
  | dnsDiagnostics
  | healthCheckStatus
deriving DecidableEq

def ColumnFamily.name : ColumnFamily → Text
  | .default => "default".toList
  | .metadata => "metadata".toList
  | .config => "config".toList
  | .configHistory => "config_history".toList
  | .providers => "providers".toList
  | .accounts => "accounts".toList
  | .certificates => "certificates".toList
  | .domainIndex => "domain_index".toList
  | .generations => "generations".toList
  | .activeGenerations => "active_generations".toList
  | .renewals => "renewals".toList
  | .tokens => "tokens".toList
  | .users => "users".toList
  | .sessions => "sessions".toList
  | .audit => "audit".toList
  | .dnsDiagnostics => "dns_diagnostics".toList
  | .healthCheckStatus => "health_check_status".toList

def exportedFamilies : List ColumnFamily :=
  [.default, .metadata, .config, .configHistory, .providers, .accounts, .certificates, .domainIndex, .generations,
    .activeGenerations, .renewals, .tokens, .users, .sessions, .audit, .dnsDiagnostics]

def allowed (name : Text) : Option ColumnFamily := exportedFamilies.find? fun family => family.name == name

abbrev Store := Database Bytes fun _ : ColumnFamily => Bytes

abbrev Write := Families.Write Bytes fun _ : ColumnFamily => Bytes

structure RocksDbJsonEntry where
  keyBase64 : Text
  valueBase64 : Text

structure RocksDbJsonExport where
  format : Text
  schemaVersion : UInt32
  exportedAt : Int
  columnFamilies : Std.ExtTreeMap Text (List RocksDbJsonEntry)

def formatName : Text := "tlsproxy-rocksdb-json-v1".toList

def schemaVersion : UInt32 := 1

def encodeRow (row : Bytes × Bytes) : RocksDbJsonEntry where
  keyBase64 := Base64.encode row.1
  valueBase64 := Base64.encode row.2

def exportJson (store : Store) (now : Int) : RocksDbJsonExport where
  format := formatName
  schemaVersion
  exportedAt := now
  columnFamilies := .ofList (exportedFamilies.map fun family => (family.name, (store family).toList.map encodeRow))

def decodeField (what name field : Text) : Except Text Bytes :=
  match Base64.decode field with
  | some bytes => .ok bytes
  | none => .error ("invalid base64 ".toList ++ what ++ " in ".toList ++ quoted name)

def decodeEntry (name : Text) (entry : RocksDbJsonEntry) : Except Text (Bytes × Bytes) := do
  let key ← decodeField "key".toList name entry.keyBase64
  let value ← decodeField "value".toList name entry.valueBase64
  return (key, value)

def unknownFamily (name : Text) : Text := "unknown or excluded column family ".toList ++ quoted name

def familyPart (store : Store) (clearExisting : Bool) (selected : Option (Std.ExtTreeSet Text))
    (exported : Text × List RocksDbJsonEntry) : Except Text (Nat × List Write) :=
  match allowed exported.1 with
  | none => .error (unknownFamily exported.1)
  | some family =>
    if selected.all fun names => names.contains exported.1 then do
      let rows ← exported.2.mapM (decodeEntry exported.1)
      let cleared := if clearExisting then (store family).toList.map fun row => .delete family row.1 else []
      return (rows.length, cleared ++ rows.map fun row => .put family row.1 row.2)
    else .ok (0, [])

/-- Which of several unknown names is reported is not determined by the source; here it is the first. -/
def checkSelection : Option (Std.ExtTreeSet Text) → Except Text Unit
  | none => .ok ()
  | some names => do
    names.toList.forM fun name => require ((allowed name).isSome = true) (unknownFamily name)
    require (names.isEmpty = false) "select at least one column family to import".toList

def importBatch (store : Store) (exported : RocksDbJsonExport) (clearExisting : Bool)
    (selected : Option (Std.ExtTreeSet Text)) : Except Text (Nat × List Write) := do
  require (exported.format = formatName) "unsupported RocksDB JSON export format".toList
  require (exported.schemaVersion = schemaVersion)
    ("export schema version ".toList ++ Text.ofNat exported.schemaVersion.toNat ++
      " does not match runtime schema version ".toList ++ Text.ofNat schemaVersion.toNat)
  checkSelection selected
  let parts ← exported.columnFamilies.toList.mapM (familyPart store clearExisting selected)
  return (parts.foldl (fun count part => count + part.1) 0, parts.flatMap Prod.snd)

def importJson (store : Store) (exported : RocksDbJsonExport) (clearExisting : Bool)
    (selected : Option (Std.ExtTreeSet Text)) : Except Text Nat × Store :=
  match importBatch store exported clearExisting selected with
  | .error cause => (.error cause, store)
  | .ok (count, batch) => (.ok count, write store batch)

section Exported

variable {family : ColumnFamily} {name : Text}

theorem allowed_name (other : family ≠ .healthCheckStatus) : allowed family.name = some family := by
  cases family <;> first | rfl | exact absurd rfl other

theorem mem_exportedFamilies : family ∈ exportedFamilies ↔ family ≠ .healthCheckStatus := by
  cases family <;> decide

theorem name_injective {other : ColumnFamily} (first : family ≠ .healthCheckStatus) (second : other ≠ .healthCheckStatus)
    (same : family.name = other.name) : family = other := by grind [allowed_name]

theorem mem_columnFamilies (source : Store) (now : Int) {entries : List RocksDbJsonEntry} :
    (name, entries) ∈ (exportJson source now).columnFamilies.toList ↔
      ∃ family, family ≠ .healthCheckStatus ∧ name = family.name ∧ entries = (source family).toList.map encodeRow := by
  have distinct : List.Pairwise (fun a b : Text × List RocksDbJsonEntry => ¬ compare a.1 b.1 = .eq)
      (exportedFamilies.map fun family => (family.name, (source family).toList.map encodeRow)) := by
    rw [List.pairwise_map]
    have nodup : exportedFamilies.Nodup := by decide
    refine List.Pairwise.imp_of_mem ?_ nodup
    intro first second inside also different same
    rw [Std.LawfulEqCmp.compare_eq_iff_eq] at same
    exact different (name_injective (mem_exportedFamilies.mp inside) (mem_exportedFamilies.mp also) same)
  rw [Std.ExtTreeMap.mem_toList_iff_getElem?_eq_some]
  have listed : ∀ family, family ≠ .healthCheckStatus →
      (exportJson source now).columnFamilies[family.name]? = some ((source family).toList.map encodeRow) := by
    intro family other
    refine Std.ExtTreeMap.getElem?_ofList_of_mem (Std.LawfulEqCmp.compare_eq_iff_eq.mpr rfl) distinct ?_
    exact List.mem_map_of_mem (mem_exportedFamilies.mpr other)
  constructor
  · intro found
    have known : ∃ family ∈ exportedFamilies, family.name = name := by
      by_contra unknown
      have absent : (exportJson source now).columnFamilies[name]? = none := by
        apply Std.ExtTreeMap.getElem?_ofList_of_contains_eq_false
        grind
      cases absent.symm.trans found
    obtain ⟨family, inside, rfl⟩ := known
    have other := mem_exportedFamilies.mp inside
    grind
  · grind

theorem decodeEntry_encodeRow (row : Bytes × Bytes) : decodeEntry name (encodeRow row) = .ok row := by
  simp only [decodeEntry, decodeField, encodeRow, Base64.decode_encode]
  rfl

end Exported

section Imports

variable {source target : Store} {selection : Std.ExtTreeSet Text} {family : ColumnFamily}

theorem familyPart_exported (other : family ≠ .healthCheckStatus) :
    familyPart target true (some selection) (family.name, (source family).toList.map encodeRow) =
      .ok (if selection.contains family.name then
        ((source family).toList.length, (target family).toList.map (fun row => .delete family row.1) ++
          (source family).toList.map fun row => .put family row.1 row.2)
        else (0, [])) := by
  have decodes : ((source family).toList.map encodeRow).mapM (decodeEntry family.name) = .ok (source family).toList := by
    grind [mapM_eq_ok, List.forall₂_same, decodeEntry_encodeRow]
  simp only [familyPart, allowed_name other, Option.all_some]
  split
  · rw [decodes]
    rfl
  · rfl

theorem checkSelection_eq_ok {names : Std.ExtTreeSet Text} (nonempty : names ≠ ∅)
    (known : ∀ name ∈ names, ∃ family : ColumnFamily, family ≠ .healthCheckStatus ∧ family.name = name) :
    checkSelection (some names) = .ok () := by
  refine bind_eq_ok.mpr ⟨(), forM_eq_ok.mpr fun name listed => require_eq_ok.mpr ?_, require_eq_ok.mpr ?_⟩
  · obtain ⟨family, other, rfl⟩ := known name (Std.ExtTreeSet.mem_toList.mp listed)
    rw [allowed_name other]
    rfl
  · simpa [Std.ExtTreeSet.isEmpty_iff] using nonempty

def partOf (target : Store) (selection : Std.ExtTreeSet Text) (exported : Text × List RocksDbJsonEntry) :
    Nat × List Write :=
  (familyPart target true (some selection) exported).toOption.getD (0, [])

theorem partOf_exported (other : family ≠ .healthCheckStatus) :
    (partOf target selection (family.name, (source family).toList.map encodeRow)).2 =
      if selection.contains family.name then
        (target family).toList.map (fun row => .delete family row.1) ++
          (source family).toList.map fun row => .put family row.1 row.2
      else [] := by
  rw [partOf, familyPart_exported other]
  change (if _ then _ else _ : Nat × List Write).2 = _
  split <;> rfl

theorem importBatch_exported (now : Int) (nonempty : selection ≠ ∅)
    (known : ∀ name ∈ selection, ∃ family : ColumnFamily, family ≠ .healthCheckStatus ∧ family.name = name) :
    ∃ count, importBatch target (exportJson source now) true (some selection) =
      .ok (count, (exportJson source now).columnFamilies.toList.flatMap fun exported =>
        (partOf target selection exported).2) := by
  have passes : ∀ exported ∈ (exportJson source now).columnFamilies.toList,
      familyPart target true (some selection) exported = .ok (partOf target selection exported) := by
    rintro ⟨name, entries⟩ listed
    obtain ⟨family, other, rfl, rfl⟩ := (mem_columnFamilies source now).mp listed
    rw [partOf, familyPart_exported other]
    rfl
  refine ⟨((exportJson source now).columnFamilies.toList.map (partOf target selection)).foldl
    (fun count part => count + part.1) 0, ?_⟩
  refine bind_eq_ok.mpr ⟨(), require_eq_ok.mpr rfl, bind_eq_ok.mpr ⟨(), require_eq_ok.mpr rfl, ?_⟩⟩
  refine bind_eq_ok.mpr ⟨(), checkSelection_eq_ok nonempty known, ?_⟩
  refine bind_eq_ok.mpr ⟨_, mapM_eq_map passes, ?_⟩
  rw [List.flatMap_map]
  rfl

theorem name_ne_health (other : family ≠ .healthCheckStatus) : family.name ≠ ColumnFamily.healthCheckStatus.name := by
  intro same
  have found := allowed_name other
  rw [same] at found
  cases found

theorem partOf_foreign {now : Int} {exported : Text × List RocksDbJsonEntry}
    (listed : exported ∈ (exportJson source now).columnFamilies.toList) (different : exported.1 ≠ family.name) :
    ∀ item ∈ (partOf target selection exported).2, Families.Write.on family item = none := by
  obtain ⟨name, entries⟩ := exported
  obtain ⟨other, known, rfl, rfl⟩ := (mem_columnFamilies source now).mp listed
  have apart : other ≠ family := by
    rintro rfl
    exact different rfl
  intro item member
  rw [partOf_exported known] at member
  split at member
  · grind [Families.Write.on_delete_of_ne, Families.Write.on_put_of_ne]
  · cases member

theorem write_parts (now : Int) (unselected : ColumnFamily.healthCheckStatus.name ∉ selection) (family : ColumnFamily) :
    write target ((exportJson source now).columnFamilies.toList.flatMap fun exported =>
        (partOf target selection exported).2) family =
      if selection.contains family.name then source family else target family := by
  by_cases health : family = .healthCheckStatus
  · subst health
    rw [if_neg (by simpa using unselected)]
    apply write_of_untouched
    intro item member
    grind [partOf_foreign, mem_columnFamilies, name_ne_health]
  · have listed := (mem_columnFamilies source now).mpr ⟨family, health, rfl, rfl⟩
    have distinct := (exportJson source now).columnFamilies.distinct_keys_toList
    have nodup : (exportJson source now).columnFamilies.toList.Nodup := by grind [List.Pairwise.imp]
    rw [write_flatMap_of_one listed nodup, partOf_exported health]
    · split
      · exact write_replaced target family (source family)
      · rfl
    · intro exported also different item member
      refine partOf_foreign also (fun same => different ?_) item member
      -- Two entries of one name are the same, since the names of an export are distinct.
      grind

end Imports

/-- An import of an export restores the selected families row by row and leaves the others alone, and an import that
fails leaves everything as it was. -/
theorem import_restores_selection (source target : Store) (now : Int) (selection : Std.ExtTreeSet Text)
    (nonempty : selection ≠ ∅)
    (known : ∀ name ∈ selection, ∃ family : ColumnFamily, family ≠ .healthCheckStatus ∧ family.name = name) :
    (∃ count after, importJson target (exportJson source now) true (some selection) = (.ok count, after) ∧
      ∀ family, after family = if selection.contains family.name then source family else target family) ∧
    ∀ exported clearExisting selected cause after,
      importJson target exported clearExisting selected = (.error cause, after) → after = target := by
  constructor
  · obtain ⟨count, made⟩ := importBatch_exported now nonempty known
    refine ⟨count, _, by rw [importJson, made], write_parts now ?_⟩
    grind [name_ne_health]
  · intro exported clearExisting selected cause after failed
    grind [importJson]

def filled (key : Bytes) : Store := fun _ => (∅ : Std.ExtTreeMap Bytes Bytes).insert key [3]

theorem import_restores_config :
    ∃ count after, importJson (filled [9]) (exportJson (filled [1, 2]) 0) true
        (some (.ofList [ColumnFamily.config.name])) = (.ok count, after) ∧
      after .config = filled [1, 2] .config ∧ after .healthCheckStatus = filled [9] .healthCheckStatus := by
  have nonempty : Std.ExtTreeSet.ofList [ColumnFamily.config.name] ≠ ∅ := by simp
  have known : ∀ name ∈ Std.ExtTreeSet.ofList [ColumnFamily.config.name],
      ∃ family : ColumnFamily, family ≠ .healthCheckStatus ∧ family.name = name := by grind
  obtain ⟨count, after, done, rows⟩ := (import_restores_selection (filled [1, 2]) (filled [9]) 0 _ nonempty known).1
  refine ⟨count, after, done, ?_, ?_⟩
  · rw [rows, if_pos (by decide +kernel)]
  · rw [rows, if_neg (by decide +kernel)]

end TlsProxy.Export
