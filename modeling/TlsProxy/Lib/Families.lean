import Mathlib.Data.List.AList
import Mathlib.Logic.Function.Basic

/-! A database is a family of ordered tables. A batch of writes changes all of them
at once; within one table the later of two writes to a key wins. -/
namespace Families

section Tables

variable {κ ν : Type} [Ord κ] [Std.TransOrd κ] [Std.LawfulEqOrd κ] [DecidableEq κ]

theorem getElem?_insert (table : Std.ExtTreeMap κ ν) (key other : κ) (value : ν) :
    (table.insert key value)[other]? = if key = other then some value else table[other]? := by grind

theorem getElem?_erase (table : Std.ExtTreeMap κ ν) (key other : κ) :
    (table.erase key)[other]? = if key = other then none else table[other]? := by grind

abbrev Change (κ ν : Type) := κ × Option ν

def assign (table : Std.ExtTreeMap κ ν) : Change κ ν → Std.ExtTreeMap κ ν
  | (key, some value) => table.insert key value
  | (key, none) => table.erase key

theorem getElem?_assign (table : Std.ExtTreeMap κ ν) (change : Change κ ν) (key : κ) :
    (assign table change)[key]? = if change.1 = key then change.2 else table[key]? := by
  obtain ⟨other, value⟩ := change
  cases value with
  | none => exact getElem?_erase table other key
  | some value => exact getElem?_insert table other key value

def assignAll (table : Std.ExtTreeMap κ ν) (changes : List (Change κ ν)) : Std.ExtTreeMap κ ν :=
  changes.foldl assign table

theorem getElem?_assignAll (table : Std.ExtTreeMap κ ν) (changes : List (Change κ ν)) (key : κ) :
    (assignAll table changes)[key]? =
      ((changes.reverse.find? fun change => change.1 = key).map Prod.snd).getD table[key]? := by
  induction changes generalizing table with
  | nil => rfl
  | cons first rest ih =>
    rw [assignAll, List.foldl_cons]
    refine (ih _).trans ?_
    grind [getElem?_assign]

theorem getElem?_assignAll_cases (table : Std.ExtTreeMap κ ν) (changes : List (Change κ ν)) (key : κ) :
    (∃ change ∈ changes, change.1 = key ∧ (assignAll table changes)[key]? = change.2) ∨
      (∀ change ∈ changes, change.1 ≠ key) ∧ (assignAll table changes)[key]? = table[key]? := by
  induction changes generalizing table with
  | nil => exact .inr ⟨fun _ none => (List.not_mem_nil none).elim, rfl⟩
  | cons first rest ih =>
    rw [assignAll, List.foldl_cons]
    rcases ih (assign table first) with ⟨change, member, same, found⟩ | ⟨untouched, found⟩
    · exact .inl ⟨change, List.mem_cons_of_mem _ member, same, found⟩
    · rw [getElem?_assign] at found
      by_cases same : first.1 = key
      · exact .inl ⟨first, List.mem_cons_self, same, found.trans (if_pos same)⟩
      · refine .inr ⟨?_, found.trans (if_neg same)⟩
        grind

end Tables

section Scans

variable {α ν : Type} [Ord α] [Std.TransOrd α] [Std.LawfulEqOrd α] [DecidableEq α] {start a b : List α}

/-- Keys from the start on, up to the first that does not begin with it. -/
def scan (start : List α) (rows : List (List α × ν)) : List (List α × ν) :=
  (rows.dropWhile fun row => compare row.1 start = .lt).takeWhile fun row => start.isPrefixOf row.1

omit [Std.TransOrd α] [DecidableEq α] in
theorem prefix_of_between (low : compare a start ≠ .lt) (order : compare a b = .lt) (under : start <+: b) :
    start <+: a := by
  induction start generalizing a b with
  | nil => exact List.nil_prefix
  | cons c rest ih =>
    obtain ⟨tail, rfl⟩ := under
    cases a with
    | nil => exact absurd rfl low
    | cons d others =>
      change List.compareLex compare (d :: others) (c :: rest) ≠ .lt at low
      change List.compareLex compare (d :: others) (c :: (rest ++ tail)) = .lt at order
      rw [List.compareLex_cons_cons] at low order
      cases first : compare d c with
      | lt => simp [first] at low
      | gt => simp [first] at order
      | eq =>
        cases Std.LawfulEqOrd.eq_of_compare first
        simp only [first, Ordering.eq_then] at low order
        exact List.cons_prefix_cons.mpr ⟨rfl, ih low order ⟨tail, rfl⟩⟩

omit [Std.LawfulEqOrd α] [DecidableEq α] in
theorem compare_ne_lt_of_prefix (under : start <+: b) : compare b start ≠ .lt := by
  obtain ⟨tail, rfl⟩ := under
  induction start with
  | nil => cases tail <;> nofun
  | cons c rest ih =>
    change List.compareLex compare (c :: (rest ++ tail)) (c :: rest) ≠ .lt
    rw [List.compareLex_cons_cons, (Std.ReflCmp.compare_self : compare c c = .eq), Ordering.eq_then]
    exact ih

theorem scan_eq_filter (start : List α) {rows : List (List α × ν)}
    (ordered : rows.Pairwise fun a b => compare a.1 b.1 = .lt) :
    scan start rows = rows.filter fun row => start.isPrefixOf row.1 := by
  unfold scan
  induction rows with
  | nil => rfl
  | cons row rest ih =>
    obtain ⟨least, ordered⟩ := List.pairwise_cons.mp ordered
    by_cases before : compare row.1 start = .lt
    · have other : ¬ start <+: row.1 := fun under => compare_ne_lt_of_prefix under before
      rw [List.dropWhile_cons_of_pos (by simp [before]), ih ordered, List.filter_cons_of_neg]
      simpa using other
    · have after : rest.dropWhile (fun row => compare row.1 start = .lt) = rest := by
        cases rest with
        | nil => rfl
        | cons next others =>
          refine List.dropWhile_cons_of_neg fun smaller => before ?_
          exact Std.TransCmp.lt_trans (least next List.mem_cons_self) (of_decide_eq_true smaller)
      rw [List.dropWhile_cons_of_neg (by simp [before])]
      by_cases under : start <+: row.1
      · rw [List.takeWhile_cons_of_pos (by simpa using under), List.filter_cons_of_pos (by simpa using under), ← ih ordered,
          after]
      · rw [List.takeWhile_cons_of_neg (by simpa using under), eq_comm, List.filter_eq_nil_iff]
        rintro later member prefixed
        rcases List.mem_cons.mp member with rfl | member
        · exact under (by simpa using prefixed)
        · exact under (prefix_of_between before (least later member) (by simpa using prefixed))

end Scans

variable {ι κ : Type} {ν : ι → Type} [DecidableEq ι]

inductive Write (κ : Type) (ν : ι → Type)
  | put (family : ι) (key : κ) (value : ν family)
  | delete (family : ι) (key : κ)

def Write.on (family : ι) : Write κ ν → Option (Change κ (ν family))
  | .put other key value => if same : other = family then some (key, some (same ▸ value)) else none
  | .delete other key => if other = family then some (key, none) else none

@[simp]
theorem Write.on_put_self (family : ι) (key : κ) (value : ν family) :
    Write.on family (.put family key value) = some (key, some value) := by
  simp [Write.on]

@[simp]
theorem Write.on_put_of_ne {family other : ι} (different : other ≠ family) (key : κ) (value : ν other) :
    Write.on family (.put other key value) = none := by
  simp [Write.on, different]

@[simp]
theorem Write.on_delete_self (family : ι) (key : κ) :
    Write.on family (Write.delete family key : Write κ ν) = some (key, none) := by
  simp [Write.on]

@[simp]
theorem Write.on_delete_of_ne {family other : ι} (different : other ≠ family) (key : κ) :
    Write.on family (Write.delete other key : Write κ ν) = none := by
  simp [Write.on, different]

abbrev Database (κ : Type) [Ord κ] (ν : ι → Type) := (family : ι) → Std.ExtTreeMap κ (ν family)

theorem mem_filterMap_on {batch : List (Write κ ν)} {family : ι} {key : κ} {change : Option (ν family)} :
    (key, change) ∈ batch.filterMap (Write.on family) ↔
      (∃ value, change = some value ∧ Write.put family key value ∈ batch) ∨
        change = none ∧ Write.delete family key ∈ batch := by
  rw [List.mem_filterMap]
  constructor
  · rintro ⟨item, inside, made⟩
    cases item with
    | put target other stored =>
      by_cases equal : target = family
      · grind [Write.on_put_self]
      · grind [Write.on_put_of_ne]
    | delete target other =>
      by_cases equal : target = family
      · grind [Write.on_delete_self]
      · grind [Write.on_delete_of_ne]
  · grind [Write.on_put_self, Write.on_delete_self]

variable [Ord κ] [Std.TransOrd κ]

def write (db : Database κ ν) (batch : List (Write κ ν)) : Database κ ν :=
  fun family => assignAll (db family) (batch.filterMap (Write.on family))

theorem write_of_untouched {db : Database κ ν} {batch : List (Write κ ν)} {family : ι}
    (untouched : ∀ item ∈ batch, Write.on family item = none) : write db batch family = db family := by
  rw [write, List.filterMap_eq_nil_iff.mpr untouched]
  rfl

theorem write_put (db : Database κ ν) (family : ι) (key : κ) (value : ν family) :
    write db [.put family key value] family = (db family).insert key value := by
  rw [write, List.filterMap_cons, Write.on_put_self]
  rfl

theorem write_append (db : Database κ ν) (first second : List (Write κ ν)) :
    write db (first ++ second) = write (write db first) second := by grind [write, assignAll]

/-- Where the batches of the others leave a table alone, only one batch counts for it. -/
theorem write_flatMap_of_one {γ : Type} {xs : List γ} {part : γ → List (Write κ ν)} {x : γ} {family : ι}
    (member : x ∈ xs) (nodup : xs.Nodup)
    (others : ∀ y ∈ xs, y ≠ x → ∀ item ∈ part y, Write.on family item = none) (db : Database κ ν) :
    write db (xs.flatMap part) family = write db (part x) family := by
  obtain ⟨before, after, rfl⟩ := List.append_of_mem member
  have none : ∀ ys : List γ, (∀ y ∈ ys, y ∈ before ++ x :: after ∧ y ≠ x) →
      ∀ item ∈ ys.flatMap part, Write.on family item = none := by grind
  have apart := List.nodup_append.mp nodup
  have untouched : write db (before.flatMap part) family = db family := by grind [write_of_untouched]
  rw [List.flatMap_append, List.flatMap_cons, write_append, write_append, write_of_untouched (none after ?_)]
  · grind [write]
  · grind

theorem getElem?_write_flatten_of_kept {batches : List (List (Write κ ν))} {family : ι} {key : κ}
    {good : Option (ν family) → Prop}
    (kept : ∀ batch ∈ batches, ∀ db : Database κ ν, good (db family)[key]? → good (write db batch family)[key]?)
    {db : Database κ ν} (there : good (db family)[key]?) : good (write db batches.flatten family)[key]? := by
  induction batches generalizing db with
  | nil => exact there
  | cons first rest ih =>
    rw [List.flatten_cons, write_append]
    grind

theorem getElem?_write_flatten {batches : List (List (Write κ ν))} {family : ι} {key : κ}
    {good : Option (ν family) → Prop}
    (kept : ∀ batch ∈ batches, ∀ db : Database κ ν, good (db family)[key]? → good (write db batch family)[key]?)
    (made : ∃ batch ∈ batches, ∀ db : Database κ ν, good (write db batch family)[key]?)
    (db : Database κ ν) : good (write db batches.flatten family)[key]? := by
  obtain ⟨batch, member, made⟩ := made
  obtain ⟨before, after, rfl⟩ := List.append_of_mem member
  rw [List.flatten_append, List.flatten_cons, write_append, write_append]
  apply getElem?_write_flatten_of_kept _ (made _)
  grind

variable [Std.LawfulEqOrd κ] [DecidableEq κ] {db : Database κ ν} {batch : List (Write κ ν)} {family : ι} {key : κ}

theorem getElem?_write_cases (db : Database κ ν) (batch : List (Write κ ν)) (family : ι) (key : κ) :
    (∃ value, Write.put family key value ∈ batch ∧ (write db batch family)[key]? = some value) ∨
      Write.delete family key ∈ batch ∧ (write db batch family)[key]? = none ∨
      (∀ value, Write.put family key value ∉ batch) ∧ Write.delete family key ∉ batch ∧
        (write db batch family)[key]? = (db family)[key]? := by
  rcases getElem?_assignAll_cases (db family) (batch.filterMap (Write.on family)) key with
    ⟨⟨other, change⟩, member, rfl, found⟩ | ⟨untouched, found⟩
  · rcases mem_filterMap_on.mp member with ⟨value, rfl, inside⟩ | ⟨rfl, inside⟩
    · exact .inl ⟨value, inside, found⟩
    · exact .inr (.inl ⟨inside, found⟩)
  · refine .inr (.inr ⟨fun value inside => ?_, fun inside => ?_, found⟩)
    · exact untouched _ (mem_filterMap_on.mpr (.inl ⟨value, rfl, inside⟩)) rfl
    · exact untouched _ (mem_filterMap_on.mpr (.inr ⟨rfl, inside⟩)) rfl

def Write.touches (family : ι) (key : κ) : Write κ ν → Bool
  | .put other own _ | .delete other own => other == family && own == key

theorem getElem?_write_of_quiet (quiet : batch.any (Write.touches family key) = false) :
    (write db batch family)[key]? = (db family)[key]? := by
  rw [List.any_eq_false] at quiet
  rcases getElem?_write_cases db batch family key with ⟨value, put, -⟩ | ⟨deleted, -⟩ | ⟨-, -, same⟩
  · grind [Write.touches]
  · grind [Write.touches]
  · exact same

/-- What is stored afterwards was put there by the batch, or was there before and has not been deleted. -/
theorem mem_or_of_getElem?_write {value : ν family} (found : (write db batch family)[key]? = some value) :
    Write.put family key value ∈ batch ∨ (db family)[key]? = some value ∧ Write.delete family key ∉ batch := by
  rcases getElem?_write_cases db batch family key with ⟨other, inside, same⟩ | ⟨-, same⟩ | ⟨-, kept, same⟩
  · grind
  · cases same.symm.trans found
  · grind

theorem getElem?_write_ne_none (kept : Write.delete family key ∉ batch)
    (there : (db family)[key]? ≠ none ∨ ∃ value, Write.put family key value ∈ batch) :
    (write db batch family)[key]? ≠ none := by
  rcases getElem?_write_cases db batch family key with ⟨other, -, same⟩ | ⟨deleted, -⟩ | ⟨none, -, same⟩
  · rw [same]
    exact Option.some_ne_none _
  · exact absurd deleted kept
  · grind

variable (db) in
theorem getElem?_write_of_removals (removals : ∀ value, Write.put family key value ∉ batch) :
    (Write.delete family key ∈ batch → (write db batch family)[key]? = none) ∧
      (Write.delete family key ∉ batch → (write db batch family)[key]? = (db family)[key]?) := by
  grind [getElem?_write_cases]

theorem write_replaced (db : Database κ ν) (family : ι) (rows : Std.ExtTreeMap κ (ν family)) :
    write db ((db family).toList.map (fun row => .delete family row.1) ++
      rows.toList.map fun row => .put family row.1 row.2) family = rows := by
  apply Std.ExtTreeMap.ext_getElem?
  intro key
  have cleared : (write db ((db family).toList.map fun row => .delete family row.1) family)[key]? = none := by
    rcases getElem?_write_cases db ((db family).toList.map fun row => .delete family row.1) family key with
      ⟨value, put, -⟩ | ⟨-, found⟩ | ⟨-, kept, found⟩
    · grind
    · exact found
    · rw [found]
      by_contra there
      obtain ⟨value, there⟩ := Option.ne_none_iff_exists'.mp there
      exact kept (List.mem_map.mpr ⟨(key, value), Std.ExtTreeMap.mem_toList_iff_getElem?_eq_some.mpr there, rfl⟩)
  rw [write_append]
  rcases getElem?_write_cases (write db ((db family).toList.map fun row => .delete family row.1))
    (rows.toList.map fun row => .put family row.1 row.2) family key with ⟨value, put, found⟩ | ⟨deleted, -⟩ | ⟨none, -, found⟩
  · grind
  · grind
  · rw [found, cleared]
    by_contra there
    obtain ⟨value, there⟩ := Option.ne_none_iff_exists'.mp (Ne.symm there)
    exact none value (List.mem_map.mpr ⟨(key, value), Std.ExtTreeMap.mem_toList_iff_getElem?_eq_some.mpr there, rfl⟩)

end Families
