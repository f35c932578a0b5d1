import Mathlib.Data.List.AList

/-! A table maps keys to shared objects. An object has an identity, which is fixed
when it is created and determines its key, and a state, which whoever holds a
pointer to the object may change. -/
namespace Shared

variable {κ ι σ : Type} [DecidableEq κ]

/-- Pointers are positions in the list of all objects created so far. -/
structure Registry (key : ι → κ) (σ : Type) where
  table : AList fun _ : κ => Nat
  objects : List (ι × σ)
  sound : ∀ k pointer, table.lookup k = some pointer → ∃ object, objects[pointer]? = some object ∧ key object.1 = k

namespace Registry

variable {key : ι → κ}

def empty : Registry key σ where
  table := ∅
  objects := []
  sound := by
    intro k pointer listed
    cases listed

def object? (r : Registry key σ) (pointer : Nat) : Option (ι × σ) := r.objects[pointer]?

def get? (r : Registry key σ) (k : κ) : Option (ι × σ) := (r.table.lookup k).bind r.object?

def pointers (r : Registry key σ) : List Nat := r.table.entries.map Sigma.snd

theorem get?_of_lookup {r : Registry key σ} {k : κ} {pointer : Nat} (found : r.table.lookup k = some pointer) :
    r.get? k = r.object? pointer := by
  rw [get?, found, Option.bind_some]

def update (r : Registry key σ) (pointer : Nat) (f : σ → σ) : Registry key σ where
  table := r.table
  objects := r.objects.modify pointer (Prod.map (fun identity => identity) f)
  sound := by
    intro k other listed
    obtain ⟨object, there, keyed⟩ := r.sound k other listed
    grind

/-- Create an object and put it into the table, in the place of an older one with its key. -/
def insert (r : Registry key σ) (identity : ι) (state : σ) : Registry key σ where
  table := r.table.insert (key identity) r.objects.length
  objects := r.objects ++ [(identity, state)]
  sound := by
    intro k pointer listed
    by_cases same : k = key identity
    · subst same
      rw [AList.lookup_insert] at listed
      cases listed
      simp
    · rw [AList.lookup_insert_ne same] at listed
      obtain ⟨object, there, keyed⟩ := r.sound k pointer listed
      grind

def eraseAll (doomed : List κ) (table : AList fun _ : κ => Nat) : AList fun _ : κ => Nat :=
  doomed.foldl (fun rest k => rest.erase k) table

theorem lookup_eraseAll (doomed : List κ) (table : AList fun _ : κ => Nat) (k : κ) :
    (eraseAll doomed table).lookup k = if k ∈ doomed then none else table.lookup k := by
  induction doomed generalizing table with
  | nil => rfl
  | cons first rest ih =>
    rw [eraseAll, List.foldl_cons]
    refine (ih _).trans ?_
    by_cases later : k ∈ rest
    · grind
    · rw [if_neg later]
      by_cases same : k = first
      · grind [AList.lookup_erase]
      · grind [AList.lookup_erase_ne]

def remove (r : Registry key σ) (doomed : List κ) : Registry key σ where
  table := eraseAll doomed r.table
  objects := r.objects
  sound := by
    intro k pointer listed
    rw [lookup_eraseAll] at listed
    by_cases gone : k ∈ doomed
    · grind
    · rw [if_neg gone] at listed
      exact r.sound k pointer listed

def clear (r : Registry key σ) : Registry key σ where
  table := ∅
  objects := r.objects
  sound := by
    intro k pointer listed
    cases listed

theorem object?_update (r : Registry key σ) (pointer : Nat) (f : σ → σ) (other : Nat) :
    (r.update pointer f).object? other =
      (r.object? other).map fun object => if pointer = other then (object.1, f object.2) else object := by
  rw [object?, update, List.getElem?_modify]
  by_cases same : pointer = other
  · simp only [if_pos same]; rfl
  · simp only [if_neg same]; rfl

theorem object?_insert (r : Registry key σ) (identity : ι) (state : σ) :
    (r.insert identity state).object? r.objects.length = some (identity, state) :=
  List.getElem?_concat_length

theorem get?_insert_self (r : Registry key σ) (identity : ι) (state : σ) :
    (r.insert identity state).get? (key identity) = some (identity, state) := by
  rw [get?_of_lookup (AList.lookup_insert _)]
  exact object?_insert r identity state

theorem get?_insert_of_ne (r : Registry key σ) (identity : ι) (state : σ) {k : κ} (other : k ≠ key identity) :
    (r.insert identity state).get? k = r.get? k := by
  rw [get?, get?]
  simp only [insert, AList.lookup_insert_ne other]
  cases listed : r.table.lookup k with
  | none => rfl
  | some pointer =>
    obtain ⟨object, there, -⟩ := r.sound k pointer listed
    exact List.getElem?_append_left (List.getElem?_eq_some_iff.mp there).1

theorem get?_remove (r : Registry key σ) (doomed : List κ) (k : κ) :
    (r.remove doomed).get? k = if k ∈ doomed then none else r.get? k := by
  rw [get?, remove, lookup_eraseAll]
  by_cases gone : k ∈ doomed
  · rw [if_pos gone, if_pos gone]; rfl
  · rw [if_neg gone, if_neg gone]; rfl

theorem lookup_of_mem_pointers {r : Registry key σ} {pointer : Nat} (member : pointer ∈ r.pointers) :
    ∃ object, r.object? pointer = some object ∧ r.table.lookup (key object.1) = some pointer := by
  obtain ⟨⟨k, other⟩, entry, rfl⟩ := List.mem_map.mp member
  have listed : r.table.lookup k = some other := AList.mem_lookup_iff.mpr entry
  obtain ⟨object, there, rfl⟩ := r.sound k other listed
  exact ⟨object, there, listed⟩

theorem get?_update (r : Registry key σ) (pointer : Nat) (f : σ → σ) (k : κ) :
    (r.update pointer f).get? k =
      (r.get? k).map fun object => if r.table.lookup k = some pointer then (object.1, f object.2) else object := by
  cases listed : r.table.lookup k with
  | none => grind [get?, update]
  | some other =>
    rw [get?_of_lookup listed, get?_of_lookup (r := r.update pointer f) listed, object?_update]
    simp only [Option.some.injEq, eq_comm]

/-- The key is in the table, with an object whose state has the property. -/
def Marked (r : Registry key σ) (P : σ → Prop) (k : κ) : Prop := ∃ object, r.get? k = some object ∧ P object.2

variable {r : Registry key σ} {P : σ → Prop} {k : κ}

theorem not_marked_of_vacant (vacant : r.table.lookup k = none) : ¬ r.Marked P k := by
  rintro ⟨object, found, -⟩
  rw [get?, vacant] at found
  cases found

theorem Marked.update (marked : r.Marked P k) {pointer : Nat} {f : σ → σ}
    (keeps : r.table.lookup k = some pointer → ∀ state, P state → P (f state)) :
    (r.update pointer f).Marked P k := by
  obtain ⟨object, found, has⟩ := marked
  rw [Marked, get?_update, found]
  grind

theorem Marked.insert_of_ne (marked : r.Marked P k) {identity : ι} (state : σ) (other : k ≠ key identity) :
    (r.insert identity state).Marked P k := by
  obtain ⟨object, found, has⟩ := marked
  exact ⟨object, (get?_insert_of_ne r identity state other).trans found, has⟩

theorem marked_insert_self (identity : ι) {state : σ} (has : P state) :
    (r.insert identity state).Marked P (key identity) :=
  ⟨_, get?_insert_self r identity state, has⟩

theorem Marked.insert (marked : r.Marked P k) {identity : ι} {state : σ} (has : P state) :
    (r.insert identity state).Marked P k := by grind [marked_insert_self, Marked.insert_of_ne]

theorem Marked.remove (marked : r.Marked P k) {doomed : List κ} (stays : k ∉ doomed) :
    (r.remove doomed).Marked P k := by
  obtain ⟨object, found, has⟩ := marked
  exact ⟨object, by rw [get?_remove, if_neg stays, found], has⟩

def Extends (r s : Registry key σ) : Prop :=
  ∀ pointer object, r.object? pointer = some object → ∃ state, s.object? pointer = some (object.1, state)

theorem Extends.refl (r : Registry key σ) : Extends r r := fun _ object there => ⟨object.2, there⟩

theorem extends_update (r : Registry key σ) (pointer : Nat) (f : σ → σ) : Extends r (r.update pointer f) := by
  intro other object there
  rw [object?_update, there]
  grind

theorem extends_insert (r : Registry key σ) (identity : ι) (state : σ) : Extends r (r.insert identity state) := by
  intro pointer object there
  exact ⟨object.2, (List.getElem?_append_left (List.getElem?_eq_some_iff.mp there).1).trans there⟩

theorem extends_remove (r : Registry key σ) (doomed : List κ) : Extends r (r.remove doomed) := Extends.refl r

theorem extends_clear (r : Registry key σ) : Extends r r.clear := Extends.refl r

end Registry

end Shared
