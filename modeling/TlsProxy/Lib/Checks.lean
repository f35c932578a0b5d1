import Mathlib.Data.List.Forall2

/-! When a computation in `Except` succeeds, so did each of its parts. -/
namespace Checks

variable {ε α β : Type}

theorem bind_eq_ok {x : Except ε α} {f : α → Except ε β} {b : β} :
    (x >>= f) = .ok b ↔ ∃ a, x = .ok a ∧ f a = .ok b := by
  cases x with
  | error cause =>
    constructor
    · intro failed
      cases failed
    · simp
  | ok a =>
    constructor
    · intro done
      exact ⟨a, rfl, done⟩
    · rintro ⟨_, same, done⟩
      cases same
      exact done

def require (c : Prop) [Decidable c] (cause : ε) : Except ε Unit := if c then .ok () else .error cause

theorem require_eq_ok {c : Prop} [Decidable c] {cause : ε} {done : Unit} : require c cause = .ok done ↔ c := by
  unfold require
  split <;> simp [*]

theorem mapError_eq_ok {x : Except ε α} {f : ε → β} {a : α} : x.mapError f = .ok a ↔ x = .ok a := by
  cases x <;> simp [Except.mapError]

theorem toOption_eq_some {x : Except ε α} {a : α} : x.toOption = some a ↔ x = .ok a := by
  cases x <;> simp [Except.toOption]

theorem forM_eq_ok {xs : List α} {f : α → Except ε Unit} : xs.forM f = .ok () ↔ ∀ x ∈ xs, f x = .ok () := by
  induction xs with
  | nil => simp [List.forM, pure, Except.pure]
  | cons x rest ih =>
    rw [List.forM, bind_eq_ok]
    constructor
    · grind
    · grind

theorem mapM_eq_ok {xs : List α} {f : α → Except ε β} {ys : List β} :
    xs.mapM f = .ok ys ↔ List.Forall₂ (fun x y => f x = .ok y) xs ys := by
  induction xs generalizing ys with
  | nil =>
    rw [List.mapM_nil, List.forall₂_nil_left_iff]
    constructor
    · intro same
      cases same
      rfl
    · rintro rfl
      rfl
  | cons x rest ih =>
    rw [List.mapM_cons, bind_eq_ok]
    constructor
    · rintro ⟨y, first, later⟩
      obtain ⟨zs, mapped, same⟩ := bind_eq_ok.mp later
      cases same
      exact .cons first (ih.mp mapped)
    · intro related
      cases related with
      | cons first later => exact ⟨_, first, bind_eq_ok.mpr ⟨_, ih.mpr later, rfl⟩⟩

theorem exists_of_mem_mapM {xs : List α} {f : α → Except ε β} {ys : List β} (mapped : xs.mapM f = .ok ys) {y : β}
    (member : y ∈ ys) : ∃ x ∈ xs, f x = .ok y := by
  have related := mapM_eq_ok.mp mapped
  clear mapped
  induction related with
  | nil => cases member
  | cons first later ih => grind

theorem mem_of_mapM {xs : List α} {f : α → Except ε β} {ys : List β} (mapped : xs.mapM f = .ok ys) {x : α} {y : β}
    (member : x ∈ xs) (same : f x = .ok y) : y ∈ ys := by
  have related := mapM_eq_ok.mp mapped
  clear mapped
  induction related with
  | nil => cases member
  | cons first later ih => grind

theorem mapM_eq_map {xs : List α} {f : α → Except ε β} {g : α → β} (all : ∀ x ∈ xs, f x = .ok (g x)) :
    xs.mapM f = .ok (xs.map g) := by
  rw [mapM_eq_ok, List.forall₂_map_right_iff, List.forall₂_same]
  exact all

theorem map_eq_of_mapM {γ : Type} {xs : List α} {f : α → Except ε β} {ys : List β} (mapped : xs.mapM f = .ok ys)
    {before : α → γ} {after : β → γ} (agree : ∀ x y, f x = .ok y → after y = before x) :
    ys.map after = xs.map before := by
  have related := mapM_eq_ok.mp mapped
  clear mapped
  induction related with
  | nil => rfl
  | cons first later ih => grind

theorem mapM_isOk_iff {xs : List α} {f : α → Except ε β} :
    (∃ ys, xs.mapM f = .ok ys) ↔ ∀ x ∈ xs, ∃ y, f x = .ok y := by
  simp only [mapM_eq_ok]
  constructor
  · rintro ⟨ys, related⟩
    induction related with
    | nil =>
      intro x member
      cases member
    | cons first later ih => grind
  · intro all
    induction xs with
    | nil => exact ⟨[], .nil⟩
    | cons x rest ih =>
      obtain ⟨y, first⟩ := all x List.mem_cons_self
      obtain ⟨ys, later⟩ := ih fun z member => all z (List.mem_cons_of_mem _ member)
      exact ⟨y :: ys, .cons first later⟩

end Checks
