import Mathlib.Order.Interval.Finset.Nat
import Mathlib.Data.List.Infix

/-! Picks that take the residues of a counter one after the other visit every
position once in each block of as many picks as there are positions. -/
namespace RoundRobin

/-- The residues of the counters from `start` on. -/
inductive Rotating (n : Nat) : Nat → List Nat → Prop
  | nil (start : Nat) : Rotating n start []
  | cons {start : Nat} {rest : List Nat} (later : Rotating n (start + 1) rest) : Rotating n start (start % n :: rest)

variable {n start : Nat} {positions : List Nat}

theorem rotating_iff : Rotating n start positions ↔ positions = (List.range' start positions.length).map (· % n) := by
  induction positions generalizing start with
  | nil => exact ⟨fun _ => rfl, fun _ => .nil start⟩
  | cons first rest ih =>
    constructor
    · intro rotating
      cases rotating with
      | cons later => grind [List.range'_succ]
    · intro same
      rw [List.length_cons, List.range'_succ, List.map_cons] at same
      obtain ⟨rfl, later⟩ := List.cons.inj same
      exact .cons (ih.mpr later)

theorem Rotating.congr {other : Nat} (rotating : Rotating n start positions) (same : start % n = other % n) :
    Rotating n other positions := by
  induction rotating generalizing other with
  | nil => exact .nil other
  | cons later ih =>
    rw [same]
    exact .cons (ih (by rw [Nat.add_mod, same, ← Nat.add_mod]))

theorem Rotating.of_block {block : List Nat} (rotating : Rotating n start positions) (inside : block <:+: positions) :
    ∃ first, Rotating n first block := by
  obtain ⟨before, after, rfl⟩ := inside
  induction before generalizing start with
  | nil =>
    refine ⟨start, rotating_iff.mpr ?_⟩
    have whole := rotating_iff.mp rotating
    rw [List.nil_append, List.length_append, ← List.range'_append_1, List.map_append] at whole
    exact (List.append_inj whole (by simp)).1
  | cons first rest ih =>
    cases rotating with
    | cons later => exact ih later

theorem Rotating.perm_range (rotating : Rotating n start positions) (full : positions.length = n) :
    positions.Perm (List.range n) := by
  have residues := Nat.multiset_Ico_map_mod start n
  rw [Multiset.Ico, Nat.Ico_eq_range', Nat.add_sub_cancel_left, Multiset.map_coe] at residues
  rw [rotating_iff.mp rotating, full]
  exact Multiset.coe_eq_coe.mp residues

theorem getElem?_range {α : Type} (items : List α) : (List.range items.length).map (items[·]?) = items.map some := by
  apply List.ext_getElem
  · simp
  · intro i short _
    simp

/-- The counter goes on as a natural number does, unless it wraps around in the middle of a turn. -/
theorem succ_mod {counter : UInt64} (steady : counter.toNat + 1 < UInt64.size ∨ n ∣ UInt64.size) :
    (counter + 1).toNat % n = (counter.toNat + 1) % n := by
  have value : (counter + 1).toNat = (counter.toNat + 1) % UInt64.size := UInt64.toNat_add counter 1
  grind [Nat.mod_mod_of_dvd]

end RoundRobin
