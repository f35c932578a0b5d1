import Mathlib.Data.List.Basic
import Mathlib.Order.Lattice

/-! A list that is sorted by the rank of its names is read page by page. The walk
from the first page visits every item once. -/
namespace Pages

variable {α ν κ : Type} [LinearOrder κ] (name : α → ν) (rank : ν → κ) (size : Nat) (l : List α)

/-- The number of items at the front that are not after the cursor. -/
def position : Option ν → Nat
  | none => 0
  | some cursor => (l.takeWhile fun item => decide (rank (name item) ≤ rank cursor)).length

structure Page (α ν : Type) where
  start : Nat
  items : List α
  next : Option ν

def page (after : Option ν) : Page α ν :=
  let start := position name rank l after
  let stop := min (start + size) l.length
  ⟨start, (l.drop start).take (stop - start), if stop < l.length then (l[stop - 1]?).map name else none⟩

/-- The pages that are read from a cursor on until there is no next one. -/
inductive Walk : Option ν → List (Page α ν) → Prop
  | last {after : Option ν} (ends : (page name rank size l after).next = none) : Walk after [page name rank size l after]
  | next {after : Option ν} {cursor : ν} {pages : List (Page α ν)} (link : (page name rank size l after).next = some cursor)
      (rest : Walk (some cursor) pages) : Walk after (page name rank size l after :: pages)

inductive At (name : α → ν) (l : List α) : Nat → Option ν → Prop
  | first : At name l 0 none
  | behind {m : Nat} (inside : m < l.length) : At name l (m + 1) (some (name l[m]))

variable {name : α → ν} {rank : ν → κ} {size : Nat} {l : List α}

section Sorted

variable (sorted : l.Pairwise fun a b => rank (name a) < rank (name b))
include sorted

theorem position_behind {m : Nat} (inside : m < l.length) : position name rank l (some (name l[m])) = m + 1 := by
  have split : l = l.take (m + 1) ++ l.drop (m + 1) := (List.take_append_drop _ _).symm
  have front : ∀ item ∈ l.take (m + 1), decide (rank (name item) ≤ rank (name l[m])) = true := by
    intro item member
    obtain ⟨i, bound, rfl⟩ := List.getElem_of_mem member
    rw [List.length_take] at bound
    rw [List.getElem_take, decide_eq_true_eq]
    rcases Nat.lt_or_eq_of_le (by omega : i ≤ m) with before | rfl
    · exact le_of_lt (List.pairwise_iff_getElem.mp sorted i m _ inside before)
    · exact le_rfl
  have back : (l.drop (m + 1)).takeWhile (fun item => decide (rank (name item) ≤ rank (name l[m]))) = [] := by
    rcases Nat.lt_or_ge (m + 1) l.length with more | none_
    · rw [List.drop_eq_getElem_cons more, List.takeWhile_cons_of_neg]
      simpa using List.pairwise_iff_getElem.mp sorted m (m + 1) inside more (Nat.lt_succ_self m)
    · rw [List.drop_eq_nil_of_le none_, List.takeWhile_nil]
  calc position name rank l (some (name l[m]))
      = ((l.take (m + 1) ++ l.drop (m + 1)).takeWhile fun item => decide (rank (name item) ≤ rank (name l[m]))).length := by
        rw [← split]
        rfl
    _ = (l.take (m + 1)).length := by rw [List.takeWhile_append_of_pos front, back, List.append_nil]
    _ = m + 1 := List.length_take_of_le inside

theorem position_at {m : Nat} {after : Option ν} (at_ : At name l m after) : position name rank l after = m := by
  cases at_ with
  | first => rfl
  | behind inside => exact position_behind sorted inside

theorem page_last {m : Nat} {after : Option ν} (at_ : At name l m after) (few : l.length ≤ m + size) :
    page name rank size l after = ⟨m, l.drop m, none⟩ := by
  have stop : min (m + size) l.length = l.length := Nat.min_eq_right few
  simp only [page, position_at sorted at_, stop, Nat.lt_irrefl, if_false]
  grind [List.length_drop]

theorem page_next {m : Nat} {after : Option ν} (at_ : At name l m after) (positive : 0 < size)
    (more : m + size < l.length) :
    page name rank size l after = ⟨m, (l.drop m).take size, some (name l[m + size - 1])⟩ := by
  have stop : min (m + size) l.length = m + size := Nat.min_eq_left (Nat.le_of_lt more)
  grind [page, position_at]

theorem walk_from (positive : 0 < size) {m : Nat} {after : Option ν} (at_ : At name l m after) (inside : m ≤ l.length) :
    ∃ pages, Walk name rank size l after pages ∧ pages.flatMap Page.items = l.drop m ∧
      pages.length = max 1 ((l.length - m + size - 1) / size) ∧
      ∀ k page, pages[k]? = some page → page.start = m + ((pages.take k).flatMap Page.items).length := by
  -- the induction is on the number of items that are left
  induction left : l.length - m using Nat.strongRecOn generalizing m after with
  | _ n ih =>
    rcases Nat.lt_or_ge (m + size) l.length with more | few
    · have turned := page_next sorted at_ positive more
      have behind : At name l (m + size) (some (name l[m + size - 1])) := by
        have here : At name l (m + size - 1 + 1) (some (name l[m + size - 1])) := .behind (by omega)
        rwa [Nat.sub_add_cancel (by omega)] at here
      obtain ⟨pages, walk, items, count, starts⟩ := ih (l.length - (m + size)) (by omega) behind (Nat.le_of_lt more) rfl
      refine ⟨page name rank size l after :: pages, .next (by rw [turned]) walk, ?_, ?_, ?_⟩
      · rw [List.flatMap_cons, items, turned, ← List.drop_drop, List.take_append_drop]
      · rw [List.length_cons, count]
        have whole : l.length - m + size - 1 = l.length - (m + size) + size - 1 + size := by omega
        have some_ : 1 ≤ (l.length - (m + size) + size - 1) / size := (Nat.one_le_div_iff positive).mpr (by omega)
        rw [← left, whole, Nat.add_div_right _ positive]
        omega
      · intro k page found
        cases k with
        | zero => grind
        | succ k =>
          have full : ((l.drop m).take size).length = size := by
            rw [List.length_take, List.length_drop]
            omega
          rw [starts k page found, List.take_succ_cons, List.flatMap_cons, List.length_append, turned, full,
            Nat.add_assoc]
    · have last := page_last sorted at_ few
      refine ⟨[page name rank size l after], .last (by rw [last]), ?_, ?_, ?_⟩
      · rw [last, List.flatMap_singleton]
      · have small : (l.length - m + size - 1) / size ≤ 1 := by
          rw [← Nat.lt_succ_iff, Nat.div_lt_iff_lt_mul positive]
          omega
        grind
      · intro k page found
        cases k with
        | zero => grind
        | succ k => cases found

end Sorted

end Pages
