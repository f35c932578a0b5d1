import Mathlib.Data.List.Basic

/-! Updates are appended to a log; a view is taken from some of them. A view
reflects the first entries of the log if, for each of these that it is about, it
shows that entry or a later one. -/
namespace Snapshots

variable {α : Type} {log : List α} {about shows : α → Prop} {count : Nat}

/-- The first entries of the log are in the log, and the view shows none that an entry among them has replaced. -/
structure Reflects (log : List α) (about shows : α → Prop) (count : Nat) : Prop where
  within : count ≤ log.length
  shown : ∀ i < count, ∀ entry, log[i]? = some entry → about entry →
    ∃ j current, i ≤ j ∧ log[j]? = some current ∧ about current ∧ shows current

theorem reflects_zero : Reflects log about shows 0 := ⟨Nat.zero_le _, fun _ less => absurd less (Nat.not_lt_zero _)⟩

theorem Reflects.mono {other : α → Prop} (reflects : Reflects log about shows count)
    (weaker : ∀ entry, about entry → shows entry → other entry) : Reflects log about other count := by
  refine ⟨reflects.within, fun i less entry found mine => ?_⟩
  grind [Reflects.shown]

theorem Reflects.append (reflects : Reflects log about shows count) (more : List α) :
    Reflects (log ++ more) about shows count := by
  refine ⟨by simpa using Nat.le_add_right_of_le reflects.within, fun i less entry found mine => ?_⟩
  rw [List.getElem?_append_left (Nat.lt_of_lt_of_le less reflects.within)] at found
  obtain ⟨j, current, later, there, same, shown⟩ := reflects.shown i less entry found mine
  refine ⟨j, current, later, ?_, same, shown⟩
  grind

theorem reflects_push {entry : α} (mine : about entry) (shown : shows entry) :
    Reflects (log ++ [entry]) about shows (log.length + 1) := by
  refine ⟨by simp, fun i less _ _ _ => ⟨log.length, entry, Nat.le_of_lt_succ less, by simp, mine, shown⟩⟩

theorem Reflects.skip {entry : α} (reflects : Reflects log about shows log.length) (other : ¬ about entry) :
    Reflects (log ++ [entry]) about shows (log.length + 1) := by
  refine ⟨by simp, fun i less found there mine => ?_⟩
  rcases Nat.lt_succ_iff_lt_or_eq.mp less with earlier | rfl
  · exact (reflects.append [entry]).shown i earlier found there mine
  · grind

theorem Reflects.shows_or_later {before after : List α} {entry : α}
    (reflects : Reflects (before ++ entry :: after) about shows count) (early : before.length < count)
    (mine : about entry) : ∃ current, about current ∧ shows current ∧ (current = entry ∨ current ∈ after) := by
  obtain ⟨j, current, later, there, same, shown⟩ := reflects.shown before.length early entry (by simp) mine
  refine ⟨current, same, shown, ?_⟩
  rw [List.getElem?_append_right later] at there
  cases rest : j - before.length with
  | zero => grind
  | succ k => grind

end Snapshots
