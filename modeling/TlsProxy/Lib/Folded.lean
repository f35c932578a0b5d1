import Mathlib.Data.List.Basic

/-! A block is read up to its first stop line. A line that is not a continuation
opens an entry, and the continuation lines after it belong to that entry. -/
namespace Folded

variable {α σ ε : Type*} {stop fold : α → Bool}

structure Entry (stop fold : α → Bool) where
  line : α
  folds : List α
  live : stop line = false
  opens : fold line = false
  continues : ∀ l ∈ folds, stop l = false ∧ fold l = true

structure Block (stop fold : α → Bool) where
  leading : List α
  entries : List (Entry stop fold)
  continues : ∀ l ∈ leading, stop l = false ∧ fold l = true

def Entry.lines (e : Entry stop fold) : List α := e.line :: e.folds

def Block.lines (b : Block stop fold) : List α := b.leading ++ b.entries.flatMap Entry.lines

theorem Block.live_of_mem_lines (b : Block stop fold) {l : α} (h : l ∈ b.lines) : stop l = false := by
  rcases List.mem_append.mp h with leading | inside
  · exact (b.continues l leading).1
  · obtain ⟨e, -, member⟩ := List.mem_flatMap.mp inside
    rcases List.mem_cons.mp member with rfl | later
    · exact e.live
    · exact (e.continues l later).1

def Block.empty : Block stop fold := ⟨[], [], by simp⟩

def group (stop fold : α → Bool) : List α → Block stop fold
  | [] => .empty
  | l :: ls =>
    let rest := group stop fold ls
    if stops : stop l = true then .empty
    else if folds : fold l = true then
      { rest with
        leading := l :: rest.leading
        continues := by grind [Block.continues] }
    else
      ⟨[], ⟨l, rest.leading, by simpa using stops, by simpa using folds, rest.continues⟩ :: rest.entries,
        by simp⟩

theorem lines_group (stop fold : α → Bool) (ls : List α) :
    (group stop fold ls).lines = ls.takeWhile fun l => !stop l := by
  induction ls with
  | nil => rfl
  | cons l ls ih =>
    by_cases stops : stop l = true
    · simp [group, stops, Block.lines, Block.empty]
    · rw [List.takeWhile_cons_of_pos (by simpa using stops), ← ih]
      grind [group, Block.lines, Entry.lines]

theorem mem_of_mem_group (stop fold : α → Bool) {ls : List α} {l : α}
    (h : l ∈ (group stop fold ls).lines) : l ∈ ls := by
  rw [lines_group] at h
  exact (List.takeWhile_prefix _).subset h

/-- The opening lines are the lines before the first stop line that are no continuations. -/
theorem group_entries_line (stop fold : α → Bool) (ls : List α) :
    (group stop fold ls).entries.map Entry.line = (ls.takeWhile fun l => !stop l).filter fun l => !fold l := by
  induction ls with
  | nil => rfl
  | cons l ls ih =>
    by_cases stops : stop l = true
    · simp [group, stops, Block.empty]
    · by_cases folds : fold l = true <;> simp [group, stops, folds, ih]

theorem group_folds_append {folds : List α} (ls : List α)
    (h : ∀ l ∈ folds, stop l = false ∧ fold l = true) :
    (group stop fold (folds ++ ls)).leading = folds ++ (group stop fold ls).leading ∧
      (group stop fold (folds ++ ls)).entries = (group stop fold ls).entries := by
  induction folds with
  | nil => exact ⟨rfl, rfl⟩
  | cons l rest ih =>
    obtain ⟨live, isFold⟩ := h l List.mem_cons_self
    obtain ⟨leading, entries⟩ := ih fun m member => h m (List.mem_cons_of_mem _ member)
    simp [group, live, isFold, leading, entries]

theorem group_entries_append (entries : List (Entry stop fold)) (ls : List α)
    (h : (group stop fold ls).leading = []) :
    (group stop fold (entries.flatMap Entry.lines ++ ls)).leading = [] ∧
      (group stop fold (entries.flatMap Entry.lines ++ ls)).entries =
        entries ++ (group stop fold ls).entries := by
  induction entries with
  | nil => exact ⟨h, rfl⟩
  | cons e rest ih =>
    obtain ⟨leading, entries⟩ := ih
    obtain ⟨folds, more⟩ := group_folds_append (rest.flatMap Entry.lines ++ ls) e.continues
    simp [Entry.lines, group, e.live, e.opens, folds, more, leading, entries]

theorem group_lines (b : Block stop fold) {l : α} (ls : List α) (h : stop l = true) :
    group stop fold (b.lines ++ l :: ls) = b := by
  have stopped : group stop fold (l :: ls) = .empty := by simp [group, h]
  obtain ⟨leading, entries⟩ := group_entries_append b.entries (l :: ls)
    (by rw [stopped]; rfl)
  obtain ⟨folds, more⟩ := group_folds_append (b.entries.flatMap Entry.lines ++ l :: ls) b.continues
  cases grouped : group stop fold (b.lines ++ l :: ls) with
  | mk lead items valid =>
    rw [Block.lines, List.append_assoc] at grouped
    rw [grouped] at folds more
    obtain ⟨lead', items', valid'⟩ := b
    simp_all [Block.empty]

theorem exists_plain_entries (stop fold : α → Bool) {ls : List α}
    (h : ∀ l ∈ ls, stop l = false ∧ fold l = false) :
    ∃ entries : List (Entry stop fold), entries.map Entry.line = ls ∧
      entries.flatMap Entry.lines = ls ∧ ∀ e ∈ entries, e.folds = [] := by
  induction ls with
  | nil => exact ⟨[], rfl, rfl, by simp⟩
  | cons l ls ih =>
    obtain ⟨live, opens⟩ := h l List.mem_cons_self
    obtain ⟨entries, lines, flat, plain⟩ := ih fun m member => h m (List.mem_cons_of_mem _ member)
    refine ⟨⟨l, [], live, opens, by simp⟩ :: entries, by simp [lines], by simp [Entry.lines, flat], ?_⟩
    grind

/-- A parser loop that rejects a continuation line while its flag is raised. -/
def scan (stop fold : α → Bool) (open_ : σ → α → Except ε σ) (flag : σ → Bool) (reject : ε) :
    σ → List α → Except ε σ
  | s, [] => .ok s
  | s, l :: ls =>
    if stop l then .ok s
    else if fold l then
      if flag s then .error reject else scan stop fold open_ flag reject s ls
    else open_ s l >>= fun s' => scan stop fold open_ flag reject s' ls

/-- One entry of the loop: its opening line, then the check on its continuation lines. -/
def scanEntry (open_ : σ → α → Except ε σ) (flag : σ → Bool) (reject : ε) (s : σ)
    (e : Entry stop fold) : Except ε σ :=
  open_ s e.line >>= fun s' => if flag s' ∧ e.folds ≠ [] then .error reject else .ok s'

theorem scan_eq_foldlM (open_ : σ → α → Except ε σ) (flag : σ → Bool) (reject : ε) (s : σ)
    (ls : List α) :
    scan stop fold open_ flag reject s ls =
      if flag s ∧ (group stop fold ls).leading ≠ [] then .error reject
      else (group stop fold ls).entries.foldlM (scanEntry open_ flag reject) s := by
  induction ls generalizing s with
  | nil => simp [scan, group, Block.empty]; rfl
  | cons l ls ih =>
    unfold scan group
    by_cases stops : stop l = true
    · simp [stops, Block.empty]; rfl
    · by_cases folds : fold l = true
      · grind
      · simp only [stops, folds, Bool.false_eq_true, ↓reduceIte, ↓reduceDIte, ne_eq,
          not_true_eq_false, and_false, List.foldlM_cons, scanEntry, bind_assoc]
        congr 1
        funext s'
        rw [ih]
        split <;> rfl

end Folded
