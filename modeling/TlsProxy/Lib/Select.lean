import Mathlib.Data.List.Induction
import Mathlib.Data.List.Sort
import Mathlib.Data.Prod.Lex
import Mathlib.Order.Lattice

/-! A left-to-right scan that keeps one element by its score and lets a later one
replace it. -/
namespace Select

variable {α κ : Type*} (replaces : κ → κ → Prop) [DecidableRel replaces] (score : α → Option κ)

def keep (best : Option (α × κ)) (x : α) : Option (α × κ) :=
  match score x, best with
  | none, best => best
  | some k, none => some (x, k)
  | some k, some (y, j) => if replaces k j then some (x, k) else some (y, j)

def select (xs : List α) : Option (α × κ) := xs.foldl (keep replaces score) none

/-- The element replaces whatever was kept before it, and nothing after it replaces it. -/
def Chosen (xs : List α) (x : α) (k : κ) : Prop :=
  ∃ before after, xs = before ++ x :: after ∧ score x = some k ∧
    (∀ y ∈ before, ∀ j, score y = some j → replaces k j) ∧
    ∀ y ∈ after, ∀ j, score y = some j → ¬ replaces j k

/-- What a scan needs of the relation to end with a chosen element. -/
structure Laws : Prop where
  trans : ∀ {i j k}, replaces i j → replaces j k → replaces i k
  jump : ∀ {i j k}, ¬ replaces i k → replaces j k → replaces j i

variable {replaces score}

@[simp] theorem select_nil : select replaces score [] = none := rfl

theorem select_append_singleton (xs : List α) (x : α) :
    select replaces score (xs ++ [x]) = keep replaces score (select replaces score xs) x := by grind [select]

omit [DecidableRel replaces] in
theorem Chosen.mem {xs : List α} {x : α} {k : κ} (h : Chosen replaces score xs x k) :
    x ∈ xs ∧ score x = some k := by
  obtain ⟨before, after, rfl, scored, -, -⟩ := h
  exact ⟨List.mem_append_right _ List.mem_cons_self, scored⟩

omit [DecidableRel replaces] in
theorem Chosen.append {xs : List α} {x y : α} {k : κ} (h : Chosen replaces score xs x k)
    (weaker : ∀ j, score y = some j → ¬ replaces j k) : Chosen replaces score (xs ++ [y]) x k := by
  obtain ⟨before, after, rfl, scored, ahead, behind⟩ := h
  refine ⟨before, after ++ [y], by simp, scored, ahead, ?_⟩
  intro z member j same
  rcases List.mem_append.mp member with old | new
  · exact behind z old j same
  · rw [List.mem_singleton.mp new] at same
    exact weaker j same

omit [DecidableRel replaces] in
theorem Chosen.replace (laws : Laws replaces) {xs : List α} {x y : α} {k j : κ}
    (h : Chosen replaces score xs x k) (scored : score y = some j) (better : replaces j k) :
    Chosen replaces score (xs ++ [y]) y j := by
  obtain ⟨before, after, rfl, best, ahead, behind⟩ := h
  refine ⟨before ++ x :: after, [], rfl, scored, ?_, by simp⟩
  intro z member i same
  rcases List.mem_append.mp member with old | later
  · exact laws.trans better (ahead z old i same)
  · rcases List.mem_cons.mp later with rfl | rest
    · rw [best] at same
      cases same
      exact better
    · exact laws.jump (behind z rest i same) better

theorem select_spec (laws : Laws replaces) (score : α → Option κ) (xs : List α) :
    match select replaces score xs with
    | none => ∀ x ∈ xs, score x = none
    | some (x, k) => Chosen replaces score xs x k := by
  induction xs using List.reverseRecOn with
  | nil => simp
  | append_singleton xs x ih =>
    rw [select_append_singleton]
    cases kept : select replaces score xs with
    | none =>
      simp only [kept] at ih
      cases scored : score x with
      | none =>
        simp only [keep, scored]
        grind
      | some k =>
        simp only [keep, scored]
        refine ⟨xs, [], rfl, scored, ?_, by simp⟩
        grind
    | some best =>
      obtain ⟨y, j⟩ := best
      simp only [kept] at ih
      cases scored : score x with
      | none =>
        simp only [keep, scored]
        exact ih.append (by simp [scored])
      | some k =>
        by_cases better : replaces k j
        · simp only [keep, scored, if_pos better]
          exact ih.replace laws scored better
        · simp only [keep, scored, if_neg better]
          exact ih.append (by simpa [scored] using better)

theorem select_eq_none_iff (laws : Laws replaces) {xs : List α} :
    select replaces score xs = none ↔ ∀ x ∈ xs, score x = none := by
  have spec := select_spec laws score xs
  constructor
  · intro kept
    simpa only [kept] using spec
  · intro unscored
    cases kept : select replaces score xs with
    | none => rfl
    | some best =>
      simp only [kept] at spec
      obtain ⟨member, scored⟩ := spec.mem
      grind

theorem foldl_keep_of_not_replaced {x : α} {k : κ} {xs : List α}
    (behind : ∀ y ∈ xs, ∀ j, score y = some j → ¬ replaces j k) :
    xs.foldl (keep replaces score) (some (x, k)) = some (x, k) := by
  induction xs with
  | nil => rfl
  | cons y rest ih =>
    have kept : keep replaces score (some (x, k)) y = some (x, k) := by
      cases scored : score y with
      | none => simp only [keep, scored]
      | some j => simp only [keep, scored, if_neg (behind y List.mem_cons_self j scored)]
    grind

theorem select_eq_some_iff (laws : Laws replaces) {xs : List α} {x : α} {k : κ} :
    select replaces score xs = some (x, k) ↔ Chosen replaces score xs x k := by
  constructor
  · grind [select_spec]
  · rintro ⟨before, after, rfl, scored, ahead, behind⟩
    have spec := select_spec laws score before
    have taken : keep replaces score (select replaces score before) x = some (x, k) := by
      cases kept : select replaces score before with
      | none => simp only [keep, scored]
      | some best =>
        obtain ⟨y, j⟩ := best
        simp only [kept] at spec
        obtain ⟨member, best⟩ := spec.mem
        simp only [keep, scored, if_pos (ahead y member j best)]
    have folded : select replaces score (before ++ x :: after) =
        after.foldl (keep replaces score) (keep replaces score (select replaces score before) x) := by grind [select]
    rw [folded, taken]
    exact foldl_keep_of_not_replaced behind

section Linear

variable [LinearOrder κ]

theorem laws_lt : Laws fun k j : κ => j < k where
  trans := fun below above => above.trans below
  jump := fun notAbove above => (not_lt.mp notAbove).trans_lt above

theorem laws_le : Laws fun k j : κ => j ≤ k where
  trans := fun below above => above.trans below
  jump := fun notAbove above => ((not_le.mp notAbove).trans_le above).le

variable {score : α → Option κ} {xs ys : List α}

/-- A relation between the strict and the weak order keeps an element of greatest score. -/
theorem Chosen.most {replaces : κ → κ → Prop} (strict : ∀ {k j}, j < k → replaces k j)
    (weak : ∀ {k j}, replaces k j → j ≤ k) {x : α} {k : κ} (chosen : Chosen replaces score xs x k) :
    ∀ y ∈ xs, ∀ j, score y = some j → j ≤ k := by
  obtain ⟨before, after, rfl, scored, ahead, behind⟩ := chosen
  intro y member j has
  rcases List.mem_append.mp member with early | rest
  · exact weak (ahead y early j has)
  · grind

/-- Where no two elements have the same score, the scan ends with the one that has the greatest. -/
theorem select_le_eq_some_iff
    (distinct : ∀ x ∈ xs, ∀ y ∈ xs, ∀ k, score x = some k → score y = some k → x = y) {x : α} {k : κ} :
    select (fun k j => j ≤ k) score xs = some (x, k) ↔
      x ∈ xs ∧ score x = some k ∧ ∀ y ∈ xs, ∀ j, score y = some j → j ≤ k := by
  have top : ∀ {x k}, select (fun k j => j ≤ k) score xs = some (x, k) →
      x ∈ xs ∧ score x = some k ∧ ∀ y ∈ xs, ∀ j, score y = some j → j ≤ k := by
    intro x k kept
    have chosen := (select_eq_some_iff laws_le).mp kept
    grind [Chosen.mem, Chosen.most]
  constructor
  · exact top
  · rintro ⟨member, scored, most⟩
    cases kept : select (fun k j => j ≤ k) score xs with
    | none => grind [select_eq_none_iff, laws_le]
    | some best => grind

theorem select_le_perm (distinct : ∀ x ∈ xs, ∀ y ∈ xs, ∀ k, score x = some k → score y = some k → x = y)
    (perm : ys.Perm xs) : select (fun k j => j ≤ k) score ys = select (fun k j => j ≤ k) score xs := by
  have alike : ∀ x ∈ ys, ∀ y ∈ ys, ∀ k, score x = some k → score y = some k → x = y :=
    fun x first y second => distinct x (perm.mem_iff.mp first) y (perm.mem_iff.mp second)
  apply Option.ext
  grind [select_le_eq_some_iff]

end Linear

end Select
