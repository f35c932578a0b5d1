import TlsProxy.Lib.Histories

/-! An operation takes effect at one of its actions, its point; which action that is
may depend on what the task has done and found before. If every point changes
what is seen of the state as its operation says and no other action changes it,
then what is seen is the result of the operations one after the other, in the
order of their points. -/
namespace Programs

variable {ℓ σ κ : Type}

section Points

variable (point : List (ℓ × σ) → ℓ → σ → Bool)

def pointed : List (ℓ × σ) → Bool
  | [] => false
  | (label, found) :: earlier => point earlier label found || pointed earlier

def points : List (Entry ℓ σ) → List (Entry ℓ σ)
  | [] => []
  | entry :: earlier =>
    if point (trace entry.task earlier) entry.label entry.found then entry :: points earlier else points earlier

theorem points_sublist (past : List (Entry ℓ σ)) : (points point past).Sublist past := by
  induction past with
  | nil => exact .slnil
  | cons entry earlier ih => grind [points]

theorem exists_mem_points_iff {task : Nat} {past : List (Entry ℓ σ)} :
    (∃ entry ∈ points point past, entry.task = task) ↔ pointed point (trace task past) = true := by
  induction past with
  | nil => simp [points, trace, pointed]
  | cons entry earlier ih =>
    by_cases own : entry.task = task
    · subst own
      rw [trace_cons_self entry.task entry.label entry.found, pointed, Bool.or_eq_true, ← ih, points]
      grind
    · grind [trace_cons_of_ne, points]

/-- What is seen of the state is the result of the operations in the order of their points, of which each task has
at most one. -/
structure Linear (view : σ → κ) (apply : ℓ → κ → κ) (first w : σ) (past : List (Entry ℓ σ)) : Prop where
  once : ((points point past).map Entry.task).Nodup
  result : view w = (points point past).foldr (fun entry seen => apply entry.label seen) (view first)

variable {point} {view : σ → κ} {apply : ℓ → κ → κ} {first w next : σ} {past : List (Entry ℓ σ)}

theorem linear_initial : Linear point view apply first first [] := ⟨.nil, rfl⟩

theorem Linear.step (linear : Linear point view apply first w past) {task : Nat} {label : ℓ}
    (once : point (trace task past) label w = true → pointed point (trace task past) = false)
    (moves : point (trace task past) label w = true → view next = apply label (view w))
    (rests : point (trace task past) label w = false → view next = view w) :
    Linear point view apply first next (⟨task, label, w⟩ :: past) := by
  by_cases reached : point (trace task past) label w = true
  · refine ⟨?_, ?_⟩
    · rw [points, if_pos reached, List.map_cons, List.nodup_cons]
      grind [Linear.once, exists_mem_points_iff]
    · grind [points, Linear.result]
  · refine ⟨?_, ?_⟩
    · rw [points, if_neg reached]
      exact linear.once
    · grind [points, Linear.result]

end Points

end Programs
