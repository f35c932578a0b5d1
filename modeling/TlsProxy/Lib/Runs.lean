import Mathlib.Data.List.Basic

/-! A system is a partial step function over an event alphabet. Side conditions on
runs are stated on the state before each step, so that one preservation lemma
per step yields the invariant of every run that meets them. -/
namespace Runs

variable {σ ε : Type*} (step : σ → ε → Option σ)

/-- Replay of a finite event list; `none` when some event is not enabled. -/
def run : σ → List ε → Option σ
  | s, [] => some s
  | s, e :: es => (step s e).bind fun next => run next es

theorem run_cons_inv {s last : σ} {e : ε} {es : List ε} (whole : run step s (e :: es) = some last) :
    ∃ next, step s e = some next ∧ run step next es = some last := by
  simpa only [run, Option.bind_eq_some_iff] using whole

/-- Every step of the run starts in a state that meets the side condition. -/
def Meets (ok : σ → ε → Prop) : σ → List ε → Prop
  | _, [] => True
  | s, e :: es => ok s e ∧ ∀ next, step s e = some next → Meets ok next es

theorem Meets.cons {ok : σ → ε → Prop} {s next : σ} {e : ε} {es : List ε} (first : ok s e)
    (enabled : step s e = some next) (rest : Meets step ok next es) : Meets step ok s (e :: es) := by
  refine ⟨first, fun other same => ?_⟩
  grind

theorem meets_of_forall {ok : σ → ε → Prop} (always : ∀ s e, ok s e) (s : σ) (es : List ε) : Meets step ok s es := by
  induction es generalizing s with
  | nil => trivial
  | cons e es ih => exact ⟨always s e, fun next _ => ih next⟩

theorem Meets.and_forall {ok : σ → ε → Prop} {also : ε → Prop} {s : σ} {es : List ε} (meets : Meets step ok s es)
    (each : ∀ e ∈ es, also e) : Meets step (fun s e => ok s e ∧ also e) s es := by
  induction es generalizing s with
  | nil => trivial
  | cons e es ih =>
    refine ⟨⟨meets.1, each e List.mem_cons_self⟩, fun next taken => ?_⟩
    exact ih (meets.2 next taken) fun other later => each other (List.mem_cons_of_mem _ later)

instance decidableMeets {ok : σ → ε → Prop} [∀ s e, Decidable (ok s e)] :
    ∀ s es, Decidable (Meets step ok s es)
  | _, [] => .isTrue trivial
  | s, e :: es =>
    match taken : step s e with
    | none => decidable_of_iff (ok s e) (by simp [Meets, taken])
    | some next =>
      have : Decidable (Meets step ok next es) := decidableMeets next es
      decidable_of_iff (ok s e ∧ Meets step ok next es) (by simp [Meets, taken])

theorem run_invariant {ok : σ → ε → Prop} {inv : σ → Prop}
    (preserve : ∀ s e next, inv s → ok s e → step s e = some next → inv next)
    {s last : σ} {es : List ε} (start : inv s) (meets : Meets step ok s es)
    (whole : run step s es = some last) : inv last := by
  induction es generalizing s with
  | nil => cases whole; exact start
  | cons e es ih =>
    obtain ⟨next, enabled, rest⟩ := run_cons_inv step whole
    exact ih (preserve s e next start meets.1 enabled) (meets.2 next enabled) rest

theorem exists_run {inv : σ → Prop} {es : List ε}
    (progress : ∀ e ∈ es, ∀ s, inv s → ∃ next, step s e = some next ∧ inv next) {s : σ} (start : inv s) :
    ∃ last, run step s es = some last ∧ inv last := by
  induction es generalizing s with
  | nil => exact ⟨s, rfl, start⟩
  | cons e es ih => grind [List.mem_cons_self, run]

/-- Whatever the events are, the run comes to a state that meets the postcondition. -/
inductive Leads (post : σ → Prop) : σ → Prop
  | here {s} : post s → Leads post s
  | step {s} : (∀ e, (step s e).isSome) → (∀ e next, step s e = some next → Leads post next) → Leads post s

end Runs
