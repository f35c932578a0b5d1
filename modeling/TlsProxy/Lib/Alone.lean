import TlsProxy.Lib.Programs

/-! Rules for what a program leaves behind when nothing else runs: the run ends, in
a state and with a result as described. -/
namespace Programs

variable {ε ℓ σ α β : Type} {effect : ℓ → σ → Option σ}

/-- From the state the program comes to its end, and to a result as described. -/
def Ends (effect : ℓ → σ → Option σ) (post : σ → α → Prop) : σ → Program ℓ σ α → Prop
  | s, .done result => post s result
  | s, .action label next => ∃ changed, effect label s = some changed ∧ Ends effect post changed (next s)

theorem ends_iff {post : σ → α → Prop} {s : σ} {program : Program ℓ σ α} :
    Ends effect post s program ↔ ∃ result last, program.alone effect s = some (result, last) ∧ post last result := by
  induction program generalizing s with
  | done result =>
    constructor
    · intro holds
      exact ⟨result, s, rfl, holds⟩
    · rintro ⟨_, _, same, holds⟩
      cases same
      exact holds
  | action label next ih =>
    change (∃ changed, effect label s = some changed ∧ _) ↔ ∃ result last, (effect label s).bind _ = some _ ∧ _
    cases effect label s with
    | none => simp
    | some changed => grind

theorem Ends.mono {post other : σ → α → Prop} (weaker : ∀ s result, post s result → other s result) {s : σ}
    {program : Program ℓ σ α} (ends : Ends effect post s program) : Ends effect other s program := by
  induction program generalizing s with
  | done result => exact weaker s result ends
  | action label next ih =>
    obtain ⟨changed, possible, ends⟩ := ends
    exact ⟨changed, possible, ih s ends⟩

theorem Ends.bind {post : σ → β → Prop} {s : σ} {program : Program ℓ σ α} {rest : α → Program ℓ σ β}
    (first : Ends effect (fun s result => Ends effect post s (rest result)) s program) :
    Ends effect post s (program >>= rest) := by
  induction program generalizing s with
  | done result => exact first
  | action label next ih =>
    obtain ⟨changed, possible, first⟩ := first
    exact ⟨changed, possible, ih s first⟩

theorem Ends.bindExcept {failed : σ → ε → Prop} {ok : σ → β → Prop} {s : σ} {program : ExceptT ε (Program ℓ σ) α}
    {rest : α → ExceptT ε (Program ℓ σ) β}
    (first : Ends effect (Outcome (fun s result => Ends effect (Outcome ok failed) s (rest result).run) failed) s
      program.run) :
    Ends effect (Outcome ok failed) s (program >>= rest).run := by
  refine Ends.bind (first.mono ?_)
  intro s result known
  cases result with
  | ok result => exact known
  | error cause => exact known

/-- A program that obeys a monitor comes to its end where every allowed action is possible and keeps what the monitor
assumes. -/
theorem Obeys.ends {τ : Type} {monitor : Monitor ℓ σ τ} {post : τ → α → Prop} {sound : τ → σ → Prop}
    (progress : ∀ t label s, monitor.allowed t label → sound t s → monitor.assumes t label s ∧
      ∃ changed, effect label s = some changed ∧ sound (monitor.observe t label s) changed)
    {t : τ} {s : σ} {program : Program ℓ σ α} (obeys : Obeys monitor post t program) (start : sound t s) :
    Ends effect (fun s result => ∃ t, sound t s ∧ post t result) s program := by
  induction program generalizing t s with
  | done result => exact ⟨t, start, obeys⟩
  | action label next ih =>
    obtain ⟨known, changed, possible, kept⟩ := progress t label s obeys.1 start
    exact ⟨changed, possible, ih s (obeys.2 s known) kept⟩

end Programs
