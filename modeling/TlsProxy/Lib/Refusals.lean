import Mathlib.Control.Monad.Basic

/-! A request reads and changes a state and may be refused on the way; what it had
written before stays. -/
namespace Refusals

/-- A request to a state; a refusal keeps the state it was in. -/
abbrev Request (ε σ : Type) := ExceptT ε (StateM σ)

variable {ε δ σ α β : Type}

def exec (request : Request ε σ α) (s : σ) : Except ε α × σ := StateT.run (ExceptT.run request) s

def decided (answer : Except ε α) : Request ε σ α := ExceptT.mk (pure answer)

def observed (answer : σ → Except ε α) : Request ε σ α := ExceptT.mk fun s => (answer s, s)

def updated (update : σ → Except ε (α × σ)) : Request ε σ α := ExceptT.mk fun s =>
  match update s with
  | .ok (a, next) => (.ok a, next)
  | .error cause => (.error cause, s)

def refuseUnless (c : Prop) [Decidable c] (cause : ε) : Request ε σ Unit :=
  decided (if c then .ok () else .error cause)

def recast (f : δ → ε) (request : Request δ σ α) : Request ε σ α := ExceptT.mk fun s =>
  ((exec request s).1.mapError f, (exec request s).2)

theorem exec_bind_ok {request : Request ε σ α} {rest : α → Request ε σ β} {s next : σ} {a : α}
    (first : exec request s = (.ok a, next)) : exec (request >>= rest) s = exec (rest a) next := by
  simp only [exec, ExceptT.run, StateT.run] at first
  simp only [exec, bind, ExceptT.bind, ExceptT.mk, ExceptT.run, StateT.run, StateT.bind, first]
  rfl

theorem exec_bind_error {request : Request ε σ α} {rest : α → Request ε σ β} {s next : σ} {cause : ε}
    (first : exec request s = (.error cause, next)) : exec (request >>= rest) s = (.error cause, next) := by
  simp only [exec, ExceptT.run, StateT.run] at first
  simp only [exec, bind, ExceptT.bind, ExceptT.mk, ExceptT.run, StateT.run, StateT.bind, first]
  rfl

theorem exec_bind_eq_ok {request : Request ε σ α} {rest : α → Request ε σ β} {s : σ} (kept : (exec request s).2 = s)
    {b : β} : (exec (request >>= rest) s).1 = .ok b ↔ ∃ a, (exec request s).1 = .ok a ∧ (exec (rest a) s).1 = .ok b := by
  cases answered : exec request s with
  | mk answer next =>
    rw [answered] at kept
    cases kept
    cases answer with
    | ok a => simp [exec_bind_ok answered]
    | error cause => simp [exec_bind_error answered]

theorem exec_decided (answer : Except ε α) (s : σ) : exec (decided answer) s = (answer, s) := rfl

theorem exec_observed (answer : σ → Except ε α) (s : σ) : exec (observed answer) s = (answer s, s) := rfl

theorem exec_recast_ok {request : Request δ σ α} {s next : σ} {a : α} (granted : exec request s = (.ok a, next))
    (f : δ → ε) : exec (recast f request) s = (.ok a, next) := by
  change ((exec request s).1.mapError f, (exec request s).2) = _
  rw [granted]
  rfl

theorem exec_recast_error {request : Request δ σ α} {s next : σ} {cause : δ}
    (refused : exec request s = (.error cause, next)) (f : δ → ε) :
    exec (recast f request) s = (.error (f cause), next) := by
  change ((exec request s).1.mapError f, (exec request s).2) = _
  rw [refused]
  rfl

theorem exec_updated_ok {update : σ → Except ε (α × σ)} {s next : σ} {a : α} (done : update s = .ok (a, next)) :
    exec (updated update) s = (.ok a, next) := by
  change (match update s with | .ok (a, next) => (Except.ok a, next) | .error cause => (.error cause, s)) = _
  rw [done]

theorem exec_updated_error {update : σ → Except ε (α × σ)} {s : σ} {cause : ε} (failed : update s = .error cause) :
    exec (updated update) s = (.error cause, s) := by
  change (match update s with | .ok (a, next) => (Except.ok a, next) | .error cause => (.error cause, s)) = _
  rw [failed]

theorem exec_refuseUnless {c : Prop} [Decidable c] {cause : ε} {s : σ} {done : Unit} :
    (exec (refuseUnless c cause) s).1 = .ok done ↔ c := by
  change (if c then Except.ok () else .error cause) = .ok done ↔ c
  split <;> simp_all

def Reads (request : Request ε σ α) : Prop := ∀ s, (exec request s).2 = s

theorem reads_decided (answer : Except ε α) : Reads (decided answer : Request ε σ α) := fun _ => rfl

theorem reads_observed (answer : σ → Except ε α) : Reads (observed answer) := fun _ => rfl

theorem reads_refuseUnless (c : Prop) [Decidable c] (cause : ε) : Reads (refuseUnless c cause : Request ε σ Unit) :=
  reads_decided _

theorem Reads.bind {request : Request ε σ α} {rest : α → Request ε σ β} (first : Reads request)
    (later : ∀ a, Reads (rest a)) : Reads (request >>= rest) := by
  intro s
  have kept := first s
  cases answered : exec request s with
  | mk answer next =>
    rw [answered] at kept
    cases kept
    cases answer with
    | ok a => rw [exec_bind_ok answered, later]
    | error cause => rw [exec_bind_error answered]

/-- In this state, a refusal leaves everything as it was. -/
def RefusesCleanly (request : Request ε σ α) (s : σ) : Prop :=
  ∀ cause, (exec request s).1 = .error cause → (exec request s).2 = s

theorem refusesCleanly_updated (update : σ → Except ε (α × σ)) (s : σ) : RefusesCleanly (updated update) s := by
  intro cause refused
  cases done : update s with
  | ok result =>
    rw [exec_updated_ok done] at refused
    cases refused
  | error cause => rw [exec_updated_error done]

theorem refusesCleanly_bind {request : Request ε σ α} {rest : α → Request ε σ β} {s : σ}
    (kept : (exec request s).2 = s) :
    RefusesCleanly (request >>= rest) s ↔ ∀ a, (exec request s).1 = .ok a → RefusesCleanly (rest a) s := by
  cases answered : exec request s with
  | mk answer next =>
    rw [answered] at kept
    cases kept
    cases answer with
    | ok a => simp only [RefusesCleanly, exec_bind_ok answered, Except.ok.injEq, forall_eq']
    | error cause => simp [RefusesCleanly, exec_bind_error answered]

theorem RefusesCleanly.recast {request : Request δ σ α} {s : σ} (clean : RefusesCleanly request s) (f : δ → ε) :
    RefusesCleanly (recast f request) s := by
  intro cause refused
  change (exec request s).1.mapError f = .error cause at refused
  cases answer : (exec request s).1 with
  | ok a =>
    rw [answer] at refused
    cases refused
  | error cause => exact clean cause answer

theorem refusesCleanly_of_ok {request : Request ε σ α} {s next : σ} {a : α} (granted : exec request s = (.ok a, next)) :
    RefusesCleanly request s := by
  intro cause refused
  rw [granted] at refused
  cases refused

end Refusals
