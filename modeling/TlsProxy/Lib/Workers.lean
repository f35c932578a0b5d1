import TlsProxy.Lib.Refusals

/-! A worker is a request that waits for its surroundings. A wait ends with an
answer or a failure, or never, because the worker is cancelled there. Whichever
way a worker ends, what it has done to the state stays. -/
namespace Workers

open Refusals

inductive Wait (ε α : Type)
  | ready (answer : α)
  | failed (cause : ε)
  | cancelled

inductive Exit (ε : Type)
  | failed (cause : ε)
  | cancelled

abbrev Worker (ε σ : Type) := Request (Exit ε) σ

variable {ε σ α β : Type}

def Wait.outcome : Wait ε α → Except (Exit ε) α
  | .ready answer => .ok answer
  | .failed cause => .error (.failed cause)
  | .cancelled => .error .cancelled

def await (wait : Wait ε α) : Worker ε σ α := decided wait.outcome

def fail (cause : ε) : Worker ε σ α := decided (.error (.failed cause))

def change (f : σ → σ) : Worker ε σ Unit := updated fun s => .ok ((), f s)

/-- Go on with the answer, or end in another way if the wait fails. -/
def awaitOr (wait : Wait ε α) (otherwise : Worker ε σ β) (next : α → Worker ε σ β) : Worker ε σ β :=
  match wait with
  | .ready answer => next answer
  | .failed _ => otherwise
  | .cancelled => await .cancelled

/-- The assertion holds at every end of the worker. -/
def Leads (before after : σ → Prop) (worker : Worker ε σ α) : Prop := ∀ s, before s → after (exec worker s).2

variable {before middle after : σ → Prop}

theorem leads_of_reads {worker : Worker ε σ α} (reads : Reads worker) (weaker : ∀ s, before s → after s) :
    Leads before after worker := by
  intro s holds
  rw [reads s]
  exact weaker s holds

theorem leads_await (wait : Wait ε α) (weaker : ∀ s, before s → after s) :
    Leads before after (await wait : Worker ε σ α) :=
  leads_of_reads (reads_decided _) weaker

theorem leads_fail (cause : ε) (weaker : ∀ s, before s → after s) : Leads before after (fail cause : Worker ε σ α) :=
  leads_of_reads (reads_decided _) weaker

theorem exec_change (f : σ → σ) (s : σ) : exec (change f : Worker ε σ Unit) s = (.ok (), f s) := exec_updated_ok rfl

theorem leads_change {f : σ → σ} (step : ∀ s, before s → after (f s)) :
    Leads before after (change f : Worker ε σ Unit) := by
  intro s holds
  rw [exec_change]
  exact step s holds

theorem Leads.bind {worker : Worker ε σ α} {rest : α → Worker ε σ β} (first : Leads before middle worker)
    (later : ∀ a, Leads middle after (rest a)) (weaker : ∀ s, middle s → after s) :
    Leads before after (worker >>= rest) := by
  intro s holds
  have reached := first s holds
  cases ended : exec worker s with
  | mk answer next =>
    rw [ended] at reached
    cases answer with
    | ok a =>
      rw [exec_bind_ok ended]
      exact later a next reached
    | error exit => grind [exec_bind_error]

theorem Leads.change_bind {f : σ → σ} {rest : Unit → Worker ε σ β} (step : ∀ s, before s → middle (f s))
    (later : Leads middle after (rest ())) : Leads before after (change f >>= rest) := by
  intro s holds
  rw [exec_bind_ok (exec_change f s)]
  exact later (f s) (step s holds)

/-- After a wait the answer is known; at its early end it is known that there is none. -/
theorem leads_await_bind {wait : Wait ε α} {rest : α → Worker ε σ β}
    (going : ∀ a, wait = .ready a → Leads before after (rest a))
    (stopped : (∀ a, wait ≠ .ready a) → ∀ s, before s → after s) : Leads before after (await wait >>= rest) := by
  intro s holds
  cases wait with
  | ready a => exact going a rfl s holds
  | failed cause => exact stopped nofun s holds
  | cancelled => exact stopped nofun s holds

theorem leads_awaitOr {wait : Wait ε α} {otherwise : Worker ε σ β} {next : α → Worker ε σ β}
    (going : ∀ a, wait = .ready a → Leads before after (next a))
    (failing : (∀ a, wait ≠ .ready a) → Leads before after otherwise)
    (stopped : (∀ a, wait ≠ .ready a) → ∀ s, before s → after s) : Leads before after (awaitOr wait otherwise next) := by
  cases wait with
  | ready answer => exact going answer rfl
  | failed cause => exact failing nofun
  | cancelled => exact leads_await .cancelled (stopped nofun)

end Workers
