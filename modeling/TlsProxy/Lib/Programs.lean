import TlsProxy.Lib.Runs
import Mathlib.Logic.Function.Basic

/-! A program is a tree of atomic actions on a shared state; what it does after an
action may depend on the state it has found. Several programs run interleaved
with each other and with changes from outside. A monitor follows one program: it
says which actions are allowed next and what may be assumed of the state they
find. -/
namespace Programs

inductive Program (ℓ σ α : Type)
  | done (result : α)
  | action (label : ℓ) (next : σ → Program ℓ σ α)

variable {ε ℓ σ τ α β : Type}

namespace Program

def bind : Program ℓ σ α → (α → Program ℓ σ β) → Program ℓ σ β
  | .done result, rest => rest result
  | .action label next, rest => .action label fun s => (next s).bind rest

instance : Monad (Program ℓ σ) where
  pure := .done
  bind := bind

theorem bind_assoc {γ : Type} (program : Program ℓ σ α) (first : α → Program ℓ σ β) (second : β → Program ℓ σ γ) :
    program >>= first >>= second = program >>= fun a => first a >>= second := by
  induction program with
  | done result => rfl
  | action label next ih => exact congrArg (Program.action label) (funext ih)

theorem id_map (program : Program ℓ σ α) : id <$> program = program := by
  induction program with
  | done result => rfl
  | action label next ih => exact congrArg (Program.action label) (funext ih)

instance : LawfulMonad (Program ℓ σ) := LawfulMonad.mk' _ id_map (fun _ _ => rfl) bind_assoc

def label? : Program ℓ σ α → Option ℓ
  | .done _ => none
  | .action label _ => some label

/-- The program when nothing else runs; `none` if an action is not possible. -/
def alone (effect : ℓ → σ → Option σ) : Program ℓ σ α → σ → Option (α × σ)
  | .done result, s => some (result, s)
  | .action label next, s => (effect label s).bind fun changed => (next s).alone effect changed

theorem alone_bind (effect : ℓ → σ → Option σ) (program : Program ℓ σ α) (rest : α → Program ℓ σ β) (s : σ) :
    (program >>= rest).alone effect s =
      (program.alone effect s).bind fun outcome => (rest outcome.1).alone effect outcome.2 := by
  induction program generalizing s with
  | done result => rfl
  | action label next ih =>
    change (effect label s).bind _ = ((effect label s).bind _).bind _
    cases effect label s with
    | none => rfl
    | some changed => exact ih s changed

end Program

structure Monitor (ℓ σ τ : Type) where
  allowed : τ → ℓ → Prop
  /-- What is known of the state that an action finds. -/
  assumes : τ → ℓ → σ → Prop
  observe : τ → ℓ → σ → τ

variable {monitor : Monitor ℓ σ τ}

/-- Along every path the actions are allowed, and a result is reached only as described. -/
def Obeys (monitor : Monitor ℓ σ τ) (post : τ → α → Prop) : τ → Program ℓ σ α → Prop
  | t, .done result => post t result
  | t, .action label next => monitor.allowed t label ∧
      ∀ s, monitor.assumes t label s → Obeys monitor post (monitor.observe t label s) (next s)

theorem Obeys.mono {post other : τ → α → Prop} (weaker : ∀ t result, post t result → other t result) {t : τ}
    {program : Program ℓ σ α} (obeys : Obeys monitor post t program) : Obeys monitor other t program := by
  induction program generalizing t with
  | done result => exact weaker t result obeys
  | action label next ih => exact ⟨obeys.1, fun s known => ih s (obeys.2 s known)⟩

theorem Obeys.bind {post : τ → β → Prop} {t : τ} {program : Program ℓ σ α} {rest : α → Program ℓ σ β}
    (first : Obeys monitor (fun t result => Obeys monitor post t (rest result)) t program) :
    Obeys monitor post t (program >>= rest) := by
  induction program generalizing t with
  | done result => exact first
  | action label next ih => exact ⟨first.1, fun s known => ih s (first.2 s known)⟩

/-- A condition on results and one on failures. -/
def Outcome (ok : τ → α → Prop) (failed : τ → ε → Prop) (t : τ) : Except ε α → Prop
  | .ok result => ok t result
  | .error cause => failed t cause

theorem Obeys.bindExcept {failed : τ → ε → Prop} {ok : τ → β → Prop} {t : τ} {program : ExceptT ε (Program ℓ σ) α}
    {rest : α → ExceptT ε (Program ℓ σ) β}
    (first : Obeys monitor (Outcome (fun t result => Obeys monitor (Outcome ok failed) t (rest result).run) failed) t
      program.run) :
    Obeys monitor (Outcome ok failed) t (program >>= rest).run := by
  refine Obeys.bind (first.mono ?_)
  intro t result known
  cases result with
  | ok result => exact known
  | error cause => exact known

theorem Obeys.forM {failed : τ → ε → Prop} {kept : τ → Prop} {xs : List α}
    {body : α → ExceptT ε (Program ℓ σ) PUnit}
    (each : ∀ x ∈ xs, ∀ t, kept t → Obeys monitor (Outcome (fun t _ => kept t) failed) t (body x).run) {t : τ}
    (start : kept t) : Obeys monitor (Outcome (fun t _ => kept t) failed) t (xs.forM body).run := by
  induction xs generalizing t with
  | nil => exact start
  | cons x rest ih =>
    refine Obeys.bindExcept ((each x List.mem_cons_self t start).mono ?_)
    intro t result known
    cases result with
    | ok result => exact ih (fun y member => each y (List.mem_cons_of_mem _ member)) known
    | error cause => exact known

variable {ο χ : Type}

structure Entry (ℓ σ : Type) where
  task : Nat
  label : ℓ
  found : σ

/-- The tasks are numbered; one that has been dropped has no program. -/
structure State (ο ℓ σ α : Type) where
  shared : σ
  tasks : Nat → Option (ο × Option (Program ℓ σ α)) := fun _ => none
  history : List (Entry ℓ σ) := []

def State.label? (s : State ο ℓ σ α) (task : Nat) : Option ℓ :=
  (s.tasks task).bind fun entry => entry.2.bind Program.label?

/-- The operation of a task that has finished, and its result. -/
def State.returned? (s : State ο ℓ σ α) (task : Nat) : Option (ο × α) :=
  match s.tasks task with
  | some (operation, some (.done result)) => some (operation, result)
  | _ => none

inductive Event (ο χ : Type)
  | spawn (task : Nat) (operation : ο)
  | advance (task : Nat)
  /-- The task is dropped where it stands. -/
  | abandon (task : Nat)
  | outside (change : χ)

structure System (ο χ ℓ σ α : Type) where
  program : ο → Program ℓ σ α
  effect : ℓ → σ → Option σ
  outside : χ → σ → Option σ

variable (system : System ο χ ℓ σ α)

def step (s : State ο ℓ σ α) : Event ο χ → Option (State ο ℓ σ α)
  | .spawn task operation =>
    match s.tasks task with
    | none => some { s with tasks := Function.update s.tasks task (some (operation, some (system.program operation))) }
    | some _ => none
  | .advance task =>
    match s.tasks task with
    | some (operation, some (.action label next)) =>
      (system.effect label s.shared).map fun changed =>
        { shared := changed
          tasks := Function.update s.tasks task (some (operation, some (next s.shared)))
          history := s.history ++ [⟨task, label, s.shared⟩] }
    | _ => none
  | .abandon task =>
    (s.tasks task).map fun entry => { s with tasks := Function.update s.tasks task (some (entry.1, none)) }
  | .outside change => (system.outside change s.shared).map fun changed => { s with shared := changed }

theorem label?_of_task {s : State ο ℓ σ α} {task : Nat} {operation : ο} {label : ℓ} {next : σ → Program ℓ σ α}
    (running : s.tasks task = some (operation, some (.action label next))) : s.label? task = some label := by
  rw [State.label?, running]
  rfl

/-- The tasks obey the monitor from what it has seen of them, and the invariant holds of that, of the shared state
and of the history. -/
structure Watched (monitor : Monitor ℓ σ τ) (post : ο → τ → α → Prop)
    (inv : σ → List (Entry ℓ σ) → (Nat → τ) → Prop) (s : State ο ℓ σ α) (seen : Nat → τ) : Prop where
  holds : inv s.shared s.history seen
  spawned : ∀ entry ∈ s.history, s.tasks entry.task ≠ none
  obeys : ∀ task operation program, s.tasks task = some (operation, some program) →
    Obeys monitor (post operation) (seen task) program

/-- What has to be shown of the operations, and of each kind of step that meets the side condition. -/
structure Keeps (monitor : Monitor ℓ σ τ) (start : ο → τ) (idle : τ) (post : ο → τ → α → Prop)
    (ok : State ο ℓ σ α → Event ο χ → Prop) (inv : σ → List (Entry ℓ σ) → (Nat → τ) → Prop) : Prop where
  programs : ∀ operation, Obeys monitor (post operation) (start operation) (system.program operation)
  assumes : ∀ s seen task label, Watched monitor post inv s seen → ok s (.advance task) →
    s.label? task = some label → monitor.allowed (seen task) label → monitor.assumes (seen task) label s.shared
  advance : ∀ s seen task label changed, Watched monitor post inv s seen → ok s (.advance task) →
    s.label? task = some label → monitor.allowed (seen task) label → system.effect label s.shared = some changed →
    inv changed (s.history ++ [⟨task, label, s.shared⟩])
      (Function.update seen task (monitor.observe (seen task) label s.shared))
  spawn : ∀ s seen task operation, Watched monitor post inv s seen → ok s (.spawn task operation) →
    s.tasks task = none → inv s.shared s.history (Function.update seen task (start operation))
  abandon : ∀ s seen task, Watched monitor post inv s seen → inv s.shared s.history (Function.update seen task idle)
  outside : ∀ s seen change changed, Watched monitor post inv s seen → ok s (.outside change) →
    system.outside change s.shared = some changed → inv changed s.history seen

variable {system} {start : ο → τ} {idle : τ} {post : ο → τ → α → Prop} {ok : State ο ℓ σ α → Event ο χ → Prop}
  {inv : σ → List (Entry ℓ σ) → (Nat → τ) → Prop}

theorem watched_initial {w : σ} {seen : Nat → τ} (holds : inv w [] seen) :
    Watched monitor post inv ({ shared := w } : State ο ℓ σ α) seen := by
  refine ⟨holds, fun _ none => (List.not_mem_nil none).elim, ?_⟩
  simp

theorem Watched.returned {s : State ο ℓ σ α} {seen : Nat → τ} (watched : Watched monitor post inv s seen) {task : Nat}
    {operation : ο} {result : α} (returned : s.returned? task = some (operation, result)) :
    post operation (seen task) result := by
  unfold State.returned? at returned
  split at returned
  · rename_i finished
    cases returned
    exact watched.obeys task operation _ finished
  · cases returned

theorem update_ne_none {tasks : Nat → Option (ο × Option (Program ℓ σ α))} {task other : Nat}
    {entry : ο × Option (Program ℓ σ α)} (there : tasks other ≠ none) :
    Function.update tasks task (some entry) other ≠ none := by
  by_cases same : other = task
  · grind
  · rwa [Function.update_of_ne same]

theorem obeys_update {tasks : Nat → Option (ο × Option (Program ℓ σ α))} {seen : Nat → τ} {task : Nat}
    (others : ∀ task operation program, tasks task = some (operation, some program) →
      Obeys monitor (post operation) (seen task) program) {entry : Option (ο × Option (Program ℓ σ α))} {t : τ}
    (own : ∀ operation program, entry = some (operation, some program) → Obeys monitor (post operation) t program) :
    ∀ other operation program, Function.update tasks task entry other = some (operation, some program) →
      Obeys monitor (post operation) (Function.update seen task t other) program := by
  intro other operation program running
  by_cases same : other = task
  · grind
  · grind

theorem Keeps.step (keeps : Keeps system monitor start idle post ok inv) {s next : State ο ℓ σ α}
    {event : Event ο χ} (watched : ∃ seen, Watched monitor post inv s seen) (meets : ok s event)
    (taken : step system s event = some next) : ∃ seen, Watched monitor post inv next seen := by
  obtain ⟨seen, watched⟩ := watched
  have others := watched.obeys
  have spawned := watched.spawned
  cases event with
  | spawn task operation =>
    simp only [Programs.step] at taken
    split at taken
    · rename_i free
      cases taken
      refine ⟨Function.update seen task (start operation), keeps.spawn s seen task operation watched meets free,
        fun entry member => update_ne_none (spawned entry member), ?_⟩
      grind [Keeps.programs]
    · cases taken
  | advance task =>
    simp only [Programs.step] at taken
    split at taken
    · rename_i operation label rest running
      obtain ⟨changed, possible, rfl⟩ := Option.map_eq_some_iff.mp taken
      have obeys := others task operation _ running
      have labelled := label?_of_task running
      have known := keeps.assumes s seen task label watched meets labelled obeys.1
      refine ⟨Function.update seen task (monitor.observe (seen task) label s.shared),
        keeps.advance s seen task label changed watched meets labelled obeys.1 possible, ?_, ?_⟩
      · grind
      apply obeys_update others
      rintro _ _ ⟨⟩
      exact obeys.2 s.shared known
    · cases taken
  | abandon task =>
    obtain ⟨entry, -, rfl⟩ := Option.map_eq_some_iff.mp taken
    refine ⟨Function.update seen task idle, keeps.abandon s seen task watched,
      fun entry member => update_ne_none (spawned entry member), ?_⟩
    grind
  | outside change =>
    obtain ⟨changed, possible, rfl⟩ := Option.map_eq_some_iff.mp taken
    exact ⟨seen, keeps.outside s seen change changed watched meets possible, spawned, others⟩

theorem Keeps.run (keeps : Keeps system monitor start idle post ok inv) {s last : State ο ℓ σ α}
    {events : List (Event ο χ)} {seen : Nat → τ} (first : Watched monitor post inv s seen)
    (meets : Runs.Meets (Programs.step system) ok s events)
    (whole : Runs.run (Programs.step system) s events = some last) : ∃ seen, Watched monitor post inv last seen :=
  Runs.run_invariant (Programs.step system) (fun _ _ _ watched meets taken => keeps.step watched meets taken)
    ⟨seen, first⟩ meets whole

end Programs
