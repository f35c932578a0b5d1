import TlsProxy.Lib.Runs
import TlsProxy.Store.Database

/-! The handlers that change the configuration, each as the steps between which
others can run: taking `config_write`, loading, reading the revision counter and
writing the batch. The rollback save of the runtime and imports take no lock,
and a handler dropped by its client leaves its blocking save running. -/
namespace TlsProxy.ConfigWrites

open Config Store

inductive Request
  | put (revision : Nat) (config : RuntimeConfig)
  | rollback (revision : Nat)
  | operation (listener : Text) (start : Bool)

def mandatory (listener : Text) : Bool :=
  listener == "__default__".toList || listener == "__default_https__".toList

structure Save where
  config : RuntimeConfig
  updatedBy : Text
  expected : Option Nat := none

def checkPut (revision : Nat) (config : RuntimeConfig) (updatedBy : Text) (current : StoredConfig) : Option Save :=
  if current.revision = revision ∧ config.defaultListener.bind = current.config.defaultListener.bind then
    some { config, updatedBy, expected := some revision }
  else none

def checkOperation (listener : Text) (start : Bool) (updatedBy : Text) (current : StoredConfig) : Option Save :=
  if mandatory listener ∨ current.config.additionalListeners.containsKey listener = false then none
  else
    let disabled := current.config.disabledListeners
    let config := { current.config with
      disabledListeners := if start then disabled.remove listener else disabled.insert listener }
    some { config, updatedBy }

def checkRollback (previous : StoredConfig) (updatedBy : Text) (current : StoredConfig) : Option Save :=
  if previous.config.defaultListener.bind = current.config.defaultListener.bind then
    some { config := previous.config, updatedBy }
  else none

inductive Task
  | idle
  | waiting (request : Request) (updatedBy : Text)
  | locked (request : Request) (updatedBy : Text)
  | found (previous : StoredConfig) (updatedBy : Text)
  | saving (save : Save)
  | counted (save : Save) (revision : Nat)

/-- An accepted `put`: what its write replaced, and what clients had read by then. -/
structure Accepted where
  revision : Nat
  replaced : Row StoredConfig
  reads : List StoredConfig

structure State where
  db : Database
  /-- The holder of `config_write`. -/
  lock : Option Nat := none
  tasks : Nat → Task := fun _ => .idle
  reads : List StoredConfig := []
  /-- Everything ever stored, newest first. -/
  stored : List StoredConfig
  accepted : List Accepted := []

def initial (stored : StoredConfig) : State where
  db :=
    { current := .value stored
      counter := .value stored.revision
      history := Function.update (fun _ => .missing) stored.revision (.value stored) }
  stored := [stored]

def setTask (s : State) (id : Nat) (task : Task) : State := { s with tasks := Function.update s.tasks id task }

def unlock (s : State) (id : Nat) : State := { s with lock := if s.lock = some id then none else s.lock }

def finish (s : State) (id : Nat) : State := setTask (unlock s id) id .idle

def loadCurrent (s : State) (id : Nat) (check : StoredConfig → Option Save) : State :=
  match s.db.current with
  | .value current =>
    match check current with
    | some save => setTask s id (.saving save)
    | none => finish s id
  | _ => finish s id

def load (s : State) (id : Nat) : Task → Option State
  | .locked (.put revision config) updatedBy => some (loadCurrent s id (checkPut revision config updatedBy))
  | .locked (.operation listener start) updatedBy =>
    some (loadCurrent s id (checkOperation listener start updatedBy))
  | .locked (.rollback revision) updatedBy =>
    match s.db.history revision with
    | .value previous => some (setTask s id (.found previous updatedBy))
    | _ => some (finish s id)
  | .found previous updatedBy => some (loadCurrent s id (checkRollback previous updatedBy))
  | _ => none

def commit (s : State) (save : Save) (revision : Nat) : State :=
  let written : StoredConfig := { revision, updatedBy := save.updatedBy, config := save.config }
  { s with
    db := s.db.write written
    stored := written :: s.stored
    accepted := match save.expected with
      | some named => { revision := named, replaced := s.db.current, reads := s.reads } :: s.accepted
      | none => s.accepted }

inductive Event
  | read
  | request (id : Nat) (request : Request) (updatedBy : Text)
  | acquire (id : Nat)
  | load (id : Nat)
  | readCounter (id : Nat)
  | write (id : Nat)
  | drop (id : Nat)
  | autoRollback (id : Nat) (config : RuntimeConfig)
  | import_ (i : Import)
  | prune (revision : Nat)

/-- One step of a save, which holds the lock from `acquire` on, or of a write that takes none. -/
def step (s : State) : Event → Option State
  | .read =>
    match s.db.current with
    | .value current => some { s with reads := current :: s.reads }
    | _ => some s
  | .request id request updatedBy =>
    match s.tasks id with
    | .idle => some (setTask s id (.waiting request updatedBy))
    | _ => none
  | .acquire id =>
    match s.tasks id, s.lock with
    | .waiting request updatedBy, none => some (setTask { s with lock := some id } id (.locked request updatedBy))
    | _, _ => none
  | .load id => load s id (s.tasks id)
  | .readCounter id =>
    match s.tasks id with
    | .saving save =>
      match nextRevision s.db.counter with
      | some revision => some (setTask s id (.counted save revision))
      | none => some (finish s id)
    | _ => none
  | .write id =>
    match s.tasks id with
    | .counted save revision => some (finish (commit s save revision) id)
    | _ => none
  | .drop id =>
    match s.tasks id with
    | .idle => none
    | .saving _ | .counted _ _ => some (unlock s id)
    | _ => some (finish s id)
  | .autoRollback id config =>
    match s.tasks id with
    | .idle => some (setTask s id (.saving { config, updatedBy := "runtime-auto-rollback".toList }))
    | _ => none
  | .import_ i => some { s with db := i.apply s.db, stored := i.values ++ s.stored }
  | .prune revision =>
    some { s with db := { s.db with history := Function.update s.db.history revision .missing } }

def Task.Critical : Task → Prop
  | .idle | .waiting _ _ => False
  | .locked _ _ | .found _ _ | .saving _ | .counted _ _ => True

def Task.Saving : Task → Prop
  | .saving _ | .counted _ _ => True
  | _ => False

def Task.save? : Task → Option Save
  | .saving save | .counted save _ => some save
  | _ => none

/-- No save runs outside `config_write` and no import touches the configuration rows. -/
def Serialized (s : State) : Event → Prop
  | .acquire _ => ∀ other, (s.tasks other).Saving → s.lock = some other
  | .autoRollback _ _ => s.lock = none ∧ ∀ other, ¬ (s.tasks other).Saving
  | .drop id => ¬ (s.tasks id).Saving
  | .import_ i => i = {}
  | _ => True

structure Inv (s : State) : Prop where
  counter : ∃ n, s.db.counter = .value n ∧ ∀ c ∈ s.stored, c.revision ≤ n
  order : s.stored.Pairwise fun newer older => older.revision < newer.revision
  current : ∃ c, s.db.current = .value c ∧ c ∈ s.stored
  read : ∀ c ∈ s.reads, c ∈ s.stored
  exclusive : ∀ a b, (s.tasks a).Critical → (s.tasks b).Critical → a = b
  held : ∀ id, (s.tasks id).Critical → (s.tasks id).Saving ∨ s.lock = some id
  based : ∀ id save revision, (s.tasks id).save? = some save → save.expected = some revision →
    ∃ c, s.db.current = .value c ∧ c.revision = revision
  counted : ∀ id save revision, s.tasks id = .counted save revision →
    nextRevision s.db.counter = some revision
  accepted : ∀ a ∈ s.accepted, ∃ c, a.replaced = .value c ∧ c.revision = a.revision ∧
    ∀ read ∈ a.reads, read.revision = a.revision → read = c

theorem inv_initial (stored : StoredConfig) : Inv (initial stored) where
  counter := ⟨stored.revision, rfl, by simp [initial]⟩
  order := List.pairwise_singleton _ _
  current := ⟨stored, rfl, List.mem_singleton_self _⟩
  read := by simp [initial]
  exclusive := by simp [initial, Task.Critical]
  held := by simp [initial, Task.Critical]
  based := by simp [initial, Task.save?]
  counted := by simp [initial]
  accepted := by simp [initial]

theorem eq_of_order {stored : List StoredConfig}
    (order : stored.Pairwise fun newer older => older.revision < newer.revision) {a b : StoredConfig}
    (known : a ∈ stored) (other : b ∈ stored) (same : a.revision = b.revision) : a = b := by
  induction order with
  | nil => cases known
  | cons above _ ih =>
    rcases List.mem_cons.mp known with rfl | later
    · grind
    · grind

theorem Inv.withTask {s : State} (h : Inv s) {id : Nat} {task : Task} {lock : Option Nat}
    (alone : task.Critical → ∀ other, other ≠ id → ¬ (s.tasks other).Critical)
    (kept : ∀ other, other ≠ id → (s.tasks other).Critical → s.lock = some other → lock = some other)
    (holds : task.Critical → task.Saving ∨ lock = some id)
    (base : ∀ save revision, task.save? = some save → save.expected = some revision →
      ∃ c, s.db.current = .value c ∧ c.revision = revision)
    (next : ∀ save revision, task = .counted save revision → nextRevision s.db.counter = some revision) :
    Inv { s with lock, tasks := Function.update s.tasks id task } where
  counter := h.counter
  order := h.order
  current := h.current
  read := h.read
  exclusive := by
    intro a b busy other
    by_cases first : a = id
    · grind
    · grind [Inv.exclusive]
  held := by
    intro other busy
    grind [Inv.held]
  based := by
    intro other save revision saving expects
    grind [Inv.based]
  counted := by
    intro other save revision stage
    grind [Inv.counted]
  accepted := h.accepted

theorem Inv.finish {s : State} (h : Inv s) (id : Nat) : Inv (finish s id) := by
  refine h.withTask (fun busy => busy.elim) ?_ (fun busy => busy.elim) (by simp [Task.save?]) (by simp)
  grind [unlock]

theorem finish_quiet {s : State} (h : Inv s) {id : Nat} (busy : (s.tasks id).Critical) (other : Nat) :
    ¬ ((finish s id).tasks other).Critical := by
  by_cases same : other = id
  · simp [ConfigWrites.finish, setTask, same, Task.Critical]
  · simp only [ConfigWrites.finish, setTask, unlock, Function.update_of_ne same]
    grind [Inv.exclusive]

theorem Inv.advance {s : State} (h : Inv s) {id : Nat} {task : Task} (busy : (s.tasks id).Critical)
    (holds : task.Saving ∨ s.lock = some id)
    (base : ∀ save revision, task.save? = some save → save.expected = some revision →
      ∃ c, s.db.current = .value c ∧ c.revision = revision)
    (next : ∀ save revision, task = .counted save revision → nextRevision s.db.counter = some revision) :
    Inv (setTask s id task) :=
  h.withTask (fun _ other same critical => same (h.exclusive other id critical busy))
    (fun _ _ _ holder => holder) (fun _ => holds) base next

theorem Inv.enter {s : State} (h : Inv s) {id : Nat} {task : Task} {lock : Option Nat}
    (quiet : ∀ other, ¬ (s.tasks other).Critical) (holds : task.Saving ∨ lock = some id)
    (plain : ∀ save, task.save? = some save → save.expected = none)
    (early : ∀ save revision, task ≠ .counted save revision) :
    Inv { s with lock, tasks := Function.update s.tasks id task } := by
  refine h.withTask (fun _ other _ => quiet other) (fun other _ busy => absurd busy (quiet other))
    (fun _ => holds) ?_ (fun save revision same => absurd same (early save revision))
  grind

theorem Inv.commit {s : State} (h : Inv s) (quiet : ∀ id, ¬ (s.tasks id).Critical) {save : Save}
    {revision : Nat} (next : nextRevision s.db.counter = some revision)
    (base : ∀ named, save.expected = some named → ∃ c, s.db.current = .value c ∧ c.revision = named) :
    Inv (commit s save revision) := by
  obtain ⟨n, counter, bounded⟩ := h.counter
  rw [counter] at next
  have above : ∀ c ∈ s.stored, c.revision < revision := by grind [nextRevision_value]
  have idle : ∀ {id save}, (s.tasks id).save? ≠ some save := by
    intro id save saving
    refine quiet id ?_
    cases task : s.tasks id <;> rw [task] at saving <;> trivial
  refine ⟨⟨revision, rfl, ?_⟩, List.pairwise_cons.mpr ⟨above, h.order⟩, ⟨_, rfl, List.mem_cons_self⟩,
    fun c member => List.mem_cons_of_mem _ (h.read c member), h.exclusive, h.held,
    fun id other named saving => absurd saving idle, ?_, ?_⟩
  · intro c member
    rcases List.mem_cons.mp member with rfl | old
    · exact le_rfl
    · exact (above c old).le
  · intro id other named stage
    have busy : (s.tasks id).Critical := by
      rw [show s.tasks id = .counted other named from stage]
      trivial
    exact absurd busy (quiet id)
  · intro a member
    simp only [ConfigWrites.commit] at member
    cases expects : save.expected with
    | none => grind [Inv.accepted]
    | some named =>
      rw [expects] at member
      rcases List.mem_cons.mp member with rfl | old
      · obtain ⟨c, current, same⟩ := base named expects
        obtain ⟨known, row, stored⟩ := h.current
        obtain rfl : c = known := Row.value.inj (current.symm.trans row)
        exact ⟨c, current, same, fun read seen equal =>
          eq_of_order h.order (h.read read seen) stored (equal.trans same.symm)⟩
      · exact h.accepted a old

theorem Inv.loadCurrent {s : State} (h : Inv s) {id : Nat} (busy : (s.tasks id).Critical)
    {check : StoredConfig → Option Save}
    (named : ∀ current save revision, check current = some save → save.expected = some revision →
      current.revision = revision) : Inv (loadCurrent s id check) := by
  unfold ConfigWrites.loadCurrent
  split
  · rename_i current row
    split
    · rename_i save passed
      refine h.advance busy (.inl trivial) ?_ (by simp)
      intro other revision same expects
      cases same
      grind
    · exact h.finish id
  · exact h.finish id

theorem Inv.load {s next : State} (h : Inv s) {id : Nat} (loaded : load s id (s.tasks id) = some next) :
    Inv next := by
  cases stage : s.tasks id with
  | locked request updatedBy =>
    have busy : (s.tasks id).Critical := by
      rw [stage]
      trivial
    rw [stage] at loaded
    cases request with
    | put revision config =>
      refine Option.some.inj loaded ▸ h.loadCurrent busy ?_
      intro current save named passed expects
      simp only [checkPut, Option.ite_none_right_eq_some, Option.some.injEq] at passed
      grind
    | operation listener start =>
      refine Option.some.inj loaded ▸ h.loadCurrent busy ?_
      grind [checkOperation]
    | rollback revision =>
      have lock : s.lock = some id := by
        rcases h.held id busy with saving | lock
        · rw [stage] at saving
          exact saving.elim
        · exact lock
      simp only [ConfigWrites.load] at loaded
      split at loaded
      · exact Option.some.inj loaded ▸ h.advance busy (.inr lock) (by simp [Task.save?]) (by simp)
      · exact Option.some.inj loaded ▸ h.finish id
  | found previous updatedBy =>
    have busy : (s.tasks id).Critical := by
      rw [stage]
      trivial
    rw [stage] at loaded
    refine Option.some.inj loaded ▸ h.loadCurrent busy ?_
    grind [checkRollback]
  | idle | waiting | saving | counted =>
    rw [stage] at loaded
    cases loaded

theorem step_preserves_inv (s : State) (event : Event) (next : State) (h : Inv s) (ok : Serialized s event)
    (enabled : step s event = some next) : Inv next := by
  cases event with
  | read =>
    obtain ⟨current, row, known⟩ := h.current
    simp only [step, row] at enabled
    obtain rfl := Option.some.inj enabled
    refine { h with read := ?_ }
    grind [Inv.read]
  | request id request updatedBy =>
    simp only [step] at enabled
    split at enabled
    · exact Option.some.inj enabled ▸ h.withTask (fun busy => busy.elim) (fun _ _ _ holder => holder)
        (fun busy => busy.elim) (by simp [Task.save?]) (by simp)
    · cases enabled
  | acquire id =>
    simp only [step] at enabled
    split at enabled
    · rename_i request updatedBy _ free
      have quiet : ∀ other, ¬ (s.tasks other).Critical := by
        intro other busy
        have holder : s.lock = some other := (h.held other busy).elim (ok other) fun lock => lock
        rw [free] at holder
        cases holder
      exact Option.some.inj enabled ▸ h.enter quiet (.inr rfl) (by simp [Task.save?]) (by simp)
    · cases enabled
  | load id => exact h.load enabled
  | readCounter id =>
    simp only [step] at enabled
    split at enabled
    · rename_i save stage
      have busy : (s.tasks id).Critical := by
        rw [stage]
        trivial
      split at enabled
      · rename_i revision next
        refine Option.some.inj enabled ▸ h.advance busy (.inl trivial) ?_ ?_
        · intro other named same
          cases same
          exact h.based id save named (by rw [stage]; rfl)
        · grind
      · exact Option.some.inj enabled ▸ h.finish id
    · cases enabled
  | write id =>
    simp only [step] at enabled
    split at enabled
    · rename_i save revision stage
      have busy : (s.tasks id).Critical := by
        rw [stage]
        trivial
      have committed : Inv (commit (ConfigWrites.finish s id) save revision) :=
        (h.finish id).commit (finish_quiet h busy) (h.counted id save revision stage)
          fun named => h.based id save named (by rw [stage]; rfl)
      exact Option.some.inj enabled ▸ committed
    · cases enabled
  | drop id =>
    simp only [step] at enabled
    split at enabled
    · cases enabled
    · rename_i stage
      exact absurd (show (s.tasks id).Saving by rw [stage]; trivial) ok
    · rename_i stage
      exact absurd (show (s.tasks id).Saving by rw [stage]; trivial) ok
    · exact Option.some.inj enabled ▸ h.finish id
  | autoRollback id config =>
    simp only [step] at enabled
    split at enabled
    · have quiet : ∀ other, ¬ (s.tasks other).Critical := by
        intro other busy
        rcases h.held other busy with saving | holder
        · exact ok.2 other saving
        · rw [ok.1] at holder
          cases holder
      refine Option.some.inj enabled ▸ h.enter quiet (.inl trivial) ?_ (by simp)
      intro save same
      cases same
      rfl
    · cases enabled
  | import_ i =>
    obtain rfl : i = {} := ok
    exact Option.some.inj enabled ▸ h
  | prune revision =>
    obtain rfl := Option.some.inj enabled
    exact { h with }

/-- In every serialized run an accepted `put` replaces what any client has read under the revision it
names, and a revision number stands for one configuration. -/
theorem no_lost_update {stored : StoredConfig} {events : List Event} {last : State}
    (whole : Runs.run step (initial stored) events = some last)
    (meets : Runs.Meets step Serialized (initial stored) events) :
    (∀ put ∈ last.accepted, ∃ c, put.replaced = .value c ∧ c.revision = put.revision ∧
      ∀ read ∈ put.reads, read.revision = put.revision → read = c) ∧
    ∀ a ∈ last.stored, ∀ b ∈ last.stored, a.revision = b.revision → a = b := by
  have h : Inv last := Runs.run_invariant step step_preserves_inv (inv_initial stored) meets whole
  grind [Inv.accepted, eq_of_order, Inv.order]

section Example

def named (hostname : Text) : RuntimeConfig := { controlPlane := { hostname } }

def bootstrapped : StoredConfig := ⟨1, "admin".toList, named "a.example".toList⟩

theorem named_ne : named "a.example".toList ≠ named "b.example".toList := by
  intro same
  have hostnames : "a.example".toList = "b.example".toList := congrArg (·.controlPlane.hostname) same
  revert hostnames
  decide

def readThenPut : List Event :=
  [.read, .request 0 (.put 1 (named "b.example".toList)) "admin".toList, .acquire 0, .load 0, .readCounter 0,
    .write 0]

theorem no_lost_update_readThenPut :
    ∃ last put, Runs.run step (initial bootstrapped) readThenPut = some last ∧ put ∈ last.accepted ∧
      ∃ c, put.replaced = .value c ∧ c.revision = put.revision ∧
        ∀ read ∈ put.reads, read.revision = put.revision → read = c := by
  have meets : Runs.Meets step Serialized (initial bootstrapped) readThenPut := by
    refine .cons _ trivial rfl <| .cons _ trivial rfl <| .cons _ ?_ rfl <| .cons _ trivial rfl <|
      .cons _ trivial rfl <| .cons _ trivial rfl trivial
    intro other saving
    by_cases same : other = 0
    · subst same
      exact saving.elim
    · simp only [setTask, Function.update_of_ne same] at saving
      exact saving.elim
  refine ⟨_, _, rfl, List.mem_singleton_self _, ?_⟩
  exact (no_lost_update rfl meets).1 _ (List.mem_singleton_self _)

/-- An import puts another configuration under the revision a client has read, and the client's save
replaces it. A dropped handler and the runtime's rollback store different configurations under one
revision. -/
theorem writers_lose_updates :
    (∃ last put read, Runs.run step (initial bootstrapped)
        [.read, .import_ { current := some (.value ⟨1, "backup".toList, named "b.example".toList⟩) },
          .request 0 (.put 1 (named "c.example".toList)) "admin".toList, .acquire 0, .load 0, .readCounter 0,
          .write 0] = some last ∧
      put ∈ last.accepted ∧ read ∈ put.reads ∧ read.revision = put.revision ∧
      ∃ replaced, put.replaced = .value replaced ∧ replaced.config ≠ read.config) ∧
    ∃ last a b, Runs.run step (initial bootstrapped)
        [.request 0 (.put 1 (named "a.example".toList)) "admin".toList, .acquire 0, .load 0, .readCounter 0, .drop 0,
          .autoRollback 1 (named "b.example".toList), .readCounter 1, .write 0, .write 1] = some last ∧
      a ∈ last.stored ∧ b ∈ last.stored ∧ a.revision = b.revision ∧ a.config ≠ b.config := by
  constructor
  · refine ⟨_, _, _, rfl, List.mem_singleton_self _, List.mem_singleton_self _, rfl, _, rfl, ?_⟩
    exact named_ne.symm
  · refine ⟨_, _, _, rfl, List.mem_cons_of_mem _ List.mem_cons_self, List.mem_cons_self, rfl, ?_⟩
    exact named_ne

end Example

end TlsProxy.ConfigWrites
