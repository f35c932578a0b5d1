import TlsProxy.Runtime.Accounting

/-! Whatever else goes on in the process, the record that is submitted when a
connection ends is made of what the connection itself has told the tracker. -/
namespace TlsProxy.Accounting

structure Course where
  id : Nat
  guard : ConnGuard
  remoteAddress : Text
  startedMs : Nat
  updates : List Update
  endedMs : Nat

def Course.initial (c : Course) : ActiveConnection where
  listener := c.guard.listener
  remoteAddress := c.remoteAddress
  startedAtUnixMs := c.startedMs

def Course.record (c : Course) : CdrRecord :=
  c.guard.record c.id (c.updates.foldl Update.apply c.initial) c.endedMs

def Event.updateOf (id : Nat) : Event → Option Update
  | .update other change => if other = id then some change else none
  | _ => none

def updatesOf (id : Nat) (events : List Event) : List Update := events.filterMap (Event.updateOf id)

/-- Some run of the process, with this course in it, queues the record at the end of the course. -/
def Course.Emits (c : Course) (record : CdrRecord) : Prop :=
  ∃ (before during : List Event) (opened accepted last next : State),
    Runs.run step {} before = some opened ∧
    step opened (.accept c.id c.guard c.remoteAddress c.startedMs) = some accepted ∧
    Runs.run step accepted during = some last ∧ updatesOf c.id during = c.updates ∧
    step last (.endTask c.id c.endedMs) = some next ∧ next.queue = last.queue ++ [.record record]

/-- The process still has the connection as it was started and updated, or has lost it. -/
structure Follows (id : Nat) (guard : ConnGuard) (view : ActiveConnection) (s : State) : Prop where
  used : id ∈ s.used
  tracked : s.tracker id = none ∨ s.tracker id = some view
  guarded : s.guards id = none ∨ s.guards id = some guard

variable {id : Nat} {guard : ConnGuard} {view : ActiveConnection} {s next : State}

theorem Follows.of_entries (follows : Follows id guard view s) (used : next.used = s.used)
    (tracker : next.tracker = s.tracker) (guards : next.guards = s.guards) : Follows id guard view next where
  used := used ▸ follows.used
  tracked := tracker ▸ follows.tracked
  guarded := guards ▸ follows.guarded

theorem follows_start (remote : Text) (now : Nat) :
    Follows id guard { listener := guard.listener, remoteAddress := remote, startedAtUnixMs := now }
      (start s id guard remote now) where
  used := List.mem_cons_self
  tracked := .inr (Function.update_self _ _ _)
  guarded := .inr start_guards_self

theorem Follows.start (follows : Follows id guard view s) {other : Nat} (fresh : other ∉ s.used)
    (started : ConnGuard) (remote : Text) (now : Nat) : Follows id guard view (start s other started remote now) := by
  have distinct : id ≠ other := fun same => fresh (same ▸ follows.used)
  refine ⟨List.mem_cons_of_mem _ follows.used, ?_, ?_⟩
  · rw [start_tracker_of_ne distinct]
    exact follows.tracked
  · rw [start_guards_of_ne distinct]
    exact follows.guarded

theorem Follows.update_own (follows : Follows id guard view s) {c : ActiveConnection} (tracked : s.tracker id = some c)
    (change : Update) :
    Follows id guard (change.apply view)
      { s with tracker := Function.update s.tracker id (some (change.apply c)) } := by
  refine ⟨follows.used, .inr ?_, follows.guarded⟩
  have same : some c = some view := by grind [Follows.tracked]
  grind

theorem Follows.update_other (follows : Follows id guard view s) {other : Nat} (distinct : other ≠ id)
    (c : ActiveConnection) : Follows id guard view { s with tracker := Function.update s.tracker other (some c) } where
  used := follows.used
  tracked := by grind [Follows.tracked]
  guarded := follows.guarded

theorem dropGuard_entries (s : State) (id : Nat) (guard : ConnGuard) (now : Nat) :
    (dropGuard s id guard now).used = s.used ∧
      (dropGuard s id guard now).guards = Function.update s.guards id none ∧
      (dropGuard s id guard now).tracker = Function.update s.tracker id none := by
  unfold dropGuard submit
  grind

theorem Follows.dropGuard (follows : Follows id guard view s) (other : Nat) (dropped : ConnGuard) (now : Nat) :
    Follows id guard view (dropGuard s other dropped now) := by
  obtain ⟨used, guards, tracker⟩ := dropGuard_entries s other dropped now
  refine ⟨used ▸ follows.used, ?_, ?_⟩
  · rw [tracker, Function.update_apply]
    grind [Follows.tracked]
  · rw [guards, Function.update_apply]
    grind [Follows.guarded]

theorem Follows.writerStep (follows : Follows id guard view s) : Follows id guard view (writerStep s) := by
  unfold Accounting.writerStep
  grind [Follows.of_entries]

theorem Follows.init (follows : Follows id guard view s) {accounting : Bool}
    (done : Accounting.init s accounting = .ok next ∨ Accounting.init s accounting = .error next) :
    Follows id guard view next := by grind [Accounting.init, Follows.of_entries]

def viewAfter (id : Nat) (view : ActiveConnection) (event : Event) : ActiveConnection :=
  (event.updateOf id).elim view fun change => change.apply view

theorem Follows.update_step (follows : Follows id guard view s) {other : Nat} {change : Update}
    (taken : step s (.update other change) = some next) :
    Follows id guard (viewAfter id view (.update other change)) next := by
  simp only [step] at taken
  by_cases own : other = id
  · subst own
    have after : viewAfter other view (.update other change) = change.apply view := by
      simp [viewAfter, Event.updateOf]
    rw [after]
    split at taken
    · grind [Follows.update_own]
    · rename_i lost
      obtain rfl := Option.some.inj taken
      exact ⟨follows.used, .inl lost, follows.guarded⟩
  · have after : viewAfter id view (.update other change) = view := by
      simp [viewAfter, Event.updateOf, own]
    grind [Follows.update_other]

theorem step_follows {event : Event} (follows : Follows id guard view s) (taken : step s event = some next) :
    Follows id guard (viewAfter id view event) next := by
  cases event with
  | begin accounting =>
    simp only [step, Option.ite_none_right_eq_some, Option.some.injEq] at taken
    obtain ⟨-, rfl⟩ := taken
    exact follows.of_entries rfl rfl rfl
  | initAccounting =>
    simp only [step] at taken
    split at taken
    · split at taken
      · rename_i after initialized
        obtain rfl := Option.some.inj taken
        exact (follows.init (.inl initialized)).of_entries rfl rfl rfl
      · rename_i after failed
        obtain rfl := Option.some.inj taken
        exact (follows.init (.inr failed)).of_entries rfl rfl rfl
    · cases taken
  | resetTracker =>
    simp only [step] at taken
    split at taken
    · obtain rfl := Option.some.inj taken
      exact ⟨follows.used, .inl rfl, follows.guarded⟩
    · cases taken
  | accept other started remote now =>
    obtain ⟨fresh, rfl⟩ := accept_eq_some taken
    exact follows.start fresh started remote now
  | update other change => exact follows.update_step taken
  | endTask other now =>
    simp only [step] at taken
    split at taken
    · obtain rfl := Option.some.inj taken
      exact follows.dropGuard other _ now
    · cases taken
  | write =>
    obtain rfl := Option.some.inj taken
    exact follows.writerStep
  | bound | applyFails | cancel reload | signalFails =>
    simp only [step] at taken
    split at taken <;> cases taken <;> exact follows.of_entries rfl rfl rfl
  | shutdown | acknowledged =>
    simp only [step] at taken
    split at taken
    · split at taken <;> cases taken <;> exact follows.of_entries rfl rfl rfl
    · cases taken

theorem run_follows {events : List Event} (follows : Follows id guard view s)
    (whole : Runs.run step s events = some next) :
    Follows id guard ((updatesOf id events).foldl Update.apply view) next := by
  induction events generalizing s view with
  | nil =>
    cases whole
    exact follows
  | cons event events ih =>
    obtain ⟨after, taken, rest⟩ := Runs.run_cons_inv step whole
    have later := ih (step_follows follows taken) rest
    grind [updatesOf, viewAfter]

theorem queued_of_follows {now : Nat} {record : CdrRecord} (follows : Follows id guard view s)
    (ended : step s (.endTask id now) = some next) (queued : next.queue = s.queue ++ [.record record]) :
    record = guard.record id view now := by
  rcases follows.guarded with gone | guarded
  · simp [step, gone] at ended
  simp only [step, guarded, Option.some.injEq] at ended
  subst ended
  rcases follows.tracked with lost | tracked
  · simp [dropGuard, lost] at queued
  by_cases open_ : s.sender = true ∧ s.writing = true ∧ s.queue.length < queueCapacity
  · simpa [dropGuard, submit, tracked, open_, eq_comm] using queued
  · simp [dropGuard, submit, tracked, open_] at queued

theorem run_updates (tracked : s.tracker id = some view) (updates : List Update) :
    Runs.run step s (updates.map (.update id)) =
      some { s with tracker := Function.update s.tracker id (some (updates.foldl Update.apply view)) } := by
  induction updates generalizing s view with
  | nil =>
    rw [List.foldl_nil, ← tracked, Function.update_eq_self]
    rfl
  | cons change updates ih =>
    have taken : step s (.update id change) =
        some { s with tracker := Function.update s.tracker id (some (change.apply view)) } := by
      simp only [step, tracked]
    have later := ih (s := { s with tracker := Function.update s.tracker id (some (change.apply view)) })
      (Function.update_self _ _ _)
    grind [Runs.run, Function.update_idem]

theorem updatesOf_map_update (id : Nat) (updates : List Update) : updatesOf id (updates.map (.update id)) = updates := by
  rw [updatesOf, List.filterMap_map]
  have own : Event.updateOf id ∘ Event.update id = some := by
    funext change
    exact if_pos rfl
  rw [own, List.filterMap_some]

def listening : State := { phase := .running true, sender := true, writing := true }

theorem endTask_queues (guarded : s.guards id = some guard) (tracked : s.tracker id = some view)
    (open_ : s.sender = true ∧ s.writing = true ∧ s.queue.length < queueCapacity) (now : Nat) :
    ∃ next, step s (.endTask id now) = some next ∧ next.queue = s.queue ++ [.record (guard.record id view now)] := by
  grind [dropGuard, step, submit]

def Course.begun (c : Course) : State := start listening c.id c.guard c.remoteAddress c.startedMs

theorem Course.emits_record (c : Course) : c.Emits c.record := by
  have tracked : c.begun.tracker c.id = some c.initial := Function.update_self _ _ _
  have guarded : c.begun.guards c.id = some c.guard := start_guards_self
  have whole := run_updates tracked c.updates
  obtain ⟨next, ended, queued⟩ := endTask_queues
    (s := { c.begun with
      tracker := Function.update c.begun.tracker c.id (some (c.updates.foldl Update.apply c.initial)) })
    guarded (Function.update_self _ _ _) ⟨rfl, rfl, Nat.zero_lt_succ _⟩ c.endedMs
  exact ⟨[.begin true, .initAccounting, .resetTracker, .bound], _, listening, _, _, next, rfl, rfl, whole,
    updatesOf_map_update _ _, ended, queued⟩

theorem Course.emits_iff (c : Course) {record : CdrRecord} : c.Emits record ↔ record = c.record := by
  constructor
  · rintro ⟨before, during, opened, accepted, last, next, -, began, whole, own, ended, queued⟩
    have follows : Follows c.id c.guard c.initial accepted := by
      obtain ⟨-, rfl⟩ := accept_eq_some began
      exact follows_start _ _
    have reached := run_follows follows whole
    rw [own] at reached
    exact queued_of_follows reached ended queued
  · rintro rfl
    exact c.emits_record

end TlsProxy.Accounting
