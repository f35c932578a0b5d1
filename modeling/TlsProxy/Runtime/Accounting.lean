import TlsProxy.Lib.Runs
import TlsProxy.Lib.Text
import Mathlib.Logic.Function.Iterate

/-! The revision loop of `runtime.rs` as far as accounting depends on it: the
process-wide sender and writer of `accounting.rs`, the connection tracker, and
the connection guards of `lifecycle.rs`. Connection tasks, the writer thread
and the revision loop interleave freely. -/
namespace TlsProxy.Accounting

inductive ListenerType
  | tlsPassthrough
  | tlsTerminate
  | portForward
  | httpPassthrough
deriving DecidableEq

inductive ConnStatus
  | ok
  | denied
  | connectFailed
deriving DecidableEq

structure CdrRecord where
  listenerType : ListenerType
  connectionId : Nat
  listenerName : Text
  sni : Text
  targetHost : Text
  targetEndpoint : Text
  remoteAddress : Text
  status : ConnStatus
  uploadedBytes : Nat
  downloadedBytes : Nat
  startUnixMs : Nat
  endUnixMs : Nat
deriving DecidableEq

structure ActiveConnection where
  listener : Text
  remoteAddress : Text
  startedAtUnixMs : Nat
  uploadedBytes : Nat := 0
  downloadedBytes : Nat := 0
  sni : Text := []
  targetHost : Text := []
  targetEndpoint : Text := []
  status : ConnStatus := .connectFailed
  listenerType : Option ListenerType := none
deriving DecidableEq

inductive Update
  | addUploaded (count : Nat)
  | addDownloaded (count : Nat)
  | setSni (sni : Text)
  | setTarget (host endpoint : Text)
  | setStatus (status : ConnStatus)
  | setListenerType (listenerType : ListenerType)

def saturatingAdd (a b : Nat) : Nat := min (a + b) (UInt64.size - 1)

def Update.apply (c : ActiveConnection) : Update → ActiveConnection
  | .addUploaded count => { c with uploadedBytes := saturatingAdd c.uploadedBytes count }
  | .addDownloaded count => { c with downloadedBytes := saturatingAdd c.downloadedBytes count }
  | .setSni sni => { c with sni }
  | .setTarget host endpoint => { c with targetHost := host, targetEndpoint := endpoint }
  | .setStatus status => { c with status }
  | .setListenerType listenerType => { c with listenerType := some listenerType }

structure ConnGuard where
  listener : Text
  fallbackType : ListenerType

def ConnGuard.record (g : ConnGuard) (id : Nat) (closed : ActiveConnection) (endUnixMs : Nat) : CdrRecord where
  listenerType := closed.listenerType.getD g.fallbackType
  connectionId := id
  listenerName := g.listener
  sni := closed.sni
  targetHost := closed.targetHost
  targetEndpoint := closed.targetEndpoint
  remoteAddress := closed.remoteAddress
  status := closed.status
  uploadedBytes := closed.uploadedBytes
  downloadedBytes := closed.downloadedBytes
  startUnixMs := closed.startedAtUnixMs
  endUnixMs := endUnixMs

inductive Msg
  | record (record : CdrRecord)
  | flush
deriving DecidableEq

def queueCapacity : Nat := 100000

/-- Where the revision loop stands; the flag says whether the revision's accounting is enabled. -/
inductive Phase
  | idle
  | starting (accounting : Bool)
  | initialized (accounting : Bool)
  | applying (accounting : Bool)
  | running (accounting : Bool)
  | cancelled (reload : Bool)
  | flushing (reload : Bool)
  | exited
deriving DecidableEq

structure State where
  phase : Phase := .idle
  /-- The `SENDER` cell is set; it is never cleared. -/
  sender : Bool := false
  /-- The writer thread is in its loop, so the channel has a receiver. -/
  writing : Bool := false
  queue : List Msg := []
  /-- The lines of the log file. -/
  log : List CdrRecord := []
  tracker : Nat → Option ActiveConnection := fun _ => none
  guards : Nat → Option ConnGuard := fun _ => none
  used : List Nat := []
  /-- Connections accepted while a revision with accounting was running. -/
  counted : List Nat := []
  initFailed : Bool := false

def init (s : State) (enabled : Bool) : Except State State :=
  if enabled = false then .ok s
  else if s.sender then .error { s with initFailed := true }
  else .ok { s with sender := true, writing := true, queue := [] }

/-- Submission by `try_send`: the record is dropped when the queue is full or the writer is gone. -/
def submit (s : State) (record : CdrRecord) : State :=
  if s.sender ∧ s.writing ∧ s.queue.length < queueCapacity then
    { s with queue := s.queue ++ [.record record] }
  else s

def writerStep (s : State) : State :=
  match s.writing, s.queue with
  | true, .record record :: rest => { s with queue := rest, log := s.log ++ [record] }
  | true, .flush :: rest => { s with queue := rest, writing := false }
  | _, _ => s

def start (s : State) (id : Nat) (guard : ConnGuard) (remote : Text) (now : Nat) : State :=
  { s with
    tracker := Function.update s.tracker id
      (some { listener := guard.listener, remoteAddress := remote, startedAtUnixMs := now })
    guards := Function.update s.guards id (some guard)
    used := id :: s.used
    counted := if s.phase = .running true then id :: s.counted else s.counted }

def dropGuard (s : State) (id : Nat) (guard : ConnGuard) (now : Nat) : State :=
  let released := { s with guards := Function.update s.guards id none }
  match s.tracker id with
  | none => released
  | some closed =>
    let removed := { released with tracker := Function.update s.tracker id none }
    if s.sender then submit removed (guard.record id closed now) else removed

inductive Event
  | begin (accounting : Bool)
  | initAccounting
  | resetTracker
  | bound
  | applyFails
  | accept (id : Nat) (guard : ConnGuard) (remote : Text) (now : Nat)
  | update (id : Nat) (change : Update)
  | endTask (id : Nat) (now : Nat)
  | write
  | cancel (reload : Bool)
  | signalFails
  | shutdown
  | acknowledged

def step (s : State) : Event → Option State
  | .begin accounting =>
    if s.phase = .idle then some { s with phase := .starting accounting } else none
  | .initAccounting =>
    match s.phase with
    | .starting accounting =>
      match init s accounting with
      | .ok next => some { next with phase := .initialized accounting }
      | .error next => some { next with phase := .idle }
    | _ => none
  | .resetTracker =>
    match s.phase with
    | .initialized accounting =>
      some { s with phase := .applying accounting, tracker := fun _ => none }
    | _ => none
  | .bound =>
    match s.phase with
    | .applying accounting => some { s with phase := .running accounting }
    | _ => none
  | .applyFails =>
    match s.phase with
    | .starting _ | .initialized _ | .applying _ => some { s with phase := .idle }
    | _ => none
  | .accept id guard remote now =>
    match s.phase with
    | .running _ | .cancelled _ | .flushing _ =>
      if id ∈ s.used then none else some (start s id guard remote now)
    | _ => none
  | .update id change =>
    match s.tracker id with
    | some c => some { s with tracker := Function.update s.tracker id (some (change.apply c)) }
    | none => some s
  | .endTask id now =>
    match s.guards id with
    | some guard => some (dropGuard s id guard now)
    | none => none
  | .write => some (writerStep s)
  | .cancel reload =>
    match s.phase with
    | .running _ => some { s with phase := .cancelled reload }
    | _ => none
  -- Without a handler for Ctrl-C the revision ends in an error and skips the shutdown.
  | .signalFails =>
    match s.phase with
    | .running _ => some { s with phase := .idle }
    | _ => none
  | .shutdown =>
    match s.phase with
    | .cancelled reload =>
      if s.sender ∧ s.writing then
        some { s with phase := .flushing reload, queue := s.queue ++ [.flush] }
      else some { s with phase := if reload then .idle else .exited }
    | _ => none
  | .acknowledged =>
    match s.phase with
    | .flushing reload =>
      if s.writing then none else some { s with phase := if reload then .idle else .exited }
    | _ => none

/-- The records the writer still reaches before it stops. -/
def pending : List Msg → List CdrRecord
  | [] => []
  | .record record :: rest => record :: pending rest
  | .flush :: _ => []

def drained (s : State) : List CdrRecord := s.log ++ if s.writing then pending s.queue else []

def lines (id : Nat) (log : List CdrRecord) : Nat := log.countP fun record => record.connectionId == id

theorem writerStep_drained (s : State) : drained (writerStep s) = drained s := by
  unfold writerStep
  split
  · rename_i on queue
    simp [drained, on, queue, pending]
  · rename_i on queue
    simp [drained, on, queue, pending]
  · rfl

theorem writerStep_iterate_log (n : Nat) (s : State) (short : s.queue.length ≤ n) :
    (writerStep^[n] s).log = drained s := by
  induction n generalizing s with
  | zero =>
    have empty : s.queue = [] := List.eq_nil_of_length_eq_zero (Nat.le_zero.mp short)
    simp [drained, empty, pending]
  | succ n ih =>
    rw [Function.iterate_succ_apply, ← writerStep_drained s]
    by_cases stopped : s.writing = true ∧ s.queue ≠ []
    · obtain ⟨on, some⟩ := stopped
      refine ih _ ?_
      obtain ⟨message, rest, queue⟩ := List.exists_cons_of_ne_nil some
      rw [queue, List.length_cons] at short
      cases message <;> simp [writerStep, on, queue] <;> omega
    · have still : writerStep s = s := by
        unfold writerStep
        split
        · rename_i on queue
          exact absurd ⟨on, by rw [queue]; simp⟩ stopped
        · rename_i on queue
          exact absurd ⟨on, by rw [queue]; simp⟩ stopped
        · rfl
      have fixed : writerStep^[n] s = s := Function.iterate_fixed still n
      rw [still, fixed]
      by_cases on : s.writing = true
      · have empty : s.queue = [] := by
          by_contra some
          exact stopped ⟨on, some⟩
        simp [drained, empty, pending]
      · simp [drained, on]

theorem pending_append_record {queue : List Msg} (open_ : .flush ∉ queue) (record : CdrRecord) :
    pending (queue ++ [.record record]) = pending queue ++ [record] := by
  induction queue with
  | nil => rfl
  | cons message rest ih =>
    simp only [List.mem_cons, not_or] at open_
    cases message with
    | flush => exact absurd rfl open_.1
    | record other => simp [pending, ih open_.2]

theorem pending_append_of_flush {queue : List Msg} (closed : .flush ∈ queue) (later : List Msg) :
    pending (queue ++ later) = pending queue := by
  induction queue with
  | nil => cases closed
  | cons message rest ih =>
    cases message with
    | flush => rfl
    | record other => simp [pending, ih (by simpa using closed)]

theorem pending_append_flush (queue : List Msg) : pending (queue ++ [.flush]) = pending queue := by
  induction queue with
  | nil => rfl
  | cons message rest ih =>
    cases message with
    | flush => rfl
    | record other => simp [pending, ih]

theorem record_mem_of_pending {record : CdrRecord} {queue : List Msg} (h : record ∈ pending queue) :
    Msg.record record ∈ queue := by
  induction queue with
  | nil => simp [pending] at h
  | cons message rest ih =>
    cases message with
    | flush => simp [pending] at h
    | record other =>
      rcases List.mem_cons.mp h with rfl | later
      · exact List.mem_cons_self
      · exact List.mem_cons_of_mem _ (ih later)

def Open (s : State) : Prop := s.sender = true ∧ s.writing = true ∧ .flush ∉ s.queue

/-- Every record in the log or in the queue belongs to a connection that has ended. -/
def Ended (s : State) (id : Nat) : Prop := id ∈ s.used ∧ s.guards id = none

structure Inv (s : State) : Prop where
  wired : s.writing = true → s.sender = true
  armed : s.phase ∈ [.initialized true, .applying true, .running true] → Open s
  usedGuards : ∀ id, s.guards id ≠ none → id ∈ s.used
  usedCounted : ∀ id ∈ s.counted, id ∈ s.used
  logged : ∀ record ∈ s.log, Ended s record.connectionId
  queued : ∀ record, Msg.record record ∈ s.queue → Ended s record.connectionId
  live : ∀ id ∈ s.counted, s.guards id ≠ none →
    Open s ∧ s.tracker id ≠ none ∧ (s.phase = .running true ∨ ∃ reload, s.phase = .cancelled reload)
  once : ∀ id ∈ s.counted, s.guards id = none → lines id (drained s) = 1
  noFailure : s.initFailed = false

/-- A revision with accounting starts only while none has initialized it before, a revision ends
only when no guard of it is alive, and the queue has room for each record. -/
def Undisturbed (s : State) : Event → Prop
  | .initAccounting => s.phase = .starting true → s.sender = false
  | .shutdown | .signalFails => ∀ id ∈ s.counted, s.guards id = none
  | .endTask _ _ => s.queue.length < queueCapacity
  | _ => True

instance (s : State) (event : Event) : Decidable (Undisturbed s event) := by
  cases event <;> unfold Undisturbed <;> infer_instance

theorem inv_start : Inv {} := by
  constructor <;> simp

theorem Inv.ended {s : State} (h : Inv s) (notRunning : s.phase ≠ .running true)
    (notCancelled : ∀ reload, s.phase ≠ .cancelled reload) : ∀ id ∈ s.counted, s.guards id = none := by
  intro id counted
  by_contra alive
  rcases (h.live id counted alive).2.2 with running | ⟨reload, cancelled⟩
  · exact notRunning running
  · exact notCancelled reload cancelled

theorem Inv.withPhase {s : State} (h : Inv s) (phase : Phase)
    (armed : phase ∈ [.initialized true, .applying true, .running true] → Open s)
    (kept : (∀ id ∈ s.counted, s.guards id = none) ∨ phase = .running true ∨
      ∃ reload, phase = .cancelled reload) : Inv { s with phase } where
  wired := h.wired
  armed := armed
  usedGuards := h.usedGuards
  usedCounted := h.usedCounted
  logged := h.logged
  queued := h.queued
  live := by
    intro id counted alive
    rcases kept with none_ | running
    · exact absurd (none_ id counted) alive
    · exact ⟨(h.live id counted alive).1, (h.live id counted alive).2.1, running⟩
  once := h.once
  noFailure := h.noFailure

theorem Inv.init {s : State} (h : Inv s) (phase : s.phase = .starting true) (unset : s.sender = false) :
    Inv { s with sender := true, writing := true, queue := [], phase := .initialized true } := by
  have idle : s.writing = false := by
    by_contra on
    rw [h.wired (by simpa using on)] at unset
    cases unset
  have ended := h.ended (by rw [phase]; simp) (by rw [phase]; simp)
  refine ⟨fun _ => rfl, fun _ => ⟨rfl, rfl, by simp⟩, h.usedGuards, h.usedCounted, h.logged, by simp, ?_, ?_,
    h.noFailure⟩
  · intro id counted alive
    exact absurd (ended id counted) alive
  · intro id counted gone
    simpa [drained, idle, pending] using h.once id counted gone

theorem Inv.withTracker {s : State} (h : Inv s) {tracker : Nat → Option ActiveConnection}
    (tracked : ∀ id ∈ s.counted, s.guards id ≠ none → s.tracker id ≠ none → tracker id ≠ none) :
    Inv { s with tracker } where
  wired := h.wired
  armed := h.armed
  usedGuards := h.usedGuards
  usedCounted := h.usedCounted
  logged := h.logged
  queued := h.queued
  live := fun id counted alive =>
    (h.live id counted alive).imp_right (And.imp_left (tracked id counted alive))
  once := h.once
  noFailure := h.noFailure

theorem lines_eq_zero {id : Nat} {log : List CdrRecord} (h : ∀ record ∈ log, record.connectionId ≠ id) :
    lines id log = 0 := by
  rw [lines, List.countP_eq_zero]
  intro record member
  simpa using h record member

theorem Inv.lines_drained {s : State} (h : Inv s) {id : Nat} (alive : ¬ Ended s id) :
    lines id (drained s) = 0 := by
  refine lines_eq_zero fun record member same => alive ?_
  subst same
  rcases List.mem_append.mp member with old | new
  · exact h.logged record old
  · split at new
    · exact h.queued record (record_mem_of_pending new)
    · cases new

section Start

variable {s : State} {id old : Nat} {guard : ConnGuard} {remote : Text} {now : Nat}

@[simp] theorem start_guards_self : (start s id guard remote now).guards id = some guard :=
  Function.update_self _ _ _

theorem start_guards_of_ne (other : old ≠ id) :
    (start s id guard remote now).guards old = s.guards old := Function.update_of_ne other _ _

theorem start_tracker_self : (start s id guard remote now).tracker id ≠ none := by
  simp [start]

theorem start_tracker_of_ne (other : old ≠ id) :
    (start s id guard remote now).tracker old = s.tracker old := Function.update_of_ne other _ _

theorem mem_start_counted : old ∈ (start s id guard remote now).counted ↔
    (old = id ∧ s.phase = .running true) ∨ old ∈ s.counted := by
  by_cases running : s.phase = .running true <;> simp [start, running]

theorem accept_eq_some {next : State} (taken : step s (.accept id guard remote now) = some next) :
    id ∉ s.used ∧ next = start s id guard remote now := by
  simp only [step] at taken
  split at taken
  any_goals cases taken
  all_goals
    rw [Option.ite_none_left_eq_some] at taken
    exact ⟨taken.1, (Option.some.inj taken.2).symm⟩

end Start

theorem Inv.accept {s : State} (h : Inv s) {id : Nat} (fresh : id ∉ s.used) (guard : ConnGuard)
    (remote : Text) (now : Nat) : Inv (start s id guard remote now) := by
  have other : ∀ {old}, old ∈ s.used → old ≠ id := fun used same => fresh (same ▸ used)
  have ended : ∀ {old}, Ended s old → Ended (start s id guard remote now) old := by
    rintro old ⟨used, gone⟩
    exact ⟨List.mem_cons_of_mem _ used, (start_guards_of_ne (other used)).trans gone⟩
  refine ⟨h.wired, h.armed, ?_, ?_, fun record member => ended (h.logged record member),
    fun record member => ended (h.queued record member), ?_, ?_, h.noFailure⟩
  · intro old alive
    by_cases same : old = id
    · exact same ▸ List.mem_cons_self
    · rw [start_guards_of_ne same] at alive
      exact List.mem_cons_of_mem _ (h.usedGuards old alive)
  · intro old counted
    rcases mem_start_counted.mp counted with ⟨rfl, -⟩ | before
    · exact List.mem_cons_self
    · exact List.mem_cons_of_mem _ (h.usedCounted old before)
  · intro old counted alive
    rcases mem_start_counted.mp counted with ⟨rfl, running⟩ | before
    · exact ⟨h.armed (by simp [running]), start_tracker_self, .inl running⟩
    · have same := other (h.usedCounted old before)
      rw [start_guards_of_ne same] at alive
      obtain ⟨open_, tracked, phase⟩ := h.live old before alive
      exact ⟨open_, by rwa [start_tracker_of_ne same], phase⟩
  · intro old counted gone
    rcases mem_start_counted.mp counted with ⟨rfl, -⟩ | before
    · rw [start_guards_self] at gone
      cases gone
    · rw [start_guards_of_ne (other (h.usedCounted old before))] at gone
      exact h.once old before gone

theorem Inv.update {s : State} (h : Inv s) {id : Nat} {c : ActiveConnection} :
    Inv { s with tracker := Function.update s.tracker id (some c) } := by
  refine h.withTracker fun old _ _ tracked => ?_
  by_cases same : old = id
  · subst same
    simp
  · simpa [Function.update_of_ne same] using tracked

theorem lines_append (id : Nat) (a b : List CdrRecord) : lines id (a ++ b) = lines id a + lines id b :=
  List.countP_append

theorem lines_queued_own {s : State} {record : CdrRecord} (open_ : Open s)
    (none : lines record.connectionId (drained s) = 0) :
    lines record.connectionId (drained { s with queue := s.queue ++ [.record record] }) = 1 := by
  have after : pending (s.queue ++ [.record record]) = pending s.queue ++ [record] :=
    pending_append_record open_.2.2 record
  have self : lines record.connectionId [record] = 1 := by simp [lines]
  simp only [drained, open_.2.1, if_true] at none ⊢
  rw [after, ← List.append_assoc, lines_append, none, self]

theorem lines_queued_other {s : State} {id : Nat} {record : CdrRecord} (other : record.connectionId ≠ id) :
    lines id (drained { s with queue := s.queue ++ [.record record] }) = lines id (drained s) := by
  have foreign : lines id [record] = 0 := lines_eq_zero fun _ member => by
    rw [List.mem_singleton.mp member]
    exact other
  by_cases on : s.writing = true
  · by_cases closed : .flush ∈ s.queue
    · simp [drained, on, pending_append_of_flush closed]
    · simp [drained, on, pending_append_record closed, lines_append, foreign]
  · simp [drained, on]

/-- What the drop of a guard changes: its own entries and at most one record at the end of the queue. -/
theorem dropGuard_cases (s : State) (id : Nat) (guard : ConnGuard) (now : Nat) :
    ∃ tracker queue, dropGuard s id guard now =
        { s with guards := Function.update s.guards id none, tracker, queue } ∧
      (∀ old, old ≠ id → tracker old = s.tracker old) ∧
      (queue = s.queue ∨ ∃ record, record.connectionId = id ∧ queue = s.queue ++ [.record record]) ∧
      (Open s → s.tracker id ≠ none → s.queue.length < queueCapacity →
        ∃ record, record.connectionId = id ∧ queue = s.queue ++ [.record record]) := by
  unfold dropGuard
  cases tracked : s.tracker id with
  | none => exact ⟨s.tracker, s.queue, rfl, fun _ _ => rfl, .inl rfl, fun _ missing => absurd rfl missing⟩
  | some closed =>
    have others : ∀ old, old ≠ id → Function.update s.tracker id none old = s.tracker old :=
      fun old other => Function.update_of_ne other _ _
    by_cases sent : s.sender = true ∧ s.writing = true ∧ s.queue.length < queueCapacity
    · have appended : ∃ record : CdrRecord, record.connectionId = id ∧
          s.queue ++ [Msg.record (guard.record id closed now)] = s.queue ++ [.record record] :=
        ⟨_, rfl, rfl⟩
      exact ⟨Function.update s.tracker id none, s.queue ++ [.record (guard.record id closed now)],
        by simp [submit, sent], others, .inr appended, fun _ _ _ => appended⟩
    · refine ⟨Function.update s.tracker id none, s.queue, ?_, others, .inl rfl, ?_⟩
      · simp only [submit, if_neg sent, ite_self]
      · intro open_ _ room
        exact absurd ⟨open_.1, open_.2.1, room⟩ sent

theorem Inv.endTask {s : State} (h : Inv s) {id : Nat} {guard : ConnGuard} (alive : s.guards id = some guard)
    (room : s.queue.length < queueCapacity) (now : Nat) : Inv (dropGuard s id guard now) := by
  obtain ⟨tracker, queue, dropped, others, grown, emitted⟩ := dropGuard_cases s id guard now
  rw [dropped]
  have used : id ∈ s.used := h.usedGuards id (by rw [alive]; simp)
  have goneSelf : Function.update s.guards id none id = none := Function.update_self _ _ _
  have goneOther : ∀ {old}, s.guards old = none → Function.update s.guards id none old = none := by
    intro old gone
    by_cases same : old = id
    · rw [same, goneSelf]
    · rw [Function.update_of_ne same, gone]
  have stillOpen : .flush ∉ s.queue → .flush ∉ queue := by
    rcases grown with rfl | ⟨record, -, rfl⟩ <;> simp
  refine ⟨h.wired, ?_, ?_, h.usedCounted, ?_, ?_, ?_, ?_, h.noFailure⟩
  · intro phase
    obtain ⟨sender, writing, open_⟩ := h.armed phase
    exact ⟨sender, writing, stillOpen open_⟩
  · intro old living
    by_cases same : old = id
    · exact same ▸ used
    · exact h.usedGuards old (by simpa only [Function.update_of_ne same] using living)
  · intro record member
    exact ⟨(h.logged record member).1, goneOther (h.logged record member).2⟩
  · intro record member
    rcases grown with rfl | ⟨own, rfl, rfl⟩
    · exact ⟨(h.queued record member).1, goneOther (h.queued record member).2⟩
    · rcases List.mem_append.mp member with old | new
      · exact ⟨(h.queued record old).1, goneOther (h.queued record old).2⟩
      · simp only [List.mem_singleton, Msg.record.injEq] at new
        subst new
        exact ⟨used, goneSelf⟩
  · intro old counted living
    have same : old ≠ id := by
      rintro rfl
      exact living goneSelf
    obtain ⟨⟨sender, writing, open_⟩, tracked, phase⟩ :=
      h.live old counted (by simpa only [Function.update_of_ne same] using living)
    refine ⟨⟨sender, writing, stillOpen open_⟩, ?_, phase⟩
    simpa only [others old same] using tracked
  · intro old counted gone
    by_cases same : old = id
    · subst same
      obtain ⟨open_, tracked, -⟩ := h.live old counted (by rw [alive]; simp)
      obtain ⟨record, rfl, rfl⟩ := emitted open_ tracked room
      refine lines_queued_own open_ (h.lines_drained fun ended => ?_)
      have gone := ended.2
      rw [alive] at gone
      cases gone
    · have before : s.guards old = none := by simpa only [Function.update_of_ne same] using gone
      rw [← h.once old counted before]
      rcases grown with rfl | ⟨record, rfl, rfl⟩
      · rfl
      · exact lines_queued_other fun equal => same equal.symm

theorem Inv.write {s : State} (h : Inv s) : Inv (writerStep s) := by
  have once : ∀ id, lines id (drained (writerStep s)) = lines id (drained s) := by
    intro id
    rw [writerStep_drained]
  unfold writerStep at once ⊢
  split
  · rename_i record rest on queue
    have subset : .flush ∉ s.queue → .flush ∉ rest := by
      rw [queue]
      simp
    refine ⟨h.wired, ?_, h.usedGuards, h.usedCounted, ?_, ?_, ?_, ?_, h.noFailure⟩
    · intro phase
      obtain ⟨sender, writing, open_⟩ := h.armed phase
      exact ⟨sender, writing, subset open_⟩
    · intro other member
      rcases List.mem_append.mp member with old | new
      · exact h.logged other old
      · rw [List.mem_singleton.mp new]
        exact h.queued record (by rw [queue]; exact List.mem_cons_self)
    · intro other member
      exact h.queued other (by rw [queue]; exact List.mem_cons_of_mem _ member)
    · intro id counted alive
      obtain ⟨⟨sender, writing, open_⟩, tracked, phase⟩ := h.live id counted alive
      exact ⟨⟨sender, writing, subset open_⟩, tracked, phase⟩
    · intro id counted gone
      simp only [on, queue] at once ⊢
      exact (once id).trans (h.once id counted gone)
  · rename_i rest on queue
    have closed : .flush ∈ s.queue := by
      rw [queue]
      exact List.mem_cons_self
    refine ⟨fun off => absurd off (by simp), ?_, h.usedGuards, h.usedCounted, h.logged, ?_, ?_, ?_, h.noFailure⟩
    · intro phase
      exact absurd closed (h.armed phase).2.2
    · intro other member
      exact h.queued other (by rw [queue]; exact List.mem_cons_of_mem _ member)
    · intro id counted alive
      exact absurd closed (h.live id counted alive).1.2.2
    · intro id counted gone
      simp only [on, queue] at once
      exact (once id).trans (h.once id counted gone)
  · exact h

theorem Inv.shutdown {s : State} (h : Inv s) (quiet : ∀ id ∈ s.counted, s.guards id = none) (reload : Bool) :
    Inv { s with phase := .flushing reload, queue := s.queue ++ [.flush] } := by
  refine ⟨h.wired, fun phase => absurd phase (by simp), h.usedGuards, h.usedCounted, h.logged, ?_, ?_, ?_,
    h.noFailure⟩
  · intro record member
    exact h.queued record (by simpa using member)
  · intro id counted alive
    exact absurd (quiet id counted) alive
  · intro id counted gone
    simpa [drained, pending_append_flush] using h.once id counted gone

theorem step_preserves_inv (s : State) (event : Event) (next : State) (h : Inv s) (ok : Undisturbed s event)
    (enabled : step s event = some next) : Inv next := by
  cases event with
  | begin accounting =>
    simp only [step, Option.ite_none_right_eq_some, Option.some.injEq] at enabled
    obtain ⟨idle, rfl⟩ := enabled
    exact h.withPhase _ (by simp) (.inl (h.ended (by simp [idle]) (by simp [idle])))
  | initAccounting =>
    simp only [step] at enabled
    split at enabled
    · rename_i accounting phase
      have ended := h.ended (by simp [phase]) (by simp [phase])
      cases accounting with
      | false =>
        obtain rfl := Option.some.inj enabled
        exact h.withPhase _ (by simp) (.inl ended)
      | true =>
        have unset : s.sender = false := ok phase
        simp only [init, Bool.true_eq_false, if_false, unset, Bool.false_eq_true] at enabled
        obtain rfl := Option.some.inj enabled
        exact h.init phase unset
    · cases enabled
  | resetTracker =>
    simp only [step] at enabled
    split at enabled
    · rename_i accounting phase
      obtain rfl := Option.some.inj enabled
      have ended := h.ended (by simp [phase]) (by simp [phase])
      have reset : Inv { s with tracker := fun _ => none } :=
        h.withTracker fun id counted alive _ => absurd (ended id counted) alive
      refine reset.withPhase (.applying accounting) ?_ (.inl ended)
      intro armed
      exact h.armed (by simpa [phase] using armed)
    · cases enabled
  | bound =>
    simp only [step] at enabled
    split at enabled
    · rename_i accounting phase
      obtain rfl := Option.some.inj enabled
      refine h.withPhase _ ?_ (.inl (h.ended (by simp [phase]) (by simp [phase])))
      intro armed
      exact h.armed (by simpa [phase] using armed)
    · cases enabled
  | applyFails =>
    have failed : ∀ {phase : Phase}, s.phase = phase → phase ≠ .running true →
        (∀ reload, phase ≠ .cancelled reload) → Inv { s with phase := .idle } := by
      intro phase same notRunning notCancelled
      exact h.withPhase _ (by simp) (.inl (h.ended (same ▸ notRunning) (same ▸ notCancelled)))
    simp only [step] at enabled
    split at enabled
    · exact Option.some.inj enabled ▸ failed ‹_› (by simp) (by simp)
    · exact Option.some.inj enabled ▸ failed ‹_› (by simp) (by simp)
    · exact Option.some.inj enabled ▸ failed ‹_› (by simp) (by simp)
    · cases enabled
  | accept id guard remote now =>
    obtain ⟨fresh, rfl⟩ := accept_eq_some enabled
    exact h.accept fresh guard remote now
  | update id change =>
    simp only [step] at enabled
    split at enabled
    · obtain rfl := Option.some.inj enabled
      exact h.update
    · obtain rfl := Option.some.inj enabled
      exact h
  | endTask id now =>
    simp only [step] at enabled
    split at enabled
    · rename_i guard alive
      obtain rfl := Option.some.inj enabled
      exact h.endTask alive ok now
    · cases enabled
  | write =>
    obtain rfl := Option.some.inj enabled
    exact h.write
  | cancel reload =>
    simp only [step] at enabled
    split at enabled
    · obtain rfl := Option.some.inj enabled
      exact h.withPhase _ (by simp) (.inr (.inr ⟨reload, rfl⟩))
    · cases enabled
  | signalFails =>
    simp only [step] at enabled
    split at enabled
    · obtain rfl := Option.some.inj enabled
      exact h.withPhase _ (by simp) (.inl ok)
    · cases enabled
  | shutdown =>
    simp only [step] at enabled
    split at enabled
    · rename_i reload phase
      split at enabled
      · obtain rfl := Option.some.inj enabled
        exact h.shutdown ok reload
      · obtain rfl := Option.some.inj enabled
        exact h.withPhase _ (by cases reload <;> simp) (.inl ok)
    · cases enabled
  | acknowledged =>
    simp only [step] at enabled
    split at enabled
    · rename_i reload phase
      split at enabled
      · cases enabled
      · obtain rfl := Option.some.inj enabled
        exact h.withPhase _ (by cases reload <;> simp)
          (.inl (h.ended (by simp [phase]) (by simp [phase])))
    · cases enabled

/-- In every undisturbed run no initialization fails, and each connection accepted by a running
revision has exactly one line once its guard is gone and the writer has caught up. -/
theorem accounting_survives_reloads {events : List Event} {last : State}
    (whole : Runs.run step {} events = some last) (meets : Runs.Meets step Undisturbed {} events) :
    last.initFailed = false ∧ ∀ id ∈ last.counted, last.guards id = none →
      lines id (writerStep^[last.queue.length] last).log = 1 := by
  have h : Inv last := Runs.run_invariant step step_preserves_inv inv_start meets whole
  refine ⟨h.noFailure, ?_⟩
  intro id counted gone
  rw [writerStep_iterate_log _ _ le_rfl]
  exact h.once id counted gone

def quietReload : List Event :=
  [.begin true, .initAccounting, .resetTracker, .bound,
    .accept 1 ⟨"web".toList, .tlsTerminate⟩ "192.0.2.1:50000".toList 0, .cancel true, .endTask 1 5,
    .shutdown, .write, .write, .acknowledged, .begin false, .initAccounting, .resetTracker, .bound]

theorem accounting_survives_quietReload :
    ∃ last, Runs.run step {} quietReload = some last ∧ 1 ∈ last.counted ∧ lines 1 last.log = 1 := by
  have meets : Runs.Meets step Undisturbed {} quietReload := by decide
  refine ⟨_, rfl, by decide, ?_⟩
  exact (accounting_survives_reloads rfl meets).2 1 (by decide) rfl

/-- The second revision with accounting cannot initialize it, and a guard that outlives the flush of
its revision writes nothing. -/
theorem reload_disturbs_accounting :
    (∃ last, Runs.run step {} [.begin true, .initAccounting, .resetTracker, .bound, .cancel true, .shutdown,
        .write, .acknowledged, .begin true, .initAccounting] = some last ∧ last.initFailed = true) ∧
    ∃ last, Runs.run step {} [.begin true, .initAccounting, .resetTracker, .bound,
        .accept 1 ⟨"web".toList, .tlsTerminate⟩ "192.0.2.1:50000".toList 0, .cancel true, .shutdown,
        .write, .acknowledged, .endTask 1 5] = some last ∧ 1 ∈ last.counted ∧ last.guards 1 = none ∧
      lines 1 (writerStep^[last.queue.length] last).log = 0 :=
  ⟨⟨_, rfl, rfl⟩, _, rfl, by decide, rfl, rfl⟩

end TlsProxy.Accounting
