import TlsProxy.Lib.Runs
import TlsProxy.Net.PipePolls

/-! `relay` of `relay.rs`: a pipe in each direction, and a monitor that looks at
both every 500 ms and reads what it decides on step by step, while the pipes
go on. Instants and spans are in nanoseconds. -/
namespace TlsProxy.Net
open ByteSource

def millis (n : Nat) : Nat := n * 1000000

structure IdleTracker where
  lastActive : Nat
  maxIdle : Nat

namespace IdleTracker

def new (maxIdleMs : UInt64) (now : Nat) : IdleTracker where
  lastActive := now
  maxIdle := millis (if maxIdleMs = 0 then UInt64.size - 1 else maxIdleMs.toNat)

def mark (t : IdleTracker) (now : Nat) : IdleTracker := { t with lastActive := now }

def idledFor (t : IdleTracker) (now : Nat) : Nat := now - t.lastActive

def isExpired (t : IdleTracker) (now : Nat) : Bool := t.maxIdle < t.idledFor now

end IdleTracker

def halfClosedDrainLimit : Nat := millis 30000

namespace PipeTask

variable {τ : Type} {poll : Reader τ} {s : PipeTask τ}

def isFinished (s : PipeTask τ) : Bool :=
  match s.phase with
  | .done => true
  | _ => false

/-- The pipe gets the lock of the idle tracker. -/
def marks (s : PipeTask τ) (ready : Bool) : Bool :=
  match s.phase with
  | .mark => ready
  | _ => false

theorem isFinished_iff : s.isFinished = true ↔ s.phase = .done := by
  unfold isFinished
  cases s.phase <;> simp

theorem isFinished_turn {turn : Turn} (finished : s.isFinished = true) : (s.turn poll turn).isFinished = true := by
  rw [isFinished_iff] at finished ⊢
  cases turn with
  | abort => simp only [PipeTask.turn, finished]
  | poll arrival writer ready => cases writer <;> simp only [PipeTask.turn, finished]

theorem isFinished_abort : (s.turn poll .abort).isFinished = true := by
  rw [isFinished_iff, PipeTask.turn]
  split <;> rfl

end PipeTask

/-- Where the monitor stands in its loop, with what it has read; `done true` is about the upload. -/
inductive Monitor
  | looking
  | seen (uploadDone : Bool)
  | locking (done : Bool → Bool)
  | deciding (done : Bool → Bool) (idledFor : Nat) (expired : Bool)
  | asleep (wake : Nat)
  | ended (done : Bool → Bool)

/-- The pipes that it has seen finished in this round. -/
def Monitor.known : Monitor → Bool → Bool
  | .seen uploadDone, upload => upload && uploadDone
  | .locking done, upload | .deciding done _ _, upload | .ended done, upload => done upload
  | .looking, _ | .asleep _, _ => false

def Monitor.isEnded : Monitor → Bool
  | .ended _ => true
  | _ => false

structure Relay (σ : Bool → Type) where
  pipe : (upload : Bool) → PipeTask (σ upload)
  idle : IdleTracker
  now : Nat
  monitor : Monitor := .looking

inductive RelayTurn
  | pipe (upload : Bool) (arrival : Arrival) (writer : Answer) (ready : Bool)
  | monitor
  | wait (span : Nat)

section Relay

variable {σ : Bool → Type} (poll : (upload : Bool) → Reader (σ upload))

namespace Relay

def look (s : Relay σ) : Option Monitor :=
  match s.monitor with
  | .looking => some (.seen (s.pipe true).isFinished)
  | .seen uploadDone => some (.locking fun upload => if upload then uploadDone else (s.pipe false).isFinished)
  | .locking done => some (.deciding done (s.idle.idledFor s.now) (s.idle.isExpired s.now))
  | .deciding done idledFor expired =>
    if (done true && done false) || expired || (done true || done false) && halfClosedDrainLimit < idledFor then
      some (.ended done)
    else some (.asleep (s.now + millis 500))
  | .asleep wake => if wake ≤ s.now then some .looking else none
  | .ended _ => none

/-- As it ends, the monitor aborts the pipes that it has not seen finished. -/
def cut (s : Relay σ) (monitor : Monitor) (upload : Bool) : PipeTask (σ upload) :=
  match monitor with
  | .ended done => if done upload then s.pipe upload else (s.pipe upload).turn (poll upload) .abort
  | _ => s.pipe upload

def step (s : Relay σ) : RelayTurn → Option (Relay σ)
  | .pipe upload arrival writer ready =>
    some { s with
      pipe := Function.update s.pipe upload ((s.pipe upload).turn (poll upload) (.poll arrival writer ready))
      idle := if (s.pipe upload).marks ready then s.idle.mark s.now else s.idle }
  | .monitor => s.look.map fun monitor => { s with pipe := s.cut poll monitor, monitor }
  | .wait span => some { s with now := s.now + span }

def start (reader : (upload : Bool) → σ upload) (counter : Bool → UInt64) (meter : Bool → Meter) (maxIdleMs : UInt64)
    (now : Nat) : Relay σ where
  pipe upload := { reader := reader upload, counter := counter upload, meter := meter upload }
  idle := .new maxIdleMs now
  now

variable {poll} {s next : Relay σ} {turn : RelayTurn}

theorem isFinished_step (taken : s.step poll turn = some next) {upload : Bool}
    (finished : (s.pipe upload).isFinished = true) : (next.pipe upload).isFinished = true := by
  cases turn with
  | pipe other arrival writer ready =>
    cases taken
    by_cases same : upload = other
    · subst same
      simpa only [Function.update_self] using PipeTask.isFinished_turn finished
    · simpa only [Function.update_of_ne same] using finished
  | wait span => cases taken; exact finished
  | monitor =>
    obtain ⟨monitor, -, rfl⟩ := Option.map_eq_some_iff.mp taken
    cases monitor with
    | ended done =>
      simp only [cut]
      split
      · exact finished
      · exact PipeTask.isFinished_abort
    | _ => exact finished

def Truthful (s : Relay σ) : Prop := ∀ upload, s.monitor.known upload = true → (s.pipe upload).isFinished = true

theorem Truthful.look (truthful : s.Truthful) {monitor : Monitor} (looked : s.look = some monitor) (upload : Bool)
    (flag : monitor.known upload = true) : (s.pipe upload).isFinished = true := by
  have earlier := truthful upload
  unfold Relay.look at looked
  split at looked
  case h_2 =>
    cases looked
    cases upload with
    | true => grind [Monitor.known]
    | false => exact flag
  all_goals grind [Monitor.known]

theorem Truthful.step (truthful : s.Truthful) (taken : s.step poll turn = some next) : next.Truthful := by
  intro upload flag
  refine isFinished_step taken ?_
  cases turn with
  | pipe other arrival writer ready => cases taken; exact truthful upload flag
  | wait span => cases taken; exact truthful upload flag
  | monitor =>
    obtain ⟨monitor, looked, rfl⟩ := Option.map_eq_some_iff.mp taken
    exact truthful.look looked upload flag

variable {counter : Bool → UInt64} {meter : Bool → Meter}

/-- No peer fails, and the silence stays within the timeout and, with a direction finished, within the drain limit. -/
def Lively (poll : (upload : Bool) → Reader (σ upload)) (s : Relay σ) (turn : RelayTurn) : Prop :=
  s.now ≤ s.idle.lastActive + s.idle.maxIdle ∧
    (((s.pipe true).isFinished || (s.pipe false).isFinished) = true → s.now ≤ s.idle.lastActive + halfClosedDrainLimit) ∧
    (match turn with
      | .pipe upload arrival writer ready => ((s.pipe upload).turn (poll upload) (.poll arrival writer ready)).broken
      | _ => false) = false

instance (s : Relay σ) (turn : RelayTurn) : Decidable (s.Lively poll turn) := inferInstanceAs (Decidable (_ ∧ (_ → _) ∧ _))

/-- The monitor has no reason to abort a pipe. -/
def Calm : Monitor → Prop
  | .deciding done idledFor expired => expired = false ∧ ∀ upload, done upload = true → idledFor ≤ halfClosedDrainLimit
  | .ended done => ∀ upload, done upload = true
  | _ => True

theorem look_calm {monitor : Monitor} (truthful : s.Truthful) (calm : Calm s.monitor) (lively : s.Lively poll .monitor)
    (looked : s.look = some monitor) : Calm monitor := by
  obtain ⟨timely, drained, -⟩ := lively
  unfold look at looked
  split at looked
  · cases looked; trivial
  · cases looked; trivial
  · next stage =>
    cases looked
    refine ⟨decide_eq_false (by simp only [IdleTracker.idledFor]; omega), fun upload flag => ?_⟩
    have finished := truthful upload (by rw [stage]; exact flag)
    exact Nat.sub_le_iff_le_add'.mpr (drained (by cases upload <;> simp [finished]))
  · next stage =>
    rw [stage] at calm
    obtain ⟨unexpired, short⟩ := calm
    split at looked
    · -- neither the timeout nor a stall ends it, so it has seen both pipes finished
      cases looked
      rintro (_ | _) <;> grind
    · cases looked; trivial
  · split at looked <;> cases looked; trivial
  · cases looked

variable {content : (upload : Bool) → σ upload → List UInt8} {stream : Bool → List UInt8}

structure Intact (poll : (upload : Bool) → Reader (σ upload)) (content : (upload : Bool) → σ upload → List UInt8)
    (stream : Bool → List UInt8) (counter : Bool → UInt64) (meter : Bool → Meter) (s : Relay σ) : Prop where
  truthful : s.Truthful
  pipes : ∀ upload, (s.pipe upload).Inv (poll upload) (content upload) (stream upload) (counter upload) (meter upload) ∧
    (s.pipe upload).broken = false
  calm : Calm s.monitor

theorem Intact.step (lawful : ∀ upload, Lawful (poll upload) (content upload))
    (intact : s.Intact poll content stream counter meter) (lively : s.Lively poll turn)
    (taken : s.step poll turn = some next) : next.Intact poll content stream counter meter := by
  have truthful := intact.truthful.step taken
  cases turn with
  | wait span => cases taken; exact ⟨truthful, intact.pipes, intact.calm⟩
  | monitor =>
    obtain ⟨monitor, looked, rfl⟩ := Option.map_eq_some_iff.mp taken
    have calm := look_calm intact.truthful intact.calm lively looked
    have same : s.cut poll monitor = s.pipe := by
      cases monitor with
      | ended done => exact funext fun upload => if_pos (calm upload)
      | _ => rfl
    exact ⟨truthful, same ▸ intact.pipes, calm⟩
  | pipe upload arrival writer ready =>
    cases taken
    refine ⟨truthful, fun other => ?_, intact.calm⟩
    by_cases same : other = upload
    · subst same
      simp only [Function.update_self]
      exact ⟨(intact.pipes other).1.turn (lawful other) _, lively.2.2⟩
    · simpa only [Function.update_of_ne same] using intact.pipes other

/-- Between peers that neither fail nor fall silent, a relay ends only once both directions have ended by themselves,
and then everything that the peers have sent has been written. -/
theorem loses_nothing (lawful : ∀ upload, Lawful (poll upload) (content upload))
    (ends : ∀ upload, EndsLast (poll upload) (content upload)) {reader : (upload : Bool) → σ upload} {maxIdleMs : UInt64}
    {now : Nat} {turns : List RelayTurn} {last : Relay σ}
    (lively : Runs.Meets (step poll) (Lively poll) (start reader counter meter maxIdleMs now) turns)
    (whole : Runs.run (step poll) (start reader counter meter maxIdleMs now) turns = some last)
    (ended : last.monitor.isEnded = true) (upload : Bool) :
    (last.pipe upload).phase = .done ∧ (last.pipe upload).broken = false ∧
      (last.pipe upload).written = content upload (reader upload) := by
  have first : (start reader counter meter maxIdleMs now).Intact poll content (fun upload => content upload (reader upload))
      counter meter :=
    ⟨nofun, fun upload => ⟨inv_start _ _ _ _ _, rfl⟩, trivial⟩
  have intact := Runs.run_invariant _ (fun _ _ _ intact lively taken => Intact.step lawful intact lively taken) first
    lively whole
  have seen : last.monitor.known upload = true := by
    have calm := intact.calm
    cases monitor : last.monitor with
    | ended done =>
      rw [monitor] at calm
      exact calm upload
    | _ => rw [monitor] at ended; cases ended
  have finished := PipeTask.isFinished_iff.mp (intact.truthful upload seen)
  obtain ⟨inv, sound⟩ := intact.pipes upload
  exact ⟨finished, sound, inv.all_written (ends upload) sound finished⟩

/-- The upstream has closed its side 20 seconds before the client sends its last byte. -/
def halfClosed : List RelayTurn :=
  let upload (arrival : Arrival) : RelayTurn := .pipe true arrival (.accepted 1) true
  let download : RelayTurn := .pipe false .closed (.accepted 1) true
  [download, download, .monitor, .monitor, .monitor, .monitor, .wait (millis 20000), upload (.bytes 0), upload .quiet,
    upload .quiet, upload .quiet, upload .closed, upload .quiet, .monitor, .monitor, .monitor, .monitor, .monitor]

theorem loses_nothing_halfClosed :
    ∃ last, Runs.run (step fun _ => wire) (start (fun upload => if upload then [7] else []) (fun _ => 0) (fun _ => ⟨0, 0⟩)
        60000 0) halfClosed = some last ∧ (last.pipe true).written = [7] := by
  have summary : (Runs.run (step fun _ => wire) (start (fun upload => if upload then [7] else []) (fun _ => 0)
      (fun _ => ⟨0, 0⟩) 60000 0) halfClosed).map (fun last => last.monitor.isEnded) = some true := by
    decide +kernel
  obtain ⟨last, whole, ended⟩ := Option.map_eq_some_iff.mp summary
  exact ⟨last, whole,
    (loses_nothing (fun _ => wire_lawful) (fun _ => wire_endsLast) (by decide +kernel) whole ended true).2.2⟩

end Relay

end Relay

end TlsProxy.Net
