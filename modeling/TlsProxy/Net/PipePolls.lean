import TlsProxy.Net.Relay
import TlsProxy.Runtime.Accounting

/-! `pipe` of `relay.rs` as a task: every turn is one poll of what the task waits
for. -/
namespace TlsProxy.Net
open ByteSource

/-- The bytes of one direction in the total of the listener and in the entry of the connection. -/
structure Meter where
  total : UInt64
  tracked : UInt64

namespace Meter

def add (m : Meter) (count : Nat) : Meter where
  total := m.total + UInt64.ofNat count
  tracked := UInt64.ofNat (Accounting.saturatingAdd m.tracked.toNat count)

theorem add_zero (m : Meter) : m.add 0 = m := by
  have below := m.tracked.toNat_lt_size
  have same : Accounting.saturatingAdd m.tracked.toNat 0 = m.tracked.toNat := by
    rw [Accounting.saturatingAdd, Nat.add_zero]
    omega
  rw [add, same, UInt64.ofNat_toNat]
  simp

theorem add_add (m : Meter) (a b : Nat) : (m.add a).add b = m.add (a + b) := by
  have once : (m.add a).tracked.toNat = Accounting.saturatingAdd m.tracked.toNat a := by
    refine UInt64.toNat_ofNat_of_lt ?_
    rw [Accounting.saturatingAdd]
    exact Nat.lt_of_le_of_lt (Nat.min_le_right _ _) (by decide)
  have twice : Accounting.saturatingAdd (Accounting.saturatingAdd m.tracked.toNat a) b =
      Accounting.saturatingAdd m.tracked.toNat (a + b) := by
    simp only [Accounting.saturatingAdd]
    omega
  rw [add, once, twice, add]
  simp [add, UInt64.add_assoc]

end Meter

inductive Phase
  /-- The first poll of a read. -/
  | poll
  | flush
  /-- The read after its first poll was pending. -/
  | parked
  | consume (bytes : List UInt8)
  | write (rest : List UInt8)
  /-- The lock of the idle tracker. -/
  | mark
  | shutdown
  | done

inductive Answer
  | pending
  | failed
  | accepted (count : Nat)

inductive Turn
  | poll (arrival : Arrival) (writer : Answer) (ready : Bool)
  | abort

structure PipeTask (σ : Type) where
  reader : σ
  phase : Phase := .poll
  unflushed : Bool := false
  counter : UInt64 := 0
  meter : Meter
  /-- Not in the source: the bytes read and the bytes written so far. -/
  read : List UInt8 := []
  written : List UInt8 := []
  /-- Not in the source: how many bytes were written when a flush last succeeded. -/
  flushed : Nat := 0
  /-- Not in the source: a read, a write or a flush has failed, or the task was aborted. -/
  broken : Bool := false

section Pipe

variable {σ : Type} (poll : Reader σ)

def PipeTask.fail (s : PipeTask σ) : PipeTask σ := { s with phase := .shutdown, broken := true }

def PipeTask.received (s : PipeTask σ) (bytes : List UInt8) : PipeTask σ :=
  if bytes = [] then { s with phase := .shutdown }
  else
    { s with
      counter := s.counter + UInt64.ofNat bytes.length
      meter := s.meter.add bytes.length
      read := s.read ++ bytes
      phase := .consume bytes }

def PipeTask.readWith (s : PipeTask σ) (arrival : Arrival) (waiting : Phase) : PipeTask σ :=
  match poll s.reader 4096 arrival with
  | (reader, .pending) => { s with reader, phase := waiting }
  | (reader, .failed) => { s with reader }.fail
  | (reader, .ready bytes) => { s with reader }.received bytes

/-- A writer that takes nothing fails `write_all`; one that claims more than it was given makes it panic. -/
def PipeTask.accept (s : PipeTask σ) (rest : List UInt8) (count : Nat) : PipeTask σ :=
  if count = 0 ∨ rest.length < count then s.fail
  else
    let s := { s with written := s.written ++ rest.take count }
    if count = rest.length then { s with unflushed := true, phase := .mark }
    else { s with phase := .write (rest.drop count) }

def PipeTask.turn (s : PipeTask σ) : Turn → PipeTask σ
  | .abort =>
    match s.phase with
    | .shutdown | .done => { s with phase := .done }
    | _ => { s with phase := .done, broken := true }
  | .poll arrival writer ready =>
    match s.phase, writer with
    | .poll, _ => s.readWith poll arrival (if s.unflushed then .flush else .parked)
    | .flush, .pending => s
    | .flush, .failed => s.fail
    | .flush, .accepted _ => { s with flushed := s.written.length, phase := .parked }
    | .parked, _ => s.readWith poll arrival .parked
    | .consume bytes, _ => if ready then { s with phase := .write bytes } else s
    | .write _, .pending => s
    | .write _, .failed => s.fail
    | .write rest, .accepted count => s.accept rest count
    | .mark, _ => if ready then { s with phase := .poll } else s
    | .shutdown, .pending => s
    | .shutdown, _ => { s with phase := .done }
    | .done, _ => s

def PipeTask.run (s : PipeTask σ) (turns : List Turn) : PipeTask σ := turns.foldl (PipeTask.turn poll) s

def Phase.outstanding : Phase → List UInt8
  | .consume bytes => bytes
  | .write rest => rest
  | _ => []

/-- The task against the stream of its reader: `written` is a front part of `read`, and `read` of the stream; unless
something failed, what is under way and what the reader still holds make up the rest. -/
structure PipeTask.Inv (poll : Reader σ) (content : σ → List UInt8) (stream : List UInt8) (counter : UInt64)
    (meter : Meter) (s : PipeTask σ) : Prop where
  front : s.written <+: s.read
  whole : s.broken = false → s.written ++ s.phase.outstanding = s.read
  source : s.read <+: stream
  rest : s.broken = false → s.read ++ content s.reader = stream
  ended : EndsLast poll content → s.broken = false → s.phase = .shutdown ∨ s.phase = .done → content s.reader = []
  counted : s.counter = counter + UInt64.ofNat s.read.length
  metered : s.meter = meter.add s.read.length
  flushed : s.flushed ≤ s.written.length
  parked : s.phase = .parked → s.flushed = s.written.length
  quiet : s.phase = .poll → s.unflushed = false → s.written = []
  marked : s.phase = .mark → s.unflushed = true
  running : s.broken = true → s.phase = .shutdown ∨ s.phase = .done

variable {poll} {content : σ → List UInt8} {stream : List UInt8} {counter : UInt64} {meter : Meter} {s : PipeTask σ}

theorem PipeTask.Inv.fail (inv : s.Inv poll content stream counter meter) (reader : σ) :
    ({ s with reader } : PipeTask σ).fail.Inv poll content stream counter meter :=
  ⟨inv.front, nofun, inv.source, nofun, fun _ => nofun, inv.counted, inv.metered, inv.flushed, nofun, nofun, nofun,
    fun _ => .inl rfl⟩

theorem PipeTask.Inv.sound (inv : s.Inv poll content stream counter meter)
    (active : s.phase ≠ .shutdown ∧ s.phase ≠ .done) : s.broken = false := by
  by_contra broken
  exact (inv.running ((Bool.not_eq_false _).mp broken)).elim active.1 active.2

theorem PipeTask.Inv.written_eq (inv : s.Inv poll content stream counter meter) (sound : s.broken = false)
    (idle : s.phase.outstanding = []) : s.written = s.read := by
  rw [← inv.whole sound, idle, List.append_nil]

theorem PipeTask.Inv.received (inv : s.Inv poll content stream counter meter) (whole : s.written = s.read)
    (sound : s.broken = false) {reader : σ} {bytes : List UInt8} (handed : content s.reader = bytes ++ content reader)
    (last : EndsLast poll content → bytes = [] → content s.reader = []) :
    (({ s with reader } : PipeTask σ).received bytes).Inv poll content stream counter meter := by
  have rest := inv.rest sound
  rw [handed, ← List.append_assoc] at rest
  unfold PipeTask.received
  split
  · next empty =>
    subst empty
    rw [List.append_nil] at rest
    exact ⟨inv.front, fun _ => (List.append_nil _).trans whole, inv.source, fun _ => rest,
      fun ends _ _ => handed.symm.trans (last ends rfl), inv.counted, inv.metered, inv.flushed, nofun, nofun, nofun,
      fun _ => .inl rfl⟩
  · refine ⟨inv.front.trans (List.prefix_append _ _), fun _ => congrArg (· ++ bytes) whole, ⟨_, rest⟩, fun _ => rest,
      fun _ _ => nofun, ?_, ?_, inv.flushed, nofun, nofun, nofun, fun broken => absurd (sound.symm.trans broken) nofun⟩
    · simp [inv.counted, UInt64.add_assoc]
    · simp [inv.metered, Meter.add_add]

theorem PipeTask.Inv.readWith (lawful : Lawful poll content) (inv : s.Inv poll content stream counter meter)
    (idle : s.phase.outstanding = []) (active : s.phase ≠ .shutdown ∧ s.phase ≠ .done) (arrival : Arrival)
    {waiting : Phase} (next : waiting = .flush ∨ waiting = .parked ∧ s.flushed = s.written.length) :
    (s.readWith poll arrival waiting).Inv poll content stream counter meter := by
  have sound := inv.sound active
  have whole := inv.written_eq sound idle
  unfold PipeTask.readWith
  rcases polled : poll s.reader 4096 arrival with ⟨reader, pending | bytes | failed⟩
  · refine ⟨inv.front, fun _ => ?_, inv.source, fun _ => lawful.pending polled ▸ inv.rest sound, ?_, inv.counted,
      inv.metered, inv.flushed, ?_, ?_, ?_, ?_⟩
    all_goals rcases next with rfl | ⟨rfl, flushed⟩ <;> simp_all [Phase.outstanding]
  · refine inv.received whole sound (lawful.ready polled) fun ends empty => ends (by decide) (empty ▸ polled)
  · exact inv.fail reader

theorem PipeTask.Inv.accept (inv : s.Inv poll content stream counter meter) {rest : List UInt8}
    (writing : s.phase = .write rest) (count : Nat) :
    (s.accept rest count).Inv poll content stream counter meter := by
  have sound := inv.sound (by rw [writing]; exact ⟨nofun, nofun⟩)
  have whole : s.written ++ rest = s.read := by
    have all := inv.whole sound
    rwa [writing] at all
  have split : s.written ++ rest.take count ++ rest.drop count = s.read := by
    rw [List.append_assoc, List.take_append_drop, whole]
  have front : s.written ++ rest.take count <+: s.read := ⟨_, split⟩
  have longer : s.flushed ≤ (s.written ++ rest.take count).length := by
    rw [List.length_append]
    exact Nat.le_add_right_of_le inv.flushed
  have broken : s.broken = true → False := by rw [sound]; nofun
  unfold PipeTask.accept
  split
  · exact inv.fail s.reader
  dsimp only
  split
  · next all =>
    refine ⟨front, fun _ => ?_, inv.source, inv.rest, fun _ _ => nofun, inv.counted, inv.metered, longer, nofun, nofun,
      fun _ => rfl, fun bad => (broken bad).elim⟩
    rw [all, List.drop_length] at split
    rwa [all]
  · exact ⟨front, fun _ => split, inv.source, inv.rest, fun _ _ => nofun, inv.counted, inv.metered, longer, nofun, nofun,
      nofun, fun bad => (broken bad).elim⟩

theorem PipeTask.Inv.goto (inv : s.Inv poll content stream counter meter) {next : Phase}
    (same : s.phase.outstanding = next.outstanding) (parked : next ≠ .parked) (marked : next ≠ .mark)
    (quiet : next = .poll → s.unflushed = true) (running : s.broken = true → next = .shutdown ∨ next = .done)
    (ended : next = .shutdown ∨ next = .done → s.phase = .shutdown ∨ s.phase = .done) :
    ({ s with phase := next } : PipeTask σ).Inv poll content stream counter meter :=
  ⟨inv.front, fun sound => same ▸ inv.whole sound, inv.source, inv.rest,
    fun ends sound left => inv.ended ends sound (ended left), inv.counted, inv.metered, inv.flushed,
    fun here => (parked here).elim, fun here flag => absurd ((quiet here).symm.trans flag) nofun,
    fun here => (marked here).elim, running⟩

theorem PipeTask.Inv.abort (inv : s.Inv poll content stream counter meter) :
    (s.turn poll .abort).Inv poll content stream counter meter := by
  have ends : s.phase.outstanding = [] → s.phase = .shutdown ∨ s.phase = .done →
      ({ s with phase := .done } : PipeTask σ).Inv poll content stream counter meter :=
    fun none left => inv.goto none nofun nofun nofun (fun _ => .inr rfl) fun _ => left
  simp only [PipeTask.turn]
  split
  · next phase => exact ends (by rw [phase]; rfl) (.inl phase)
  · next phase => exact ends (by rw [phase]; rfl) (.inr phase)
  · exact ⟨inv.front, nofun, inv.source, nofun, fun _ => nofun, inv.counted, inv.metered, inv.flushed, nofun, nofun,
      nofun, fun _ => .inr rfl⟩

/-- Every turn keeps the invariant; the cases are those of the phase and of the writer's answer. -/
theorem PipeTask.Inv.turn (lawful : Lawful poll content) (inv : s.Inv poll content stream counter meter)
    (turn : Turn) : (s.turn poll turn).Inv poll content stream counter meter := by
  cases turn with
  | abort => exact inv.abort
  | poll arrival writer ready =>
    simp only [PipeTask.turn]
    split
    · next phase =>
      refine inv.readWith lawful (by rw [phase]; rfl) (by rw [phase]; exact ⟨nofun, nofun⟩) arrival ?_
      by_cases unflushed : s.unflushed = true
      · exact .inl (if_pos unflushed)
      · -- Nothing was written yet.
        have none := inv.quiet phase ((Bool.not_eq_true _).mp unflushed)
        have flushed := inv.flushed
        rw [none] at flushed
        exact .inr ⟨if_neg unflushed, by rw [none]; exact Nat.le_zero.mp flushed⟩
    · exact inv
    · exact inv.fail s.reader
    · next phase =>
      have sound := inv.sound (by rw [phase]; exact ⟨nofun, nofun⟩)
      have whole := inv.whole sound
      rw [phase] at whole
      exact ⟨inv.front, fun _ => whole, inv.source, inv.rest, fun _ _ => nofun, inv.counted, inv.metered, Nat.le_refl _,
        fun _ => rfl, nofun, nofun, fun broken => absurd (sound.symm.trans broken) nofun⟩
    · next phase =>
      exact inv.readWith lawful (by rw [phase]; rfl) (by rw [phase]; exact ⟨nofun, nofun⟩) arrival
        (.inr ⟨rfl, inv.parked phase⟩)
    · next phase =>
      have sound := inv.sound (by rw [phase]; exact ⟨nofun, nofun⟩)
      split
      · exact inv.goto (by rw [phase]; rfl) nofun nofun nofun (fun broken => absurd (sound.symm.trans broken) nofun)
          nofun
      · exact inv
    · exact inv
    · exact inv.fail s.reader
    · next phase => exact inv.accept phase _
    · next phase =>
      have sound := inv.sound (by rw [phase]; exact ⟨nofun, nofun⟩)
      split
      · exact inv.goto (by rw [phase]; rfl) nofun nofun (fun _ => inv.marked phase)
          (fun broken => absurd (sound.symm.trans broken) nofun) nofun
      · exact inv
    · exact inv
    · next phase _ =>
      exact inv.goto (by rw [phase]; rfl) nofun nofun nofun (fun _ => .inr rfl) fun _ => .inl phase
    · exact inv

theorem PipeTask.Inv.run (lawful : Lawful poll content) (inv : s.Inv poll content stream counter meter)
    (turns : List Turn) : (s.run poll turns).Inv poll content stream counter meter := by
  induction turns generalizing s with
  | nil => exact inv
  | cons turn rest ih => exact ih (inv.turn lawful turn)

theorem inv_start (poll : Reader σ) (content : σ → List UInt8) (reader : σ) (counter : UInt64) (meter : Meter) :
    ({ reader, counter, meter } : PipeTask σ).Inv poll content (content reader) counter meter :=
  ⟨List.nil_prefix, fun _ => rfl, List.nil_prefix, fun _ => rfl, fun _ _ => nofun, (UInt64.add_zero _).symm,
    meter.add_zero.symm, Nat.le_refl _, nofun, fun _ _ => rfl, nofun, nofun⟩

theorem PipeTask.Inv.all_written (inv : s.Inv poll content stream counter meter) (ends : EndsLast poll content)
    (sound : s.broken = false) (done : s.phase = .done) : s.written = stream := by
  have rest := inv.rest sound
  rw [inv.ended ends sound (.inr done), List.append_nil] at rest
  exact (inv.written_eq sound (by rw [done]; rfl)).trans rest

/-- From the head of its loop the task can write all that its reader still holds, one chunk after the other. -/
theorem PipeTask.completes (lawful : Lawful poll content) (live : Live poll content) (s : PipeTask σ)
    (waiting : s.phase = .poll) : ∃ turns, (s.run poll turns).written = s.written ++ content s.reader := by
  induction left : (content s.reader).length using Nat.strong_induction_on generalizing s with
  | _ size ih =>
    by_cases empty : content s.reader = []
    · exact ⟨[], by rw [empty, List.append_nil]; rfl⟩
    · obtain ⟨next, bytes, polled, filled⟩ := live.progress s.reader 0 (show 0 < 4096 by decide) empty
      have handed := lawful.ready polled
      let chunk : List Turn := [.poll (.bytes 0) .pending true, .poll .quiet .pending true,
        .poll .quiet (.accepted bytes.length) true, .poll .quiet .pending true]
      have taken : s.run poll chunk =
          { s with
            reader := next, counter := s.counter + UInt64.ofNat bytes.length, meter := s.meter.add bytes.length
            read := s.read ++ bytes, written := s.written ++ bytes, unflushed := true, phase := .poll } := by
        simp [chunk, PipeTask.run, PipeTask.turn, waiting, PipeTask.readWith, polled, PipeTask.received, filled,
          PipeTask.accept]
      have shorter : (content next).length < size := by
        rw [← left, handed, List.length_append]
        exact Nat.lt_add_of_pos_left (List.length_pos_iff.mpr filled)
      obtain ⟨turns, written⟩ := ih _ shorter (s.run poll chunk) (by rw [taken]) (by rw [taken])
      refine ⟨chunk ++ turns, ?_⟩
      rw [PipeTask.run, List.foldl_append]
      refine written.trans ?_
      rw [taken, handed, List.append_assoc]

/-- For every behaviour of the reader, the writer and the scheduler: the bytes written are a front part of the bytes
read, which are a front part of what the reader held, and unless something failed only what is under way and what the
reader still holds is missing; the counter has counted the bytes read; a task that waits for a pending read has flushed
everything it has written; and a task at the head of its loop can go on to write everything. -/
theorem pipe_fidelity (lawful : Lawful poll content) (reader : σ) (counter : UInt64) (meter : Meter)
    (turns : List Turn) :
    let s := ({ reader, counter, meter } : PipeTask σ).run poll turns
    s.written <+: s.read ∧ s.read <+: content reader ∧
      (s.broken = false →
        s.written ++ s.phase.outstanding = s.read ∧ s.read ++ content s.reader = content reader ∧
          (EndsLast poll content → s.phase = .done → s.written = content reader)) ∧
      s.counter = counter + UInt64.ofNat s.read.length ∧ (s.phase = .parked → s.flushed = s.written.length) ∧
      (Live poll content → s.phase = .poll → ∃ more, (s.run poll more).written = content reader) := by
  have inv := (inv_start poll content reader counter meter).run lawful turns
  refine ⟨inv.front, inv.source, fun sound => ⟨inv.whole sound, inv.rest sound, fun ends => inv.all_written ends sound⟩,
    inv.counted, inv.parked, fun live waiting => ?_⟩
  obtain ⟨more, written⟩ := PipeTask.completes lawful live _ waiting
  have sound := inv.sound (by rw [waiting]; exact ⟨nofun, nofun⟩)
  exact ⟨more, by rw [written, inv.written_eq sound (by rw [waiting]; rfl), inv.rest sound]⟩

end Pipe

/-- Three bytes arrive in two reads; the first write is short. -/
def slowTurns : List Turn :=
  [.poll (.bytes 1) .pending true, .poll .quiet .pending true, .poll .quiet (.accepted 1) true, .poll .quiet .pending true,
    .poll .quiet (.accepted 1) true, .poll .quiet .pending true, .poll .quiet .pending true, .poll .quiet (.accepted 0) true,
    .poll (.bytes 5) .pending true, .poll .quiet .pending true, .poll .quiet (.accepted 1) true, .poll .quiet .pending true,
    .poll .closed .pending true, .poll .quiet (.accepted 0) true]

theorem pipe_fidelity_slow :
    let s := ({ reader := [1, 2, 3], meter := ⟨0, 0⟩ } : PipeTask (List UInt8)).run wire slowTurns
    s.phase = .done ∧ s.broken = false ∧ s.written = [1, 2, 3] :=
  have finished : _ ∧ _ := ⟨rfl, rfl⟩
  ⟨finished.1, finished.2, ((pipe_fidelity wire_lawful [1, 2, 3] 0 ⟨0, 0⟩ slowTurns).2.2.1 finished.2).2.2
    wire_endsLast finished.1⟩

end TlsProxy.Net
