import TlsProxy.Lib.ByteSource

/-! `conn_stream.rs` and the upload direction of `relay.rs`. -/
namespace TlsProxy.Net
open ByteSource

structure ConnStream (σ : Type) where
  inner : σ
  pushback : List UInt8 := []
  pushbackOffset : Nat := 0

namespace ConnStream

variable {σ : Type} {poll : Reader σ} {content : σ → List UInt8}

def pollRead (poll : Reader σ) : Reader (ConnStream σ) := fun s room arrival =>
  if s.pushbackOffset < s.pushback.length then
    let available := s.pushback.drop s.pushbackOffset
    let count := min available.length room
    let offset := s.pushbackOffset + count
    if offset = s.pushback.length then
      ({ s with pushback := [], pushbackOffset := 0 }, .ready (available.take count))
    else ({ s with pushbackOffset := offset }, .ready (available.take count))
  else ({ s with inner := (poll s.inner room arrival).1 }, (poll s.inner room arrival).2)

def unread (s : ConnStream σ) (bytes : List UInt8) : ConnStream σ :=
  if bytes = [] then s
  else { s with pushback := bytes ++ s.pushback.drop s.pushbackOffset, pushbackOffset := 0 }

def pristine (content : σ → List UInt8) (s : ConnStream σ) : List UInt8 :=
  s.pushback.drop s.pushbackOffset ++ content s.inner

theorem pristine_unread (s : ConnStream σ) (bytes : List UInt8) :
    pristine content (s.unread bytes) = bytes ++ pristine content s := by
  unfold unread
  grind [pristine]

theorem pollRead_cases (poll : Reader σ) (s : ConnStream σ) (room : Nat) (arrival : Arrival) :
    (∃ next count, pollRead poll s room arrival =
        (next, .ready ((s.pushback.drop s.pushbackOffset).take count)) ∧ next.inner = s.inner ∧
      count ≤ room ∧ (0 < room → 0 < count) ∧ s.pushback.drop s.pushbackOffset ≠ [] ∧
      next.pushback.drop next.pushbackOffset = (s.pushback.drop s.pushbackOffset).drop count) ∨
    (s.pushback.drop s.pushbackOffset = [] ∧ pollRead poll s room arrival =
      ({ s with inner := (poll s.inner room arrival).1 }, (poll s.inner room arrival).2)) := by
  by_cases left : s.pushbackOffset < s.pushback.length
  · have size : (s.pushback.drop s.pushbackOffset).length = s.pushback.length - s.pushbackOffset :=
      List.length_drop
    have filled : s.pushback.drop s.pushbackOffset ≠ [] := by grind
    by_cases last : s.pushbackOffset + min (s.pushback.drop s.pushbackOffset).length room = s.pushback.length
    · refine .inl ⟨{ s with pushback := [], pushbackOffset := 0 },
        min (s.pushback.drop s.pushbackOffset).length room, ?_, rfl, Nat.min_le_right _ _, by omega, filled, ?_⟩
      · grind [pollRead]
      · rw [List.drop_drop, last]
        simp
    · grind [pollRead, List.drop_drop]
  · grind [List.drop_eq_nil_of_le, pollRead]

theorem pollRead_lawful (lawful : Lawful poll content) :
    Lawful (pollRead poll) (pristine content) where
  ready := by
    intro s next room arrival bytes h
    rcases pollRead_cases poll s room arrival with
      ⟨served, count, read, inner, -, -, -, left⟩ | ⟨empty, read⟩
    · grind [pristine, List.take_append_drop]
    · rw [read, Prod.mk.injEq] at h
      obtain ⟨rfl, polled⟩ := h
      simp only [pristine, empty, List.nil_append]
      exact lawful.ready (Prod.ext rfl polled)
  bounded := by
    intro s next room arrival bytes h
    rcases pollRead_cases poll s room arrival with ⟨served, count, read, -, fits, -, -⟩ | ⟨-, read⟩
    · grind
    · rw [read, Prod.mk.injEq] at h
      exact lawful.bounded (Prod.ext rfl h.2)
  pending := by
    intro s next room arrival h
    rcases pollRead_cases poll s room arrival with ⟨served, count, read, -⟩ | ⟨empty, read⟩
    · grind
    · rw [read, Prod.mk.injEq] at h
      obtain ⟨rfl, polled⟩ := h
      simp only [pristine, empty, List.nil_append]
      exact lawful.pending (Prod.ext rfl polled)

theorem pollRead_live (live : Live poll content) : Live (pollRead poll) (pristine content) where
  progress := by
    intro s room more positive left
    rcases pollRead_cases poll s room (.bytes more) with
      ⟨served, count, read, -, -, some, filled, -⟩ | ⟨empty, read⟩
    · refine ⟨served, _, read, ?_⟩
      simp only [ne_eq, List.take_eq_nil_iff, filled, or_false]
      have := some positive
      omega
    · rw [pristine, empty, List.nil_append] at left
      obtain ⟨next, bytes, polled, some⟩ := live.progress s.inner more positive left
      grind
  alive := by
    intro s room arrival positive left sound
    rcases pollRead_cases poll s room arrival with
      ⟨served, count, read, -, -, some, filled, -⟩ | ⟨empty, read⟩
    · refine .inr ⟨served, _, read, ?_⟩
      simp only [ne_eq, List.take_eq_nil_iff, filled, or_false]
      have := some positive
      omega
    · rw [pristine, empty, List.nil_append] at left
      rcases live.alive s.inner arrival positive left sound with
        ⟨next, polled⟩ | ⟨next, bytes, polled, some⟩
      · exact .inl ⟨_, by rw [read, polled]⟩
      · grind

end ConnStream

/-- One event of the relay: a poll of the reader with the outcome of the flush
and of the write it may cause, or the abort of the task. -/
inductive RelayEvent
  | poll (arrival : Arrival) (flushed : Bool) (writeFails : Option Nat)
  | abort
deriving DecidableEq

structure PipeState (σ : Type) where
  reader : σ
  written : List UInt8
  unflushed : Bool := false
  parked : Bool := false
  stopped : Bool := false

section Pipe

variable {σ : Type} (poll : Reader σ)

/-- One event of the loop in `pipe`. The writer is flushed at the first pending
poll of a read, and the loop ends on a failed read, write or flush, or at the end of the stream. -/
def pipeStep (s : PipeState σ) : RelayEvent → PipeState σ
  | .abort => { s with stopped := true }
  | .poll arrival flushed writeFails =>
    if s.stopped then s
    else
      match poll s.reader 4096 arrival with
      | (reader, .pending) =>
        { s with reader, parked := true, stopped := !s.parked && s.unflushed && !flushed }
      | (reader, .failed) => { s with reader, stopped := true }
      | (reader, .ready bytes) =>
        if bytes = [] then { s with reader, stopped := true }
        else
          match writeFails with
          | some accepted =>
            { s with reader, written := s.written ++ bytes.take accepted, stopped := true }
          | none =>
            { s with reader, written := s.written ++ bytes, unflushed := true, parked := false }

def pipe (s : PipeState σ) (events : List RelayEvent) : PipeState σ := events.foldl (pipeStep poll) s

variable {poll} {content : σ → List UInt8}

theorem pipeStep_cases (lawful : Lawful poll content) (s : PipeState σ) (event : RelayEvent) :
    ((pipeStep poll s event).written = s.written ∧
      ((pipeStep poll s event).stopped = true ∨
        content (pipeStep poll s event).reader = content s.reader)) ∨
    (∃ bytes rest, content s.reader = bytes ++ rest ∧
      (pipeStep poll s event).written = s.written ++ bytes ∧
      ((pipeStep poll s event).stopped = true ∨ content (pipeStep poll s event).reader = rest)) := by
  cases event with
  | abort => exact .inl ⟨rfl, .inl rfl⟩
  | poll arrival flushed writeFails =>
    by_cases stopped : s.stopped = true
    · exact .inl (by simp [pipeStep, stopped])
    · cases polled : poll s.reader 4096 arrival with
      | mk reader result =>
        cases result with
        | pending =>
          refine .inl ⟨by simp [pipeStep, stopped, polled], .inr ?_⟩
          simp only [pipeStep, stopped, polled]
          exact lawful.pending polled
        | failed => grind [pipeStep]
        | ready bytes =>
          have split := lawful.ready polled
          by_cases empty : bytes = []
          · grind [pipeStep]
          · cases writeFails with
            | none => grind [pipeStep]
            | some accepted => grind [List.take_append_drop, pipeStep]

theorem pipeStep_stopped (poll : Reader σ) {s : PipeState σ} (stopped : s.stopped = true) (event : RelayEvent) :
    (pipeStep poll s event).stopped = true ∧ (pipeStep poll s event).written = s.written := by
  cases event <;> simp [pipeStep, stopped]

theorem pipe_stopped {s : PipeState σ} (stopped : s.stopped = true) (events : List RelayEvent) :
    (pipe poll s events).written = s.written := by
  induction events generalizing s with
  | nil => rfl
  | cons event rest ih =>
    obtain ⟨still, same⟩ := pipeStep_stopped poll stopped event
    exact (ih still).trans same

theorem pipe_written (lawful : Lawful poll content) (s : PipeState σ) (events : List RelayEvent) :
    ∃ bytes, (pipe poll s events).written = s.written ++ bytes ∧ bytes <+: content s.reader := by
  induction events generalizing s with
  | nil => exact ⟨[], (List.append_nil _).symm, List.nil_prefix⟩
  | cons event rest ih =>
    obtain ⟨later, written, part⟩ := ih (pipeStep poll s event)
    have whole : (pipe poll s (event :: rest)).written = (pipe poll (pipeStep poll s event) rest).written := rfl
    rcases pipeStep_cases lawful s event with ⟨same, outcome⟩ | ⟨bytes, left, split, more, outcome⟩
    · rcases outcome with stopped | content_
      · refine ⟨[], ?_, List.nil_prefix⟩
        grind [pipe_stopped]
      · grind
    · rcases outcome with stopped | content_
      · grind [pipe_stopped]
      · grind [List.prefix_append_right_inj]

def RelayEvent.Sound : RelayEvent → Prop
  | .poll arrival flushed writeFails => arrival ≠ .failed ∧ flushed = true ∧ writeFails = none
  | .abort => False

def RelayEvent.brings : RelayEvent → Bool
  | .poll (.bytes _) _ _ => true
  | _ => false

theorem pipeStep_sound (lawful : Lawful poll content) (live : Live poll content) {s : PipeState σ}
    {event : RelayEvent} (running : s.stopped = false) (sound : event.Sound)
    (left : content s.reader ≠ []) :
    (pipeStep poll s event).stopped = false ∧
      ∃ bytes, (pipeStep poll s event).written = s.written ++ bytes ∧
        content s.reader = bytes ++ content (pipeStep poll s event).reader ∧
        (event.brings = true → bytes ≠ []) := by
  cases event with
  | abort => exact absurd sound id
  | poll arrival flushed writeFails =>
    obtain ⟨noFailure, rfl, rfl⟩ := sound
    rcases live.alive s.reader arrival (by decide : 0 < 4096) left noFailure with
      ⟨next, polled⟩ | ⟨next, bytes, polled, some⟩
    · refine ⟨by simp [pipeStep, running, polled], [], by simp [pipeStep, running, polled], ?_, ?_⟩
      · simp only [pipeStep, running, polled]
        exact (lawful.pending polled).symm
      · intro brings
        cases arrival with
        | bytes more =>
          obtain ⟨next', bytes', polled', -⟩ := live.progress s.reader more (by decide : 0 < 4096) left
          grind
        | quiet | closed | failed => exact absurd brings (by simp [RelayEvent.brings])
    · refine ⟨by simp [pipeStep, running, polled, some], bytes, by simp [pipeStep, running, polled, some],
        ?_, fun _ => some⟩
      simp only [pipeStep, running, polled, some]
      exact lawful.ready polled

/-- With enough arriving bytes and no failure the pipe writes everything its reader hands out. -/
theorem pipe_complete (lawful : Lawful poll content) (live : Live poll content) (s : PipeState σ)
    (events : List RelayEvent) (running : s.stopped = false) (sound : ∀ event ∈ events, event.Sound)
    (enough : (content s.reader).length ≤ (events.filter RelayEvent.brings).length) :
    (pipe poll s events).written = s.written ++ content s.reader := by
  induction events generalizing s with
  | nil =>
    rw [List.filter_nil, List.length_nil, Nat.le_zero, List.length_eq_zero_iff] at enough
    rw [enough, List.append_nil]
    rfl
  | cons event rest ih =>
    by_cases left : content s.reader = []
    · obtain ⟨bytes, written, part⟩ := pipe_written lawful s (event :: rest)
      grind
    · obtain ⟨running', bytes, written, split, progress⟩ :=
        pipeStep_sound lawful live running (sound event List.mem_cons_self) left
      have whole : (pipe poll s (event :: rest)).written =
          (pipe poll (pipeStep poll s event) rest).written := rfl
      have enough' : (content (pipeStep poll s event).reader).length ≤
          (rest.filter RelayEvent.brings).length := by
        rw [split, List.length_append] at enough
        by_cases brings : event.brings = true
        · grind [List.length_pos_of_ne_nil]
        · grind
      grind

end Pipe

end TlsProxy.Net
