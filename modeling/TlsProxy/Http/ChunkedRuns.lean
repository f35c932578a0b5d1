import TlsProxy.Http.Chunked

/-! A caller polls `ChunkedBodyReader` with buffers of its own sizes until the
reader reports the end of the stream or an error. -/
namespace TlsProxy.Http
open Text ByteSource

inductive BodyOutcome
  | done
  | malformed (message : Text)
  | truncated
  | failed
deriving DecidableEq

structure Reading (σ : Type) where
  output : List UInt8
  outcome : Option BodyOutcome
  rest : σ

/-- The polls of a caller, each with its buffer size and what the inner stream finds. A filled buffer is
nonempty, so an empty one with room left is the end of the stream. -/
def readBody {σ : Type} (poll : Reader σ) : ChunkedState → σ → List (Nat × Arrival) → Reading σ
  | _, s, [] => ⟨[], none, s⟩
  | state, s, (room, arrival) :: polls =>
    match pollBody poll state s room arrival with
    | (next, .pending) => readBody poll next.1 next.2 polls
    | (next, .ready bytes) =>
      if bytes = [] ∧ room ≠ 0 then ⟨[], some .done, next.2⟩
      else
        let later := readBody poll next.1 next.2 polls
        { later with output := bytes ++ later.output }
    | (next, .malformed message) => ⟨[], some (.malformed message), next.2⟩
    | (next, .truncated) => ⟨[], some .truncated, next.2⟩
    | (next, .failed) => ⟨[], some .failed, next.2⟩

def verdict : ChunkedState → List UInt8 → BodyOutcome
  | .done, _ => .done
  | _, [] => .truncated
  | state, b :: rest =>
    match advance state [b] with
    | .error message => .malformed message
    | .ok next => verdict next rest

section Reader

variable {σ : Type} {poll : Reader σ} {content : σ → List UInt8}

theorem feedAll_of_advance {state next : ChunkedState} {room : Nat} {filled : List UInt8}
    (open_ : state ≠ .done) (some : filled ≠ []) (fits : filled.length ≤ min (state.want room) 4096)
    (step : advance state filled = .ok next) : feedAll state filled = .ok next := by
  by_cases bulk : ∃ remaining positive, state = .data remaining positive
  · obtain ⟨remaining, positive, rfl⟩ := bulk
    simp only [ChunkedState.want] at fits
    rw [feedAll_data positive some (by omega)]
    exact step
  · obtain ⟨b, rfl⟩ := framing_read (fun r p same => bulk ⟨r, p, same⟩) some fits
    simp [feedAll, open_, step, Bind.bind, Except.bind]

theorem verdict_of_feedAll {state next : ChunkedState} {a : List UInt8} (fed : feedAll state a = .ok next)
    (rest : List UInt8) : verdict state (a ++ rest) = verdict next rest := by
  induction a generalizing state with
  | nil =>
    cases fed
    rfl
  | cons b more ih =>
    rw [feedAll] at fed
    split at fed
    · cases fed
    · rename_i open_
      cases step : advance state [b] with
      | error e => simp [step, Bind.bind, Except.bind] at fed
      | ok advanced =>
        rw [step] at fed
        have later := ih fed
        grind [verdict]

structure Agrees (content : σ → List UInt8) (state : ChunkedState) (bytes : List UInt8) (r : Reading σ) :
    Prop where
  front : r.output <+: deliverable state bytes
  final : ∀ o, r.outcome = some o → o ≠ .failed → r.output = deliverable state bytes ∧ o = verdict state bytes
  ended : r.outcome = some .done → bytes = r.output ++ content r.rest

theorem Agrees.after {state next : ChunkedState} {filled bytes : List UInt8} {r : Reading σ}
    (fed : feedAll state filled = .ok next) (later : Agrees content next bytes r) :
    Agrees content state (filled ++ bytes) { r with output := filled ++ r.output } := by
  have delivered := deliverable_of_feedAll_ok fed bytes
  constructor
  · rw [delivered]
    exact (List.prefix_append_right_inj filled).mpr later.front
  · grind [Agrees.final, verdict_of_feedAll]
  · grind [Agrees.ended]

theorem verdict_done (bytes : List UInt8) : verdict .done bytes = .done := by
  cases bytes <;> rfl

theorem verdict_nil {state : ChunkedState} (open_ : state ≠ .done) : verdict state [] = .truncated := by
  cases state with
  | done => exact absurd rfl open_
  | sizeLine | data | dataEnd | trailers => rfl

theorem rejected_read {state : ChunkedState} {room : Nat} {filled : List UInt8} {message : Text}
    (open_ : state ≠ .done) (some : filled ≠ []) (fits : filled.length ≤ min (state.want room) 4096)
    (step : advance state filled = .error message) (rest : List UInt8) :
    deliverable state (filled ++ rest) = [] ∧ verdict state (filled ++ rest) = .malformed message := by
  have framing : ∀ remaining positive, state ≠ .data remaining positive := by
    rintro remaining positive rfl
    cases step
  grind [framing_read, deliverable, verdict]

theorem readBody_agrees (lawful : Lawful poll content)
    (ends : ∀ {s next : σ} {want : Nat} {arrival : Arrival}, 0 < want →
      poll s want arrival = (next, .ready []) → content s = [])
    (state : ChunkedState) (s : σ) (polls : List (Nat × Arrival)) :
    Agrees content state (content s) (readBody poll state s polls) := by
  induction polls generalizing state s with
  | nil => exact ⟨List.nil_prefix, by simp [readBody], by simp [readBody]⟩
  | cons first polls ih =>
    obtain ⟨room, arrival⟩ := first
    cases pollBody_cases poll state s room arrival with
    | noRoom zero read =>
      subst zero
      simpa [readBody, read] using ih state s
    | ended positive done read =>
      subst done
      simp only [readBody, read, ne_eq, positive, not_false_eq_true, and_self, ↓reduceIte]
      refine ⟨List.nil_prefix, ?_, fun _ => rfl⟩
      grind [deliverable_done, verdict_done]
    | @pending next positive polled read =>
      simp only [readBody, read]
      rw [← lawful.pending polled]
      exact ih state next
    | failed polled read =>
      simp only [readBody, read]
      exact ⟨List.nil_prefix, by simp, by simp⟩
    | truncated positive open_ polled read =>
      simp only [readBody, read]
      rw [ends (want_pos state positive) polled]
      refine ⟨List.nil_prefix, ?_, by simp⟩
      intro o isOutcome _
      cases isOutcome
      exact ⟨by cases state <;> rfl, (verdict_nil open_).symm⟩
    | @rejected next filled message open_ polled some step read =>
      simp only [readBody, read]
      obtain ⟨delivered, verdict⟩ := rejected_read open_ some (lawful.bounded polled) step (content next)
      rw [lawful.ready polled]
      refine ⟨List.nil_prefix, ?_, by simp⟩
      grind
    | @advanced next filled after open_ polled some step read =>
      simp only [readBody, read, some, false_and, ↓reduceIte]
      rw [lawful.ready polled]
      exact (ih after next).after (feedAll_of_advance open_ some (lawful.bounded polled) step)

def bringsBytes (poll : Nat × Arrival) : Bool :=
  poll.1 != 0 && match poll.2 with
    | .bytes _ => true
    | _ => false

end Reader

theorem not_bringsBytes_of_pending {state : ChunkedState} {input next : List UInt8} {size : Nat} {arrival : Arrival}
    (positive : size ≠ 0) (left : input ≠ [])
    (polled : wire input (min (state.want size) 4096) arrival = (next, .pending)) :
    bringsBytes (size, arrival) = false := by
  cases arrival with
  | bytes more =>
    obtain ⟨_, bytes, ready, -⟩ := wire_progress more (want_pos state positive) left
    rw [ready] at polled
    cases polled
  | quiet | closed | failed => simp [bringsBytes]

theorem readBody_settles (state : ChunkedState) (input : List UInt8) (polls : List (Nat × Arrival)) (room : Nat)
    (sound : ∀ poll ∈ polls, poll.2 ≠ .failed) (enough : input.length ≤ (polls.filter bringsBytes).length) :
    ∃ o, (readBody wire state input (polls ++ [(room + 1, .closed)])).outcome = some o ∧ o ≠ .failed := by
  induction polls generalizing state input with
  | nil =>
    obtain rfl := List.eq_nil_of_length_eq_zero (Nat.le_zero.mp enough)
    cases pollBody_cases wire state [] (room + 1) .closed with
    | noRoom zero read => cases zero
    | ended positive done read => exact ⟨.done, by simp [readBody, read], by decide⟩
    | truncated positive open_ polled read => exact ⟨.truncated, by simp [readBody, read], by decide⟩
    | pending positive polled read => cases polled
    | failed polled read => cases polled
    | rejected open_ polled some step read =>
      cases polled
      exact absurd rfl some
    | advanced open_ polled some step read =>
      cases polled
      exact absurd rfl some
  | cons first polls ih =>
    obtain ⟨size, arrival⟩ := first
    have soundLater := fun poll member => sound poll (List.mem_cons_of_mem _ member)
    have counted : (((size, arrival) :: polls).filter bringsBytes).length ≤
        (polls.filter bringsBytes).length + 1 := by
      rw [List.filter_cons]
      split <;> simp
    cases pollBody_cases wire state input size arrival with
    | noRoom zero read =>
      subst zero
      rw [List.filter_cons_of_neg (by simp [bringsBytes])] at enough
      simpa [readBody, read] using ih state input soundLater enough
    | ended positive done read => exact ⟨.done, by simp [readBody, read, positive], by decide⟩
    | @pending next positive polled read =>
      obtain rfl : next = input := wire_lawful.pending polled
      have later : next.length ≤ (polls.filter bringsBytes).length := by grind [not_bringsBytes_of_pending]
      simpa [readBody, read] using ih state next soundLater later
    | failed polled read => exact absurd (wire_failed polled) (sound _ List.mem_cons_self)
    | truncated positive open_ polled read => exact ⟨.truncated, by simp [readBody, read], by decide⟩
    | @rejected next filled message open_ polled some step read =>
      exact ⟨.malformed message, by simp [readBody, read], by simp⟩
    | @advanced next filled after open_ polled some step read =>
      have whole : input = filled ++ next := wire_lawful.ready polled
      have shorter : next.length < input.length := by
        have := List.length_pos_iff.mpr some
        grind
      have later := ih after next soundLater (by omega)
      simpa [readBody, read, some] using later

theorem readBody_complete (state : ChunkedState) (input : List UInt8) (polls : List (Nat × Arrival)) (room : Nat)
    (sound : ∀ poll ∈ polls, poll.2 ≠ .failed) (enough : input.length ≤ (polls.filter bringsBytes).length) :
    (readBody wire state input (polls ++ [(room + 1, .closed)])).outcome = some (verdict state input) := by
  obtain ⟨o, outcome, real⟩ := readBody_settles state input polls room sound enough
  have agrees := readBody_agrees wire_lawful wire_ready_nil state input (polls ++ [(room + 1, .closed)])
  rw [outcome, (agrees.final o outcome real).2]
  rfl

/-- What is still to come from a state up to the end of the message. -/
def Completes : ChunkedState → List UInt8 → Prop
  | .sizeLine line, bytes =>
    lf ∉ line → line.length ≤ maxChunkLine → ChunkedBody maxChunkLine maxTrailerBytes (line ++ bytes)
  | .data remaining _, bytes =>
    ∃ payload ending rest, bytes = payload ++ (ending ++ rest) ∧ payload.length = remaining ∧
      (ending = [lf] ∨ ending = [cr, lf]) ∧ ChunkedBody maxChunkLine maxTrailerBytes rest
  | .dataEnd seenCr, bytes =>
    ∃ ending rest, bytes = ending ++ rest ∧ (ending = [lf] ∨ seenCr = false ∧ ending = [cr, lf]) ∧
      ChunkedBody maxChunkLine maxTrailerBytes rest
  | .trailers line consumed, bytes =>
    lf ∉ line → Trailers (line ++ bytes) ∧ consumed + bytes.length ≤ maxTrailerBytes
  | .done, bytes => bytes = []

section Completes

variable {next : ChunkedState} {b : UInt8} {rest : List UInt8}

theorem Completes.sizeLine_cons {line : List UInt8} (step : advance (.sizeLine line) [b] = .ok next)
    (later : Completes next rest) : Completes (.sizeLine line) (b :: rest) := by
  intro clean short
  by_cases isLf : b = lf
  · subst isLf
    cases size : chunkSize line with
    | error e => simp [advance, size] at step
    | ok n =>
      by_cases positive : 0 < n
      · simp only [advance, List.headD_cons, ↓reduceIte, size, positive, ↓reduceDIte, Except.ok.injEq] at step
        subst step
        obtain ⟨payload, ending, more, rfl, length, terminated, body⟩ := later
        exact .chunk clean short (by omega) (by rw [size, length]) terminated body
      · simp only [advance, List.headD_cons, ↓reduceIte, size, positive, ↓reduceDIte, Except.ok.injEq] at step
        subst step
        obtain rfl : n = 0 := by omega
        obtain ⟨section_, fits⟩ := later List.not_mem_nil
        exact .last clean short size section_ (by omega)
  · by_cases full : line.length ≥ maxChunkLine
    · simp [advance, isLf, full] at step
    · simp only [advance, List.headD_cons, isLf, full, ↓reduceIte, Except.ok.injEq] at step
      subst step
      have body := later (by simp [clean, eq_comm, isLf]) (by simp; omega)
      rwa [List.append_assoc] at body

theorem Completes.data_cons {remaining : Nat} {positive : 0 < remaining}
    (step : advance (.data remaining positive) [b] = .ok next) (later : Completes next rest) :
    Completes (.data remaining positive) (b :: rest) := by
  simp only [advance, List.length_singleton, Except.ok.injEq, ChunkedState.dataOf] at step
  by_cases more : 0 < remaining - 1
  · simp only [more, ↓reduceDIte] at step
    subst step
    obtain ⟨payload, ending, after, rfl, length, terminated, body⟩ := later
    exact ⟨b :: payload, ending, after, rfl, by rw [List.length_cons]; omega, terminated, body⟩
  · simp only [more, ↓reduceDIte] at step
    subst step
    obtain ⟨ending, after, rfl, terminated, body⟩ := later
    refine ⟨[b], ending, after, rfl, by rw [List.length_singleton]; omega, ?_, body⟩
    simpa using terminated

theorem Completes.dataEnd_cons {seenCr : Bool} (step : advance (.dataEnd seenCr) [b] = .ok next)
    (later : Completes next rest) : Completes (.dataEnd seenCr) (b :: rest) := by
  by_cases isCr : b = cr ∧ seenCr = false
  · simp only [advance, List.headD_cons, isCr, and_self, ↓reduceIte, Except.ok.injEq] at step
    subst step
    obtain ⟨ending, after, rfl, terminated, body⟩ := later
    obtain rfl : ending = [lf] := by simpa using terminated
    exact ⟨[cr, lf], after, by rw [isCr.1]; rfl, .inr ⟨isCr.2, rfl⟩, body⟩
  · by_cases isLf : b = lf
    · subst isLf
      simp only [advance, List.headD_cons, isCr, ↓reduceIte, Except.ok.injEq] at step
      subst step
      exact ⟨[lf], rest, rfl, .inl rfl, later List.not_mem_nil (Nat.zero_le _)⟩
    · simp [advance, isCr, isLf] at step

theorem Completes.trailers_cons {line : List UInt8} {consumed : Nat}
    (step : advance (.trailers line consumed) [b] = .ok next) (later : Completes next rest) :
    Completes (.trailers line consumed) (b :: rest) := by
  intro clean
  by_cases full : consumed + 1 > maxTrailerBytes
  · simp [advance, full] at step
  · by_cases isLf : b = lf
    · subst isLf
      by_cases blank : line.all (· == cr) = true ∧ line.length ≤ 1
      · simp only [advance, List.headD_cons, full, blank, and_self, ↓reduceIte, Except.ok.injEq] at step
        subst step
        obtain rfl : rest = [] := later
        exact ⟨.blank ((blankLine_iff line).mp blank), by simp; omega⟩
      · simp only [advance, List.headD_cons, full, blank, ↓reduceIte, Except.ok.injEq] at step
        subst step
        obtain ⟨section_, fits⟩ := later List.not_mem_nil
        exact ⟨.field clean (mt (blankLine_iff line).mpr blank) section_, by rw [List.length_cons]; omega⟩
    · simp only [advance, List.headD_cons, full, isLf, ↓reduceIte, Except.ok.injEq] at step
      subst step
      obtain ⟨section_, fits⟩ := later (by simp [clean, eq_comm, isLf])
      grind

theorem Completes.cons {state : ChunkedState} (open_ : state ≠ .done) (step : advance state [b] = .ok next)
    (later : Completes next rest) : Completes state (b :: rest) := by
  cases state with
  | sizeLine line => exact .sizeLine_cons step later
  | data remaining positive => exact .data_cons step later
  | dataEnd seenCr => exact .dataEnd_cons step later
  | trailers line consumed => exact .trailers_cons step later
  | done => exact absurd rfl open_

end Completes

theorem completes_of_feedAll {state : ChunkedState} {bytes : List UInt8} (fed : feedAll state bytes = .ok .done) :
    Completes state bytes := by
  induction bytes generalizing state with
  | nil =>
    cases fed
    exact rfl
  | cons b rest ih =>
    rw [feedAll] at fed
    split at fed
    · cases fed
    · rename_i open_
      cases step : advance state [b] with
      | error e => simp [step, Bind.bind, Except.bind] at fed
      | ok next =>
        rw [step] at fed
        exact .cons open_ step (ih fed)

theorem feedAll_done_iff {body : List UInt8} :
    feedAll .start body = .ok .done ↔ ChunkedBody maxChunkLine maxTrailerBytes body :=
  ⟨fun fed => completes_of_feedAll fed List.not_mem_nil (Nat.zero_le _), feedAll_within⟩

theorem verdict_done_iff (state : ChunkedState) (bytes : List UInt8) :
    verdict state bytes = .done ↔ ∃ body later, bytes = body ++ later ∧ feedAll state body = .ok .done := by
  constructor
  · intro ended
    induction bytes generalizing state with
    | nil =>
      by_cases isDone : state = .done
      · exact ⟨[], [], rfl, by rw [isDone]; rfl⟩
      · grind [verdict_nil]
    | cons b rest ih =>
      by_cases isDone : state = .done
      · exact ⟨[], b :: rest, rfl, by rw [isDone]; rfl⟩
      · cases step : advance state [b] with
        | error message => grind [verdict]
        | ok next =>
          have fed : feedAll state [b] = .ok next := by
            simp [feedAll, isDone, step, Bind.bind, Except.bind]
          have same : verdict state (b :: rest) = verdict next rest := verdict_of_feedAll fed rest
          obtain ⟨body, later, rfl, more⟩ := ih next (same ▸ ended)
          refine ⟨b :: body, later, rfl, ?_⟩
          simpa [feedAll, isDone, step, Bind.bind, Except.bind] using more
  · rintro ⟨body, later, rfl, fed⟩
    rw [verdict_of_feedAll fed, verdict_done]

theorem body_unique {body other later : List UInt8} (fed : feedAll .start body = .ok .done)
    (isPrefix : other <+: body ++ later) (complete : ChunkedBody maxChunkLine maxTrailerBytes other) :
    other = body := by
  obtain ⟨tail, whole⟩ := isPrefix
  have first : deliverable .start (body ++ later) = body := deliverable_within (feedAll_done_iff.mp fed) later
  grind [deliverable_within]

/-- The polls of the caller and of the inner stream do not matter: what is delivered is a front part of the
input, it and the outcome are functions of the input, and the stream ends exactly after the first complete
message, with nothing after it consumed. -/
theorem readBody_correct (input : List UInt8) (polls : List (Nat × Arrival)) :
    let r := readBody wire .start input polls
    r.output <+: input ∧
    (∀ o, r.outcome = some o → o ≠ .failed →
      o = verdict .start input ∧ r.output = deliverable .start input) ∧
    (verdict .start input = .done ↔ ∃ body, body <+: input ∧ ChunkedBody maxChunkLine maxTrailerBytes body) ∧
    (r.outcome = some .done →
      ChunkedBody maxChunkLine maxTrailerBytes r.output ∧ input = r.output ++ r.rest ∧
      ∀ body, body <+: input → ChunkedBody maxChunkLine maxTrailerBytes body → body = r.output) ∧
    (∀ room, (∀ poll ∈ polls, poll.2 ≠ .failed) → input.length ≤ (polls.filter bringsBytes).length →
      (readBody wire .start input (polls ++ [(room + 1, .closed)])).outcome = some (verdict .start input)) := by
  intro r
  have agrees : Agrees id .start input r := readBody_agrees wire_lawful wire_ready_nil .start input polls
  refine ⟨agrees.front.trans (deliverable_isPrefix _ _), ?_, ?_, ?_, ?_⟩
  · grind [Agrees.final]
  · rw [verdict_done_iff]
    constructor
    · rintro ⟨body, later, rfl, fed⟩
      exact ⟨body, List.prefix_append body later, feedAll_done_iff.mp fed⟩
    · rintro ⟨body, ⟨later, rfl⟩, complete⟩
      grind [feedAll_within]
  · intro ended
    obtain ⟨output, same⟩ := agrees.final .done ended (by decide)
    obtain ⟨body, later, whole, fed⟩ := (verdict_done_iff .start input).mp same.symm
    have isBody : r.output = body := by
      rw [output, whole]
      exact deliverable_within (feedAll_done_iff.mp fed) later
    refine ⟨isBody ▸ feedAll_done_iff.mp fed, agrees.ended ended, ?_⟩
    grind [body_unique]
  · grind [readBody_complete]

/-- A pipelined request stays behind the message, also for a caller that reads in pieces. -/
theorem readBody_correct_pipelined :
    let input := Utf8.encode "2\r\nab\r\n0\r\n\r\nGET".toList
    (readBody wire .start input (List.replicate 15 (2, .bytes 0) ++ [(1, .closed)])).outcome = some .done := by
  intro input
  have settled := (readBody_correct input (List.replicate 15 (2, .bytes 0))).2.2.2.2 0
    (by simp) (by decide +kernel)
  rw [settled]
  decide +kernel

end TlsProxy.Http
