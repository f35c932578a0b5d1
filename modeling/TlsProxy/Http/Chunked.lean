import TlsProxy.Http.Head
import TlsProxy.Lib.ByteSource

/-! `ChunkedBodyReader` passes a chunked body through while it tracks the framing,
and ends exactly at the end of the message. -/
namespace TlsProxy.Http
open Text ByteSource

def maxChunkLine : Nat := 256

def maxTrailerBytes : Nat := 16 * 1024

inductive ChunkedState
  | sizeLine (line : List UInt8)
  | data (remaining : Nat) (positive : 0 < remaining)
  | dataEnd (seenCr : Bool)
  | trailers (line : List UInt8) (consumed : Nat)
  | done
deriving DecidableEq

namespace ChunkedState

def start : ChunkedState := .sizeLine []

def dataOf (remaining : Nat) : ChunkedState :=
  if positive : 0 < remaining then .data remaining positive else .dataEnd false

end ChunkedState

def chunkSize (line : List UInt8) : Except Text Nat :=
  match Utf8.decode line with
  | none => .error "chunk size line is not UTF-8".toList
  | some text =>
    let sizeText := trim (((trimEndMatches (· == '\r') text).splitOn ';').headD [])
    match fromStrRadix 16 UInt64.size sizeText with
    | none => .error "invalid chunk size".toList
    | some size => .ok size

theorem chunkSize_encode {text : Text} {size : Nat}
    (parsed : fromStrRadix 16 UInt64.size
      (trim (((trimEndMatches (· == '\r') text).splitOn ';').headD [])) = some size) :
    chunkSize (Utf8.encode text) = .ok size := by
  simp only [chunkSize, Utf8.decode_encode, parsed]

/-- The state after a nonempty read; framing states read one byte at a time. -/
def advance : ChunkedState → List UInt8 → Except Text ChunkedState
  | .sizeLine line, filled =>
    let byte := filled.headD 0
    if byte = lf then
      match chunkSize line with
      | .error e => .error e
      | .ok size => .ok (if positive : 0 < size then .data size positive else .trailers [] 0)
    else if line.length ≥ maxChunkLine then .error "chunk size line too long".toList
    else .ok (.sizeLine (line ++ [byte]))
  | .data remaining _, filled => .ok (ChunkedState.dataOf (remaining - filled.length))
  | .dataEnd seenCr, filled =>
    let byte := filled.headD 0
    if byte = cr ∧ seenCr = false then .ok (.dataEnd true)
    else if byte = lf then .ok .start
    else .error "chunk data is not terminated by CRLF".toList
  | .trailers line consumed, filled =>
    let byte := filled.headD 0
    if consumed + 1 > maxTrailerBytes then .error "chunked trailers too long".toList
    else if byte = lf then
      if (line.all (· == cr)) ∧ line.length ≤ 1 then .ok .done
      else .ok (.trailers [] (consumed + 1))
    else .ok (.trailers (line ++ [byte]) (consumed + 1))
  | .done, _ => .ok .done

/-- How many bytes the reader asks for; framing lines advance one byte at a time. -/
def ChunkedState.want : ChunkedState → Nat → Nat
  | .data remaining _, room => min remaining room
  | _, _ => 1

/-- What one poll reports: the kinds of error are told apart. -/
inductive BodyRead
  | pending
  | ready (bytes : List UInt8)
  | malformed (message : Text)
  | truncated
  | failed
deriving DecidableEq

def BodyRead.toPoll : BodyRead → Poll
  | .pending => .pending
  | .ready bytes => .ready bytes
  | .malformed _ | .truncated | .failed => .failed

def pollBody {σ : Type} (poll : Reader σ) (state : ChunkedState) (s : σ) (room : Nat) (arrival : Arrival) :
    (ChunkedState × σ) × BodyRead :=
  if room = 0 ∨ state = .done then ((state, s), .ready [])
  else
    match poll s (min (state.want room) 4096) arrival with
    | (next, .pending) => ((state, next), .pending)
    | (next, .failed) => ((state, next), .failed)
    | (next, .ready filled) =>
      if filled = [] then ((state, next), .truncated)
      else
        match advance state filled with
        | .error message => ((state, next), .malformed message)
        | .ok state => ((state, next), .ready filled)

def chunkedBodyReader {σ : Type} (poll : Reader σ) : Reader (ChunkedState × σ) := fun s room arrival =>
  ((pollBody poll s.1 s.2 room arrival).1, (pollBody poll s.1 s.2 room arrival).2.toPoll)

def deliverable : ChunkedState → List UInt8 → List UInt8
  | _, [] => []
  | state, b :: rest =>
    if state = .done then []
    else
      match advance state [b] with
      | .error _ => []
      | .ok next => b :: deliverable next rest

theorem deliverable_done (bytes : List UInt8) : deliverable .done bytes = [] := by
  cases bytes <;> simp [deliverable]

theorem deliverable_isPrefix (state : ChunkedState) (bytes : List UInt8) :
    deliverable state bytes <+: bytes := by
  induction bytes generalizing state with
  | nil => exact List.prefix_rfl
  | cons b rest ih =>
    unfold deliverable
    grind

theorem deliverable_cons {state next : ChunkedState} {b : UInt8} (open_ : state ≠ .done)
    (step : advance state [b] = .ok next) (rest : List UInt8) :
    deliverable state (b :: rest) = b :: deliverable next rest := by grind [deliverable]

theorem deliverable_data {remaining : Nat} (positive : 0 < remaining) {filled : List UInt8}
    (some : filled ≠ []) (fits : filled.length ≤ remaining) (rest : List UInt8) :
    deliverable (.data remaining positive) (filled ++ rest) =
      filled ++ deliverable (ChunkedState.dataOf (remaining - filled.length)) rest := by
  induction filled generalizing remaining with
  | nil => exact absurd rfl some
  | cons b more ih =>
    rw [List.cons_append, deliverable_cons (by simp) rfl, List.cons_append]
    congr 1
    simp only [List.length_cons, List.length_nil] at fits ⊢
    cases more with
    | nil => rfl
    | cons c others =>
      have left : 0 < remaining - 1 := by grind
      have state : ChunkedState.dataOf (remaining - (0 + 1)) = .data (remaining - 1) left := by
        simp [ChunkedState.dataOf, left]
      grind

section Reader

variable {σ : Type} {poll : Reader σ} {content : σ → List UInt8}

theorem want_le {state : ChunkedState} {room : Nat} (positive : room ≠ 0) :
    min (state.want room) 4096 ≤ room := by
  cases state <;> simp only [ChunkedState.want] <;> omega

theorem want_pos (state : ChunkedState) {room : Nat} (positive : room ≠ 0) :
    0 < min (state.want room) 4096 := by
  cases state with
  | data remaining filled => simp only [ChunkedState.want]; omega
  | sizeLine | dataEnd | trailers | done => simp [ChunkedState.want]

theorem framing_read {state : ChunkedState} {room : Nat} {filled : List UInt8}
    (framing : ∀ remaining positive, state ≠ .data remaining positive) (some : filled ≠ [])
    (fits : filled.length ≤ min (state.want room) 4096) : ∃ b, filled = [b] := by
  have one : state.want room = 1 := by
    cases state with
    | data remaining positive => grind
    | sizeLine | dataEnd | trailers | done => rfl
  obtain ⟨b, more, rfl⟩ := List.exists_cons_of_ne_nil some
  rw [one, List.length_cons] at fits
  rw [List.eq_nil_of_length_eq_zero (by omega : more.length = 0)]
  exact ⟨b, rfl⟩

theorem deliverable_of_advance {state next : ChunkedState} {room : Nat} {filled rest : List UInt8}
    (open_ : state ≠ .done) (some : filled ≠ [])
    (fits : filled.length ≤ min (state.want room) 4096) (step : advance state filled = .ok next) :
    deliverable state (filled ++ rest) = filled ++ deliverable next rest := by
  by_cases bulk : ∃ remaining positive, state = .data remaining positive
  · grind [advance, ChunkedState.want, deliverable_data]
  · grind [framing_read, deliverable_cons]

inductive OnePoll (poll : Reader σ) (state : ChunkedState) (s : σ) (room : Nat) (arrival : Arrival) : Prop
  | noRoom (zero : room = 0) (read : pollBody poll state s room arrival = ((state, s), .ready []))
  | ended (positive : room ≠ 0) (done : state = .done)
      (read : pollBody poll state s room arrival = ((state, s), .ready []))
  | pending {next : σ} (positive : room ≠ 0) (polled : poll s (min (state.want room) 4096) arrival = (next, .pending))
      (read : pollBody poll state s room arrival = ((state, next), .pending))
  | failed {next : σ} (polled : poll s (min (state.want room) 4096) arrival = (next, .failed))
      (read : pollBody poll state s room arrival = ((state, next), .failed))
  | truncated {next : σ} (positive : room ≠ 0) (open_ : state ≠ .done)
      (polled : poll s (min (state.want room) 4096) arrival = (next, .ready []))
      (read : pollBody poll state s room arrival = ((state, next), .truncated))
  | rejected {next : σ} {filled : List UInt8} {message : Text} (open_ : state ≠ .done)
      (polled : poll s (min (state.want room) 4096) arrival = (next, .ready filled)) (some : filled ≠ [])
      (step : advance state filled = .error message)
      (read : pollBody poll state s room arrival = ((state, next), .malformed message))
  | advanced {next : σ} {filled : List UInt8} {after : ChunkedState} (open_ : state ≠ .done)
      (polled : poll s (min (state.want room) 4096) arrival = (next, .ready filled)) (some : filled ≠ [])
      (step : advance state filled = .ok after)
      (read : pollBody poll state s room arrival = ((after, next), .ready filled))

theorem pollBody_cases (poll : Reader σ) (state : ChunkedState) (s : σ) (room : Nat) (arrival : Arrival) :
    OnePoll poll state s room arrival := by
  by_cases zero : room = 0
  · exact .noRoom zero (if_pos (.inl zero))
  by_cases done : state = .done
  · exact .ended zero done (if_pos (.inr done))
  have ended : ¬ (room = 0 ∨ state = .done) := not_or.mpr ⟨zero, done⟩
  cases polled : poll s (min (state.want room) 4096) arrival with
  | mk next result =>
    cases result with
    | pending => exact .pending zero polled (by simp [pollBody, ended, polled])
    | failed => exact .failed polled (by simp [pollBody, ended, polled])
    | ready filled =>
      by_cases empty : filled = []
      · subst empty
        exact .truncated zero done polled (by simp [pollBody, ended, polled])
      · cases step : advance state filled with
        | error message => exact .rejected done polled empty step (by simp [pollBody, ended, polled, empty, step])
        | ok after => exact .advanced done polled empty step (by simp [pollBody, ended, polled, empty, step])

theorem chunkedBodyReader_cases (poll : Reader σ) (state : ChunkedState) (s : σ) (room : Nat)
    (arrival : Arrival) :
    ((room = 0 ∨ state = .done) ∧
      chunkedBodyReader poll (state, s) room arrival = ((state, s), .ready [])) ∨
    (room ≠ 0 ∧ state ≠ .done ∧ ∃ next filled advanced,
      poll s (min (state.want room) 4096) arrival = (next, .ready filled) ∧ filled ≠ [] ∧
      advance state filled = .ok advanced ∧
      chunkedBodyReader poll (state, s) room arrival = ((advanced, next), .ready filled)) ∨
    (∃ next, poll s (min (state.want room) 4096) arrival = (next, .pending) ∧
      chunkedBodyReader poll (state, s) room arrival = ((state, next), .pending)) ∨
    (∃ next, chunkedBodyReader poll (state, s) room arrival = ((state, next), .failed)) := by
  unfold chunkedBodyReader
  cases pollBody_cases poll state s room arrival with
  | noRoom zero read => exact .inl ⟨.inl zero, by rw [read]; rfl⟩
  | ended positive done read => exact .inl ⟨.inr done, by rw [read]; rfl⟩
  | pending positive polled read => exact .inr (.inr (.inl ⟨_, polled, by rw [read]; rfl⟩))
  | failed polled read => exact .inr (.inr (.inr ⟨_, by rw [read]; rfl⟩))
  | truncated positive open_ polled read => exact .inr (.inr (.inr ⟨_, by rw [read]; rfl⟩))
  | rejected open_ polled some step read => exact .inr (.inr (.inr ⟨_, by rw [read]; rfl⟩))
  | advanced open_ polled some step read =>
    have positive : room ≠ 0 := by
      rintro rfl
      cases read
      exact some rfl
    exact .inr (.inl ⟨positive, open_, _, _, _, polled, some, step, by rw [read]; rfl⟩)

theorem chunkedBodyReader_lawful (lawful : Lawful poll content) :
    Lawful (chunkedBodyReader poll) fun s => deliverable s.1 (content s.2) where
  ready := by
    rintro ⟨state, s⟩ next room arrival bytes h
    rcases chunkedBodyReader_cases poll state s room arrival with
      ⟨-, read⟩ | ⟨-, open_, inner, filled, advanced, polled, some, step, read⟩ | ⟨inner, -, read⟩ |
      ⟨inner, read⟩ <;>
      simp only [read, Prod.mk.injEq, Poll.ready.injEq, reduceCtorEq, and_false] at h
    · obtain ⟨rfl, rfl⟩ := h
      rfl
    · obtain ⟨rfl, rfl⟩ := h
      simp only [lawful.ready polled]
      exact deliverable_of_advance open_ some (lawful.bounded polled) step
  bounded := by
    rintro ⟨state, s⟩ next room arrival bytes h
    rcases chunkedBodyReader_cases poll state s room arrival with
      ⟨-, read⟩ | ⟨positive, -, inner, filled, advanced, polled, -, -, read⟩ | ⟨inner, -, read⟩ |
      ⟨inner, read⟩ <;>
      simp only [read, Prod.mk.injEq, Poll.ready.injEq, reduceCtorEq, and_false] at h
    · grind
    · obtain ⟨-, rfl⟩ := h
      exact Nat.le_trans (lawful.bounded polled) (want_le positive)
  pending := by
    rintro ⟨state, s⟩ next room arrival h
    rcases chunkedBodyReader_cases poll state s room arrival with
      ⟨-, read⟩ | ⟨-, -, inner, filled, advanced, -, -, -, read⟩ | ⟨inner, polled, read⟩ |
      ⟨inner, read⟩ <;>
      simp only [read, Prod.mk.injEq, reduceCtorEq, and_false, and_true] at h
    subst h
    simp only [lawful.pending polled]

theorem advance_of_deliverable {state : ChunkedState} {room : Nat} {filled rest : List UInt8}
    (some : filled ≠ []) (fits : filled.length ≤ min (state.want room) 4096)
    (more : deliverable state (filled ++ rest) ≠ []) : ∃ next, advance state filled = .ok next := by
  by_cases bulk : ∃ remaining positive, state = .data remaining positive
  · obtain ⟨remaining, positive, rfl⟩ := bulk
    exact ⟨_, rfl⟩
  · grind [framing_read, deliverable]

theorem of_deliverable {state : ChunkedState} {bytes : List UInt8} (left : deliverable state bytes ≠ []) :
    state ≠ .done ∧ bytes ≠ [] := by
  constructor
  · rintro rfl
    exact left (deliverable_done _)
  · grind [deliverable]

theorem chunkedBodyReader_live (lawful : Lawful poll content) (live : Live poll content) :
    Live (chunkedBodyReader poll) fun s => deliverable s.1 (content s.2) where
  progress := by
    rintro ⟨state, s⟩ room more positive left
    obtain ⟨open_, inner⟩ := of_deliverable left
    have room_ : room ≠ 0 := by omega
    obtain ⟨next, filled, polled, some⟩ := live.progress s more (want_pos state room_) inner
    simp only [lawful.ready polled] at left
    obtain ⟨advanced, step⟩ := advance_of_deliverable some (lawful.bounded polled) left
    exact ⟨(advanced, next), filled, by grind [chunkedBodyReader, pollBody, BodyRead.toPoll], some⟩
  alive := by
    rintro ⟨state, s⟩ room arrival positive left sound
    obtain ⟨open_, inner⟩ := of_deliverable left
    have room_ : room ≠ 0 := by omega
    rcases live.alive s arrival (want_pos state room_) inner sound with
      ⟨next, polled⟩ | ⟨next, filled, polled, some⟩
    · exact .inl ⟨(state, next), by simp [chunkedBodyReader, pollBody, BodyRead.toPoll, room_, open_, polled]⟩
    · simp only [lawful.ready polled] at left
      obtain ⟨advanced, step⟩ := advance_of_deliverable some (lawful.bounded polled) left
      exact .inr ⟨(advanced, next), filled,
        by grind [chunkedBodyReader, pollBody, BodyRead.toPoll], some⟩

end Reader

/-- The automaton beyond a whole byte string; nothing follows the end of the message. -/
def feedAll : ChunkedState → List UInt8 → Except Text ChunkedState
  | state, [] => .ok state
  | state, b :: rest =>
    if state = .done then .error "bytes after the end of the message".toList
    else advance state [b] >>= fun next => feedAll next rest

theorem feedAll_append (state : ChunkedState) (a b : List UInt8) :
    feedAll state (a ++ b) = feedAll state a >>= fun next => feedAll next b := by
  induction a generalizing state with
  | nil => rfl
  | cons x rest ih =>
    rw [List.cons_append, feedAll, feedAll]
    split
    · rfl
    · cases advance state [x] with
      | error e => rfl
      | ok next => exact ih next

theorem deliverable_of_feedAll_ok {state last : ChunkedState} {a : List UInt8}
    (accepted : feedAll state a = .ok last) (b : List UInt8) :
    deliverable state (a ++ b) = a ++ deliverable last b := by
  induction a generalizing state with
  | nil =>
    cases accepted
    rfl
  | cons x rest ih =>
    rw [feedAll] at accepted
    split at accepted
    · exact absurd accepted (by simp)
    · rename_i open_
      cases step : advance state [x] with
      | error e => simp [step, Bind.bind, Except.bind] at accepted
      | ok next =>
        rw [List.cons_append, deliverable_cons open_ step, ih (by
          simpa [step, Bind.bind, Except.bind] using accepted), List.cons_append]

theorem deliverable_of_feedAll_error {state : ChunkedState} {a : List UInt8} {e : Text}
    (rejected : feedAll state a = .error e) (b : List UInt8) :
    deliverable state (a ++ b) = deliverable state a := by
  induction a generalizing state with
  | nil => exact absurd rejected (by simp [feedAll])
  | cons x rest ih =>
    rw [feedAll] at rejected
    split at rejected
    · grind [deliverable_done]
    · rename_i open_
      cases step : advance state [x] with
      | error e => simp [deliverable, open_, step]
      | ok next =>
        rw [List.cons_append, deliverable_cons open_ step, deliverable_cons open_ step, ih (by
          simpa [step, Bind.bind, Except.bind] using rejected)]

theorem feedAll_of_deliverable_eq {state : ChunkedState} {bytes : List UInt8}
    (whole : deliverable state bytes = bytes) : ∃ last, feedAll state bytes = .ok last := by
  induction bytes generalizing state with
  | nil => exact ⟨state, rfl⟩
  | cons b rest ih =>
    rw [deliverable] at whole
    split at whole
    · cases whole
    · rename_i open_
      split at whole
      · cases whole
      · rename_i next step
        obtain ⟨last, fed⟩ := ih (List.cons.inj whole).2
        exact ⟨last, by simp [feedAll, open_, step, Bind.bind, Except.bind, fed]⟩

def BlankLine (line : List UInt8) : Prop := line = [] ∨ line = [cr]

inductive Trailers : List UInt8 → Prop
  | blank {line : List UInt8} : BlankLine line → Trailers (line ++ [lf])
  | field {line rest : List UInt8} : lf ∉ line → ¬ BlankLine line → Trailers rest →
      Trailers (line ++ lf :: rest)

/-- A chunked message body with the given bounds on size lines and trailers. -/
inductive ChunkedBody (maxLine maxTrailers : Nat) : List UInt8 → Prop
  | last {line trailers : List UInt8} : lf ∉ line → line.length ≤ maxLine → chunkSize line = .ok 0 →
      Trailers trailers → trailers.length ≤ maxTrailers →
      ChunkedBody maxLine maxTrailers (line ++ lf :: trailers)
  | chunk {line payload ending rest : List UInt8} : lf ∉ line → line.length ≤ maxLine →
      0 < payload.length → chunkSize line = .ok payload.length →
      ending = [lf] ∨ ending = [cr, lf] → ChunkedBody maxLine maxTrailers rest →
      ChunkedBody maxLine maxTrailers (line ++ lf :: (payload ++ (ending ++ rest)))

theorem feedAll_sizeLine {line seen : List UInt8} (clean : lf ∉ line) (short : seen.length ≤ maxChunkLine) :
    feedAll (.sizeLine seen) line =
      if seen.length + line.length ≤ maxChunkLine then .ok (.sizeLine (seen ++ line))
      else .error "chunk size line too long".toList := by
  induction line generalizing seen with
  | nil => simp [feedAll, short]
  | cons b rest ih =>
    simp only [List.mem_cons, not_or] at clean
    have other : ¬ b = lf := fun same => clean.1 same.symm
    simp only [feedAll, advance, reduceCtorEq, ↓reduceIte, List.headD_cons, other, ge_iff_le]
    by_cases full : maxChunkLine ≤ seen.length
    · have beyond : ¬ seen.length + (rest.length + 1) ≤ maxChunkLine := by omega
      simp [full, beyond, Bind.bind, Except.bind]
    · have next : feedAll (.sizeLine (seen ++ [b])) rest = _ := ih clean.2 (by simp; omega)
      simp only [full, ↓reduceIte, Bind.bind, Except.bind, next, List.length_append, List.length_cons,
        List.length_nil, List.append_assoc, List.cons_append, List.nil_append]
      congr 1
      simp only [eq_iff_iff]
      omega

theorem feedAll_trailerLine {line seen : List UInt8} {consumed : Nat} (clean : lf ∉ line)
    (short : consumed ≤ maxTrailerBytes) :
    feedAll (.trailers seen consumed) line =
      if consumed + line.length ≤ maxTrailerBytes then
        .ok (.trailers (seen ++ line) (consumed + line.length))
      else .error "chunked trailers too long".toList := by
  induction line generalizing seen consumed with
  | nil => simp [feedAll, short]
  | cons b rest ih =>
    simp only [List.mem_cons, not_or] at clean
    have other : ¬ b = lf := fun same => clean.1 same.symm
    simp only [feedAll, advance, reduceCtorEq, ↓reduceIte, List.headD_cons, other, gt_iff_lt]
    by_cases full : maxTrailerBytes < consumed + 1
    · have beyond : ¬ consumed + (rest.length + 1) ≤ maxTrailerBytes := by omega
      simp [full, beyond, Bind.bind, Except.bind]
    · have next : feedAll (.trailers (seen ++ [b]) (consumed + 1)) rest = _ := ih clean.2 (by omega)
      simp only [full, ↓reduceIte, Bind.bind, Except.bind, next, List.length_cons,
        List.append_assoc, List.cons_append, List.nil_append]
      have sum : consumed + 1 + rest.length = consumed + (rest.length + 1) := by omega
      rw [sum]

theorem blankLine_iff (line : List UInt8) :
    (line.all (· == cr) = true ∧ line.length ≤ 1) ↔ BlankLine line := by
  unfold BlankLine
  match line with
  | [] => simp
  | [b] => simp
  | b :: c :: rest => simp

/-- The trailer section ends the message, unless it is too long. -/
theorem feedAll_trailers {trailers : List UInt8} (h : Trailers trailers) {consumed : Nat}
    (short : consumed ≤ maxTrailerBytes) :
    feedAll (.trailers [] consumed) trailers =
      if consumed + trailers.length ≤ maxTrailerBytes then .ok .done
      else .error "chunked trailers too long".toList := by
  induction h generalizing consumed with
  | @blank line blank =>
    have clean : lf ∉ line := by
      rcases blank with rfl | rfl <;> decide
    rw [feedAll_append, feedAll_trailerLine clean short]
    by_cases fits : consumed + line.length ≤ maxTrailerBytes
    · by_cases room : maxTrailerBytes < consumed + line.length + 1
      · have beyond : ¬ consumed + (line.length + 1) ≤ maxTrailerBytes := by omega
        simp [fits, feedAll, advance, room, beyond, Bind.bind, Except.bind]
      · have within : consumed + (line.length + 1) ≤ maxTrailerBytes := by omega
        simp [fits, feedAll, advance, room, within, (blankLine_iff line).mpr blank, Bind.bind, Except.bind]
    · have beyond : ¬ consumed + (line.length + 1) ≤ maxTrailerBytes := by omega
      simp [fits, beyond, Bind.bind, Except.bind]
  | @field line rest clean filled later ih =>
    rw [feedAll_append, feedAll_trailerLine clean short]
    have notBlank : ¬ (line.all (· == cr) = true ∧ line.length ≤ 1) := mt (blankLine_iff line).mp filled
    by_cases fits : consumed + line.length ≤ maxTrailerBytes
    · by_cases room : maxTrailerBytes < consumed + line.length + 1
      · have beyond : ¬ consumed + (line.length + (rest.length + 1)) ≤ maxTrailerBytes := by omega
        simp [fits, feedAll, advance, room, beyond, Bind.bind, Except.bind]
      · have next : feedAll (.trailers [] (consumed + line.length + 1)) rest = _ := ih (by omega)
        have sum : consumed + line.length + 1 + rest.length =
            consumed + (line.length + (rest.length + 1)) := by omega
        rw [sum] at next
        simp only [fits, ↓reduceIte, feedAll, advance, reduceCtorEq, List.headD_cons, gt_iff_lt, room,
          List.nil_append, notBlank, Bind.bind, Except.bind, next, List.length_append,
          List.length_cons]
    · have beyond : ¬ consumed + (line.length + (rest.length + 1)) ≤ maxTrailerBytes := by omega
      simp [fits, beyond, Bind.bind, Except.bind]

theorem feedAll_data {payload : List UInt8} {remaining : Nat} (positive : 0 < remaining)
    (some : payload ≠ []) (fits : payload.length ≤ remaining) :
    feedAll (.data remaining positive) payload = .ok (.dataOf (remaining - payload.length)) := by
  induction payload generalizing remaining with
  | nil => exact absurd rfl some
  | cons b more ih =>
    simp only [feedAll, reduceCtorEq, ↓reduceIte, advance, Bind.bind, Except.bind, List.length_cons,
      List.length_nil] at fits ⊢
    cases more with
    | nil => simp [feedAll]
    | cons c others =>
      have left : 0 < remaining - (0 + 1) := by grind
      have state : ChunkedState.dataOf (remaining - (0 + 1)) = .data (remaining - (0 + 1)) left := by
        simp only [ChunkedState.dataOf, left, ↓reduceDIte]
      grind

theorem feedAll_ending {ending : List UInt8} (h : ending = [lf] ∨ ending = [cr, lf]) :
    feedAll (.dataEnd false) ending = .ok .start := by
  rcases h with rfl | rfl <;> rfl

theorem feedAll_start_line {line : List UInt8} (clean : lf ∉ line) (rest : List UInt8) :
    feedAll .start (line ++ lf :: rest) =
      if line.length ≤ maxChunkLine then feedAll (.sizeLine line) (lf :: rest)
      else .error "chunk size line too long".toList := by
  rw [feedAll_append, ChunkedState.start, feedAll_sizeLine clean (Nat.zero_le _)]
  simp only [List.length_nil, Nat.zero_add, List.nil_append]
  split
  · rfl
  · rfl

/-- One chunk brings the automaton back to the next size line, unless its size line is too long. -/
theorem feedAll_chunk {line payload ending : List UInt8} (clean : lf ∉ line)
    (positive : 0 < payload.length) (size : chunkSize line = .ok payload.length)
    (terminated : ending = [lf] ∨ ending = [cr, lf]) (rest : List UInt8) :
    feedAll .start (line ++ lf :: (payload ++ (ending ++ rest))) =
      if line.length ≤ maxChunkLine then feedAll .start rest
      else .error "chunk size line too long".toList := by
  have some : payload ≠ [] := by grind
  have payloadFed := feedAll_data positive some (Nat.le_refl _)
  simp only [Nat.sub_self, ChunkedState.dataOf, Nat.lt_irrefl, ↓reduceDIte] at payloadFed
  have payloadStep : feedAll (.data payload.length positive) (payload ++ (ending ++ rest)) =
      feedAll .start rest := by
    rw [feedAll_append, payloadFed]
    simp only [Bind.bind, Except.bind]
    rw [feedAll_append, feedAll_ending terminated]
    rfl
  rw [feedAll_start_line clean, ← payloadStep]
  simp only [Bind.bind, Except.bind, feedAll, reduceCtorEq, ↓reduceIte, advance, List.headD_cons, size, positive,
    ↓reduceDIte]

theorem feedAll_lastChunk {line trailers : List UInt8} (clean : lf ∉ line) (size : chunkSize line = .ok 0)
    (section_ : Trailers trailers) :
    feedAll .start (line ++ lf :: trailers) =
      if line.length ≤ maxChunkLine then
        if trailers.length ≤ maxTrailerBytes then .ok .done else .error "chunked trailers too long".toList
      else .error "chunk size line too long".toList := by
  have ended := feedAll_trailers section_ (Nat.zero_le maxTrailerBytes)
  rw [Nat.zero_add] at ended
  rw [feedAll_start_line clean, ← ended]
  simp only [Bind.bind, Except.bind, feedAll, reduceCtorEq, ↓reduceIte, advance, List.headD_cons, size,
    Nat.lt_irrefl, ↓reduceDIte]

theorem feedAll_within {body : List UInt8} (h : ChunkedBody maxChunkLine maxTrailerBytes body) :
    feedAll .start body = .ok .done := by
  induction h with
  | last clean short size section_ fits =>
    rw [feedAll_lastChunk clean size section_, if_pos short, if_pos fits]
  | chunk clean short positive size terminated rest ih =>
    rw [feedAll_chunk clean positive size terminated, if_pos short, ih]

/-- The automaton never passes the end of a body, whatever its line lengths. -/
theorem feedAll_body_done {maxLine maxTrailers : Nat} {body : List UInt8}
    (h : ChunkedBody maxLine maxTrailers body) {last : ChunkedState}
    (accepted : feedAll .start body = .ok last) : last = .done := by
  induction h with
  | last clean short size section_ fits =>
    rw [feedAll_lastChunk clean size section_] at accepted
    split at accepted
    · split at accepted
      · exact (Except.ok.inj accepted).symm
      · cases accepted
    · cases accepted
  | chunk clean short positive size terminated rest ih =>
    rw [feedAll_chunk clean positive size terminated] at accepted
    split at accepted
    · exact ih accepted
    · cases accepted

/-- What the reader delivers of a stream that starts with a body stays inside that body. -/
theorem deliverable_body_isPrefix {maxLine maxTrailers : Nat} {body : List UInt8}
    (h : ChunkedBody maxLine maxTrailers body) (later : List UInt8) :
    deliverable .start (body ++ later) <+: body := by
  cases accepted : feedAll .start body with
  | ok last =>
    obtain rfl := feedAll_body_done h accepted
    have whole : deliverable .start (body ++ later) = body := by
      rw [deliverable_of_feedAll_ok accepted, deliverable_done, List.append_nil]
    grind
  | error e =>
    rw [deliverable_of_feedAll_error accepted]
    exact deliverable_isPrefix _ _

theorem deliverable_within {body : List UInt8} (h : ChunkedBody maxChunkLine maxTrailerBytes body)
    (later : List UInt8) : deliverable .start (body ++ later) = body := by
  rw [deliverable_of_feedAll_ok (feedAll_within h), deliverable_done, List.append_nil]

end TlsProxy.Http
