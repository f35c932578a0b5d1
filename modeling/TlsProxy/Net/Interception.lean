import TlsProxy.Http.Exchange

/-! `ConnStream` against its abstraction, the list of the bytes a reader still sees,
under any sequence of reads and unreads. -/
namespace TlsProxy.Net
open ByteSource Text

inductive StreamOp
  | read (room : Nat) (arrival : Arrival)
  | unread (bytes : List UInt8)

/-- One operation on the list of bytes still to be seen, with what the caller observes of it. A read is
ready with a front part of the list, which is empty only if the list or the buffer is. -/
inductive Serves : List UInt8 → StreamOp → Option Poll → List UInt8 → Prop
  | ready {room : Nat} {arrival : Arrival} {bytes rest : List UInt8} (fits : bytes.length ≤ room)
      (filled : bytes = [] → rest = [] ∨ room = 0) :
      Serves (bytes ++ rest) (.read room arrival) (some (.ready bytes)) rest
  | pending {room : Nat} {arrival : Arrival} {content : List UInt8} :
      Serves content (.read room arrival) (some .pending) content
  | failed {room : Nat} {content : List UInt8} : Serves content (.read room .failed) (some .failed) content
  | unread {bytes content : List UInt8} : Serves content (.unread bytes) none (bytes ++ content)

inductive Transcript : List UInt8 → List (StreamOp × Option Poll) → List UInt8 → Prop
  | nil {content : List UInt8} : Transcript content [] content
  | cons {content next last : List UInt8} {op : StreamOp} {seen : Option Poll}
      {rest : List (StreamOp × Option Poll)} :
      Serves content op seen next → Transcript next rest last → Transcript content ((op, seen) :: rest) last

namespace ConnStream

def perform {σ : Type} (poll : Reader σ) (s : ConnStream σ) : StreamOp → ConnStream σ × Option Poll
  | .read room arrival => ((pollRead poll s room arrival).1, some (pollRead poll s room arrival).2)
  | .unread bytes => (s.unread bytes, none)

def run {σ : Type} (poll : Reader σ) : ConnStream σ → List StreamOp → List (StreamOp × Option Poll) × ConnStream σ
  | s, [] => ([], s)
  | s, op :: ops =>
    let (next, seen) := s.perform poll op
    let (rest, last) := run poll next ops
    ((op, seen) :: rest, last)

theorem wire_serves (rest : List UInt8) (room : Nat) (arrival : Arrival) :
    Serves rest (.read room arrival) (some (wire rest room arrival).2) (wire rest room arrival).1 := by
  cases polled : wire rest room arrival with
  | mk next result =>
    cases result with
    | pending =>
      obtain rfl : next = rest := wire_lawful.pending polled
      exact .pending
    | failed =>
      obtain rfl := wire_failed polled
      cases polled
      exact .failed
    | ready bytes =>
      have whole : rest = bytes ++ next := wire_lawful.ready polled
      rw [whole]
      refine .ready (wire_lawful.bounded polled) ?_
      rintro rfl
      rw [List.nil_append] at whole
      subst whole
      by_cases zero : room = 0
      · exact .inr zero
      · exact .inl (wire_ready_nil (Nat.pos_of_ne_zero zero) polled)

theorem perform_serves (s : ConnStream (List UInt8)) (op : StreamOp) :
    Serves (pristine id s) op (s.perform wire op).2 (pristine id (s.perform wire op).1) := by
  cases op with
  | unread bytes =>
    rw [perform, pristine_unread]
    exact .unread
  | read room arrival =>
    rcases pollRead_cases wire s room arrival with
      ⟨served, count, read, inner, fits, some, filled, left⟩ | ⟨empty, read⟩
    · have split : pristine id s =
          (s.pushback.drop s.pushbackOffset).take count ++ pristine id served := by
        grind [pristine, List.take_append_drop]
      rw [perform, read, split]
      refine .ready (Nat.le_trans (List.length_take_le _ _) fits) ?_
      intro none_
      rcases List.take_eq_nil_iff.mp none_ with zero | impossible
      · exact .inr (by omega)
      · exact absurd impossible filled
    · grind [perform, pristine, wire_serves]

theorem run_transcript (s : ConnStream (List UInt8)) (ops : List StreamOp) :
    Transcript (pristine id s) (s.run wire ops).1 (pristine id (s.run wire ops).2) := by
  induction ops generalizing s with
  | nil => exact .nil
  | cons op ops ih => exact .cons (perform_serves s op) (ih _)

theorem pollRead_finds (s : ConnStream (List UInt8)) {room : Nat} {arrival : Arrival} (positive : 0 < room)
    (available : s.pushback.drop s.pushbackOffset ≠ [] ∨ (∃ more, arrival = .bytes more) ∧ pristine id s ≠ []) :
    ∃ next bytes, pollRead wire s room arrival = (next, .ready bytes) ∧ bytes ≠ [] := by
  rcases available with unread | ⟨⟨more, rfl⟩, filled⟩
  · rcases pollRead_cases wire s room arrival with ⟨served, count, read, -, -, some, -, -⟩ | ⟨empty, -⟩
    · refine ⟨served, _, read, ?_⟩
      rw [ne_eq, List.take_eq_nil_iff, not_or]
      grind
    · exact absurd empty unread
  · exact (pollRead_live wire_live).progress s more positive filled

end ConnStream

structure Accepted where
  serverName : Option Text
  alpn : Option (List (List UInt8))

structure Acceptor where
  State : Type
  initial : State
  accept : State → Except Text (Option Accepted) × State
  readTls : State → List UInt8 → Except Text State

structure PeekedHello where
  sniHost : Text
  alpnProtocols : List (List UInt8)
  random : List UInt8
  buffered : List UInt8

/-- The loop of `extract_client_random` over the records from `rest` on. -/
def reassemble (handshake : List UInt8) (rest : List UInt8) : Option (List UInt8) :=
  if handshake.length ≥ 4 + 2 + 32 then some handshake
  else
    match rest with
    | kind :: _ :: _ :: high :: low :: payload =>
      if kind ≠ 0x16 then none
      else
        let recordLen := high.toNat * 256 + low.toNat
        reassemble (handshake ++ payload.take recordLen) (payload.drop recordLen)
    | _ => none
termination_by rest.length
decreasing_by
  grind

def extractClientRandom (buffered : List UInt8) : Option (List UInt8) :=
  (reassemble [] buffered).bind fun handshake =>
    if handshake.head? ≠ some 0x01 then none else some ((handshake.drop (4 + 2)).take 32)

section Hello

variable {σ : Type} (acceptor : Acceptor) (poll : Reader σ) (timeout : Text) (maxSize : Nat)

/-- The top of the loop in `read_client_hello_inner`; `next` is its read. -/
def helloOr (state : acceptor.State) (buffered : List UInt8) (s : σ)
    (next : acceptor.State → Except Text (PeekedHello × σ)) : Except Text (PeekedHello × σ) :=
  match acceptor.accept state with
  | (.error e, _) => .error ("invalid TLS ClientHello: ".toList ++ e)
  | (.ok (some accepted), _) =>
    match accepted.serverName, extractClientRandom buffered with
    | none, _ => .error "TLS ClientHello does not contain SNI".toList
    | some _, none => .error "unable to extract TLS ClientHello random".toList
    | some sniHost, some random =>
      .ok ({ sniHost, alpnProtocols := accepted.alpn.getD [], random, buffered }, s)
  | (.ok none, state) =>
    if buffered.length ≥ maxSize then
      .error ("TLS ClientHello exceeds the ".toList ++ ofNat maxSize ++ "-byte limit".toList)
    else next state

/-- The read loop under the arrivals at the client stream; when they run out the timeout fires. -/
def readClientHello : List Arrival → acceptor.State → List UInt8 → σ → Except Text (PeekedHello × σ)
  | [], state, buffered, s =>
    helloOr acceptor maxSize state buffered s fun _ =>
      .error ("TLS ClientHello timed out after ".toList ++ timeout)
  | arrival :: arrivals, state, buffered, s =>
    helloOr acceptor maxSize state buffered s fun state =>
      match poll s (min (maxSize - buffered.length) 4096) arrival with
      | (next, .pending) => readClientHello arrivals state buffered next
      | (_, .failed) => .error "failed to read TLS ClientHello".toList
      | (next, .ready bytes) =>
        if bytes = [] then
          .error "connection closed before a complete TLS ClientHello was received".toList
        else
          match acceptor.readTls state bytes with
          | .error _ => .error "failed to buffer TLS ClientHello".toList
          | .ok state => readClientHello arrivals state (buffered ++ bytes) next

variable {acceptor poll timeout maxSize} {content : σ → List UInt8}

theorem helloOr_ok {state : acceptor.State} {buffered : List UInt8} {s last : σ} {hello : PeekedHello}
    {next : acceptor.State → Except Text (PeekedHello × σ)}
    (whole : helloOr acceptor maxSize state buffered s next = .ok (hello, last)) :
    (hello.buffered = buffered ∧ last = s) ∨ ∃ state, next state = .ok (hello, last) := by
  unfold helloOr at whole
  split at whole
  · cases whole
  · grind
  · split at whole
    · cases whole
    · exact .inr ⟨_, whole⟩

theorem readClientHello_content (lawful : Lawful poll content) {arrivals : List Arrival}
    {state : acceptor.State} {buffered : List UInt8} {s last : σ} {hello : PeekedHello}
    (whole : readClientHello acceptor poll timeout maxSize arrivals state buffered s = .ok (hello, last)) :
    buffered ++ content s = hello.buffered ++ content last := by
  induction arrivals generalizing state buffered s with
  | nil =>
    rcases helloOr_ok whole with ⟨same, rfl⟩ | ⟨_, impossible⟩
    · rw [same]
    · cases impossible
  | cons arrival rest ih =>
    rcases helloOr_ok whole with ⟨same, rfl⟩ | ⟨state', next⟩
    · rw [same]
    · cases polled : poll s (min (maxSize - buffered.length) 4096) arrival with
      | mk s' result =>
        cases result with
        | pending =>
          have later := ih (by simpa [polled] using next)
          rw [← later, lawful.pending polled]
        | failed => simp [polled] at next
        | ready bytes =>
          by_cases empty : bytes = []
          · simp [polled, empty] at next
          · cases buffers : acceptor.readTls state' bytes with
            | error e => simp [polled, empty, buffers] at next
            | ok state'' =>
              have later := ih (by simpa [polled, empty, buffers] using next)
              rw [← later, lawful.ready polled, List.append_assoc]

end Hello

/-- `ConnStream` is the list of its unread bytes, the latest unread first, followed by the rest of the inner
stream: every run is a transcript of that list, a read finds bytes whenever some are unread or arrive, and
both interception stages are undone by an unread of what they buffered. -/
theorem connStream_refines_list (s : ConnStream (List UInt8)) :
    (∀ ops, Transcript (s.pristine id) (s.run wire ops).1 ((s.run wire ops).2.pristine id)) ∧
    (∀ room arrival, 0 < room → s.pushback.drop s.pushbackOffset ≠ [] ∨
        (∃ more, arrival = .bytes more) ∧ s.pristine id ≠ [] →
      ∃ next bytes, s.pollRead wire room arrival = (next, .ready bytes) ∧ bytes ≠ [] ∧
        s.pristine id = bytes ++ next.pristine id) ∧
    (∀ timeout maxSize arrivals head last,
      Http.readHttpHead (ConnStream.pollRead wire) timeout maxSize arrivals [] s = .ok (head, last) →
      (last.unread head.buffered).pristine id = s.pristine id) ∧
    (∀ acceptor timeout maxSize arrivals hello last,
      readClientHello acceptor (ConnStream.pollRead wire) timeout maxSize arrivals acceptor.initial [] s =
        .ok (hello, last) →
      (last.unread hello.buffered).pristine id = s.pristine id) := by
  have lawful : Lawful (ConnStream.pollRead wire) (ConnStream.pristine id) :=
    ConnStream.pollRead_lawful wire_lawful
  refine ⟨s.run_transcript, ?_, ?_, ?_⟩
  · intro room arrival positive available
    obtain ⟨next, bytes, read, some⟩ := s.pollRead_finds positive available
    exact ⟨next, bytes, read, some, lawful.ready read⟩
  · intro timeout maxSize arrivals head last read
    rw [ConnStream.pristine_unread]
    exact (Http.readHttpHead_content lawful read).1.symm
  · intro acceptor timeout maxSize arrivals hello last read
    rw [ConnStream.pristine_unread]
    exact (readClientHello_content lawful read).symm

end TlsProxy.Net
