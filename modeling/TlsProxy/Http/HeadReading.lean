import TlsProxy.Http.Exchange
import TlsProxy.Http.HeaderViews

/-! `read_http_head_inner` looks for the end of the head after every read, under
whatever segmentation the network chooses. Its result is a function of the
stream alone. -/
namespace TlsProxy.Http
open Text ByteSource

/-- What a stream holds: the facts of its head and the length of it, or the reason that there is none. -/
def headOfStream (maxSize : Nat) (stream : List UInt8) : Except Text (HeadFacts × Nat) :=
  match findHeadEnd (stream.take maxSize) with
  | some headLen =>
    match Utf8.decode (stream.take headLen) with
    | some head => (parseHeadText head).map fun facts => (facts, headLen)
    | none => .error "HTTP request head is not valid UTF-8".toList
  | none => if maxSize ≤ stream.length then .error (exceeded maxSize) else .error closedEarly

def seenHead (read : HttpHead × List UInt8) : HeadFacts × Nat := (read.1.toHeadFacts, read.1.headLen)

/-- A result is the one of the whole stream, and a head that was read leaves the rest of the stream unread. -/
structure ReadsHead (maxSize : Nat) (stream : List UInt8) (result : Except Text (HttpHead × List UInt8)) : Prop where
  seen : result.map seenHead = headOfStream maxSize stream
  rest : ∀ h unread, result = .ok (h, unread) → h.buffered ++ unread = stream ∧ h.buffered.length ≤ maxSize ∧
    findHeadEnd h.buffered = some h.headLen ∧ parseHeadText h.head = .ok h.toHeadFacts

section Stream

variable {maxSize : Nat} {buffered s : List UInt8}

theorem parseHead_seen {headLen : Nat} (found : findHeadEnd buffered = some headLen)
    (room : buffered.length ≤ maxSize) (rest : List UInt8) :
    ((parseHead buffered headLen (findHeadEnd_le found)).map fun head => (head, rest)).map seenHead =
      headOfStream maxSize (buffered ++ rest) := by
  have first : findHeadEnd ((buffered ++ rest).take maxSize) = some headLen := by
    rw [List.take_append, List.take_of_length_le room]
    exact findHeadEnd_append found _
  have bytes : (buffered ++ rest).take headLen = buffered.take headLen :=
    List.take_append_of_le_length (findHeadEnd_le found)
  unfold headOfStream parseHead
  simp only [first, bytes]
  split
  · rename_i invalid
    simp only [invalid]
    rfl
  · rename_i text decoded
    simp only [decoded]
    cases parseHeadText text <;> rfl

theorem readsHead_found {headLen : Nat} (found : findHeadEnd buffered = some headLen)
    (room : buffered.length ≤ maxSize) :
    ReadsHead maxSize (buffered ++ s)
      ((parseHead buffered headLen (findHeadEnd_le found)).map fun head => (head, s)) where
  seen := parseHead_seen found room s
  rest := by
    intro h unread done
    cases parsed : parseHead buffered headLen (findHeadEnd_le found) with
    | error cause =>
      rw [parsed] at done
      cases done
    | ok head =>
      rw [parsed] at done
      cases done
      grind [parseHead_ok]

theorem readsHead_full (missing : findHeadEnd buffered = none) (room : buffered.length ≤ maxSize)
    (full : maxSize ≤ buffered.length) : ReadsHead maxSize (buffered ++ s) (.error (exceeded maxSize)) where
  seen := by
    have taken : (buffered ++ s).take maxSize = buffered := List.take_left' (by omega)
    have long : maxSize ≤ (buffered ++ s).length := by
      rw [List.length_append]
      omega
    simp only [headOfStream, taken, missing, if_pos long]
    rfl
  rest := nofun

theorem readsHead_closed (missing : findHeadEnd buffered = none) (room : buffered.length < maxSize) :
    ReadsHead maxSize buffered (.error closedEarly) where
  seen := by
    simp only [headOfStream, List.take_of_length_le (Nat.le_of_lt room), missing, if_neg (Nat.not_le.mpr room)]
    rfl
  rest := nofun

theorem readsHead_inner {arrivals : List Arrival} {result : Except Text (HttpHead × List UInt8)}
    (sound : ∀ arrival ∈ arrivals, arrival ≠ .failed) (room : buffered.length ≤ maxSize)
    (done : readHttpHeadInner wire maxSize arrivals buffered s = some result) :
    ReadsHead maxSize (buffered ++ s) result := by
  induction arrivals generalizing buffered s with
  | nil =>
    rcases headOrWait_cases done with ⟨headLen, found, rfl⟩ | ⟨missing, full, rfl⟩ | ⟨-, -, waiting⟩
    · exact readsHead_found found room
    · exact readsHead_full missing room full
    · cases waiting
  | cons arrival rest ih =>
    obtain ⟨unfailed, soundRest⟩ := List.forall_mem_cons.mp sound
    rcases headOrWait_cases done with ⟨headLen, found, rfl⟩ | ⟨missing, full, rfl⟩ | ⟨missing, free, next⟩
    · exact readsHead_found found room
    · exact readsHead_full missing room full
    · have positive : 0 < min (maxSize - buffered.length) 4096 := by omega
      rcases wire_cases s (min (maxSize - buffered.length) 4096) arrival with
        ⟨n, fits, polled⟩ | polled | polled
      · simp only [polled] at next
        split at next
        · rename_i empty
          rw [empty] at polled
          grind [wire_ready_nil, readsHead_closed]
        · have longer : (buffered ++ s.take n).length ≤ maxSize := by grind
          grind [List.take_append_drop]
      · grind
      · exact absurd (wire_failed polled) unfailed

theorem headOfStream_of_head {head : Text} {facts : HeadFacts}
    (ends : findHeadEnd (Utf8.encode head) = some (Utf8.encode head).length)
    (short : (Utf8.encode head).length ≤ maxSize) (parsed : parseHeadText head = .ok facts) (later : List UInt8) :
    headOfStream maxSize (Utf8.encode head ++ later) = .ok (facts, (Utf8.encode head).length) := by
  have first : findHeadEnd ((Utf8.encode head ++ later).take maxSize) = some (Utf8.encode head).length := by
    rw [List.take_append, List.take_of_length_le short]
    exact findHeadEnd_append ends _
  simp only [headOfStream, first, List.take_left, Utf8.decode_encode, parsed]
  rfl

def delivers : Arrival → Bool
  | .bytes _ => true
  | .quiet | .closed | .failed => false

theorem isSome_headOrWait {next : Option (Except Text (HttpHead × List UInt8))} (ends : next.isSome = true) :
    (headOrWait maxSize buffered s next).isSome = true := by
  unfold headOrWait
  grind

theorem inner_ends {before after : List Arrival} (enough : s.length ≤ (before.filter delivers).length) :
    (readHttpHeadInner wire maxSize (before ++ .closed :: after) buffered s).isSome = true := by
  induction before generalizing buffered s with
  | nil =>
    have empty : s = [] := List.eq_nil_of_length_eq_zero (Nat.le_zero.mp enough)
    subst empty
    exact isSome_headOrWait rfl
  | cons arrival before ih =>
    refine isSome_headOrWait ?_
    cases arrival with
    | failed => rfl
    | quiet => exact ih enough
    | closed =>
      by_cases empty : s = []
      · subst empty
        rfl
      · simp only [wire, if_neg empty]
        exact ih enough
    | bytes more =>
      by_cases empty : s = []
      · subst empty
        exact ih (Nat.zero_le _)
      · simp only [wire, if_neg empty]
        split
        · rfl
        · rename_i some_
          refine ih ?_
          have taken : min (more + 1) (min (maxSize - buffered.length) 4096) ≠ 0 := by grind
          grind

theorem requestLine_ne_nil {head : Text} {facts : HeadFacts} (accepted : parseHeadText head = .ok facts) :
    requestLine head ≠ [] := by
  intro empty
  have valid := parseHeadText_request accepted
  rw [empty] at valid
  cases valid

theorem lines_of_read {h : HttpHead} (found : findHeadEnd h.buffered = some h.headLen)
    (accepted : parseHeadText h.head = .ok h.toHeadFacts) :
    ∃ first parts blank, h.head.splitOn '\n' = first :: (parts ++ [blank, []]) ∧ stripCr blank = [] ∧
      ∀ line ∈ first :: parts, stripCr line ≠ [] := by
  rw [h.buffered_eq, ← h.encode_head_length] at found
  obtain ⟨first, parts, blank, lines, ends, filled⟩ := splitOn_of_findHeadEnd found
  refine ⟨first, parts, blank, lines, ends, List.forall_mem_cons.mpr ⟨?_, filled⟩⟩
  have request := requestLine_ne_nil accepted
  grind [requestLine, headLines]

end Stream

/-- The head that `read_http_head_inner` returns, or the reason it gives, is a function of the stream, whatever the
reads. A head that was read ends at the first empty line within the limit, nothing behind that line has a part in
its facts, and the bytes that were read and those that were not are the stream. -/
theorem head_reading_segmentation_independent (maxSize : Nat) (stream : List UInt8) :
    (∀ arrivals result, (∀ arrival ∈ arrivals, arrival ≠ .failed) →
      readHttpHeadInner wire maxSize arrivals [] stream = some result →
      result.map seenHead = headOfStream maxSize stream ∧
      ∀ h unread, result = .ok (h, unread) → h.headLen ≤ maxSize ∧ h.buffered ++ unread = stream ∧
        (∃ first parts blank, h.head.splitOn '\n' = first :: (parts ++ [blank, []]) ∧ stripCr blank = [] ∧
          ∀ line ∈ first :: parts, stripCr line ≠ []) ∧
        ∀ later, headOfStream maxSize (stream.take h.headLen ++ later) = .ok (h.toHeadFacts, h.headLen)) ∧
    ∀ before after, stream.length ≤ (before.filter delivers).length →
      (readHttpHeadInner wire maxSize (before ++ .closed :: after) [] stream).isSome = true := by
  refine ⟨fun arrivals result sound done => ?_, fun before after enough => inner_ends enough⟩
  obtain ⟨seen, rest⟩ := readsHead_inner sound (Nat.zero_le _) done
  refine ⟨seen, fun h unread read => ?_⟩
  obtain ⟨whole, room, found, facts⟩ := rest h unread read
  refine ⟨Nat.le_trans h.bound room, whole, lines_of_read found facts, fun later => ?_⟩
  have bytes : stream.take h.headLen = h.buffered.take h.headLen := by grind [HttpHead.bound]
  have ends : findHeadEnd (Utf8.encode h.head) = some (Utf8.encode h.head).length := by
    rw [h.encode_head_length, h.encode_head]
    exact findHeadEnd_take found
  grind [HttpHead.bound, HttpHead.encode_head, headOfStream_of_head]

section Example

def shortText : Text := "GET / HTTP/1.1\nHost: a\n\n".toList

/-- A short head, read byte by byte. -/
theorem head_reading_segmentation_independent_bytewise :
    ∃ result, readHttpHeadInner wire 100 (List.replicate 24 (.bytes 0) ++ [.closed]) [] (Utf8.encode shortText) =
        some result ∧
      result.map seenHead = .ok (⟨"GET".toList, "/".toList, "a".toList, none, "a".toList, none, []⟩, 24) := by
  obtain ⟨results, ends⟩ := head_reading_segmentation_independent 100 (Utf8.encode shortText)
  obtain ⟨result, read⟩ := Option.isSome_iff_exists.mp (ends (List.replicate 24 (.bytes 0)) [] (by decide +kernel))
  obtain ⟨same, -⟩ := results _ result (by decide) read
  exact ⟨result, read, same.trans (by decide +kernel)⟩

end Example

end TlsProxy.Http
