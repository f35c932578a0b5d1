import TlsProxy.Lib.Utf8
import TlsProxy.Lib.Folded

/-! `http_header.rs`: finding the end of the head, parsing it into routing facts,
reading header values, the body framing, and the path-prefix rewrite. -/
namespace TlsProxy.Http
open Text

def cr : UInt8 := 13

def lf : UInt8 := 10

def loopTokenHeader : Text := "x-tlsproxy-rid".toList

def hostHeader : Text := "host".toList

def contentLengthHeader : Text := "content-length".toList

def transferEncodingHeader : Text := "transfer-encoding".toList

/-- The length of the head including its blank-line terminator: `\r\n\r\n`, or a bare `\n\n`. -/
def findHeadEnd : List UInt8 → Option Nat
  | [] => none
  | b :: rest =>
    if b = lf ∧ rest.head? = some lf then some 2
    else if b = lf ∧ rest.head? = some cr ∧ rest[1]? = some lf then some 3
    else (findHeadEnd rest).map (· + 1)

theorem findHeadEnd_le {buffered : List UInt8} {n : Nat} (h : findHeadEnd buffered = some n) :
    n ≤ buffered.length := by
  induction buffered generalizing n with
  | nil => simp [findHeadEnd] at h
  | cons b rest ih =>
    unfold findHeadEnd at h
    split at h
    · rename_i blank
      cases rest with
      | nil => simp at blank
      | cons c rest => cases h; simp
    · split at h
      · rename_i blank
        grind
      · obtain ⟨m, found, rfl⟩ := Option.map_eq_some_iff.mp h
        simpa using ih found

theorem findHeadEnd_cons_cons_cons (b c d : UInt8) (more : List UInt8) :
    findHeadEnd (b :: c :: d :: more) =
      if b = lf ∧ c = lf then some 2 else if b = lf ∧ c = cr ∧ d = lf then some 3
      else (findHeadEnd (c :: d :: more)).map (· + 1) := by grind [findHeadEnd]

theorem findHeadEnd_append {bytes : List UInt8} {n : Nat} (found : findHeadEnd bytes = some n) (later : List UInt8) :
    findHeadEnd (bytes ++ later) = some n := by
  induction bytes generalizing n with
  | nil => cases found
  | cons b rest ih =>
    rcases rest with - | ⟨c, - | ⟨d, more⟩⟩
    · simp [findHeadEnd] at found
    · simp only [findHeadEnd, List.head?_cons, Option.some.injEq, List.head?_nil, reduceCtorEq, and_false,
        ↓reduceIte, List.getElem?_nil, Option.map_none, List.getElem?_cons_succ] at found
      grind [findHeadEnd]
    · rw [findHeadEnd_cons_cons_cons] at found
      rw [List.cons_append, List.cons_append, List.cons_append, findHeadEnd_cons_cons_cons]
      split at found
      · rw [if_pos ‹_›]
        exact found
      · rw [if_neg ‹_›]
        split at found
        · rw [if_pos ‹_›]
          exact found
        · obtain ⟨m, inRest, rfl⟩ := Option.map_eq_some_iff.mp found
          grind

theorem findHeadEnd_take {bytes : List UInt8} {n : Nat} (found : findHeadEnd bytes = some n) :
    findHeadEnd (bytes.take n) = some n := by
  induction bytes generalizing n with
  | nil => cases found
  | cons b rest ih =>
    unfold findHeadEnd at found
    split at found
    · rename_i blank
      obtain ⟨rfl, next⟩ := blank
      obtain ⟨more, rfl⟩ := List.head?_eq_some_iff.mp next
      cases found
      rfl
    · rename_i notBare
      split at found
      · rename_i blank
        obtain ⟨rfl, next, last⟩ := blank
        obtain ⟨more, rfl⟩ := List.head?_eq_some_iff.mp next
        rw [List.getElem?_cons_succ, ← List.head?_eq_getElem?] at last
        obtain ⟨others, rfl⟩ := List.head?_eq_some_iff.mp last
        cases found
        rfl
      · rename_i notBlank
        obtain ⟨m, inRest, rfl⟩ := Option.map_eq_some_iff.mp found
        have first : ∀ c, (rest.take m).head? = some c → rest.head? = some c := by
          intro c head
          obtain ⟨more, whole⟩ := List.take_prefix m rest
          grind
        have second : ∀ c, (rest.take m)[1]? = some c → rest[1]? = some c := by grind
        grind [findHeadEnd]

def validateRequestLine (line : Text) : Except Text (Text × Text) :=
  let parts := splitAsciiWhitespace line
  let method := (parts[0]?).getD []
  let target := (parts[1]?).getD []
  let version := (parts[2]?).getD []
  if method.isEmpty ∨ target.isEmpty ∨ (parts[3]?).isSome then
    .error "malformed HTTP request line".toList
  else if (stripPrefix "HTTP/1.".toList version).isNone then
    .error ("only HTTP/1.x requests are supported, got `".toList ++ version ++ "`".toList)
  else if target.head? ≠ some '/' then
    .error "only origin-form HTTP request targets are supported".toList
  else .ok (method, target)

theorem validateRequestLine_eq_ok {line method target : Text} :
    validateRequestLine line = .ok (method, target) ↔ ∃ version, splitAsciiWhitespace line = [method, target, version] ∧
      (stripPrefix "HTTP/1.".toList version).isSome ∧ target.head? = some '/' := by
  constructor
  · intro accepted
    unfold validateRequestLine at accepted
    dsimp only at accepted
    split at accepted
    · cases accepted
    · rename_i wellFormed
      split at accepted
      · cases accepted
      · rename_i versioned
        split at accepted
        · cases accepted
        · rename_i origin
          obtain ⟨rfl, rfl⟩ := Prod.mk.inj (Except.ok.inj accepted)
          rw [Option.isNone_iff_eq_none, ← ne_eq, ← Option.isSome_iff_ne_none] at versioned
          match splitAsciiWhitespace line, wellFormed, versioned, origin with
          | [], wellFormed, _, _ => exact absurd (.inl rfl) wellFormed
          | [_], wellFormed, _, _ => exact absurd (.inr (.inl rfl)) wellFormed
          | [_, _], _, versioned, _ => grind [stripPrefix]
          | [_, _, version], _, versioned, origin => exact ⟨version, rfl, versioned, not_not.mp origin⟩
          | _ :: _ :: _ :: _ :: _, wellFormed, _, _ => exact absurd (.inr (.inr rfl)) wellFormed
  · rintro ⟨version, words, versioned, origin⟩
    have filled : ∀ part ∈ [method, target, version], part ≠ [] := fun part member =>
      (mem_splitAsciiWhitespace (words ▸ member)).1
    have wellFormed : ¬ (method.isEmpty ∨ target.isEmpty ∨ (([method, target, version] : List Text)[3]?).isSome) := by
      simp [filled method, filled target]
    unfold validateRequestLine
    rw [words]
    dsimp only
    rw [if_neg, if_neg, if_neg]
    · rfl
    · exact not_not.mpr origin
    · simpa [← Option.isSome_iff_ne_none] using versioned
    · exact wellFormed

/-- Splits `example.com`, `example.com:8080`, `[::1]` or `[::1]:8080`. -/
def splitHostPort (value : Text) : Except Text (Text × Option Nat) :=
  if value.isEmpty then .error "HTTP Host header is empty".toList
  else do
    let (host, portText) ←
      match stripPrefix ['['] value with
      | some rest =>
        match splitOnce ']' rest with
        | some (host, rest) => .ok (host, stripPrefix [':'] rest)
        | none => .error ("invalid IPv6 Host header `".toList ++ value ++ "`".toList)
      | none =>
        match rsplitOnce ':' value with
        | some (host, port) => .ok (host, some port)
        | none => .ok (value, none)
    if host.isEmpty ∨ host.any isWhitespace then
      .error ("invalid HTTP Host header `".toList ++ value ++ "`".toList)
    else
      match portText with
      | none => .ok (host, none)
      | some port =>
        match parseU16 port with
        | some port => .ok (host, some port)
        | none => .error ("invalid port in Host header `".toList ++ value ++ "`".toList)

def headLines (head : Text) : List Text := (head.splitOn '\n').map stripCr

theorem headLines_append_newline {line : Text} (clean : '\n' ∉ line) (rest : Text) :
    headLines (line ++ '\n' :: rest) = stripCr line :: headLines rest := by
  rw [headLines, List.splitOn_append_cons_self_of_not_mem clean, List.map_cons, headLines]

def requestLine (head : Text) : Text := (headLines head).headD []

def isFold (line : Text) : Bool := startsWithAny [' ', '\t'] line

def commaTokens (value : Text) : List Text := (value.splitOn ',').map trim

structure HeadFacts where
  method : Text
  target : Text
  host : Text
  port : Option Nat
  hostRaw : Text
  authorization : Option Text
  loopTokens : List Text
deriving DecidableEq

structure HeaderScan where
  hostValue : Option Text := none
  authorization : Option Text := none
  loopTokens : List Text := []
  lastWasHost : Bool := false

def headerLine (s : HeaderScan) (line : Text) : Except Text HeaderScan :=
  match splitOnce ':' line with
  | none => .error "malformed HTTP header line".toList
  | some (name, value) =>
    let lastWasHost := eqIgnoreAsciiCase (trim name) hostHeader
    if lastWasHost then
      if s.hostValue.isSome then .error "HTTP request contains multiple Host headers".toList
      else .ok { s with lastWasHost, hostValue := some (trim value) }
    else if eqIgnoreAsciiCase (trim name) "authorization".toList then
      .ok { s with lastWasHost, authorization := some (trim value) }
    else if eqIgnoreAsciiCase (trim name) loopTokenHeader then
      .ok { s with
        lastWasHost
        loopTokens := s.loopTokens ++ (commaTokens value).filter fun token => !token.isEmpty }
    else .ok { s with lastWasHost }

def parseHeaderLines (lines : List Text) : Except Text HeaderScan :=
  Folded.scan List.isEmpty isFold headerLine HeaderScan.lastWasHost
    "folded Host header is not supported".toList {} lines

def parseHeadText (head : Text) : Except Text HeadFacts := do
  let (method, target) ← validateRequestLine (requestLine head)
  let scan ← parseHeaderLines (headLines head).tail
  let hostRaw ← match scan.hostValue with
    | some value => .ok value
    | none => .error "HTTP request does not contain a Host header".toList
  let (host, port) ← splitHostPort hostRaw
  return {
    method, target, host, port, hostRaw
    authorization := scan.authorization
    loopTokens := scan.loopTokens }

/-- The buffered start of a connection. The head occupies the first `headLen`
bytes and is valid UTF-8; `head` is its text. -/
structure HttpHead extends HeadFacts where
  stripAuthorization : Bool
  buffered : List UInt8
  headLen : Nat
  head : Text
  bound : headLen ≤ buffered.length
  decoded : Utf8.decode (buffered.take headLen) = some head

def parseHead (buffered : List UInt8) (headLen : Nat) (bound : headLen ≤ buffered.length) :
    Except Text HttpHead :=
  match decoded : Utf8.decode (buffered.take headLen) with
  | none => .error "HTTP request head is not valid UTF-8".toList
  | some head =>
    (parseHeadText head).map fun facts =>
      { facts with stripAuthorization := false, buffered, headLen, head, bound, decoded }

/-- How the body of the first request is delimited on the wire. -/
inductive BodyFraming
  | length (n : Nat)
  | chunked
deriving DecidableEq, Repr

structure FramingScan where
  contentLength : Option Nat := none
  transferEncoding : Option Text := none
  lastWasFraming : Bool := false

def framingLine (s : FramingScan) (line : Text) : Except Text FramingScan :=
  match splitOnce ':' line with
  | none => .ok s
  | some (name, value) =>
    let name := toAsciiLowercase (trim name)
    if name = contentLengthHeader then
      match parseU64 (trim value) with
      | none => .error ("invalid Content-Length `".toList ++ trim value ++ "`".toList)
      | some parsed =>
        if s.contentLength.isSome then .error "duplicate Content-Length headers".toList
        else .ok { s with lastWasFraming := true, contentLength := some parsed }
    else if name = transferEncodingHeader then
      if s.transferEncoding.isSome then
        .error "multiple Transfer-Encoding headers are not supported".toList
      else
        .ok { s with
          lastWasFraming := true
          transferEncoding := some (toAsciiLowercase (trim value)) }
    else .ok { s with lastWasFraming := false }

def scanFraming (lines : List Text) : Except Text FramingScan :=
  Folded.scan List.isEmpty isFold framingLine FramingScan.lastWasFraming
    "folded body-framing headers are not supported".toList {} lines

def FramingScan.framing (s : FramingScan) : Except Text BodyFraming :=
  match s.transferEncoding with
  | some encoding =>
    if s.contentLength.isSome then
      .error "Content-Length combined with Transfer-Encoding is rejected".toList
    else if encoding ≠ "chunked".toList then
      .error ("unsupported Transfer-Encoding `".toList ++ encoding ++ "`".toList)
    else .ok .chunked
  | none => .ok (.length (s.contentLength.getD 0))

def framingOfText (head : Text) : Except Text BodyFraming :=
  scanFraming (headLines head).tail >>= FramingScan.framing

namespace HttpHead

def consumeAuthorization (h : HttpHead) : HttpHead := { h with stripAuthorization := true }

def headerValue (h : HttpHead) (name : Text) : Option Text :=
  ((lines h.head).drop 1).findSome? fun line =>
    match splitOnce ':' line with
    | some (key, value) => if eqIgnoreAsciiCase (trim key) name then some (trim value) else none
    | none => none

def upgradeRequested (h : HttpHead) : Bool :=
  ((h.headerValue "connection".toList).any fun value =>
    (commaTokens value).any fun token => eqIgnoreAsciiCase token "upgrade".toList) &&
  (h.headerValue "upgrade".toList).isSome

def bodyPrefix (h : HttpHead) : List UInt8 := h.buffered.drop h.headLen

def bodyFraming (h : HttpHead) : Except Text BodyFraming := framingOfText h.head

theorem encode_head (h : HttpHead) : Utf8.encode h.head = h.buffered.take h.headLen :=
  Utf8.encode_of_decode h.decoded

theorem buffered_eq (h : HttpHead) : h.buffered = Utf8.encode h.head ++ h.bodyPrefix := by
  rw [encode_head, bodyPrefix, List.take_append_drop]

theorem encode_head_length (h : HttpHead) : (Utf8.encode h.head).length = h.headLen := by
  rw [encode_head, List.length_take, Nat.min_eq_left h.bound]

theorem drop_line (h : HttpHead) {line rest : Text} (found : splitOnce '\n' h.head = some (line, rest)) :
    h.buffered.drop ((Utf8.encode line).length + 1) = Utf8.encode rest ++ h.bodyPrefix := by
  obtain ⟨split, -⟩ := splitOnce_eq_some.mp found
  have newline : String.utf8EncodeChar '\n' = [lf] := by decide
  rw [h.buffered_eq, split, Utf8.encode_append, Utf8.encode_cons, newline]
  simp

theorem headLen_sub_line (h : HttpHead) {line rest : Text}
    (found : splitOnce '\n' h.head = some (line, rest)) :
    h.headLen - ((Utf8.encode line).length + 1) = (Utf8.encode rest).length := by
  obtain ⟨split, -⟩ := splitOnce_eq_some.mp found
  have newline : String.utf8EncodeChar '\n' = [lf] := by decide
  grind [HttpHead.encode_head_length, Utf8.encode_append, Utf8.encode_cons]

/-- Only the first line changes; the terminator moves by the difference in length.
The source's guard against a lossy first line cannot fire on valid UTF-8. -/
def stripPathPrefix (h : HttpHead) (pathPrefix : Text) : HttpHead :=
  let pathPrefix := trimEndMatches (· == '/') pathPrefix
  let stripped := (stripPrefix pathPrefix h.target).getD h.target
  let newTarget := if stripped.isEmpty then ['/'] else stripped
  match found : splitOnce '\n' h.head with
  | none => h
  | some (line, rest) =>
    let parts := splitAsciiWhitespace (trimEndMatches (· == '\r') line)
    let method := (parts[0]?).getD h.method
    let version := (parts[2]?).getD "HTTP/1.1".toList
    let ending := if line.getLast? = some '\r' then ['\r', '\n'] else ['\n']
    let rebuilt := method ++ [' '] ++ newTarget ++ [' '] ++ version ++ ending
    { h with
      target := newTarget
      buffered := Utf8.encode rebuilt ++ h.buffered.drop ((Utf8.encode line).length + 1)
      headLen := (Utf8.encode rebuilt).length + (h.headLen - ((Utf8.encode line).length + 1))
      head := rebuilt ++ rest
      bound := by
        rw [h.drop_line found, h.headLen_sub_line found]
        simp
      decoded := by
        rw [h.drop_line found, h.headLen_sub_line found]
        simp [← List.append_assoc, ← List.length_append, ← Utf8.encode_append] }

theorem stripPathPrefix_bodyPrefix (h : HttpHead) (pathPrefix : Text) :
    (h.stripPathPrefix pathPrefix).bodyPrefix = h.bodyPrefix := by
  unfold stripPathPrefix
  split
  · rfl
  · rename_i line rest found
    simp only [bodyPrefix]
    rw [h.drop_line found, h.headLen_sub_line found]
    simp [← List.drop_drop, bodyPrefix]

def ofText (facts : HeadFacts) (stripAuthorization : Bool) (head : Text) (body : List UInt8) : HttpHead :=
  { facts with
    stripAuthorization
    buffered := Utf8.encode head ++ body
    headLen := (Utf8.encode head).length
    head
    bound := by simp
    decoded := by simp }

end HttpHead

theorem parseHead_encode (head : Text) (body : List UInt8)
    (bound : (Utf8.encode head).length ≤ (Utf8.encode head ++ body).length) :
    parseHead (Utf8.encode head ++ body) (Utf8.encode head).length bound =
      (parseHeadText head).map fun facts => HttpHead.ofText facts false head body := by
  have taken : Utf8.decode ((Utf8.encode head ++ body).take (Utf8.encode head).length) = some head := by
    simp
  unfold parseHead
  split
  · grind
  · rename_i text decoded
    have same : text = head := by simpa [taken] using decoded.symm
    subst same
    rfl

theorem parseHead_ok {buffered : List UInt8} {headLen : Nat} {bound : headLen ≤ buffered.length}
    {h : HttpHead} (accepted : parseHead buffered headLen bound = .ok h) :
    h.buffered = buffered ∧ h.headLen = headLen ∧ h.stripAuthorization = false ∧
      parseHeadText h.head = .ok h.toHeadFacts := by
  unfold parseHead at accepted
  split at accepted
  · exact absurd accepted (by simp)
  · rename_i text decoded
    cases parsed : parseHeadText text with
    | error e => grind [Except.map]
    | ok facts => grind [Except.map]

end TlsProxy.Http
