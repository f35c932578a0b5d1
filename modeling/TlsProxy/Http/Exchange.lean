import TlsProxy.Http.Chunked
import TlsProxy.Http.Rewrite
import TlsProxy.Net.Relay

/-! `read_http_head` and `exchange`: the head is read with over-read, the body
prefix is restored onto the stream, the rewritten head is written upstream, and
the upload side relays the body through a reader that ends at the message
boundary. -/
namespace TlsProxy.Http
open Text ByteSource Net

def defaultMaxHttpHeaderSize : Nat := 256 * 1024

section ReadHead

variable {σ : Type} (poll : Reader σ) (timeout : Text) (maxSize : Nat)

def exceeded : Text := "HTTP request head exceeds the ".toList ++ ofNat maxSize ++ "-byte limit".toList

def closedEarly : Text := "connection closed before a complete HTTP request head was received".toList

/-- The top of the loop in `read_http_head_inner`; `none` stands for a read that is still waited for. -/
def headOrWait (buffered : List UInt8) (s : σ) (next : Option (Except Text (HttpHead × σ))) :
    Option (Except Text (HttpHead × σ)) :=
  match found : findHeadEnd buffered with
  | some headLen => some ((parseHead buffered headLen (findHeadEnd_le found)).map fun head => (head, s))
  | none => if buffered.length ≥ maxSize then some (.error (exceeded maxSize)) else next

def readHttpHeadInner : List Arrival → List UInt8 → σ → Option (Except Text (HttpHead × σ))
  | [], buffered, s => headOrWait maxSize buffered s none
  | arrival :: arrivals, buffered, s =>
    headOrWait maxSize buffered s <|
      match poll s (min (maxSize - buffered.length) 4096) arrival with
      | (next, .pending) => readHttpHeadInner arrivals buffered next
      | (_, .failed) => some (.error "failed to read HTTP request head".toList)
      | (next, .ready bytes) =>
        if bytes = [] then some (.error closedEarly) else readHttpHeadInner arrivals (buffered ++ bytes) next

/-- `read_http_head`: when the arrivals run out, the timeout fires. -/
def readHttpHead (arrivals : List Arrival) (buffered : List UInt8) (s : σ) : Except Text (HttpHead × σ) :=
  (readHttpHeadInner poll maxSize arrivals buffered s).getD
    (.error ("HTTP request head timed out after ".toList ++ timeout))

section Top

variable {maxSize} {buffered : List UInt8} {s : σ} {next : Option (Except Text (HttpHead × σ))}

theorem headOrWait_found {headLen : Nat} (found : findHeadEnd buffered = some headLen) :
    headOrWait maxSize buffered s next =
      some ((parseHead buffered headLen (findHeadEnd_le found)).map fun head => (head, s)) := by
  unfold headOrWait
  split
  · grind
  · grind

theorem headOrWait_full (missing : findHeadEnd buffered = none) (full : maxSize ≤ buffered.length) :
    headOrWait maxSize buffered s next = some (.error (exceeded maxSize)) := by
  unfold headOrWait
  grind

theorem headOrWait_room (missing : findHeadEnd buffered = none) (room : buffered.length < maxSize) :
    headOrWait maxSize buffered s next = next := by
  unfold headOrWait
  grind

theorem headOrWait_cases {result : Except Text (HttpHead × σ)} (done : headOrWait maxSize buffered s next = some result) :
    (∃ headLen, ∃ found : findHeadEnd buffered = some headLen,
      result = (parseHead buffered headLen (findHeadEnd_le found)).map fun head => (head, s)) ∨
    (findHeadEnd buffered = none ∧ maxSize ≤ buffered.length ∧ result = .error (exceeded maxSize)) ∨
    findHeadEnd buffered = none ∧ buffered.length < maxSize ∧ next = some result := by
  by_cases missing : findHeadEnd buffered = none
  · grind [headOrWait_full, headOrWait_room]
  · obtain ⟨headLen, found⟩ := Option.ne_none_iff_exists'.mp missing
    grind [headOrWait_found]

end Top

variable {poll timeout maxSize} {content : σ → List UInt8}

theorem headOrWait_ok {buffered : List UInt8} {s last : σ} {next : Option (Except Text (HttpHead × σ))} {h : HttpHead}
    (whole : headOrWait maxSize buffered s next = some (.ok (h, last))) :
    (h.buffered = buffered ∧ last = s ∧ parseHeadText h.head = .ok h.toHeadFacts ∧
      findHeadEnd buffered = some h.headLen) ∨ next = some (.ok (h, last)) := by
  rcases headOrWait_cases whole with ⟨headLen, found, parsed⟩ | ⟨-, -, refused⟩ | ⟨-, -, later⟩
  · cases read : parseHead buffered headLen (findHeadEnd_le found) with
    | error e => simp [read, Except.map] at parsed
    | ok head => grind [Except.map, parseHead_ok]
  · cases refused
  · exact .inr later

theorem readHttpHeadInner_content (lawful : Lawful poll content) {arrivals : List Arrival}
    {buffered : List UInt8} {s last : σ} {h : HttpHead}
    (whole : readHttpHeadInner poll maxSize arrivals buffered s = some (.ok (h, last))) :
    buffered ++ content s = h.buffered ++ content last ∧ parseHeadText h.head = .ok h.toHeadFacts ∧
      findHeadEnd h.buffered = some h.headLen := by
  induction arrivals generalizing buffered s with
  | nil =>
    rcases headOrWait_ok whole with ⟨same, rfl, facts, ends⟩ | impossible
    · exact ⟨by rw [same], facts, by rw [same, ends]⟩
    · cases impossible
  | cons arrival rest ih =>
    rcases headOrWait_ok whole with ⟨same, rfl, facts, ends⟩ | next
    · exact ⟨by rw [same], facts, by rw [same, ends]⟩
    · cases polled : poll s (min (maxSize - buffered.length) 4096) arrival with
      | mk s' result =>
        cases result with
        | pending =>
          obtain ⟨same, facts⟩ := ih (by simpa [polled] using next)
          exact ⟨by rw [← same, lawful.pending polled], facts⟩
        | failed => simp [polled] at next
        | ready bytes =>
          by_cases empty : bytes = []
          · simp [polled, empty] at next
          · obtain ⟨same, facts⟩ := ih (by simpa [polled, empty] using next)
            exact ⟨by rw [← same, lawful.ready polled, List.append_assoc], facts⟩

theorem readHttpHead_content (lawful : Lawful poll content) {arrivals : List Arrival}
    {buffered : List UInt8} {s last : σ} {h : HttpHead}
    (whole : readHttpHead poll timeout maxSize arrivals buffered s = .ok (h, last)) :
    buffered ++ content s = h.buffered ++ content last ∧ parseHeadText h.head = .ok h.toHeadFacts ∧
      findHeadEnd h.buffered = some h.headLen := by
  unfold readHttpHead at whole
  cases read : readHttpHeadInner poll maxSize arrivals buffered s with
  | none =>
    rw [read] at whole
    cases whole
  | some result =>
    rw [read] at whole
    exact readHttpHeadInner_content lawful (read.trans (congrArg some whole))

end ReadHead

theorem readHttpHead_alone {head : Text} {facts : HeadFacts} {more : Nat} (timeout : Text)
    (size : (Utf8.encode head).length = more + 1) (small : more < 4096)
    (ends : findHeadEnd (Utf8.encode head) = some (more + 1)) (parsed : parseHeadText head = .ok facts)
    (rest : List UInt8) :
    readHttpHead (ConnStream.pollRead wire) timeout defaultMaxHttpHeaderSize [.bytes more] []
      { inner := Utf8.encode head ++ rest } =
    .ok (HttpHead.ofText facts false head [], { inner := rest }) := by
  have filled : Utf8.encode head ++ rest ≠ [] := by
    intro empty
    have := congrArg List.length empty
    simp [size] at this
  have room : min (more + 1) (min (defaultMaxHttpHeaderSize - 0) 4096) = more + 1 := by
    simp only [defaultMaxHttpHeaderSize]
    omega
  have read : ConnStream.pollRead wire { inner := Utf8.encode head ++ rest }
      (min (defaultMaxHttpHeaderSize - ([] : List UInt8).length) 4096) (.bytes more) =
        ({ inner := rest }, .ready (Utf8.encode head)) := by
    simp only [ConnStream.pollRead, List.length_nil, Nat.lt_irrefl, ↓reduceIte, wire, filled, room]
    grind
  have some : Utf8.encode head ≠ [] := by grind
  rw [readHttpHead, readHttpHeadInner, headOrWait_room rfl (by decide)]
  simp only [read, some, ↓reduceIte, List.nil_append, readHttpHeadInner]
  rw [headOrWait_found ends]
  have accepted := parseHead_encode head [] (by simp)
  simp only [parsed, List.append_nil, size] at accepted
  rw [accepted]
  rfl

def maxResponseHead : Nat := 64 * 1024

def hasBlankLine (buffer : List UInt8) : Bool := buffer.tails.any [cr, lf, cr, lf].isPrefixOf

def readResponseHead : List Arrival → List UInt8 → List UInt8 → Except Text (List UInt8)
  | [], _, _ => .error "upstream response head timed out".toList
  | arrival :: arrivals, buffer, upstream =>
    match wire upstream 4096 arrival with
    | (next, .pending) => readResponseHead arrivals buffer next
    | (_, .failed) => .error "upstream response head failed".toList
    | (next, .ready bytes) =>
      if bytes = [] then .error "upstream closed before sending a response head".toList
      else if hasBlankLine (buffer ++ bytes) then .ok (buffer ++ bytes)
      else if (buffer ++ bytes).length > maxResponseHead then
        .error ("upstream response head exceeds ".toList ++ ofNat maxResponseHead ++ " bytes".toList)
      else readResponseHead arrivals (buffer ++ bytes) next

def responseStatus (head : List UInt8) : Option Nat :=
  (Utf8.decode ((head.splitOn lf).headD [])).bind fun text =>
    if (stripPrefix "HTTP/1.".toList text).isNone then none
    else ((splitAsciiWhitespace text)[1]?).bind parseU16

/-- What is decided about a request before its bytes start moving. -/
structure ForwardPlan where
  head : HttpHead
  framing : BodyFraming
  scheme : Text
  clientIp : IpAddr
  hostHeader : Option Text
  upstreamTls : Bool
  loopToken : Text
  framed : head.bodyFraming = .ok framing

structure Surroundings where
  handshake : Bool
  /-- `some n` when the write of the head fails after `n` bytes. -/
  headFails : Option Nat
  headFlushed : Bool
  response : List UInt8
  responseArrivals : List Arrival
  responseRelayed : Bool
  relay : List RelayEvent

def Surroundings.responseHead (env : Surroundings) : Except Text (List UInt8) :=
  readResponseHead env.responseArrivals [] env.response

def opensTunnel (plan : ForwardPlan) (env : Surroundings) : Bool :=
  plan.head.upgradeRequested &&
    match env.responseHead with
    | .ok head => responseStatus head == some 101
    | .error _ => false

def ForwardPlan.rewritten (plan : ForwardPlan) : List UInt8 :=
  let rewritten := plan.head.rewriteForProxy plan.clientIp plan.scheme plan.hostHeader plan.loopToken
  rewritten.take (rewritten.length - plan.head.bodyPrefix.length)

section Exchange

variable {σ : Type} (poll : Reader σ)

def framedUpload (framing : BodyFraming) (client : ConnStream σ) (written : List UInt8)
    (events : List RelayEvent) : List UInt8 :=
  match framing with
  | .length n => (pipe (take (ConnStream.pollRead poll)) { reader := (n, client), written } events).written
  | .chunked =>
    (pipe (chunkedBodyReader (ConnStream.pollRead poll)) { reader := (.start, client), written }
      events).written

def exchange (plan : ForwardPlan) (client : ConnStream σ) (env : Surroundings) : List UInt8 :=
  let client := client.unread plan.head.bodyPrefix
  if plan.upstreamTls ∧ ¬ env.handshake then []
  else
    match env.headFails with
    | some accepted => plan.rewritten.take accepted
    | none =>
      if ¬ env.headFlushed then plan.rewritten
      else if plan.head.upgradeRequested then
        match env.responseHead with
        | .error _ => plan.rewritten
        | .ok head =>
          if ¬ env.responseRelayed then plan.rewritten
          else if responseStatus head = some 101 then
            (pipe (ConnStream.pollRead poll) { reader := client, written := plan.rewritten }
              env.relay).written
          else framedUpload poll plan.framing client plan.rewritten env.relay
      else framedUpload poll plan.framing client plan.rewritten env.relay

end Exchange

def HeadDelivered (plan : ForwardPlan) (env : Surroundings) : Prop :=
  ¬ (plan.upstreamTls ∧ ¬ env.handshake) ∧ env.headFails = none

instance (plan : ForwardPlan) (env : Surroundings) : Decidable (HeadDelivered plan env) :=
  inferInstanceAs (Decidable (_ ∧ _))

def Surroundings.Sound (plan : ForwardPlan) (env : Surroundings) : Prop :=
  (plan.upstreamTls → env.handshake) ∧ env.headFails = none ∧ env.headFlushed ∧
    (plan.head.upgradeRequested → (∃ head, env.responseHead = .ok head) ∧ env.responseRelayed) ∧
    ∀ event ∈ env.relay, event.Sound

def bounded (framing : BodyFraming) (stream : List UInt8) : List UInt8 :=
  match framing with
  | .length n => stream.take n
  | .chunked => deliverable .start stream

section Upload

variable {σ : Type} {poll : Reader σ} {content : σ → List UInt8}

theorem framedUpload_written (lawful : Lawful poll content) (framing : BodyFraming)
    (client : ConnStream σ) (written : List UInt8) (events : List RelayEvent) :
    ∃ bytes, framedUpload poll framing client written events = written ++ bytes ∧
      bytes <+: bounded framing (ConnStream.pristine content client) := by
  have stream := ConnStream.pollRead_lawful lawful
  cases framing with
  | length n => exact pipe_written (take_lawful stream) _ events
  | chunked => exact pipe_written (chunkedBodyReader_lawful stream) _ events

theorem framedUpload_complete (lawful : Lawful poll content) (live : Live poll content)
    (framing : BodyFraming) (client : ConnStream σ) (written : List UInt8) (events : List RelayEvent)
    (sound : ∀ event ∈ events, event.Sound)
    (enough : (bounded framing (ConnStream.pristine content client)).length ≤
      (events.filter RelayEvent.brings).length) :
    framedUpload poll framing client written events =
      written ++ bounded framing (ConnStream.pristine content client) := by
  have stream := ConnStream.pollRead_lawful lawful
  have moving := ConnStream.pollRead_live live
  cases framing with
  | length n => exact pipe_complete (take_lawful stream) (take_live moving) _ events rfl sound enough
  | chunked =>
    exact pipe_complete (chunkedBodyReader_lawful stream) (chunkedBodyReader_live stream moving) _
      events rfl sound enough

/-- Without a tunnel, what goes upstream is a front part of the head, or the head and bounded body bytes. -/
theorem exchange_written (lawful : Lawful poll content) (plan : ForwardPlan) (client : ConnStream σ)
    (env : Surroundings) (noTunnel : opensTunnel plan env = false) :
    if HeadDelivered plan env then
      ∃ bytes, exchange poll plan client env = plan.rewritten ++ bytes ∧
        bytes <+: bounded plan.framing (plan.head.bodyPrefix ++ ConnStream.pristine content client)
    else exchange poll plan client env <+: plan.rewritten := by
  have upload := framedUpload_written lawful plan.framing (client.unread plan.head.bodyPrefix)
    plan.rewritten env.relay
  rw [ConnStream.pristine_unread] at upload
  have headOnly : ∃ bytes, plan.rewritten = plan.rewritten ++ bytes ∧
      bytes <+: bounded plan.framing (plan.head.bodyPrefix ++ ConnStream.pristine content client) :=
    ⟨[], (List.append_nil _).symm, List.nil_prefix⟩
  unfold exchange
  by_cases connected : plan.upstreamTls ∧ ¬ env.handshake
  · simp [HeadDelivered, connected]
  · cases fails : env.headFails with
    | some accepted =>
      simp only [HeadDelivered, connected, fails, reduceCtorEq, and_false, ↓reduceIte]
      exact List.take_prefix _ _
    | none =>
      simp only [HeadDelivered, connected, fails, not_false_eq_true, and_self, ↓reduceIte]
      split
      · exact headOnly
      · split
        · rename_i upgrade
          split
          · exact headOnly
          · rename_i head response
            split
            · exact headOnly
            · split
              · grind [opensTunnel]
              · exact upload
        · exact upload

theorem exchange_complete (lawful : Lawful poll content) (live : Live poll content) (plan : ForwardPlan)
    (client : ConnStream σ) (env : Surroundings) (noTunnel : opensTunnel plan env = false)
    (sound : env.Sound plan)
    (enough : (bounded plan.framing (plan.head.bodyPrefix ++ ConnStream.pristine content client)).length ≤
      (env.relay.filter RelayEvent.brings).length) :
    exchange poll plan client env = plan.rewritten ++
      bounded plan.framing (plan.head.bodyPrefix ++ ConnStream.pristine content client) := by
  obtain ⟨handshake, written, flushed, response, relay⟩ := sound
  have upload := framedUpload_complete lawful live plan.framing (client.unread plan.head.bodyPrefix)
    plan.rewritten env.relay relay
  rw [ConnStream.pristine_unread] at upload
  have connected : ¬ (plan.upstreamTls = true ∧ ¬ env.handshake = true) :=
    fun failed => failed.2 (handshake failed.1)
  simp only [exchange, connected, written, flushed, not_true_eq_false, ↓reduceIte]
  split
  · rename_i upgrade
    obtain ⟨⟨head, answered⟩, relayed⟩ := response upgrade
    grind [opensTunnel]
  · exact upload enough

end Upload

def prepare (consumed : Bool) (strip : Option Text) (h : HttpHead) : HttpHead :=
  let h := if consumed then h.consumeAuthorization else h
  strip.elim h h.stripPathPrefix

theorem prepare_bodyPrefix (consumed : Bool) (strip : Option Text) (h : HttpHead) :
    (prepare consumed strip h).bodyPrefix = h.bodyPrefix := by
  have consumption : (if consumed then h.consumeAuthorization else h).bodyPrefix = h.bodyPrefix := by
    cases consumed <;> rfl
  cases strip with
  | none => exact consumption
  | some pathPrefix => exact (HttpHead.stripPathPrefix_bodyPrefix _ pathPrefix).trans consumption

def RequestBody (maxLine maxTrailers : Nat) : BodyFraming → List UInt8 → Prop
  | .length n, body => body.length = n
  | .chunked, body => ChunkedBody maxLine maxTrailers body

theorem bounded_isPrefix (framing : BodyFraming) (stream : List UInt8) :
    bounded framing stream <+: stream := by
  cases framing with
  | length n => exact List.take_prefix _ _
  | chunked => exact deliverable_isPrefix _ _

theorem bounded_body {maxLine maxTrailers : Nat} {framing : BodyFraming} {body : List UInt8}
    (h : RequestBody maxLine maxTrailers framing body) (later : List UInt8) :
    bounded framing (body ++ later) <+: body := by
  cases framing with
  | length n => grind [bounded, RequestBody]
  | chunked => exact deliverable_body_isPrefix h later

theorem bounded_within {framing : BodyFraming} {body : List UInt8}
    (h : RequestBody maxChunkLine maxTrailerBytes framing body) (later : List UInt8) :
    bounded framing (body ++ later) = body := by
  cases framing with
  | length n => grind [RequestBody, bounded]
  | chunked => exact deliverable_within h later

/-- The message boundary: whatever the segmentation and the environment, the upstream gets the
rewritten head and a front part of the first request's body, and all of it in a sound run whose size
lines and trailers stay within the reader's limits. -/
theorem exchange_message_boundary (client last : ConnStream (List UInt8)) (timeout : Text)
    (arrivals : List Arrival) (h : HttpHead)
    (received : readHttpHead (ConnStream.pollRead wire) timeout defaultMaxHttpHeaderSize arrivals []
      client = .ok (h, last))
    (consumed : Bool) (strip : Option Text) (plan : ForwardPlan) (env : Surroundings)
    (prepared : plan.head = prepare consumed strip h) (noTunnel : opensTunnel plan env = false) :
    ∃ stream, ConnStream.pristine id client = Utf8.encode h.head ++ stream ∧
      (if HeadDelivered plan env then
        ∃ bytes, exchange wire plan last env = plan.rewritten ++ bytes ∧ bytes <+: stream ∧
          ∀ body later maxLine maxTrailers, stream = body ++ later →
            RequestBody maxLine maxTrailers plan.framing body → bytes <+: body
      else exchange wire plan last env <+: plan.rewritten) ∧
      (env.Sound plan → ∀ body later, stream = body ++ later →
        RequestBody maxChunkLine maxTrailerBytes plan.framing body →
        body.length ≤ (env.relay.filter RelayEvent.brings).length →
        exchange wire plan last env = plan.rewritten ++ body) := by
  obtain ⟨content, -⟩ := readHttpHead_content (ConnStream.pollRead_lawful wire_lawful) received
  have bodyPrefix : plan.head.bodyPrefix = h.bodyPrefix := by
    rw [prepared, prepare_bodyPrefix]
  have written := exchange_written wire_lawful plan last env noTunnel
  have complete := exchange_complete wire_lawful wire_live plan last env noTunnel
  rw [bodyPrefix] at written complete
  refine ⟨h.bodyPrefix ++ ConnStream.pristine id last, ?_, ?_, ?_⟩
  · grind [HttpHead.buffered_eq]
  · split at written
    · rename_i delivered
      rw [if_pos delivered]
      grind [bounded_isPrefix, bounded_body]
    · grind
  · grind [bounded_within]

def chunkedHead : Text := "POST / HTTP/1.1\r\nHost: a\r\nTransfer-Encoding: chunked\r\n\r\n".toList

def chunkedFacts : HeadFacts := ⟨"POST".toList, "/".toList, "a".toList, none, "a".toList, none, []⟩

def chunkedPlan : ForwardPlan where
  head := HttpHead.ofText chunkedFacts false chunkedHead []
  framing := .chunked
  scheme := "http".toList
  clientIp := .v4 .localhost
  hostHeader := none
  upstreamTls := false
  loopToken := "cafe".toList
  framed := by rfl

theorem chunkedHead_received (timeout : Text) (rest : List UInt8) :
    readHttpHead (ConnStream.pollRead wire) timeout defaultMaxHttpHeaderSize [.bytes 55] []
      { inner := Utf8.encode chunkedHead ++ rest } = .ok (chunkedPlan.head, { inner := rest }) :=
  readHttpHead_alone timeout (by decide +kernel) (by decide) (by decide +kernel) (by decide +kernel) rest

theorem chunkedPlan_noUpgrade : chunkedPlan.head.upgradeRequested = false := by decide +kernel

def steadily (count : Nat) : Surroundings where
  handshake := true
  headFails := none
  headFlushed := true
  response := []
  responseArrivals := []
  responseRelayed := true
  relay := List.replicate count (.poll (.bytes 0) true none)

theorem steadily_sound (count : Nat) : (steadily count).Sound chunkedPlan := by
  refine ⟨fun _ => rfl, rfl, rfl, ?_, ?_⟩
  · grind [chunkedPlan_noUpgrade]
  · intro event member
    rw [List.eq_of_mem_replicate member]
    exact ⟨by simp, rfl, rfl⟩

theorem steadily_brings (count : Nat) :
    ((steadily count).relay.filter RelayEvent.brings).length = count := by
  rw [steadily, List.filter_replicate_of_pos rfl, List.length_replicate]

theorem steadily_noTunnel (count : Nat) : opensTunnel chunkedPlan (steadily count) = false := by
  rw [opensTunnel, chunkedPlan_noUpgrade]
  rfl

/-- The empty chunked body is forwarded, the pipelined request behind it is not. -/
theorem exchange_message_boundary_pipelined :
    exchange wire chunkedPlan { inner := Utf8.encode "0\r\n\r\nGET /private HTTP/1.1\r\n".toList }
      (steadily 5) = chunkedPlan.rewritten ++ Utf8.encode "0\r\n\r\n".toList := by
  have received := chunkedHead_received [] (Utf8.encode "0\r\n\r\nGET /private HTTP/1.1\r\n".toList)
  obtain ⟨stream, split, -, whole⟩ := exchange_message_boundary _ _ [] [.bytes 55] chunkedPlan.head received
    false none chunkedPlan (steadily 5) rfl (steadily_noTunnel 5)
  have rest : stream = Utf8.encode "0\r\n\r\n".toList ++ Utf8.encode "GET /private HTTP/1.1\r\n".toList := by
    have layout : Utf8.encode chunkedHead ++ Utf8.encode "0\r\n\r\nGET /private HTTP/1.1\r\n".toList =
        Utf8.encode chunkedHead ++ stream := split
    rw [← List.append_cancel_left layout]
    decide +kernel
  refine whole (steadily_sound 5) _ _ rest ?_ (by rw [steadily_brings]; decide +kernel)
  have size : chunkSize (Utf8.encode "0\r".toList) = .ok 0 := chunkSize_encode (by rfl)
  exact @ChunkedBody.last _ _ (Utf8.encode "0\r".toList) _ (by decide +kernel) (by decide +kernel) size
    (@Trailers.blank [cr] (.inr rfl)) (by decide +kernel)

/-- A last-chunk line with a chunk extension longer than the reader's line limit. -/
def longSizeLine : Text := "0;".toList ++ List.replicate 300 'a' ++ ['\r']

/-- A well-formed chunked body is cut off in a run where nothing fails. -/
theorem exchange_cuts_long_size_line :
    ∃ body : List UInt8, ChunkedBody 303 2 body ∧
      readHttpHead (ConnStream.pollRead wire) [] defaultMaxHttpHeaderSize [.bytes 55] []
        { inner := Utf8.encode chunkedHead ++ body } = .ok (chunkedPlan.head, { inner := body }) ∧
      (steadily body.length).Sound chunkedPlan ∧ opensTunnel chunkedPlan (steadily body.length) = false ∧
      exchange wire chunkedPlan { inner := body } (steadily body.length) ≠ chunkedPlan.rewritten ++ body := by
  have clean : lf ∉ Utf8.encode longSizeLine := by decide +kernel
  have size : chunkSize (Utf8.encode longSizeLine) = .ok 0 := chunkSize_encode (by decide +kernel)
  have ending : Trailers [cr, lf] := @Trailers.blank [cr] (.inr rfl)
  have long : (Utf8.encode longSizeLine).length = 303 := by decide +kernel
  refine ⟨Utf8.encode longSizeLine ++ lf :: [cr, lf], .last clean (by rw [long]) size ending (by decide),
    chunkedHead_received [] _, steadily_sound _, steadily_noTunnel _, ?_⟩
  intro whole
  have written := exchange_written wire_lawful chunkedPlan
    { inner := Utf8.encode longSizeLine ++ lf :: [cr, lf] } (steadily _)
    (steadily_noTunnel (Utf8.encode longSizeLine ++ lf :: [cr, lf]).length)
  rw [if_pos ⟨by simp [chunkedPlan], rfl⟩, whole] at written
  obtain ⟨bytes, same, part⟩ := written
  rw [← List.append_cancel_left same] at part
  have delivered : deliverable .start (Utf8.encode longSizeLine ++ lf :: [cr, lf]) =
      Utf8.encode longSizeLine ++ lf :: [cr, lf] :=
    (List.IsPrefix.eq_of_length_le (deliverable_isPrefix _ _) part.length_le)
  obtain ⟨last, fed⟩ := feedAll_of_deliverable_eq delivered
  rw [feedAll_lastChunk clean size ending, long] at fed
  cases fed

end TlsProxy.Http
