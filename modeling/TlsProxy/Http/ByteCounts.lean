import TlsProxy.Http.Exchange
import TlsProxy.Net.PipePolls

/-! The head is counted when the request is admitted, the answer to an upgrade when
its head is complete, and everything else by the pipes of the relay. -/
namespace TlsProxy.Http
open Text ByteSource Net

/-- The part of the answer that `read_response_head` reads, whether or not it succeeds, and what it leaves. -/
def responseRead : List Arrival → List UInt8 → List UInt8 → List UInt8 × List UInt8
  | [], buffer, upstream => (buffer, upstream)
  | arrival :: arrivals, buffer, upstream =>
    match wire upstream 4096 arrival with
    | (next, .pending) => responseRead arrivals buffer next
    | (next, .failed) => (buffer, next)
    | (next, .ready bytes) =>
      if bytes = [] then (buffer, next)
      else if hasBlankLine (buffer ++ bytes) then (buffer ++ bytes, next)
      else if (buffer ++ bytes).length > maxResponseHead then (buffer ++ bytes, next)
      else responseRead arrivals (buffer ++ bytes) next

theorem responseRead_whole (arrivals : List Arrival) (buffer upstream : List UInt8) :
    (responseRead arrivals buffer upstream).1 ++ (responseRead arrivals buffer upstream).2 = buffer ++ upstream := by
  induction arrivals generalizing buffer upstream with
  | nil => rfl
  | cons arrival rest ih =>
    rw [responseRead]
    rcases wire_cases upstream 4096 arrival with ⟨n, -, polled⟩ | polled | polled
    · simp only [polled]
      have split := List.take_append_drop n upstream
      grind
    · simp only [polled]
      exact ih buffer upstream
    · simp only [polled]

theorem responseRead_ok {arrivals : List Arrival} {buffer upstream head : List UInt8}
    (complete : readResponseHead arrivals buffer upstream = .ok head) :
    (responseRead arrivals buffer upstream).1 = head := by
  induction arrivals generalizing buffer upstream with
  | nil => cases complete
  | cons arrival rest ih =>
    rw [readResponseHead] at complete
    rw [responseRead]
    rcases polled : wire upstream 4096 arrival with ⟨next, pending | bytes | failed⟩
    · simp only [polled] at complete ⊢
      exact ih complete
    · simp only [polled] at complete ⊢
      split at complete
      · cases complete
      · next filled =>
        rw [if_neg filled]
        split at complete
        · next blank =>
          cases complete
          rw [if_pos blank]
        · next more =>
          rw [if_neg more]
          split at complete
          · cases complete
          · next fits =>
            rw [if_neg fits]
            exact ih complete
    · simp only [polled] at complete
      cases complete

theorem responseRead_length {arrivals : List Arrival} {buffer upstream : List UInt8}
    (fits : buffer.length ≤ maxResponseHead) :
    (responseRead arrivals buffer upstream).1.length ≤ maxResponseHead + 4096 := by
  induction arrivals generalizing buffer upstream with
  | nil => exact Nat.le_add_right_of_le fits
  | cons arrival rest ih =>
    rw [responseRead]
    rcases polled : wire upstream 4096 arrival with ⟨next, pending | bytes | failed⟩
    · exact ih fits
    · have bounded := wire_lawful.bounded polled
      have longer : (buffer ++ bytes).length ≤ maxResponseHead + 4096 := by
        rw [List.length_append]
        omega
      dsimp only
      split
      · exact Nat.le_add_right_of_le fits
      · split
        · exact longer
        · split
          · exact longer
          · exact ih (Nat.le_of_not_gt ‹_›)
    · exact Nat.le_add_right_of_le fits

/-- What an exchange has counted and what it has read; `message` is what the reader of the upload hands out in all, and
`relayed` says that the relay was reached and that neither pipe has failed. -/
structure Traffic where
  uploaded : Meter
  downloaded : Meter
  body : List UInt8 := []
  answer : List UInt8 := []
  message : List UInt8 := []
  bodyLeft : List UInt8 := []
  answerLeft : List UInt8 := []
  relayed : Bool := false

structure RelayTurns where
  upload : List Turn
  download : List Turn

/-- `relay`, after `headLen` bytes of the upload and the front of the answer have been counted. -/
def relayTraffic {τ : Type} (read : Reader τ) (handed : τ → List UInt8) (reader : τ) (headLen : Nat)
    (answered left : List UInt8) (uploaded downloaded : Meter) (turns : RelayTurns) : Traffic :=
  let upload := ({ reader, counter := UInt64.ofNat headLen, meter := uploaded } : PipeTask τ).run read turns.upload
  let download := ({ reader := left, meter := downloaded } : PipeTask (List UInt8)).run wire turns.download
  { uploaded := upload.meter
    downloaded := download.meter
    body := upload.read
    answer := answered ++ download.read
    message := handed reader
    bodyLeft := handed upload.reader
    answerLeft := download.reader
    relayed := !upload.broken && !download.broken }

section Exchange

variable {σ : Type} (poll : Reader σ) (content : σ → List UInt8)

def framedTraffic (framing : BodyFraming) (client : ConnStream σ) (headLen : Nat) (answered left : List UInt8)
    (uploaded downloaded : Meter) (turns : RelayTurns) : Traffic :=
  match framing with
  | .length n =>
    relayTraffic (take (ConnStream.pollRead poll)) (fun s => (ConnStream.pristine content s.2).take s.1) (n, client)
      headLen answered left uploaded downloaded turns
  | .chunked =>
    relayTraffic (chunkedBodyReader (ConnStream.pollRead poll))
      (fun s => deliverable s.1 (ConnStream.pristine content s.2)) (.start, client) headLen answered left uploaded
      downloaded turns

/-- `admit`: the bytes of the head as they were received. -/
def HttpHead.wireLength (h : HttpHead) : Nat := h.buffered.length - h.bodyPrefix.length

/-- `exchange` as far as bytes are counted, with the count of the head in `run` before it. -/
def exchangeTraffic (received : HttpHead) (plan : ForwardPlan) (client : ConnStream σ) (env : Surroundings)
    (uploaded downloaded : Meter) (turns : RelayTurns) : Traffic :=
  let headLen := received.wireLength
  let uploaded := uploaded.add headLen
  let client := client.unread plan.head.bodyPrefix
  let ended : Traffic := { uploaded, downloaded }
  if plan.upstreamTls ∧ ¬ env.handshake then ended
  else if env.headFails.isSome ∨ ¬ env.headFlushed then ended
  else if plan.head.upgradeRequested then
    let answered := responseRead env.responseArrivals [] env.response
    match env.responseHead with
    | .error _ => { ended with answer := answered.1 }
    | .ok head =>
      let downloaded := downloaded.add head.length
      if ¬ env.responseRelayed then { ended with downloaded, answer := head }
      else if responseStatus head = some 101 then
        relayTraffic (ConnStream.pollRead poll) (ConnStream.pristine content) client headLen head answered.2 uploaded
          downloaded turns
      else framedTraffic poll content plan.framing client headLen head answered.2 uploaded downloaded turns
  else framedTraffic poll content plan.framing client headLen [] env.response uploaded downloaded turns

variable {poll content}

/-- Every byte read is counted once. Unless a pipe failed, what was read and what is left make up the message, a front
part of the client's stream, and the answer. -/
structure Traffic.Counts (traffic : Traffic) (uploaded downloaded : Meter) (headLen : Nat)
    (stream response : List UInt8) : Prop where
  uploaded : traffic.uploaded = uploaded.add (headLen + traffic.body.length)
  downloaded : traffic.downloaded = downloaded.add traffic.answer.length
  body : traffic.body <+: stream
  answer : traffic.answer <+: response
  message : traffic.message <+: stream
  whole : traffic.relayed = true →
    traffic.body ++ traffic.bodyLeft = traffic.message ∧ traffic.answer ++ traffic.answerLeft = response

theorem relayTraffic_counts {τ : Type} {read : Reader τ} {handed : τ → List UInt8} (lawful : Lawful read handed)
    {reader : τ} {stream : List UInt8} (front : handed reader <+: stream) (headLen : Nat) (answered left : List UInt8)
    (uploaded downloaded : Meter) (turns : RelayTurns) :
    (relayTraffic read handed reader headLen answered left (uploaded.add headLen) (downloaded.add answered.length)
      turns).Counts uploaded downloaded headLen stream (answered ++ left) := by
  have up := (inv_start read handed reader (UInt64.ofNat headLen) (uploaded.add headLen)).run lawful turns.upload
  have down := (inv_start wire id left 0 (downloaded.add answered.length)).run wire_lawful turns.download
  refine ⟨up.metered.trans (Meter.add_add _ _ _), ?_, up.source.trans front, ?_, front, fun relayed => ?_⟩
  · rw [relayTraffic, List.length_append, ← Meter.add_add]
    exact down.metered
  · exact (List.prefix_append_right_inj answered).mpr down.source
  · obtain ⟨upSound, downSound⟩ := Bool.and_eq_true_iff.mp relayed
    refine ⟨up.rest (by simpa using upSound), ?_⟩
    have rest := down.rest (by simpa using downSound)
    exact (List.append_assoc ..).trans (congrArg (answered ++ ·) rest)

theorem framedTraffic_counts (lawful : Lawful poll content) (framing : BodyFraming) (client : ConnStream σ)
    (headLen : Nat) (answered left : List UInt8) (uploaded downloaded : Meter) (turns : RelayTurns) :
    (framedTraffic poll content framing client headLen answered left (uploaded.add headLen)
      (downloaded.add answered.length) turns).Counts uploaded downloaded headLen (ConnStream.pristine content client)
        (answered ++ left) := by
  have stream := ConnStream.pollRead_lawful lawful
  cases framing with
  | length n => exact relayTraffic_counts (take_lawful stream) (List.take_prefix _ _) ..
  | chunked => exact relayTraffic_counts (chunkedBodyReader_lawful stream) (deliverable_isPrefix _ _) ..

end Exchange

/-- The request is sent and asks for an upgrade, and the answer breaks off within its head after at least one byte. -/
structure AnswerCut (plan : ForwardPlan) (env : Surroundings) : Prop where
  connected : plan.upstreamTls = true → env.handshake = true
  sent : env.headFails = none
  flushed : env.headFlushed = true
  upgrade : plan.head.upgradeRequested = true
  cut : ∃ cause, env.responseHead = .error cause
  begun : (responseRead env.responseArrivals [] env.response).1 ≠ []

theorem wireLength_eq (h : HttpHead) : h.wireLength = (Utf8.encode h.head).length := by
  rw [HttpHead.wireLength, h.buffered_eq, List.length_append, Nat.add_sub_cancel]

theorem counts_of_ended (uploaded downloaded : Meter) (headLen : Nat) (stream : List UInt8)
    {answer response : List UInt8} (front : answer <+: response) :
    ({ uploaded := uploaded.add headLen, downloaded := downloaded.add answer.length, answer } :
      Traffic).Counts uploaded downloaded headLen stream response :=
  ⟨rfl, rfl, List.nil_prefix, front, List.nil_prefix, nofun⟩

theorem Meter.add_ne_self (m : Meter) {count : Nat} (positive : count ≠ 0) (fits : count < UInt64.size) :
    m.add count ≠ m := by
  intro same
  have total : m.total + UInt64.ofNat count = m.total + 0 := (congrArg Meter.total same).trans (UInt64.add_zero _).symm
  have none := congrArg UInt64.toNat ((UInt64.add_right_inj _).mp total)
  exact positive ((UInt64.toNat_ofNat_of_lt' fits).symm.trans none)

theorem exchangeTraffic_counts (h : HttpHead) (plan : ForwardPlan) (client : ConnStream (List UInt8))
    (env : Surroundings) (uploaded downloaded : Meter) (turns : RelayTurns) :
    (exchangeTraffic wire id h plan client env uploaded downloaded turns).Counts uploaded downloaded h.wireLength
      (plan.head.bodyPrefix ++ ConnStream.pristine id client) env.response ↔ ¬ AnswerCut plan env := by
  have ended := counts_of_ended uploaded downloaded h.wireLength
    (plan.head.bodyPrefix ++ ConnStream.pristine id client) (@List.nil_prefix _ env.response)
  rw [List.length_nil, Meter.add_zero] at ended
  rw [← ConnStream.pristine_unread] at ended ⊢
  unfold exchangeTraffic
  dsimp only
  split
  · next failed => exact iff_of_true ended fun cut => failed.2 (cut.connected failed.1)
  split
  · next failed =>
    refine iff_of_true ended fun cut => failed.elim (fun some => ?_) fun open_ => open_ cut.flushed
    rw [cut.sent] at some
    cases some
  split
  · next connected sent upgrade =>
    cases answered : env.responseHead with
    | error cause =>
      -- what was read of the head is not counted
      dsimp only
      have length := @responseRead_length env.responseArrivals [] env.response (Nat.zero_le _)
      constructor
      · intro counts cut
        refine Meter.add_ne_self downloaded ?_ ?_ counts.downloaded.symm
        · exact fun none => cut.begun (List.length_eq_zero_iff.mp none)
        · exact Nat.lt_of_le_of_lt length (by decide)
      · intro whole
        have none : (responseRead env.responseArrivals [] env.response).1 = [] := by
          by_contra begun
          obtain ⟨written, flushed⟩ := not_or.mp sent
          exact whole ⟨fun tls => by_contra fun refused => connected ⟨tls, refused⟩, Option.not_isSome_iff_eq_none.mp written,
            Decidable.not_not.mp flushed, upgrade, ⟨cause, answered⟩, begun⟩
        rw [none]
        exact ended
    | ok head =>
      have whole : head ++ (responseRead env.responseArrivals [] env.response).2 = env.response := by
        have all := responseRead_whole env.responseArrivals [] env.response
        rwa [responseRead_ok answered, List.nil_append] at all
      refine iff_of_true ?_ fun cut => ?_
      · dsimp only
        split
        · exact counts_of_ended _ _ _ _ ⟨_, whole⟩
        split
        · have counts := relayTraffic_counts (ConnStream.pollRead_lawful wire_lawful)
            (List.prefix_refl (ConnStream.pristine id (client.unread plan.head.bodyPrefix))) h.wireLength head
            (responseRead env.responseArrivals [] env.response).2 uploaded downloaded turns
          rwa [whole] at counts
        · have counts := framedTraffic_counts wire_lawful plan.framing (client.unread plan.head.bodyPrefix)
            h.wireLength head (responseRead env.responseArrivals [] env.response).2 uploaded downloaded turns
          rwa [whole] at counts
      · obtain ⟨cause, failed⟩ := cut.cut
        rw [answered] at failed
        cases failed
  · next plain =>
    have counts := framedTraffic_counts wire_lawful plan.framing (client.unread plan.head.bodyPrefix) h.wireLength
      [] env.response uploaded downloaded turns
    rw [List.length_nil, Meter.add_zero] at counts
    exact iff_of_true counts fun cut => plain cut.upgrade

/-- What `exchange` writes behind the head belongs to the message whose bytes are counted. -/
theorem exchange_written_counted (h : HttpHead) (plan : ForwardPlan) (client : ConnStream (List UInt8))
    (env : Surroundings) (uploaded downloaded : Meter) (turns : RelayTurns) :
    exchange wire plan client env <+:
      plan.rewritten ++ (exchangeTraffic wire id h plan client env uploaded downloaded turns).message := by
  unfold exchange exchangeTraffic
  dsimp only
  generalize client.unread plan.head.bodyPrefix = stream
  have framed : ∀ headLen answered left uploaded downloaded,
      framedUpload wire plan.framing stream plan.rewritten env.relay <+: plan.rewritten ++
        (framedTraffic wire id plan.framing stream headLen answered left uploaded downloaded turns).message := by
    intro headLen answered left uploaded downloaded
    obtain ⟨bytes, same, front⟩ := framedUpload_written wire_lawful plan.framing stream plan.rewritten env.relay
    rw [same]
    refine (List.prefix_append_right_inj _).mpr (front.trans ?_)
    cases plan.framing <;> exact List.prefix_refl _
  have headOnly : plan.rewritten <+: plan.rewritten ++ [] := List.prefix_append _ _
  split
  · exact List.nil_prefix
  cases env.headFails with
  | some accepted => exact (List.take_prefix _ _).trans headOnly
  | none =>
    simp only [Option.isSome_none, Bool.false_eq_true, false_or]
    split
    · exact headOnly
    split
    · cases env.responseHead with
      | error cause => exact headOnly
      | ok head =>
        dsimp only
        split
        · exact headOnly
        split
        · obtain ⟨bytes, same, front⟩ := pipe_written (ConnStream.pollRead_lawful wire_lawful)
            { reader := stream, written := plan.rewritten } env.relay
          rw [same]
          exact (List.prefix_append_right_inj _).mpr front
        · exact framed ..
    · exact framed ..

/-- For every segmentation of both streams the head, the body behind it and the answer are counted once, unless the
answer to an upgrade request breaks off within its head. -/
theorem bytes_counted_once (client last : ConnStream (List UInt8)) (timeout : Text) (arrivals : List Arrival)
    (h : HttpHead)
    (received : readHttpHead (ConnStream.pollRead wire) timeout defaultMaxHttpHeaderSize arrivals [] client =
      .ok (h, last))
    (consumed : Bool) (strip : Option Text) (plan : ForwardPlan) (prepared : plan.head = prepare consumed strip h)
    (env : Surroundings) (uploaded downloaded : Meter) (turns : RelayTurns) :
    ∃ stream, ConnStream.pristine id client = Utf8.encode h.head ++ stream ∧
      ((exchangeTraffic wire id h plan last env uploaded downloaded turns).Counts uploaded downloaded
        (Utf8.encode h.head).length stream env.response ↔ ¬ AnswerCut plan env) := by
  obtain ⟨content, -⟩ := readHttpHead_content (ConnStream.pollRead_lawful wire_lawful) received
  have counts := exchangeTraffic_counts h plan last env uploaded downloaded turns
  rw [wireLength_eq, prepared, prepare_bodyPrefix] at counts
  refine ⟨h.bodyPrefix ++ ConnStream.pristine id last, ?_, counts⟩
  rw [← List.append_assoc, ← h.buffered_eq]
  exact content

def upgradeHead : Text := "GET / HTTP/1.1\r\nHost: a\r\nConnection: Upgrade\r\nUpgrade: chat\r\n\r\n".toList

def upgradeFacts : HeadFacts := ⟨"GET".toList, "/".toList, "a".toList, none, "a".toList, none, []⟩

def upgradePlan : ForwardPlan where
  head := HttpHead.ofText upgradeFacts false upgradeHead []
  framing := .length 0
  scheme := "http".toList
  clientIp := .v4 .localhost
  hostHeader := none
  upstreamTls := false
  loopToken := "cafe".toList
  framed := by rfl

theorem upgradeHead_received (timeout : Text) (rest : List UInt8) :
    readHttpHead (ConnStream.pollRead wire) timeout defaultMaxHttpHeaderSize [.bytes 62] []
      { inner := Utf8.encode upgradeHead ++ rest } = .ok (upgradePlan.head, { inner := rest }) :=
  readHttpHead_alone timeout (by decide +kernel) (by decide) (by decide +kernel) (by decide +kernel) rest

def answering (response : List UInt8) : Surroundings where
  handshake := true
  headFails := none
  headFlushed := true
  response := response
  responseArrivals := [.bytes 4095, .closed]
  responseRelayed := true
  relay := []

def refusal : List UInt8 := Utf8.encode "HTTP/1.1 403 Forbidden\r\n\r\n".toList

/-- The upload finds the end of its empty body, and the download that of the connection. -/
def bothEnd : RelayTurns := ⟨[.poll .quiet (.accepted 0) true], [.poll .closed (.accepted 0) true]⟩

theorem bytes_counted_once_refused :
    ∃ stream, Utf8.encode upgradeHead ++ [] = Utf8.encode upgradeHead ++ stream ∧
      (exchangeTraffic wire id upgradePlan.head upgradePlan { inner := [] } (answering refusal) ⟨0, 0⟩ ⟨0, 0⟩
        bothEnd).Counts ⟨0, 0⟩ ⟨0, 0⟩ (Utf8.encode upgradeHead).length stream refusal := by
  have answered : (answering refusal).responseHead.toOption = some refusal := by decide +kernel
  obtain ⟨stream, received, counts⟩ := bytes_counted_once _ _ [] _ upgradePlan.head (upgradeHead_received [] []) false
    none upgradePlan rfl (answering refusal) ⟨0, 0⟩ ⟨0, 0⟩ bothEnd
  refine ⟨stream, received, counts.mpr fun cut => ?_⟩
  obtain ⟨cause, failed⟩ := cut.cut
  rw [failed] at answered
  cases answered

/-- The upstream closes within the first line of its answer. -/
theorem cut_answer_not_counted :
    ∃ response : List UInt8,
      readHttpHead (ConnStream.pollRead wire) [] defaultMaxHttpHeaderSize [.bytes 62] []
        { inner := Utf8.encode upgradeHead ++ [] } = .ok (upgradePlan.head, { inner := [] }) ∧
      (exchangeTraffic wire id upgradePlan.head upgradePlan { inner := [] } (answering response) ⟨0, 0⟩ ⟨0, 0⟩
        ⟨[], []⟩).answer.length = 12 ∧
      (exchangeTraffic wire id upgradePlan.head upgradePlan { inner := [] } (answering response) ⟨0, 0⟩ ⟨0, 0⟩
        ⟨[], []⟩).downloaded.tracked = 0 :=
  ⟨Utf8.encode "HTTP/1.1 101".toList, upgradeHead_received [] [], by decide +kernel, by decide +kernel⟩

end TlsProxy.Http
