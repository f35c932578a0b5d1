import TlsProxy.Listener.Workers
import TlsProxy.Runtime.Emission

/-! The record that is emitted when a connection ends, against the outcome that it
should show: DENIED where routing refuses the connection, OK where an upstream
was connected. -/
namespace TlsProxy.Listener

open Config Accounting Refusals Workers Forward

structure Connection where
  listener : AnyListener
  live : RuntimeConfig
  env : Surroundings
  id : Nat
  clientIp : IpAddr
  remoteAddress : Text
  startedMs : Nat
  endedMs : Nat

def Tracked.view (s : Tracked) (initial : ActiveConnection) : ActiveConnection := s.notes.foldl Update.apply initial

namespace Connection

variable (isMatch : Regex → Text → Bool) (c : Connection)

def final : Tracked := (exec (c.listener.task isMatch c.live c.env c.clientIp) {}).2

def course : Course where
  id := c.id
  guard := c.listener.guard
  remoteAddress := c.remoteAddress
  startedMs := c.startedMs
  updates := (c.final isMatch).notes
  endedMs := c.endedMs

end Connection

def RefusedRoute : Except Text ConnectionRoute → Prop
  | .error _ | .ok (.reject _) | .ok (.ordinary _ .reject) => True
  | .ok (.acmeChallenge _) | .ok (.controlPlane _) | .ok (.ordinary _ _) => False

def httpProtocol (env : Surroundings) (head : Http.HttpHead) (key : Text) (action : HttpRouteAction)
    (expectedSni : Option Text) : ProxyProtocol :=
  match Http.dispatch env.loopedToken head (some (key, action)) expectedSni with
  | .forward _ _ (some (_, action)) => action.proxyProtocol
  | _ => .none

def tlsProtocol (env : Surroundings) (listener : Text) (hello : Net.PeekedHello) : TlsRouteAction → ProxyProtocol
  | .passthrough _ _ _ proxyProtocol | .terminate _ _ _ _ proxyProtocol => proxyProtocol
  | .reverseProxy action =>
    match env.head with
    | .ready head => httpProtocol env head (httpRouteKey listener hello.sniHost) action (some hello.sniHost)
    | _ => .none
  | .reject => .none

namespace Connection

variable (isMatch : Regex → Text → Bool) (c : Connection)

/-- Routing policy has no route for the connection, a route that rejects it, or denies its host. -/
def Refused : Prop :=
  match c.listener with
  | .tls listener => ∃ hello, c.env.hello = .ready hello ∧
      RefusedRoute (route isMatch c.live (peeked hello) c.env.challengeIsActive listener)
  | .http name captured => ∃ head, c.env.head = .ready head ∧
      (httpInForce c.live name captured).selectRoute isMatch head.host = none
  | .forward .. => False

def received : Nat :=
  match c.listener, c.env.hello, c.env.head with
  | .tls _, .ready hello, _ => hello.buffered.length
  | .http .., _, .ready head => head.buffered.length
  | _, _, _ => 0

def proxyProtocol : ProxyProtocol :=
  match c.listener with
  | .tls listener =>
    match c.env.hello with
    | .ready hello =>
      match route isMatch c.live (peeked hello) c.env.challengeIsActive listener with
      | .ok (.ordinary _ action) => tlsProtocol c.env c.listener.guard.listener hello action
      | _ => .none
    | _ => .none
  | .http name captured =>
    match c.env.head with
    | .ready head =>
      match (httpInForce c.live name captured).selectRoute isMatch head.host with
      | some action => httpProtocol c.env head (httpRouteKey name head.host) action none
      | none => .none
    | _ => .none
  | .forward name captured => (forwardInForce c.live name captured).proxyProtocol

/-- What the records of a connection should show. -/
structure Accounted : Prop where
  denied : c.Refused isMatch → ∀ record, (c.course isMatch).Emits record →
    record.status = .denied ∧ record.targetHost = [] ∧ record.targetEndpoint = [] ∧ record.uploadedBytes = c.received
  connected : (c.final isMatch).connected = true → ∀ record, (c.course isMatch).Emits record → record.status = .ok

end Connection

section Assertions

variable (initial : ActiveConnection)

structure Untouched (s : Tracked) : Prop where
  connected : s.connected = false
  status : (s.view initial).status = .connectFailed

structure Unsettled (s : Tracked) : Prop where
  connected : s.connected = true
  status : (s.view initial).status = .connectFailed

/-- If the upstream has been connected, the outcome is OK exactly under the condition. -/
def Settled (condition : Prop) (s : Tracked) : Prop :=
  s.connected = true → ((s.view initial).status = .ok ↔ condition)

structure Blank (s : Tracked) : Prop extends Untouched initial s where
  targetHost : (s.view initial).targetHost = []
  targetEndpoint : (s.view initial).targetEndpoint = []
  uploadedBytes : (s.view initial).uploadedBytes = 0

end Assertions

variable {initial : ActiveConnection} {condition : Prop} {α : Type}

def Plain (update : Update) : Prop := ∀ c, (update.apply c).status = c.status

theorem view_note (s : Tracked) (update : Update) :
    Tracked.view { s with notes := s.notes ++ [update] } initial = update.apply (s.view initial) := by
  rw [Tracked.view, List.foldl_append]
  rfl

theorem Untouched.settled {s : Tracked} (untouched : Untouched initial s) : Settled initial condition s := by
  intro connected
  rw [untouched.connected] at connected
  cases connected

theorem leads_note {update : Update} (plain : Plain update) :
    Leads (Untouched initial) (Untouched initial) (note update) := by
  apply leads_change
  intro s untouched
  refine ⟨untouched.connected, ?_⟩
  rw [view_note, plain]
  exact untouched.status

theorem leads_note_settled {update : Update} (plain : Plain update) :
    Leads (Settled initial condition) (Settled initial condition) (note update) := by
  apply leads_change
  intro s settled connected
  rw [view_note, plain]
  exact settled connected

theorem leads_transfer (traffic : List Traffic) :
    Leads (Settled initial condition) (Settled initial condition) (transfer traffic) := by
  induction traffic with
  | nil => exact leads_of_reads (fun _ => rfl) fun _ settled => settled
  | cons first rest ih =>
    have plain : Plain first.update := by cases first <;> exact fun _ => rfl
    exact (leads_note_settled plain).bind (fun _ => ih) fun _ settled => settled

theorem announced_eq_ready {env : Surroundings} {proxyProtocol : ProxyProtocol} :
    announced env proxyProtocol = .ready () ↔ proxyProtocol = .none ∨ env.headerWritten = .ready () := by
  unfold announced
  split <;> simp_all

/-- From the connection of the upstream on, the outcome is OK if the condition holds. -/
theorem leads_established {env : Surroundings} (holds : condition) :
    Leads (Unsettled initial) (Settled initial condition) (established env) := by
  refine Leads.change_bind ?_ (leads_transfer env.traffic)
  intro s unsettled connected
  rw [view_note]
  exact iff_of_true rfl holds

theorem Unsettled.settled {s : Tracked} (unsettled : Unsettled initial s) (fails : ¬ condition) :
    Settled initial condition s := by
  intro _
  grind [Unsettled.status]

section Workers

variable {env : Surroundings} {listener : Text} {clientIp : IpAddr}

theorem settles_note {update : Update} (plain : Plain update) {rest : Unit → ConnectionWorker α}
    (later : Leads (Untouched initial) (Settled initial condition) (rest ())) :
    Leads (Untouched initial) (Settled initial condition) (note update >>= rest) :=
  (leads_note plain).bind (fun _ => later) fun _ => Untouched.settled

theorem settles_reads {β : Type} {worker : ConnectionWorker β} (reads : Reads worker) {rest : β → ConnectionWorker α}
    (later : ∀ b, Leads (Untouched initial) (Settled initial condition) (rest b)) :
    Leads (Untouched initial) (Settled initial condition) (worker >>= rest) :=
  (leads_of_reads reads fun _ untouched => untouched).bind later fun _ => Untouched.settled

theorem settles_await {β : Type} {wait : Wait Text β} {rest : β → ConnectionWorker α}
    (going : ∀ b, wait = .ready b → Leads (Untouched initial) (Settled initial condition) (rest b)) :
    Leads (Untouched initial) (Settled initial condition) (await wait >>= rest) :=
  leads_await_bind going fun _ _ => Untouched.settled

theorem settles_connected {rest : Unit → ConnectionWorker α}
    (later : Leads (Unsettled initial) (Settled initial condition) (rest ())) :
    Leads (Untouched initial) (Settled initial condition) (connected >>= rest) := by
  refine Leads.change_bind ?_ later
  intro s untouched
  exact ⟨rfl, untouched.status⟩

theorem leads_connectUpstream (endpoint : Text) (proxyProtocol : ProxyProtocol) :
    Leads (Untouched initial) (Settled initial (announced env proxyProtocol = .ready ()))
      (connectUpstream env endpoint proxyProtocol) := by
  refine settles_await fun _ _ => ?_
  apply settles_connected
  grind [leads_await_bind, leads_established, Unsettled.settled]

theorem leads_passthroughRun (hello : Net.PeekedHello) (route : PassthroughRoute) :
    Leads (Untouched initial) (Settled initial (announced env route.proxyProtocol = .ready ()))
      (passthroughRun env listener clientIp hello route) := by
  refine settles_reads (reads_refuseUnless _ _) fun _ => ?_
  refine settles_note (fun _ => rfl) (settles_note (fun _ => rfl) ?_)
  refine settles_await fun selected _ => settles_note (fun _ => rfl) ?_
  grind [leads_connectUpstream]

theorem leads_terminateRun (hello : Net.PeekedHello) (route : TerminateRoute) :
    Leads (Untouched initial) (Settled initial (announced env route.proxyProtocol = .ready ()))
      (terminateRun env listener clientIp hello route) := by
  refine settles_await fun sni _ => settles_reads (reads_refuseUnless _ _) fun _ => settles_note (fun _ => rfl) ?_
  refine settles_await fun selected _ => settles_note (fun _ => rfl) ?_
  grind [settles_await, leads_connectUpstream]

theorem leads_forwardRun (key : Text) (head : Http.HttpHead) (action : HttpRouteAction) :
    Leads (Untouched initial) (Settled initial (announced env action.proxyProtocol = .ready ()))
      (forwardRun env clientIp key head action) := by
  have responds : Leads (Untouched initial) (Settled initial (announced env action.proxyProtocol = .ready ()))
      (await env.responded : ConnectionWorker Unit) := leads_await _ fun _ => Untouched.settled
  refine leads_awaitOr (fun selected _ => ?_) (fun _ => responds) fun _ _ => Untouched.settled
  refine settles_note (fun _ => rfl) (settles_await fun _ _ => ?_)
  refine leads_awaitOr (fun _ _ => ?_) (fun _ => responds) fun _ _ => Untouched.settled
  apply settles_connected
  -- The header that cannot be written is answered with 502, and the outcome stays what it was.
  refine leads_awaitOr (fun _ ready => leads_established ready) (fun unready => ?_) ?_
  · grind [leads_await, Unsettled.settled]
  · grind [Unsettled.settled]

theorem leads_httpRun (head : Http.HttpHead) (key : Text) (action : HttpRouteAction) (expectedSni : Option Text) :
    Leads (Untouched initial)
      (Settled initial (announced env (httpProtocol env head key action expectedSni) = .ready ()))
      (httpRun env clientIp head key action expectedSni) := by
  refine settles_reads (reads_decided _) fun headerLen => ?_
  refine settles_note (fun _ => rfl) (settles_note (fun _ => rfl) ?_)
  unfold httpProtocol
  grind [leads_forwardRun, leads_await, Untouched.settled]

theorem leads_dispatchOrdinary (hello : Net.PeekedHello) (action : TlsRouteAction) :
    Leads (Untouched initial) (Settled initial (announced env (tlsProtocol env listener hello action) = .ready ()))
      (dispatchOrdinary env listener clientIp hello action) := by
  refine settles_reads (reads_refuseUnless _ _) fun _ => ?_
  cases action with
  | passthrough targetPort target loadBalancing proxyProtocol => exact leads_passthroughRun hello _
  | terminate targetPort target upstream loadBalancing proxyProtocol =>
    exact settles_await fun _ _ => leads_terminateRun hello _
  | reverseProxy action =>
    refine settles_await fun _ _ => settles_await fun _ _ => settles_await fun _ _ => settles_await fun head read => ?_
    grind [tlsProtocol, leads_httpRun]
  | reject => exact leads_fail _ fun _ => Untouched.settled

end Workers

variable {isMatch : Regex → Text → Bool}

theorem leads_note_unconnected (update : Update) :
    Leads (Untouched initial) (Settled initial condition) (note update) := by
  apply leads_change
  intro s untouched connected
  rw [untouched.connected] at connected
  cases connected

section Tasks

variable {live : RuntimeConfig} {env : Surroundings} {clientIp : IpAddr} {name : Text} {proxyProtocol : ProxyProtocol}

theorem leads_mandatoryTask {captured : Option Text}
    (chosen : ∀ hello sni action, env.hello = .ready hello →
      decideRoute isMatch (peeked hello) live.defaultListener (controlHostname live captured) env.challengeIsActive =
        .ordinary sni action → proxyProtocol = tlsProtocol env defaultListenerName hello action) :
    Leads (Untouched initial) (Settled initial (announced env proxyProtocol = .ready ()))
      (mandatoryTask isMatch live env clientIp captured) := by
  refine settles_await fun hello read => settles_note (fun _ => rfl) (settles_note (fun _ => rfl) ?_)
  cases routed : decideRoute isMatch (peeked hello) live.defaultListener (controlHostname live captured)
      env.challengeIsActive with
  | controlPlane hostname => exact settles_await fun _ _ => leads_note_unconnected _
  | acmeChallenge domain =>
    exact settles_reads (reads_decided _) fun _ => settles_await fun _ _ => leads_note_unconnected _
  | ordinary sni action =>
    rw [chosen hello sni action read routed]
    exact settles_reads (reads_decided _) fun _ => leads_dispatchOrdinary hello action
  | reject reason => exact settles_reads (reads_decided _) fun _ => leads_fail _ fun _ => Untouched.settled

theorem leads_tlsTask {captured : HostRoutedTlsListenerConfig}
    (chosen : ∀ hello action, env.hello = .ready hello →
      (routingInForce live name captured).selectRoute isMatch hello.sniHost = some action →
      proxyProtocol = tlsProtocol env name hello action) :
    Leads (Untouched initial) (Settled initial (announced env proxyProtocol = .ready ()))
      (tlsTask isMatch live env clientIp name captured) := by
  refine settles_await fun hello read => ?_
  cases routed : (routingInForce live name captured).selectRoute isMatch hello.sniHost with
  | none => exact leads_fail _ fun _ => Untouched.settled
  | some action =>
    rw [chosen hello action read routed]
    refine settles_note (fun _ => rfl) (settles_reads (reads_decided _) fun _ => ?_)
    exact leads_dispatchOrdinary hello action

theorem leads_httpTask {captured : HostRoutedHttpListenerConfig}
    (chosen : ∀ head action, env.head = .ready head →
      (httpInForce live name captured).selectRoute isMatch head.host = some action →
      proxyProtocol = httpProtocol env head (httpRouteKey name head.host) action none) :
    Leads (Untouched initial) (Settled initial (announced env proxyProtocol = .ready ()))
      (httpTask isMatch live env clientIp name captured) := by
  refine settles_note (fun _ => rfl) (settles_await fun head read => ?_)
  cases routed : (httpInForce live name captured).selectRoute isMatch head.host with
  | none => exact leads_fail _ fun _ => Untouched.settled
  | some action =>
    rw [chosen head action read routed]
    cases behavior : action.behavior with
    | redirectHttps => grind [leads_await, Untouched.settled]
    | reverseProxy =>
      simp only [behavior]
      exact settles_reads (reads_decided _) fun _ => leads_httpRun head _ action none

theorem leads_forwardTask {captured : RawForwardListenerConfig} :
    Leads (Untouched initial)
      (Settled initial (announced env (forwardInForce live name captured).proxyProtocol = .ready ()))
      (forwardTask live env name captured) := by
  refine settles_note (fun _ => rfl) (settles_reads (reads_decided _) fun _ => ?_)
  refine settles_await fun selected _ => settles_note (fun _ => rfl) (settles_await fun _ _ => ?_)
  exact leads_connectUpstream selected.endpoint _

end Tasks

theorem Connection.leads_task (c : Connection) :
    Leads (Untouched initial) (Settled initial (announced c.env (c.proxyProtocol isMatch) = .ready ()))
      (c.listener.task isMatch c.live c.env c.clientIp) := by
  obtain ⟨listener, live, env, id, clientIp, remoteAddress, startedMs, endedMs⟩ := c
  match listener with
  | .tls (.mandatory captured) =>
    apply leads_mandatoryTask
    intro hello sni action read routed
    dsimp only at read routed
    simp only [Connection.proxyProtocol, read, Listener.route, routed]
    rfl
  | .tls (.additional name captured) =>
    apply leads_tlsTask
    intro hello action read routed
    dsimp only at read routed
    simp only [Connection.proxyProtocol, read, Listener.route, peeked, routed]
    rfl
  | .http name captured =>
    apply leads_httpTask
    grind [Connection.proxyProtocol]
  | .forward name captured => exact leads_forwardTask

section Refusals

variable {live : RuntimeConfig} {env : Surroundings} {clientIp : IpAddr} {name : Text}

def Bare (update : Update) : Prop :=
  ∀ c, (update.apply c).status = c.status ∧ (update.apply c).targetHost = c.targetHost ∧
    (update.apply c).targetEndpoint = c.targetEndpoint ∧ (update.apply c).uploadedBytes = c.uploadedBytes

theorem blank_note {update : Update} (bare : Bare update) {rest : Unit → ConnectionWorker α}
    (later : Leads (Blank initial) (Blank initial) (rest ())) :
    Leads (Blank initial) (Blank initial) (note update >>= rest) := by
  refine Leads.change_bind (fun s blank => ?_) later
  obtain ⟨status, targetHost, targetEndpoint, uploadedBytes⟩ := bare (s.view initial)
  refine ⟨⟨blank.connected, ?_⟩, ?_, ?_, ?_⟩
  · rw [view_note, status]
    exact blank.status
  · rw [view_note, targetHost]
    exact blank.targetHost
  · rw [view_note, targetEndpoint]
    exact blank.targetEndpoint
  · rw [view_note, uploadedBytes]
    exact blank.uploadedBytes

theorem blank_reads {β : Type} {worker : ConnectionWorker β} (reads : Reads worker) {rest : β → ConnectionWorker α}
    (later : ∀ b, Leads (Blank initial) (Blank initial) (rest b)) :
    Leads (Blank initial) (Blank initial) (worker >>= rest) :=
  (leads_of_reads reads fun _ blank => blank).bind later fun _ blank => blank

theorem blank_fail (cause : Text) : Leads (Blank initial) (Blank initial) (fail cause : ConnectionWorker α) :=
  leads_fail cause fun _ blank => blank

theorem blank_dispatch_reject (hello : Net.PeekedHello) :
    Leads (Blank initial) (Blank initial) (dispatchOrdinary env name clientIp hello .reject) :=
  blank_reads (reads_refuseUnless _ _) fun _ => blank_fail _

theorem blank_ready {β : Type} {wait : Wait Text β} {b : β} (read : wait = .ready b) {rest : β → ConnectionWorker α}
    (later : Leads (Blank initial) (Blank initial) (rest b)) :
    Leads (Blank initial) (Blank initial) (await wait >>= rest) := by grind [leads_await_bind]

theorem blank_mandatoryTask {captured : Option Text} {hello : Net.PeekedHello} (read : env.hello = .ready hello)
    (refused : RefusedRoute (route isMatch live (peeked hello) env.challengeIsActive (.mandatory captured))) :
    Leads (Blank initial) (Blank initial) (mandatoryTask isMatch live env clientIp captured) := by
  refine blank_ready read (blank_note (fun _ => ⟨rfl, rfl, rfl, rfl⟩) (blank_note (fun _ => ⟨rfl, rfl, rfl, rfl⟩) ?_))
  change RefusedRoute (.ok (decideRoute isMatch (peeked hello) live.defaultListener (controlHostname live captured)
    env.challengeIsActive)) at refused
  generalize decideRoute isMatch (peeked hello) live.defaultListener (controlHostname live captured)
    env.challengeIsActive = decision at refused ⊢
  match decision with
  | .controlPlane _ | .acmeChallenge _ => exact False.elim refused
  | .ordinary _ .reject => exact blank_reads (reads_decided _) fun _ => blank_dispatch_reject hello
  | .ordinary _ (.passthrough ..) | .ordinary _ (.terminate ..) | .ordinary _ (.reverseProxy _) => exact False.elim refused
  | .reject _ => exact blank_reads (reads_decided _) fun _ => blank_fail _

theorem blank_tlsTask {captured : HostRoutedTlsListenerConfig} {hello : Net.PeekedHello}
    (read : env.hello = .ready hello)
    (refused : RefusedRoute (route isMatch live (peeked hello) env.challengeIsActive (.additional name captured))) :
    Leads (Blank initial) (Blank initial) (tlsTask isMatch live env clientIp name captured) := by
  apply blank_ready read
  unfold route at refused
  cases routed : (routingInForce live name captured).selectRoute isMatch hello.sniHost with
  | none => exact blank_fail _
  | some action =>
    simp only [peeked, routed] at refused
    refine blank_note (fun _ => ⟨rfl, rfl, rfl, rfl⟩) (blank_reads (reads_decided _) fun _ => ?_)
    cases action with
    | reject => exact blank_dispatch_reject hello
    | _ => exact False.elim refused

theorem blank_httpTask {captured : HostRoutedHttpListenerConfig} {head : Http.HttpHead} (read : env.head = .ready head)
    (refused : (httpInForce live name captured).selectRoute isMatch head.host = none) :
    Leads (Blank initial) (Blank initial) (httpTask isMatch live env clientIp name captured) := by
  refine blank_note (fun _ => ⟨rfl, rfl, rfl, rfl⟩) (blank_ready read ?_)
  simp only [refused]
  exact blank_fail _

end Refusals

namespace Connection

theorem leads_refused {c : Connection} (refused : c.Refused isMatch) :
    Leads (Blank initial) (Blank initial) (c.listener.task isMatch c.live c.env c.clientIp) := by
  obtain ⟨listener, live, env, id, clientIp, remoteAddress, startedMs, endedMs⟩ := c
  match listener with
  | .tls (.mandatory captured) =>
    obtain ⟨hello, read, refused⟩ := refused
    exact blank_mandatoryTask read refused
  | .tls (.additional name captured) =>
    obtain ⟨hello, read, refused⟩ := refused
    exact blank_tlsTask read refused
  | .http name captured =>
    obtain ⟨head, read, refused⟩ := refused
    exact blank_httpTask read refused
  | .forward name captured => exact False.elim refused

/-- A refused connection is recorded as one that failed, without the bytes that it has sent. -/
theorem refused_record {c : Connection} (refused : c.Refused isMatch) :
    (c.course isMatch).record.status = .connectFailed ∧ (c.course isMatch).record.targetHost = [] ∧
      (c.course isMatch).record.targetEndpoint = [] ∧ (c.course isMatch).record.uploadedBytes = 0 := by
  have blank : Blank (c.course isMatch).initial (c.final isMatch) :=
    leads_refused refused {} ⟨⟨rfl, rfl⟩, rfl, rfl, rfl⟩
  exact ⟨blank.status, blank.targetHost, blank.targetEndpoint, blank.uploadedBytes⟩

theorem connected_record {c : Connection} (connected : (c.final isMatch).connected = true) :
    (c.course isMatch).record.status = .ok ↔
      c.proxyProtocol isMatch = .none ∨ c.env.headerWritten = .ready () := by
  have settled : Settled (c.course isMatch).initial _ (c.final isMatch) := leads_task c {} ⟨rfl, rfl⟩
  exact (settled connected).trans announced_eq_ready

end Connection

/-- The records of a connection are right if and only if routing does not refuse it and, where the connect to its
upstream succeeds, the header that the upstream is to get is written. -/
theorem connection_accounted_iff (isMatch : Regex → Text → Bool) (c : Connection) :
    c.Accounted isMatch ↔ ¬ c.Refused isMatch ∧ ((c.final isMatch).connected = true →
      c.proxyProtocol isMatch = .none ∨ c.env.headerWritten = .ready ()) := by
  constructor
  · rintro ⟨denied, connected⟩
    constructor
    · intro refused
      have status := (denied refused _ (c.course isMatch).emits_record).1
      rw [(Connection.refused_record refused).1] at status
      cases status
    · intro upstream
      exact (Connection.connected_record upstream).mp (connected upstream _ (c.course isMatch).emits_record)
  · rintro ⟨admitted, announces⟩
    refine ⟨fun refused => absurd refused admitted, ?_⟩
    intro connected record emitted
    rw [(c.course isMatch).emits_iff.mp emitted]
    exact (Connection.connected_record connected).mpr (announces connected)

section Example

def edgeVisit (headerWritten : Wait Text Unit) : Connection where
  listener := .tls (.additional "edge".toList
    { bind := "0.0.0.0:8443".toList
      routing := { routes := [{ matcher := { exact := ["app.example".toList] }
                                action := .passthrough 443 none .roundRobin .v2 }] } })
  live := {}
  env :=
    { hello := .ready ⟨"app.example".toList, [], [], [0x16, 0x03, 0x01]⟩
      head := .cancelled
      accepted := .cancelled
      selected := fun _ => .ready ⟨"192.0.2.9:443".toList, "app.example".toList⟩
      online := .cancelled
      connect := fun _ => .ready ()
      headerWritten }
  id := 1
  clientIp := .v4 ⟨#v[198, 51, 100, 7]⟩
  remoteAddress := "198.51.100.7:50000".toList
  startedMs := 0
  endedMs := 5

def strayVisit : Connection := { edgeVisit (.ready ()) with listener := .tls (.mandatory none) }

theorem edgeVisit_connected (headerWritten : Wait Text Unit) :
    ((edgeVisit headerWritten).final fun _ _ => false).connected = true := by
  cases headerWritten <;> rfl

theorem edgeVisit_admitted (headerWritten : Wait Text Unit) :
    ¬ (edgeVisit headerWritten).Refused fun _ _ => false := by
  rintro ⟨hello, read, refused⟩
  cases read
  exact refused

theorem edgeVisit_accounted :
    ((edgeVisit (.ready ())).final fun _ _ => false).connected = true ∧
      (edgeVisit (.ready ())).Accounted fun _ _ => false := by
  refine ⟨edgeVisit_connected _, ?_⟩
  exact (connection_accounted_iff _ _).mpr ⟨edgeVisit_admitted _, fun _ => .inr rfl⟩

/-- The default listener refuses a host and counts none of the three bytes; and an upstream that is
connected but does not take the header counts as one that was never connected. -/
theorem refused_and_connected_recorded_failed :
    (strayVisit.Refused (fun _ _ => false) ∧ strayVisit.received = 3 ∧
      ∃ record, (strayVisit.course fun _ _ => false).Emits record ∧ record.status = .connectFailed ∧
        record.uploadedBytes = 0) ∧
    ((edgeVisit (.failed "broken pipe".toList)).final fun _ _ => false).connected = true ∧
      ∃ record, ((edgeVisit (.failed "broken pipe".toList)).course fun _ _ => false).Emits record ∧
        record.status = .connectFailed := by
  constructor
  · exact ⟨⟨_, rfl, trivial⟩, rfl, _, Course.emits_record _, rfl, rfl⟩
  · exact ⟨edgeVisit_connected _, _, Course.emits_record _, rfl⟩

end Example

end TlsProxy.Listener
