import TlsProxy.Forward.Routes
import TlsProxy.Lib.Workers
import TlsProxy.Listener.Default
import TlsProxy.Net.Interception
import TlsProxy.Runtime.Accounting

/-! `handle_connection` of the mandatory listener, the connection tasks of the other
listeners, and the data-plane workers behind them, by what they tell the
connection tracker. -/
namespace TlsProxy.Listener

open Config Accounting Refusals Workers Forward

structure Tracked where
  notes : List Update := []
  connected : Bool := false

abbrev ConnectionWorker := Worker Text Tracked

inductive Traffic
  | uploaded (count : Nat)
  | downloaded (count : Nat)

def Traffic.update : Traffic → Update
  | .uploaded count => .addUploaded count
  | .downloaded count => .addDownloaded count

/-- How the waits and checks of a worker turn out. -/
structure Surroundings where
  hello : Wait Text Net.PeekedHello
  /-- The request head, of the decrypted stream behind TLS. -/
  head : Wait Text Http.HttpHead
  localAddr : Except Text Unit := .ok ()
  challengeIsActive : Text → Bool := fun _ => false
  acmeHandshake : Wait Text Unit := .ready ()
  controlPlane : Wait Text Unit := .ready ()
  looped : List UInt8 → Bool := fun _ => false
  loopedToken : Text → Bool := fun _ => false
  certificate : Wait Text Unit := .ready ()
  /-- The server name that the TLS acceptor reports. -/
  accepted : Wait Text Text
  handshake : Wait Text Unit := .ready ()
  selected : Selection → Wait Text SelectedTarget
  online : Wait Text SelectedTarget
  selfConnect : Text → Wait Text Unit := fun _ => .ready ()
  connect : Text → Wait Text Unit
  /-- The write of a PROXY header. -/
  headerWritten : Wait Text Unit := .ready ()
  /-- A response that the proxy makes itself. -/
  responded : Wait Text Unit := .ready ()
  /-- What is counted from the connection to the upstream on until the end. -/
  traffic : List Traffic := []

def note (update : Update) : ConnectionWorker Unit := change fun s => { s with notes := s.notes ++ [update] }

def check (condition : Bool) (cause : Text) : ConnectionWorker Unit := refuseUnless (condition = true) (.failed cause)

def checked {α : Type} (result : Except Text α) : ConnectionWorker α := decided (result.mapError .failed)

def transfer : List Traffic → ConnectionWorker Unit
  | [] => pure ()
  | first :: rest => do
    note first.update
    transfer rest

section Workers

variable (env : Surroundings) (listener : Text) (clientIp : IpAddr)

def announced (proxyProtocol : ProxyProtocol) : Wait Text Unit :=
  if proxyProtocol = .none then .ready () else env.headerWritten

def established : ConnectionWorker Unit := do
  note (.setStatus .ok)
  transfer env.traffic

def connected : ConnectionWorker Unit := change fun s => { s with connected := true }

/-- The end of the workers whose failures close the connection. -/
def connectUpstream (endpoint : Text) (proxyProtocol : ProxyProtocol) : ConnectionWorker Unit := do
  await (env.connect endpoint)
  connected
  await (announced env proxyProtocol)
  established env

def setTarget (selected : SelectedTarget) : ConnectionWorker Unit :=
  note (.setTarget selected.tlsServerName selected.endpoint)

def passthroughRun (hello : Net.PeekedHello) (route : PassthroughRoute) : ConnectionWorker Unit := do
  check (!env.looped hello.random) "detected self-connection loop".toList
  note (.setSni hello.sniHost)
  note (.addUploaded hello.buffered.length)
  let selected ← await (env.selected (passthroughSelection listener clientIp hello.sniHost route))
  setTarget selected
  connectUpstream env selected.endpoint route.proxyProtocol

/-- The self-connection check, which a plaintext upstream of a terminated connection skips. -/
def selfConnectCheck (upstreamTls : Bool) (endpoint : Text) : Wait Text Unit :=
  if upstreamTls then env.selfConnect endpoint else .ready ()

def terminateRun (hello : Net.PeekedHello) (route : TerminateRoute) : ConnectionWorker Unit := do
  let sni ← await env.accepted
  check (hello.sniHost == sni) "TLS SNI changed between inspection and handshake".toList
  note (.setSni sni)
  let selected ← await (env.selected (terminateSelection listener clientIp sni route))
  setTarget selected
  await env.handshake
  await (selfConnectCheck env route.upstreamTls selected.endpoint)
  connectUpstream env selected.endpoint route.proxyProtocol

/-- The part of `http::run` behind the backend selection: a backend that is not there is answered with 502. -/
def forwardRun (key : Text) (head : Http.HttpHead) (action : HttpRouteAction) : ConnectionWorker Unit :=
  awaitOr (env.selected (selectHttpBackend key head.host clientIp action)) (await env.responded) fun selected => do
    setTarget selected
    await (env.selfConnect selected.endpoint)
    awaitOr (env.connect selected.endpoint) (await env.responded) fun _ => do
      connected
      awaitOr (announced env action.proxyProtocol) (await env.responded) fun _ => established env

def httpRun (head : Http.HttpHead) (key : Text) (action : HttpRouteAction) (expectedSni : Option Text) :
    ConnectionWorker Unit := do
  let headerLen ← checked (Http.admitRequest env.loopedToken head expectedSni)
  note (.setSni head.host)
  note (.addUploaded headerLen)
  match Http.dispatch env.loopedToken head (some (key, action)) expectedSni with
  | .forward head _ (some (key, action)) => forwardRun env clientIp key head action
  | _ => await env.responded

def reverseProxyRun (hello : Net.PeekedHello) (action : HttpRouteAction) : ConnectionWorker Unit := do
  let _ ← await env.accepted
  await env.handshake
  let head ← await env.head
  httpRun env clientIp head (httpRouteKey listener hello.sniHost) action (some hello.sniHost)

def dispatchOrdinary (hello : Net.PeekedHello) (action : TlsRouteAction) : ConnectionWorker Unit := do
  check (!env.looped hello.random) "detected self-connection loop".toList
  match action with
  | .passthrough targetPort target loadBalancing proxyProtocol =>
    passthroughRun env listener clientIp hello { target, targetPort, loadBalancing, proxyProtocol }
  | .terminate targetPort target upstream loadBalancing proxyProtocol => do
    await env.certificate
    terminateRun env listener clientIp hello
      { target, targetPort, upstreamTls := upstream == .tls, loadBalancing, proxyProtocol }
  | .reverseProxy action => do
    await env.certificate
    reverseProxyRun env listener clientIp hello action
  | .reject => fail "default-listener route explicitly rejected SNI".toList

def l4Run (proxyProtocol : ProxyProtocol) : ConnectionWorker Unit := do
  let selected ← await env.online
  setTarget selected
  await (env.selfConnect selected.endpoint)
  connectUpstream env selected.endpoint proxyProtocol

end Workers

def peeked (hello : Net.PeekedHello) : ClientHello := ⟨hello.sniHost, hello.alpnProtocols⟩

def actionType : TlsRouteAction → ListenerType
  | .passthrough .. | .reject => .tlsPassthrough
  | .terminate .. | .reverseProxy _ => .tlsTerminate

def routeType : ConnectionRoute → ListenerType
  | .controlPlane _ | .acmeChallenge _ => .tlsTerminate
  | .ordinary _ action => actionType action
  | .reject _ => .tlsPassthrough

inductive AnyListener
  | tls (listener : TlsListener)
  | http (name : Text) (config : HostRoutedHttpListenerConfig)
  | forward (name : Text) (config : RawForwardListenerConfig)

def httpInForce (live : RuntimeConfig) (name : Text) (captured : HostRoutedHttpListenerConfig) :
    HostRoutedHttpListenerConfig :=
  match live.additionalListeners.get? name with
  | some (.http config) | some (.redirect config) => config
  | _ => captured

def forwardInForce (live : RuntimeConfig) (name : Text) (captured : RawForwardListenerConfig) :
    RawForwardListenerConfig :=
  match live.additionalListeners.get? name with
  | some (.forward config) => config
  | _ => captured

section Tasks

variable (isMatch : Regex → Text → Bool) (live : RuntimeConfig) (env : Surroundings) (clientIp : IpAddr)

def mandatoryTask (captured : Option Text) : ConnectionWorker Unit := do
  let hello ← await env.hello
  note (.setSni hello.sniHost)
  let route := decideRoute isMatch (peeked hello) live.defaultListener (controlHostname live captured)
    env.challengeIsActive
  note (.setListenerType (routeType route))
  match route with
  | .controlPlane _ => do
    await env.controlPlane
    note (.setStatus .ok)
  | .acmeChallenge _ => do
    checked env.localAddr
    await env.acmeHandshake
    note (.setStatus .ok)
  | .ordinary _ action => do
    checked env.localAddr
    dispatchOrdinary env defaultListenerName clientIp hello action
  | .reject reason => do
    checked env.localAddr
    fail ("default-listener rejected connection: ".toList ++ match reason with
      | .missingSni => "MissingSni".toList
      | .policyDenied => "PolicyDenied".toList)

def tlsTask (name : Text) (captured : HostRoutedTlsListenerConfig) : ConnectionWorker Unit := do
  let hello ← await env.hello
  match (routingInForce live name captured).selectRoute isMatch hello.sniHost with
  | none => fail "SNI denied by listener policy".toList
  | some action => do
    note (.setListenerType (actionType action))
    checked env.localAddr
    dispatchOrdinary env name clientIp hello action

def httpTask (name : Text) (captured : HostRoutedHttpListenerConfig) : ConnectionWorker Unit := do
  note (.setListenerType .httpPassthrough)
  let head ← await env.head
  match (httpInForce live name captured).selectRoute isMatch head.host with
  | none => fail "HTTP host denied by reverse-proxy listener policy".toList
  | some action =>
    match action.behavior with
    | .redirectHttps => await env.responded
    | .reverseProxy => do
      checked env.localAddr
      httpRun env clientIp head (httpRouteKey name head.host) action none

def forwardTask (name : Text) (captured : RawForwardListenerConfig) : ConnectionWorker Unit := do
  note (.setListenerType .portForward)
  checked env.localAddr
  l4Run env (forwardInForce live name captured).proxyProtocol

def AnyListener.task : AnyListener → ConnectionWorker Unit
  | .tls (.mandatory captured) => mandatoryTask isMatch live env clientIp captured
  | .tls (.additional name captured) => tlsTask isMatch live env clientIp name captured
  | .http name captured => httpTask isMatch live env clientIp name captured
  | .forward name captured => forwardTask live env name captured

end Tasks

def AnyListener.guard : AnyListener → ConnGuard
  | .tls (.mandatory _) => ⟨defaultListenerName, .tlsPassthrough⟩
  | .tls (.additional name _) => ⟨name, .tlsPassthrough⟩
  | .http name _ => ⟨name, .httpPassthrough⟩
  | .forward name _ => ⟨name, .portForward⟩

end TlsProxy.Listener
