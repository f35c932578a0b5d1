import TlsProxy.Config.HostMatch
import TlsProxy.Forward.Selection
import TlsProxy.Http.Dispatch

/-! How the data plane comes from a routed connection to a selection: the workers
behind `dispatch_non_control` for TLS routes, and `run_http_listener` for plain
HTTP. -/
namespace TlsProxy.Forward

open Config

structure PassthroughRoute where
  target : Option Text
  targetPort : UInt16
  loadBalancing : HttpLoadBalancing
  proxyProtocol : ProxyProtocol

structure TerminateRoute where
  target : Option Text
  targetPort : UInt16
  upstreamTls : Bool
  loadBalancing : HttpLoadBalancing
  proxyProtocol : ProxyProtocol

section Workers

variable (listener : Text) (clientIp : IpAddr)

def passthroughSelection (sni : Text) (route : PassthroughRoute) : Selection :=
  selectRoutedPool listener sni route.target route.targetPort.toNat true route.proxyProtocol clientIp
    route.loadBalancing

def terminateSelection (sni : Text) (route : TerminateRoute) : Selection :=
  selectRoutedPool listener sni route.target route.targetPort.toNat route.upstreamTls route.proxyProtocol clientIp
    route.loadBalancing

def httpRouteKey (host : Text) : Text := listener ++ ':' :: Text.toAsciiLowercase host

def httpSelection : Http.Outcome → Option Selection
  | .forward head _ (some (key, action)) => some (selectHttpBackend key head.host clientIp action)
  | _ => none

def l4Selection (sni : Text) : TlsRouteAction → Option Selection
  | .passthrough targetPort target loadBalancing proxyProtocol =>
    some (passthroughSelection listener clientIp sni { target, targetPort, loadBalancing, proxyProtocol })
  | .terminate targetPort target upstream loadBalancing proxyProtocol =>
    some (terminateSelection listener clientIp sni
      { target, targetPort, upstreamTls := upstream == .tls, loadBalancing, proxyProtocol })
  | .reverseProxy _ | .reject => none

/-- What `dispatch_non_control` does with a routed connection. The head is that of the decrypted stream, which only
the reverse proxy reads. -/
def dispatchTls (looped : Text → Bool) (sni : Text) (head : Http.HttpHead) : TlsRouteAction → Option Selection
  | .reverseProxy action =>
    httpSelection clientIp (Http.dispatch looped head (some (httpRouteKey listener sni, action)) (some sni))
  | action => l4Selection listener clientIp sni action

def dispatchHttp (looped : Text → Bool) (head : Http.HttpHead) (action : HttpRouteAction) : Option Selection :=
  match action.behavior with
  | .redirectHttps => none
  | .reverseProxy =>
    httpSelection clientIp (Http.dispatch looped head (some (httpRouteKey listener head.host, action)) none)

end Workers

inductive Entry
  | l4 (matcher : HostMatcher) (action : TlsRouteAction)
  /-- The backends of a host action, or of a path action that requests are dispatched to directly. -/
  | http (host path : Text) (action : HttpRouteAction)
  /-- A route of a redirect listener, whose requests are answered by redirects. -/
  | redirect (action : HttpRouteAction)

def Entry.Explicit : Entry → Prop
  | .l4 _ action => (l4Backends action).isSome = true
  | .http _ _ action | .redirect action => action.backends ≠ []

def Entry.work (listener : Text) : Entry → List Work
  | .l4 matcher action => bindL4Route listener matcher action
  | .http host path action => action.backends.map
      (bindBackend listener host path action.targetPort action.loadBalancing action.proxyProtocol)
  | .redirect _ => []

def Entry.selection (listener key host : Text) (clientIp : IpAddr) : Entry → Option Selection
  | .l4 _ action => l4Selection listener clientIp host action
  | .http _ _ action => some (selectHttpBackend key host clientIp action)
  | .redirect action =>
    match action.behavior with
    | .redirectHttps => none
    | .reverseProxy => some (selectHttpBackend key host clientIp action)

def httpEntries (host : Text) (action : HttpRouteAction) : List Entry :=
  .http host ['/'] action :: action.paths.filterMap fun route =>
    match route.action with
    | .reverseProxy inner => some (.http host route.pathPrefix inner)
    | .staticFiles .. => none

def tlsEntries (route : TlsHostRoute) : List Entry :=
  match route.action with
  | .reverseProxy action => httpEntries (matcherLabel route.matcher) action
  | action => [.l4 route.matcher action]

def listenerEntries : AdditionalListenerConfig → List Entry
  | .tls value => value.routing.routes.flatMap tlsEntries
  | .http value => value.routes.flatMap fun route => httpEntries (matcherLabel route.matcher) route.action
  | .redirect value => value.routes.map fun route => .redirect route.action
  | .forward _ => []

def entries (config : RuntimeConfig) : List (Text × Entry) :=
  (config.defaultListener.ordinaryTraffic.routes.flatMap tlsEntries).map (defaultListenerName, ·) ++
    (enabledListeners config).flatMap fun listener => (listenerEntries listener.2).map (listener.1, ·)

section Dispatched

variable {listener : Text} {clientIp : IpAddr} {looped : Text → Bool} {head : Http.HttpHead} {selection : Selection}

variable (listener clientIp selection) in
def SelectedBy (entries : List Entry) : Prop :=
  ∃ entry ∈ entries, ∃ key host, entry.selection listener key host clientIp = some selection

/-- The action that a request is dispatched to, of the host or of a path, is an entry of its route. -/
theorem httpSelection_entry {key : Text} {action : HttpRouteAction} {sni : Option Text} (host : Text)
    (dispatched : httpSelection clientIp (Http.dispatch looped head (some (key, action)) sni) = some selection) :
    SelectedBy listener clientIp selection (httpEntries host action) := by
  unfold httpSelection at dispatched
  split at dispatched
  · rename_i sent framing _ chosen forwarded
    have member : ∀ route, Http.selectPath action head.target = some route → route ∈ action.paths := by
      intro route selected
      obtain ⟨_, before, after, split, -⟩ := Http.routeOfPath_eq_some_iff.mp selected
      grind
    have followed : ∀ route own, Http.follow head key route = .forward sent framing (some (own, chosen)) →
        route.action = .reverseProxy chosen := by
      intro route own
      fun_cases Http.follow head key route <;> grind [Http.framed]
    have below : chosen = action ∨ ∃ route ∈ action.paths, route.action = .reverseProxy chosen := by
      grind [Http.dispatch, Http.routed, Http.framed]
    rcases below with rfl | ⟨route, member, proxied⟩
    · exact ⟨_, List.mem_cons_self, _, _, dispatched⟩
    · have listed : .http host route.pathPrefix chosen ∈ httpEntries host action := by
        grind [httpEntries]
      exact ⟨_, listed, _, _, dispatched⟩
  · cases dispatched

theorem dispatchTls_entry {route : TlsHostRoute} {sni : Text}
    (dispatched : dispatchTls listener clientIp looped sni head route.action = some selection) :
    SelectedBy listener clientIp selection (tlsEntries route) := by
  obtain ⟨name, matcher, action⟩ := route
  cases action with
  | reverseProxy action => exact httpSelection_entry _ dispatched
  | _ => exact ⟨_, List.mem_cons_self, [], sni, dispatched⟩

theorem dispatchHttp_entry {action : HttpRouteAction} (host : Text)
    (dispatched : dispatchHttp listener clientIp looped head action = some selection) :
    SelectedBy listener clientIp selection (httpEntries host action) := by
  unfold dispatchHttp at dispatched
  split at dispatched
  · cases dispatched
  · exact httpSelection_entry host dispatched

end Dispatched

end TlsProxy.Forward
