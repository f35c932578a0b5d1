import TlsProxy.Forward.Groups

/-! `parse_targets`, the routes and listeners of `forward/health.rs` that name
their backends, and the registration of forward listeners. A pass over the
configuration is the list of what it does one after the other; it stops at the
first failure. -/
namespace TlsProxy.Forward

open Config

def splitTargets (targets : Text) : List Text :=
  ((targets.splitOnP fun c => c == ',' || c == ';').map Text.trim).filter fun target => !target.isEmpty

def parseTarget (target : Text) : Except Text Text :=
  if target.any Text.isWhitespace then
    .error ("forward target ".toList ++ quoted target ++ " must not contain whitespace".toList)
  else
    match Text.splitOnceText "://".toList target with
    | some (scheme, rest) =>
      let suggestion := (Text.stripSuffix ['/'] rest).getD rest
      .error ("forward target ".toList ++ quoted target ++
        " must be a plaintext host:port with no scheme — drop the ".toList ++ quoted (scheme ++ "://".toList) ++
        " prefix and use ".toList ++ quoted suggestion)
    | none =>
      match HostAndPort.fromStr target with
      | .error cause =>
        .error ("invalid forward target ".toList ++ quoted target ++ ": ".toList ++ cause)
      | .ok parsed =>
        if parsed.port = 0 then
          .error ("forward target ".toList ++ quoted target ++ " has an invalid port".toList)
        else .ok parsed.display

def parseTargets (targets : Text) : Except Text (List Text) := do
  let parsed ← (splitTargets targets).mapM parseTarget
  if parsed.isEmpty then throw "forward mode requires at least one target".toList
  return parsed

def matcherLabel (matcher : HostMatcher) : Text :=
  Text.join ", ".toList (matcher.exact ++
    matcher.suffix.map (fun value => "*.".toList ++ Text.trimStartMatches (· == '.') value) ++
    matcher.patterns.map fun value => '/' :: value.asStr ++ ['/'])

def transportLabel (tls : Bool) : Text := if tls then "tls".toList else "plaintext".toList

def loadBalancingLabel : HttpLoadBalancing → Text
  | .roundRobin => "round_robin".toList
  | .clientIpHash => "client_ip_hash".toList

structure BoundRoute where
  listener : Text
  host : Text := []
  path : Text := []
  backend : Text
  transport : Text
  loadBalancing : Text
deriving DecidableEq

structure HealthBinding extends BoundRoute where
  group : GroupKey
deriving DecidableEq

inductive Work
  /-- Ensure a group, push a binding to it, and collect its key for a forward listener. -/
  | ensure (request : GroupRequest) (binding : Option BoundRoute) (collect : Bool)
  /-- Enter the collected keys into `FORWARD_LISTENERS`. -/
  | listen (listener : Text)
  | fail (message : Text)
deriving DecidableEq

def backendServerName (backend : HttpBackend) (requested : HostAndPort) : Text :=
  backend.tlsServerName.getD requested.host

def httpRequest (proxyProtocol : ProxyProtocol) (backend : HttpBackend) (requested : HostAndPort) : GroupRequest where
  requested
  upstreamTls := backend.transport == .tls
  httpHealth := true
  proxyProtocol
  tlsServerName := backendServerName backend requested

def bindBackend (listener host path : Text) (targetPort : UInt16) (loadBalancing : HttpLoadBalancing)
    (proxyProtocol : ProxyProtocol) (backend : HttpBackend) : Work :=
  let route : BoundRoute :=
    { listener, host, path
      backend := backend.address
      transport := transportLabel (backend.transport == .tls)
      loadBalancing := loadBalancingLabel loadBalancing }
  .ensure (httpRequest proxyProtocol backend (HostAndPort.parseOrDefault backend.address targetPort.toNat))
    (some route) false

mutual

def bindHttpAction (listener host path : Text) : HttpRouteAction → List Work
  | { targetPort, backends, loadBalancing, proxyProtocol, paths, .. } =>
    backends.map (bindBackend listener host path targetPort loadBalancing proxyProtocol) ++
      bindPaths listener host paths

def bindPaths (listener host : Text) : List HttpPathRoute → List Work
  | [] => []
  | route :: rest => bindPath listener host route ++ bindPaths listener host rest

def bindPath (listener host : Text) : HttpPathRoute → List Work
  | { pathPrefix, action, .. } => bindPathAction listener host pathPrefix action

def bindPathAction (listener host pathPrefix : Text) : HttpPathAction → List Work
  | .reverseProxy action => bindHttpAction listener host pathPrefix action
  | .staticFiles .. => []

end

/-- The explicit targets of a layer-4 route, its default port and the settings of its groups. -/
def l4Backends : TlsRouteAction → Option (Text × Nat × Bool × HttpLoadBalancing × ProxyProtocol)
  | .passthrough targetPort (some target) loadBalancing proxyProtocol =>
    some (target, targetPort.toNat, true, loadBalancing, proxyProtocol)
  | .terminate targetPort (some target) upstream loadBalancing proxyProtocol =>
    some (target, targetPort.toNat, upstream == .tls, loadBalancing, proxyProtocol)
  | _ => none

def probeServerName (matcher : HostMatcher) (backendHost : Text) : Text := matcher.exact.head?.getD backendHost

def l4Request (requested : HostAndPort) (upstreamTls : Bool) (proxyProtocol : ProxyProtocol) (tlsServerName : Text) :
    GroupRequest :=
  { requested, upstreamTls, httpHealth := false, proxyProtocol, tlsServerName }

def bindL4Route (listener : Text) (matcher : HostMatcher) (action : TlsRouteAction) : List Work :=
  match l4Backends action with
  | none => []
  | some (targets, defaultPort, upstreamTls, loadBalancing, proxyProtocol) =>
    match parseTargets targets with
    | .error message => [.fail message]
    | .ok targets => targets.map fun target =>
      let requested := HostAndPort.parseOrDefault target defaultPort
      if requested.port = 0 then
        .fail ("route target ".toList ++ quoted target ++ " has an invalid port".toList)
      else
        let route : BoundRoute :=
          { listener
            host := matcherLabel matcher
            backend := target
            transport := transportLabel upstreamTls
            loadBalancing := loadBalancingLabel loadBalancing }
        .ensure (l4Request requested upstreamTls proxyProtocol (probeServerName matcher requested.host))
          (some route) false

def bindTlsRoute (listener : Text) (route : TlsHostRoute) : List Work :=
  match route.action with
  | .reverseProxy action => bindHttpAction listener (matcherLabel route.matcher) ['/'] action
  | action => bindL4Route listener route.matcher action

def forwardRequest (configured : RawForwardListenerConfig) (target : Text) : GroupRequest :=
  let requested := HostAndPort.parseOrDefault target 0
  l4Request requested configured.upstreamTls configured.proxyProtocol requested.host

/-- The targets of a forward listener one by one, and its entry in `FORWARD_LISTENERS` at the end. -/
def forwardWork (listener : Text) (configured : RawForwardListenerConfig) (each : Text → Work) : List Work :=
  match parseTargets configured.targets with
  | .error message => [.fail message]
  | .ok targets => targets.map each ++ [.listen listener]

def bindForwardListener (listener : Text) (configured : RawForwardListenerConfig) : List Work :=
  forwardWork listener configured fun target =>
    let route : BoundRoute :=
      { listener
        backend := target
        transport := transportLabel configured.upstreamTls
        loadBalancing := loadBalancingLabel configured.loadBalancing }
    .ensure (forwardRequest configured target) (some route) true

def registerForwardListener (listener : Text) (configured : RawForwardListenerConfig) : List Work :=
  forwardWork listener configured fun target => .ensure (forwardRequest configured target) none true

def bindListener (listener : Text) : AdditionalListenerConfig → List Work
  | .tls value => value.routing.routes.flatMap (bindTlsRoute listener)
  | .http value => value.routes.flatMap fun route =>
    bindHttpAction listener (matcherLabel route.matcher) ['/'] route.action
  | .forward value => bindForwardListener listener value
  | .redirect _ => []

def defaultListenerName : Text := "__default_https__".toList

def enabledListeners (config : RuntimeConfig) : List (Text × AdditionalListenerConfig) :=
  config.additionalListeners.entries.filter fun entry => !config.disabledListeners.contains entry.1

def bindings (config : RuntimeConfig) : List Work :=
  config.defaultListener.ordinaryTraffic.routes.flatMap (bindTlsRoute defaultListenerName) ++
    (enabledListeners config).flatMap fun entry => bindListener entry.1 entry.2

def enabledForwards (config : RuntimeConfig) : List (Text × RawForwardListenerConfig) :=
  (enabledListeners config).filterMap fun entry =>
    match entry.2 with
    | .forward value => some (entry.1, value)
    | _ => none

def registrations (config : RuntimeConfig) : List Work :=
  (enabledForwards config).flatMap fun entry => registerForwardListener entry.1 entry.2

def workResult : List Work → Except Text Unit
  | [] => .ok ()
  | .fail message :: _ => .error message
  | .ensure .. :: rest | .listen _ :: rest => workResult rest

theorem workResult_eq_ok_iff {work : List Work} : workResult work = .ok () ↔ ∀ message, Work.fail message ∉ work := by
  induction work with
  | nil => simp [workResult]
  | cons first rest ih =>
    cases first with
    | ensure request binding collect => simp [workResult, ih]
    | listen listener => simp [workResult, ih]
    | fail message =>
      simp only [workResult, reduceCtorEq, List.mem_cons, not_or, false_iff, not_forall]
      grind

def boundBindings (resolve : Text → Nat → Option Text) (work : List Work) : List HealthBinding :=
  work.filterMap fun
    | .ensure request (some route) _ => some ⟨route, request.keyUnder resolve⟩
    | _ => none

def registeredKeys (resolve : Text → Nat → Option Text) (work : List Work) : List GroupKey :=
  (boundBindings resolve work).map HealthBinding.group

def Work.Binds : Work → Prop
  | .ensure _ (some _) false => True
  | _ => False

theorem bindBackend_binds (listener host path : Text) (targetPort : UInt16) (loadBalancing : HttpLoadBalancing)
    (proxyProtocol : ProxyProtocol) (backend : HttpBackend) :
    (bindBackend listener host path targetPort loadBalancing proxyProtocol backend).Binds := trivial

mutual

theorem bindHttpAction_binds (listener host path : Text) :
    ∀ action, ∀ item ∈ bindHttpAction listener host path action, item.Binds
  | { targetPort, backends, loadBalancing, proxyProtocol, paths, .. } => by
    intro item member
    rw [bindHttpAction] at member
    rcases List.mem_append.mp member with own | nested
    · obtain ⟨backend, -, rfl⟩ := List.mem_map.mp own
      exact bindBackend_binds ..
    · exact bindPaths_binds listener host paths item nested

theorem bindPaths_binds (listener host : Text) : ∀ paths, ∀ item ∈ bindPaths listener host paths, item.Binds
  | [] => by
    intro item member
    cases member
  | route :: rest => by
    intro item member
    rw [bindPaths] at member
    rcases List.mem_append.mp member with first | later
    · exact bindPath_binds listener host route item first
    · exact bindPaths_binds listener host rest item later

theorem bindPath_binds (listener host : Text) : ∀ route, ∀ item ∈ bindPath listener host route, item.Binds
  | { pathPrefix, action, .. } => by
    intro item member
    rw [bindPath] at member
    exact bindPathAction_binds listener host pathPrefix action item member

theorem bindPathAction_binds (listener host pathPrefix : Text) :
    ∀ action, ∀ item ∈ bindPathAction listener host pathPrefix action, item.Binds
  | .reverseProxy action => by
    intro item member
    rw [bindPathAction] at member
    exact bindHttpAction_binds listener host pathPrefix action item member
  | .staticFiles .. => by
    intro item member
    rw [bindPathAction] at member
    cases member

end

theorem bindL4Route_binds (listener : Text) (matcher : HostMatcher) (action : TlsRouteAction) :
    ∀ item ∈ bindL4Route listener matcher action, item.Binds ∨ ∃ message, item = .fail message := by
  intro item member
  unfold bindL4Route at member
  split at member
  · cases member
  · split at member
    · grind
    · obtain ⟨target, -, rfl⟩ := List.mem_map.mp member
      dsimp only
      split
      · exact .inr ⟨_, rfl⟩
      · exact .inl trivial

theorem bindTlsRoute_binds (listener : Text) (route : TlsHostRoute) :
    ∀ item ∈ bindTlsRoute listener route, item.Binds ∨ ∃ message, item = .fail message := by
  grind [bindTlsRoute, bindHttpAction_binds, bindL4Route_binds]

theorem mem_enabledForwards {config : RuntimeConfig} {listener : Text} {value : RawForwardListenerConfig} :
    (listener, value) ∈ enabledForwards config ↔ (listener, .forward value) ∈ enabledListeners config := by
  unfold enabledForwards
  rw [List.mem_filterMap]
  constructor
  · grind
  · grind

theorem listen_mem_forwardWork (listener : Text) (configured : RawForwardListenerConfig) (each : Text → Work) :
    Work.listen listener ∈ forwardWork listener configured each ∨
      ∃ message, Work.fail message ∈ forwardWork listener configured each := by grind [forwardWork]

theorem mem_forwardWork {listener : Text} {configured : RawForwardListenerConfig} {each : Text → Work} {item : Work}
    (member : item ∈ forwardWork listener configured each) :
    (∃ target, item = each target) ∨ item = .listen listener ∨ ∃ message, item = .fail message := by
  unfold forwardWork at member
  split at member
  · grind
  · grind

theorem ensure_mem_bindings {config : RuntimeConfig} {request : GroupRequest} {binding : Option BoundRoute}
    {collect : Bool} (member : Work.ensure request binding collect ∈ bindings config) : binding.isSome = true := by
  have bound : (Work.ensure request binding collect).Binds ∨
      (∃ message, Work.ensure request binding collect = .fail message) → binding.isSome = true := by
    rintro (binds | ⟨message, same⟩)
    · cases binding with
      | none => cases binds
      | some route => rfl
    · cases same
  rcases List.mem_append.mp member with default | additional
  · grind [bindTlsRoute_binds]
  · obtain ⟨⟨listener, entry⟩, -, inside⟩ := List.mem_flatMap.mp additional
    cases entry with
    | tls value =>
      obtain ⟨route, -, inside⟩ := List.mem_flatMap.mp inside
      exact bound (bindTlsRoute_binds _ route _ inside)
    | http value =>
      obtain ⟨route, -, inside⟩ := List.mem_flatMap.mp inside
      grind [bindHttpAction_binds]
    | redirect value => cases inside
    | forward value =>
      rcases mem_forwardWork inside with ⟨target, same⟩ | same | ⟨message, same⟩
      · cases same
        rfl
      · cases same
      · cases same

theorem listen_mem_bindings {config : RuntimeConfig} {listener : Text}
    (enabled : listener ∈ (enabledForwards config).map Prod.fst) :
    Work.listen listener ∈ bindings config ∨ ∃ message, Work.fail message ∈ bindings config := by
  obtain ⟨⟨name, value⟩, member, rfl⟩ := List.mem_map.mp enabled
  have inside : ∀ item ∈ bindForwardListener name value, item ∈ bindings config := by
    intro item belongs
    exact List.mem_append_right _ (List.mem_flatMap.mpr ⟨_, mem_enabledForwards.mp member, belongs⟩)
  rcases listen_mem_forwardWork name value _ with listens | ⟨message, fails⟩
  · exact .inl (inside _ listens)
  · exact .inr ⟨message, inside _ fails⟩

theorem listen_mem_registrations {config : RuntimeConfig} {listener : Text}
    (member : Work.listen listener ∈ registrations config) : listener ∈ (enabledForwards config).map Prod.fst := by
  obtain ⟨⟨name, value⟩, enabled, inside⟩ := List.mem_flatMap.mp member
  rcases mem_forwardWork inside with ⟨target, same⟩ | same | ⟨message, same⟩
  · cases same
  · grind
  · cases same

end TlsProxy.Forward
