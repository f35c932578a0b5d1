import TlsProxy.Config.Addresses
import TlsProxy.Config.Validated
import TlsProxy.Forward.Routes

/-! The binding of an entry reads its targets with `parse_targets` and reads the
result again; the selection reads the same text in its own way. -/
namespace TlsProxy.Forward

open Config Checks

variable (resolve : Text → Nat → Option Text)

def lookedUpKeys : List (Except Text GroupRequest) → List GroupKey
  | .ok request :: rest => request.keyUnder resolve :: lookedUpKeys rest
  | .error _ :: _ | [] => []

def Entry.servedKeys (listener key host : Text) (clientIp : IpAddr) (entry : Entry) : List GroupKey :=
  match entry.selection listener key host clientIp with
  | some selection => lookedUpKeys resolve selection.requests
  | none => []

theorem parseTarget_ok {target parsed : Text} (ok : parseTarget target = .ok parsed) :
    ∃ requested, HostAndPort.fromStr target = .ok requested ∧ requested.port ≠ 0 ∧ parsed = requested.display := by
  unfold parseTarget at ok
  split at ok
  · cases ok
  · split at ok
    · cases ok
    · split at ok
      · cases ok
      · rename_i requested read
        split at ok
        · cases ok
        · grind

theorem parseTargets_ok {targets : Text} {parsed : List Text} (ok : parseTargets targets = .ok parsed) :
    (splitTargets targets).mapM parseTarget = .ok parsed ∧ parsed ≠ [] := by
  unfold parseTargets at ok
  obtain ⟨texts, mapped, rest⟩ := bind_eq_ok.mp ok
  split at rest
  · cases rest
  · rename_i nonempty
    cases rest
    exact ⟨mapped, by simpa using nonempty⟩

/-- A target before and after `parse_targets` names one address, whatever the default port. -/
theorem parseOrDefault_parsed {target parsed : Text} (ok : parseTarget target = .ok parsed) (defaultPort : Nat) :
    HostAndPort.parseOrDefault parsed defaultPort = HostAndPort.parseOrDefault target defaultPort ∧
      (HostAndPort.parseOrDefault target defaultPort).port ≠ 0 := by
  grind [parseTarget_ok, HostAndPort.parseOrDefault_display, HostAndPort.parseOrDefault_of_ok]

variable {resolve}

theorem registeredKeys_map {α : Type} {xs : List α} {item : α → Work} {key : α → GroupKey}
    (bound : ∀ x ∈ xs, ∃ request route collect,
      item x = .ensure request (some route) collect ∧ request.keyUnder resolve = key x) :
    registeredKeys resolve (xs.map item) = xs.map key := by
  induction xs with
  | nil => rfl
  | cons x rest ih =>
    obtain ⟨request, route, collect, made, same⟩ := bound x List.mem_cons_self
    rw [List.map_cons, List.map_cons, made, ← ih fun y member => bound y (List.mem_cons_of_mem _ member), ← same]
    rfl

theorem lookedUpKeys_map {α : Type} {xs : List α} {request : α → Except Text GroupRequest} {key : α → GroupKey}
    (asked : ∀ x ∈ xs, ∃ made, request x = .ok made ∧ made.keyUnder resolve = key x) :
    lookedUpKeys resolve (xs.map request) = xs.map key := by
  induction xs with
  | nil => rfl
  | cons x rest ih => grind [List.mem_cons_self, lookedUpKeys]

def l4Key (resolve : Text → Nat → Option Text) (defaultPort : Nat) (upstreamTls : Bool)
    (proxyProtocol : ProxyProtocol) (target : Text) : GroupKey :=
  (l4Request (HostAndPort.parseOrDefault target defaultPort) upstreamTls proxyProtocol []).keyUnder resolve

theorem registeredKeys_bindL4Route {listener targets : Text} {matcher : HostMatcher} {action : TlsRouteAction}
    {defaultPort : Nat} {upstreamTls : Bool} {loadBalancing : HttpLoadBalancing} {proxyProtocol : ProxyProtocol}
    (explicit : l4Backends action = some (targets, defaultPort, upstreamTls, loadBalancing, proxyProtocol))
    {parsed : List Text} (ok : parseTargets targets = .ok parsed) :
    registeredKeys resolve (bindL4Route listener matcher action) =
      (splitTargets targets).map (l4Key resolve defaultPort upstreamTls proxyProtocol) := by
  have mapped := (parseTargets_ok ok).1
  have keys : parsed.map (l4Key resolve defaultPort upstreamTls proxyProtocol) =
      (splitTargets targets).map (l4Key resolve defaultPort upstreamTls proxyProtocol) := by
    grind [map_eq_of_mapM, l4Key, parseOrDefault_parsed]
  simp only [bindL4Route, explicit, ok]
  rw [← keys]
  apply registeredKeys_map
  intro text member
  obtain ⟨target, -, read⟩ := exists_of_mem_mapM mapped member
  have same := parseOrDefault_parsed read defaultPort
  rw [← same.1] at same
  exact ⟨_, _, _, if_neg same.2, rfl⟩

theorem lookedUpKeys_selectRoutedPool {routeKey sni targets : Text} {defaultPort : Nat} {upstreamTls : Bool}
    {proxyProtocol : ProxyProtocol} {clientIp : IpAddr} {loadBalancing : HttpLoadBalancing} {parsed : List Text}
    (ok : parseTargets targets = .ok parsed) :
    lookedUpKeys resolve (selectRoutedPool routeKey sni (some targets) defaultPort upstreamTls proxyProtocol clientIp
      loadBalancing).requests = (splitTargets targets).map (l4Key resolve defaultPort upstreamTls proxyProtocol) := by
  obtain ⟨mapped, nonempty⟩ := parseTargets_ok ok
  have some_ : (splitTargets targets).isEmpty = false := by
    cases targets : splitTargets targets with
    | nil =>
      rw [targets] at mapped
      cases mapped
      exact absurd rfl nonempty
    | cons first rest => rfl
  simp only [selectRoutedPool, some_, Bool.false_eq_true, if_false]
  apply lookedUpKeys_map
  intro target member
  obtain ⟨text, read⟩ := mapM_isOk_iff.mp ⟨parsed, mapped⟩ target member
  rw [if_neg (parseOrDefault_parsed read defaultPort).2]
  exact ⟨_, rfl, rfl⟩

def httpKey (resolve : Text → Nat → Option Text) (proxyProtocol : ProxyProtocol) (targetPort : UInt16)
    (backend : HttpBackend) : GroupKey :=
  (httpRequest proxyProtocol backend (HostAndPort.parseOrDefault backend.address targetPort.toNat)).keyUnder resolve

theorem registeredKeys_backends (listener host path : Text) (action : HttpRouteAction) :
    registeredKeys resolve (Entry.work listener (.http host path action)) =
      action.backends.map (httpKey resolve action.proxyProtocol action.targetPort) := by
  apply registeredKeys_map
  intro backend member
  exact ⟨_, _, _, rfl, rfl⟩

theorem lookedUpKeys_selectHttpBackend {routeKey host : Text} {clientIp : IpAddr} {action : HttpRouteAction}
    (pool : action.backends ≠ [])
    (parse : ∀ backend ∈ action.backends, ∃ target, HostAndPort.fromStr backend.address = .ok target) :
    lookedUpKeys resolve (selectHttpBackend routeKey host clientIp action).requests =
      action.backends.map (httpKey resolve action.proxyProtocol action.targetPort) := by
  rw [selectHttpBackend, if_neg (by simpa using pool)]
  apply lookedUpKeys_map
  intro backend member
  obtain ⟨target, read⟩ := parse backend member
  refine ⟨httpRequest action.proxyProtocol backend target, by simp only [backendRequest, read], ?_⟩
  rw [httpKey, HostAndPort.parseOrDefault_of_ok read]

theorem bindHttpAction_backends {listener host path : Text} {action : HttpRouteAction} {item : Work}
    (member : item ∈ Entry.work listener (.http host path action)) :
    item ∈ bindHttpAction listener host path action := by
  obtain ⟨behavior, targetPort, target, upstream, backends, loadBalancing, proxyProtocol, hostHeader, paths,
    redirect⟩ := action
  rw [bindHttpAction]
  exact List.mem_append_left _ member

theorem mem_bindPaths {listener host : Text} {paths : List HttpPathRoute} {route : HttpPathRoute}
    (member : route ∈ paths) {inner : HttpRouteAction} (proxied : route.action = .reverseProxy inner) {item : Work}
    (inside : item ∈ bindHttpAction listener host route.pathPrefix inner) : item ∈ bindPaths listener host paths := by
  induction paths with
  | nil => cases member
  | cons first rest ih =>
    rw [bindPaths]
    rcases List.mem_cons.mp member with rfl | later
    · obtain ⟨pathPrefix, stripPrefix, basicAuth, action⟩ := route
      grind [bindPath, bindPathAction]
    · exact List.mem_append_right _ (ih later)

theorem work_subset_bindHttpAction {listener host : Text} {action : HttpRouteAction} {entry : Entry}
    (member : entry ∈ httpEntries host action) : entry.work listener ⊆ bindHttpAction listener host ['/'] action := by
  intro item inside
  rcases List.mem_cons.mp member with rfl | below
  · exact bindHttpAction_backends inside
  · obtain ⟨route, belongs, made⟩ := List.mem_filterMap.mp below
    split at made
    · rename_i inner proxied
      cases made
      obtain ⟨behavior, targetPort, target, upstream, backends, loadBalancing, proxyProtocol, hostHeader, paths,
        redirect⟩ := action
      grind [bindHttpAction, mem_bindPaths, bindHttpAction_backends]
    · cases made

theorem work_subset_bindTlsRoute {listener : Text} {route : TlsHostRoute} {entry : Entry}
    (member : entry ∈ tlsEntries route) : entry.work listener ⊆ bindTlsRoute listener route := by
  obtain ⟨name, matcher, action⟩ := route
  cases action with
  | reverseProxy action => exact work_subset_bindHttpAction member
  | passthrough targetPort target loadBalancing proxyProtocol =>
    cases List.mem_singleton.mp member
    exact List.Subset.refl _
  | terminate targetPort target upstream loadBalancing proxyProtocol =>
    cases List.mem_singleton.mp member
    exact List.Subset.refl _
  | reject =>
    cases List.mem_singleton.mp member
    exact List.Subset.refl _

theorem work_subset_bindListener {listener : Text} {config : AdditionalListenerConfig} {entry : Entry}
    (member : entry ∈ listenerEntries config) : entry.work listener ⊆ bindListener listener config := by
  cases config with
  | tls value =>
    obtain ⟨route, belongs, inside⟩ := List.mem_flatMap.mp member
    intro item bound
    exact List.mem_flatMap.mpr ⟨route, belongs, work_subset_bindTlsRoute inside bound⟩
  | http value =>
    obtain ⟨route, belongs, inside⟩ := List.mem_flatMap.mp member
    intro item bound
    exact List.mem_flatMap.mpr ⟨route, belongs, work_subset_bindHttpAction inside bound⟩
  | redirect value =>
    obtain ⟨route, -, rfl⟩ := List.mem_map.mp member
    exact List.nil_subset _
  | forward value => cases member

theorem work_subset_bindings {config : RuntimeConfig} {listener : Text} {entry : Entry}
    (member : (listener, entry) ∈ entries config) : entry.work listener ⊆ bindings config := by
  intro item bound
  rcases List.mem_append.mp member with default | additional
  · obtain ⟨inner, inside, same⟩ := List.mem_map.mp default
    cases same
    obtain ⟨route, belongs, inRoute⟩ := List.mem_flatMap.mp inside
    exact List.mem_append_left _ (List.mem_flatMap.mpr ⟨route, belongs, work_subset_bindTlsRoute inRoute bound⟩)
  · obtain ⟨⟨name, value⟩, enabled, inside⟩ := List.mem_flatMap.mp additional
    obtain ⟨inner, inListener, same⟩ := List.mem_map.mp inside
    cases same
    exact List.mem_append_right _ (List.mem_flatMap.mpr ⟨_, enabled, work_subset_bindListener inListener bound⟩)

def Entry.Valid : Entry → Prop
  | .l4 _ _ => True
  | .http _ _ action => ∀ backend ∈ action.backends, ∃ target, HostAndPort.fromStr backend.address = .ok target
  | .redirect action => action.behavior = .redirectHttps

theorem valid_of_proxying {env : Environment} {scope host : Text} {action : HttpRouteAction}
    (proxying : Proxying env scope action) {entry : Entry} (member : entry ∈ httpEntries host action) :
    entry.Valid := by
  rcases List.mem_cons.mp member with rfl | below
  · intro backend belongs
    grind [Proxying.backends]
  · obtain ⟨route, inside, made⟩ := List.mem_filterMap.mp below
    split at made
    · rename_i inner proxied
      cases made
      intro backend belongs
      obtain ⟨target, read, -⟩ := (proxying.inner inside proxied).backends backend belongs
      exact ⟨target, read⟩
    · cases made

theorem valid_of_tlsActions {env : Environment} {scope portError redirectError : Text} {routing : OrdinaryTlsConfig}
    (valid : routing.actions.forM (validateTlsAction env scope portError redirectError) = .ok ()) {entry : Entry}
    (member : entry ∈ routing.routes.flatMap tlsEntries) : entry.Valid := by
  obtain ⟨⟨name, matcher, action⟩, belongs, inside⟩ := List.mem_flatMap.mp member
  cases action with
  | reverseProxy action => exact valid_of_proxying (validateTlsActions_ok valid belongs rfl) inside
  | passthrough targetPort target loadBalancing proxyProtocol =>
    cases List.mem_singleton.mp inside
    trivial
  | terminate targetPort target upstream loadBalancing proxyProtocol =>
    cases List.mem_singleton.mp inside
    trivial
  | reject =>
    cases List.mem_singleton.mp inside
    trivial

theorem valid_of_listener {env : Environment} {name : Text} {listener : AdditionalListenerConfig}
    (valid : ListenerValid env name listener) {entry : Entry} (member : entry ∈ listenerEntries listener) :
    entry.Valid := by
  cases listener with
  | tls value => exact valid_of_tlsActions valid member
  | http value =>
    obtain ⟨route, belongs, inside⟩ := List.mem_flatMap.mp member
    exact valid_of_proxying (validateHttpListener_ok valid belongs) inside
  | redirect value =>
    obtain ⟨route, belongs, rfl⟩ := List.mem_map.mp member
    exact validateRedirectListener_ok valid belongs
  | forward value => cases member

theorem entry_valid {env : Environment} {config : RuntimeConfig} (valid : config.validate env = .ok ())
    {listener : Text} {entry : Entry} (member : (listener, entry) ∈ entries config) : entry.Valid := by
  obtain ⟨default, additional⟩ := RuntimeConfig.validate_ok valid
  rcases List.mem_append.mp member with inDefault | inAdditional
  · obtain ⟨inner, inside, same⟩ := List.mem_map.mp inDefault
    cases same
    exact valid_of_tlsActions (validateDefaultListener_ok default) inside
  · obtain ⟨⟨name, value⟩, enabled, inside⟩ := List.mem_flatMap.mp inAdditional
    obtain ⟨inner, inListener, same⟩ := List.mem_map.mp inside
    cases same
    exact valid_of_listener (additional _ (List.mem_filter.mp enabled).1) inListener

theorem parseTargets_of_bound {listener targets : Text} {matcher : HostMatcher} {action : TlsRouteAction}
    {defaultPort : Nat} {upstreamTls : Bool} {loadBalancing : HttpLoadBalancing} {proxyProtocol : ProxyProtocol}
    (explicit : l4Backends action = some (targets, defaultPort, upstreamTls, loadBalancing, proxyProtocol))
    (bound : ∀ message, Work.fail message ∉ bindL4Route listener matcher action) :
    ∃ parsed, parseTargets targets = .ok parsed := by
  cases read : parseTargets targets with
  | ok parsed => exact ⟨parsed, rfl⟩
  | error message =>
    refine absurd ?_ (bound message)
    simp only [bindL4Route, explicit, read, List.mem_singleton]

/-- The groups that `configure_health_checks` registers for a backend pool are those that its traffic looks up. -/
theorem registeredKeys_eq_servedKeys {env : Environment} {config : RuntimeConfig}
    (valid : config.validate env = .ok ()) (applied : workResult (bindings config) = .ok ())
    (resolve : Text → Nat → Option Text) {listener : Text} {entry : Entry}
    (member : (listener, entry) ∈ entries config) (explicit : entry.Explicit) (key host : Text) (clientIp : IpAddr) :
    entry.work listener ⊆ bindings config ∧
      registeredKeys resolve (entry.work listener) = entry.servedKeys resolve listener key host clientIp := by
  have subset := work_subset_bindings member
  refine ⟨subset, ?_⟩
  have granted := entry_valid valid member
  have unfailed : ∀ message, Work.fail message ∉ entry.work listener := by
    intro message inside
    exact workResult_eq_ok_iff.mp applied message (subset inside)
  cases entry with
  | l4 matcher action =>
    obtain ⟨settings, backends⟩ := Option.isSome_iff_exists.mp explicit
    obtain ⟨parsed, read⟩ := parseTargets_of_bound backends unfailed
    rw [Entry.work, registeredKeys_bindL4Route backends read]
    cases action with
    | passthrough targetPort target loadBalancing proxyProtocol =>
      cases target with
      | none => cases backends
      | some targets =>
        cases backends
        exact (lookedUpKeys_selectRoutedPool read).symm
    | terminate targetPort target upstream loadBalancing proxyProtocol =>
      cases target with
      | none => cases backends
      | some targets =>
        cases backends
        exact (lookedUpKeys_selectRoutedPool read).symm
    | reverseProxy action => cases backends
    | reject => cases backends
  | http label path action =>
    rw [registeredKeys_backends]
    exact (lookedUpKeys_selectHttpBackend explicit granted).symm
  | redirect action =>
    have redirects : action.behavior = .redirectHttps := granted
    simp only [Entry.servedKeys, Entry.selection, redirects]
    rfl

section Example

def twoBackends : TlsHostRoute where
  matcher := { exact := ["a.example".toList] }
  action := .passthrough 443 (some "10.0.0.1:8443; 10.0.0.2@8443".toList) .roundRobin .none

def pooledSite : RuntimeConfig := { defaultListener := { ordinaryTraffic := { routes := [twoBackends] } } }

theorem registeredKeys_eq_servedKeys_pooledSite :
    pooledSite.validate bareEnvironment = .ok () ∧ workResult (bindings pooledSite) = .ok () ∧
    (defaultListenerName, Entry.l4 twoBackends.matcher twoBackends.action) ∈ entries pooledSite ∧
    registeredKeys (fun _ _ => none) (Entry.work defaultListenerName (.l4 twoBackends.matcher twoBackends.action)) =
      Entry.servedKeys (fun _ _ => none) defaultListenerName [] "a.example".toList (.v4 .localhost)
        (.l4 twoBackends.matcher twoBackends.action) := by
  have valid : pooledSite.validate bareEnvironment = .ok () := rfl
  have applied : workResult (bindings pooledSite) = .ok () := by decide +kernel
  have member : (defaultListenerName, Entry.l4 twoBackends.matcher twoBackends.action) ∈ entries pooledSite :=
    List.mem_cons_self
  exact ⟨valid, applied, member, (registeredKeys_eq_servedKeys valid applied _ member rfl _ _ _).2⟩

end Example

end TlsProxy.Forward
