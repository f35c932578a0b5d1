import TlsProxy.Lib.Checks
import TlsProxy.Config.Validate

/-! The checks of `validate` taken apart, down to the addresses of the backends
that its listeners proxy to. -/
namespace TlsProxy.Config

open Checks

variable {env : Environment} {scope : Text}

theorem validateBackends_ok {backends : List HttpBackend} (valid : validateBackends scope backends = .ok ()) :
    ∀ backend ∈ backends, ∃ target, HostAndPort.fromStr backend.address = .ok target ∧ target.port ≠ 0 := by
  induction backends with
  | nil =>
    intro backend member
    cases member
  | cons first rest ih =>
    rw [validateBackends] at valid
    cases parsed : HostAndPort.fromStr first.address with
    | error cause => rw [parsed] at valid; cases valid
    | ok target =>
      simp only [parsed] at valid
      split at valid
      · cases valid
      · grind

theorem validatePaths_ok {seen : List Text} {paths : List HttpPathRoute}
    (valid : validatePaths env scope seen paths = .ok ()) :
    ∀ route ∈ paths, validatePathAction env scope route.pathPrefix route.action = .ok () := by
  induction paths generalizing seen with
  | nil =>
    intro route member
    cases member
  | cons first rest ih =>
    rw [validatePaths] at valid
    obtain ⟨⟨⟩, here, later⟩ := bind_eq_ok.mp valid
    intro route member
    rcases List.mem_cons.mp member with rfl | inRest
    · obtain ⟨pathPrefix, stripPrefix, basicAuth, action⟩ := route
      rw [validatePath] at here
      obtain ⟨-, -, here⟩ := bind_eq_ok.mp here
      obtain ⟨-, -, here⟩ := bind_eq_ok.mp here
      exact here
    · exact ih later route inRest

/-- A host action or path action that proxies, with addresses that parse in its whole tree. -/
structure Proxying (env : Environment) (scope : Text) (action : HttpRouteAction) : Prop where
  proxies : action.behavior = .reverseProxy
  valid : validateHttpAction env scope action = .ok ()

theorem validateHttpAction_ok {action : HttpRouteAction} (proxies : action.behavior = .reverseProxy)
    (valid : validateHttpAction env scope action = .ok ()) :
    validateBackends scope action.backends = .ok () ∧ validatePaths env scope [] action.paths = .ok () := by
  obtain ⟨behavior, targetPort, target, upstream, backends, loadBalancing, proxyProtocol, hostHeader, paths,
    redirect⟩ := action
  cases proxies
  rw [validateHttpAction] at valid
  obtain ⟨⟨⟩, first, second⟩ := bind_eq_ok.mp valid
  exact ⟨first, second⟩

namespace Proxying

variable {action : HttpRouteAction}

theorem backends (proxying : Proxying env scope action) :
    ∀ backend ∈ action.backends, ∃ target, HostAndPort.fromStr backend.address = .ok target ∧ target.port ≠ 0 :=
  validateBackends_ok (validateHttpAction_ok proxying.proxies proxying.valid).1

theorem inner (proxying : Proxying env scope action) {route : HttpPathRoute} (member : route ∈ action.paths)
    {inside : HttpRouteAction} (proxied : route.action = .reverseProxy inside) : Proxying env scope inside := by
  have valid := validatePaths_ok (validateHttpAction_ok proxying.proxies proxying.valid).2 route member
  rw [proxied, validatePathAction] at valid
  split at valid
  · cases valid
  · rename_i proxies
    exact ⟨Decidable.not_not.mp proxies, valid⟩

end Proxying

theorem validateTlsAction_ok {portError redirectError : Text} {action : HttpRouteAction}
    (valid : validateTlsAction env scope portError redirectError (.reverseProxy action) = .ok ()) :
    Proxying env scope action := by
  unfold validateTlsAction at valid
  simp only [TlsRouteAction.targetPort, reduceCtorEq, if_false] at valid
  split at valid
  · cases valid
  · rename_i proxies
    exact ⟨Decidable.not_not.mp proxies, valid⟩

theorem validateTlsActions_ok {portError redirectError : Text} {routing : OrdinaryTlsConfig}
    (valid : routing.actions.forM (validateTlsAction env scope portError redirectError) = .ok ())
    {route : TlsHostRoute} (member : route ∈ routing.routes) {action : HttpRouteAction}
    (proxied : route.action = .reverseProxy action) : Proxying env scope action := by
  have inside : TlsRouteAction.reverseProxy action ∈ routing.actions :=
    List.mem_append_left _ (List.mem_map.mpr ⟨route, member, proxied⟩)
  exact validateTlsAction_ok (forM_eq_ok.mp valid _ inside)

theorem validateDefaultListener_ok {listener : DefaultListenerConfig}
    (valid : validateDefaultListener env listener = .ok ()) :
    listener.ordinaryTraffic.actions.forM (validateTlsAction env "default listener".toList
      "default listener route target port must be non-zero".toList
      "default TLS listener cannot use an HTTP redirect action".toList) = .ok () := by
  unfold validateDefaultListener at valid
  cases parsed : parseBindPattern listener.bind with
  | error cause => rw [parsed] at valid; cases valid
  | ok pattern =>
    cases port : bindUsesPort443 listener.bind with
    | false => rw [parsed, port] at valid; cases valid
    | true =>
      rw [parsed, port] at valid
      exact valid

/-- The part of `validateListener` that depends on the protocol. -/
def ListenerValid (env : Environment) (name : Text) : AdditionalListenerConfig → Prop
  | .tls value => value.routing.actions.forM (validateTlsAction env (listenerScope name)
      (listenerScope name ++ " TLS route target port must be non-zero".toList)
      (listenerScope name ++ " TLS route cannot use an HTTP redirect action".toList)) = .ok ()
  | .http value => validateHttpListener env name value = .ok ()
  | .redirect value => validateRedirectListener env name value = .ok ()
  | .forward value => (Text.trim value.targets).isEmpty = false

theorem validateListener_ok {defaultBind name : Text} {listener : AdditionalListenerConfig}
    (valid : validateListener env defaultBind name listener = .ok ()) : ListenerValid env name listener := by
  unfold validateListener at valid
  cases parsed : parseBindPattern listener.bind with
  | error cause => rw [parsed] at valid; cases valid
  | ok pattern =>
    simp only [parsed] at valid
    split at valid
    · cases valid
    · cases listener with
      | tls value => exact valid
      | http value => exact valid
      | redirect value => exact valid
      | forward value =>
        simp only at valid
        cases blank : (Text.trim value.targets).isEmpty with
        | false => exact blank
        | true => rw [blank] at valid; cases valid

theorem validateHttpListener_ok {name : Text} {listener : HostRoutedHttpListenerConfig}
    (valid : validateHttpListener env name listener = .ok ()) {route : HttpHostRoute}
    (member : route ∈ listener.routes) : Proxying env (listenerScope name) route.action := by
  have inside : route.action ∈ listener.actions := List.mem_append_left _ (List.mem_map_of_mem member)
  unfold validateHttpListener at valid
  simp only at valid
  split at valid
  · cases valid
  · rename_i proxies
    simp only [List.any_eq_true, decide_eq_true_eq, not_exists, not_and, Decidable.not_not] at proxies
    have checked : listener.actions.forM (validateHttpAction env (listenerScope name)) = .ok () := by
      split at valid
      · cases valid
      · split at valid
        · obtain ⟨⟨⟩, -, valid⟩ := bind_eq_ok.mp valid
          split at valid
          · cases valid
          · exact valid
        · split at valid
          · cases valid
          · exact valid
    exact ⟨proxies _ inside, forM_eq_ok.mp checked _ inside⟩

theorem validateRedirectListener_ok {name : Text} {listener : HostRoutedHttpListenerConfig}
    (valid : validateRedirectListener env name listener = .ok ()) {route : HttpHostRoute}
    (member : route ∈ listener.routes) : route.action.behavior = .redirectHttps := by
  have inside : route.action ∈ listener.actions := List.mem_append_left _ (List.mem_map_of_mem member)
  unfold validateRedirectListener at valid
  simp only at valid
  split at valid
  · cases valid
  · obtain ⟨⟨⟩, checked, -⟩ := bind_eq_ok.mp valid
    have redirects := forM_eq_ok.mp checked _ inside
    split at redirects
    · cases redirects
    · exact Decidable.not_not.mp ‹_›

theorem RuntimeConfig.validate_ok {config : RuntimeConfig} (valid : config.validate env = .ok ()) :
    validateDefaultListener env config.defaultListener = .ok () ∧
      ∀ listener ∈ config.additionalListeners.entries, ListenerValid env listener.1 listener.2 := by
  unfold RuntimeConfig.validate at valid
  obtain ⟨⟨⟩, default, valid⟩ := bind_eq_ok.mp valid
  have listeners : config.additionalListeners.entries.forM (fun entry =>
      validateListener env config.defaultListener.bind entry.1 entry.2) = .ok () := by
    cases accounting : config.accounting with
    | none =>
      simp only [accounting] at valid
      obtain ⟨⟨⟩, listeners, -⟩ := bind_eq_ok.mp valid
      exact listeners
    | some value =>
      simp only [accounting] at valid
      obtain ⟨⟨⟩, -, valid⟩ := bind_eq_ok.mp valid
      obtain ⟨⟨⟩, listeners, -⟩ := bind_eq_ok.mp valid
      exact listeners
  exact ⟨default, fun listener member => validateListener_ok (forM_eq_ok.mp listeners listener member)⟩

end TlsProxy.Config
