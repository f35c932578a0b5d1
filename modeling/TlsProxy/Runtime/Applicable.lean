import TlsProxy.Forward.Probed
import TlsProxy.Store.Automatic

/-! A revision starts with certificate records for its hosts, health bindings for
its backends and the registration of its forward listeners. -/
namespace TlsProxy.Runtime

open Config Checks Forward Certificates

structure Applies (config : RuntimeConfig) (store : Certificates.Store) (clock : Text → OffsetDateTime) : Prop where
  certificates : ∃ result, ensureAutomaticCertificates store config clock = .ok result
  healthChecks : workResult (bindings config) = .ok ()
  forwards : ∀ entry ∈ enabledForwards config, workResult (registerForwardListener entry.1 entry.2) = .ok ()

/-- A host and a port other than 0, with no scheme and no blank inside. -/
def TargetNamesPort (target : Text) : Prop :=
  target.any Text.isWhitespace = false ∧ Text.splitOnceText "://".toList target = none ∧
    ∃ requested, HostAndPort.fromStr target = .ok requested ∧ requested.port ≠ 0

def TargetsNamePorts (targets : Text) : Prop :=
  splitTargets targets ≠ [] ∧ ∀ target ∈ splitTargets targets, TargetNamesPort target

def routeTargets (routes : List TlsHostRoute) : List Text :=
  routes.filterMap fun route => (l4Backends route.action).map Prod.fst

/-- The target lists of layer-4 routes and forward listeners, of listeners that are not disabled. -/
def targetLists (config : RuntimeConfig) : List Text :=
  routeTargets config.defaultListener.ordinaryTraffic.routes ++ (enabledListeners config).flatMap fun entry =>
    match entry.2 with
    | .tls value => routeTargets value.routing.routes
    | .forward value => [value.targets]
    | _ => []

theorem parseTarget_isOk {target : Text} : (∃ parsed, parseTarget target = .ok parsed) ↔ TargetNamesPort target := by
  unfold parseTarget TargetNamesPort
  cases target.any Text.isWhitespace with
  | true => simp
  | false =>
    cases Text.splitOnceText "://".toList target with
    | some parts => simp
    | none =>
      cases HostAndPort.fromStr target with
      | error cause => simp
      | ok requested => by_cases zero : requested.port = 0 <;> simp [zero]

theorem parseTargets_isOk {targets : Text} :
    (∃ parsed, parseTargets targets = .ok parsed) ↔ TargetsNamePorts targets := by
  constructor
  · rintro ⟨parsed, read⟩
    obtain ⟨mapped, nonempty⟩ := parseTargets_ok read
    refine ⟨?_, fun target member => parseTarget_isOk.mp (mapM_isOk_iff.mp ⟨parsed, mapped⟩ target member)⟩
    intro none
    rw [none] at mapped
    cases mapped
    exact nonempty rfl
  · rintro ⟨nonempty, parse⟩
    obtain ⟨parsed, mapped⟩ := mapM_isOk_iff.mpr fun target member => parseTarget_isOk.mpr (parse target member)
    refine ⟨parsed, bind_eq_ok.mpr ⟨parsed, mapped, ?_⟩⟩
    cases parsed with
    | nil => exact absurd (List.forall₂_nil_right_iff.mp (mapM_eq_ok.mp mapped)) nonempty
    | cons first rest => rfl

def Unfailing (work : List Work) : Prop := ∀ message, Work.fail message ∉ work

theorem unfailing_append {first second : List Work} :
    Unfailing (first ++ second) ↔ Unfailing first ∧ Unfailing second := by simp [Unfailing, forall_and]

theorem unfailing_flatMap {α : Type} {xs : List α} {work : α → List Work} :
    Unfailing (xs.flatMap work) ↔ ∀ x ∈ xs, Unfailing (work x) := by
  simp only [Unfailing, List.mem_flatMap, not_exists, not_and]
  grind

theorem unfailing_forwardWork {listener : Text} {configured : RawForwardListenerConfig} {each : Text → Work}
    (succeeds : ∀ target message, each target ≠ .fail message) :
    Unfailing (forwardWork listener configured each) ↔ TargetsNamePorts configured.targets := by
  rw [← parseTargets_isOk]
  grind [forwardWork, Unfailing]

theorem unfailing_bindHttpAction (listener host path : Text) (action : HttpRouteAction) :
    Unfailing (bindHttpAction listener host path action) := by
  intro message member
  exact bindHttpAction_binds listener host path action _ member

theorem unfailing_bindL4Route {listener : Text} {matcher : HostMatcher} {action : TlsRouteAction} :
    Unfailing (bindL4Route listener matcher action) ↔
      ∀ targets ∈ (l4Backends action).map Prod.fst, TargetsNamePorts targets := by
  cases explicit : l4Backends action with
  | none => simp [bindL4Route, explicit, Unfailing]
  | some settings =>
    obtain ⟨targets, defaultPort, upstreamTls, loadBalancing, proxyProtocol⟩ := settings
    simp only [Option.map_some, Option.mem_some_iff, forall_eq', ← parseTargets_isOk]
    constructor
    · exact parseTargets_of_bound explicit
    · rintro ⟨parsed, read⟩ message member
      simp only [bindL4Route, explicit, read] at member
      obtain ⟨text, inside, same⟩ := List.mem_map.mp member
      obtain ⟨target, -, one⟩ := exists_of_mem_mapM (parseTargets_ok read).1 inside
      have port := parseOrDefault_parsed one defaultPort
      rw [← port.1] at port
      rw [if_neg port.2] at same
      cases same

theorem unfailing_bindTlsRoute {listener : Text} {route : TlsHostRoute} :
    Unfailing (bindTlsRoute listener route) ↔
      ∀ targets ∈ (l4Backends route.action).map Prod.fst, TargetsNamePorts targets := by
  unfold bindTlsRoute
  grind [l4Backends, unfailing_bindHttpAction, unfailing_bindL4Route]

theorem unfailing_routes {listener : Text} {routes : List TlsHostRoute} :
    Unfailing (routes.flatMap (bindTlsRoute listener)) ↔ ∀ targets ∈ routeTargets routes, TargetsNamePorts targets := by
  rw [unfailing_flatMap]
  simp only [unfailing_bindTlsRoute, routeTargets, List.mem_filterMap]
  constructor
  · grind
  · intro pass route member targets explicit
    exact pass targets ⟨route, member, explicit⟩

theorem unfailing_bindForwardListener {listener : Text} {configured : RawForwardListenerConfig} :
    Unfailing (bindForwardListener listener configured) ↔ TargetsNamePorts configured.targets :=
  unfailing_forwardWork fun _ _ => nofun

theorem unfailing_registerForwardListener {listener : Text} {configured : RawForwardListenerConfig} :
    Unfailing (registerForwardListener listener configured) ↔ TargetsNamePorts configured.targets :=
  unfailing_forwardWork fun _ _ => nofun

theorem unfailing_bindings {config : RuntimeConfig} :
    Unfailing (bindings config) ↔ ∀ targets ∈ targetLists config, TargetsNamePorts targets := by
  unfold bindings targetLists
  rw [unfailing_append, unfailing_routes, unfailing_flatMap, List.forall_mem_append, List.forall_mem_flatMap]
  refine and_congr_right fun _ => forall₂_congr fun entry member => ?_
  obtain ⟨listener, value⟩ := entry
  cases value with
  | tls value => exact unfailing_routes
  | http value =>
    refine iff_of_true (unfailing_flatMap.mpr fun route _ => unfailing_bindHttpAction _ _ _ _) ?_
    intro targets none
    cases none
  | redirect value => simp [bindListener, Unfailing]
  | forward value =>
    rw [List.forall_mem_singleton]
    exact unfailing_bindForwardListener

theorem forwards_of_bindings {config : RuntimeConfig} (applied : workResult (bindings config) = .ok ()) :
    ∀ entry ∈ enabledForwards config, workResult (registerForwardListener entry.1 entry.2) = .ok () := by
  rintro ⟨listener, value⟩ enabled
  have pass := unfailing_bindings.mp (workResult_eq_ok_iff.mp applied)
  refine workResult_eq_ok_iff.mpr (unfailing_registerForwardListener.mpr (pass _ ?_))
  refine List.mem_append_right _ (List.mem_flatMap.mpr ⟨_, mem_enabledForwards.mp enabled, ?_⟩)
  exact List.mem_singleton_self _

/-- A configuration can be applied to a store in good order exactly when all its target lists name ports and, with
automatic certificates on, the exact hosts of its terminating routes have names for their certificates. -/
theorem applies_iff {store : Certificates.Store} (consistent : Consistent store) (config : RuntimeConfig)
    (clock : Text → OffsetDateTime) :
    Applies config store clock ↔ (∀ targets ∈ targetLists config, TargetsNamePorts targets) ∧
      (config.acme.enabled = true → HostsPass store (terminatingHosts config)) := by
  rw [← unfailing_bindings, ← consistent.ensureAutomaticCertificates_isOk config clock]
  constructor
  · intro applies
    exact ⟨workResult_eq_ok_iff.mp applies.healthChecks, applies.certificates⟩
  · rintro ⟨pass, records⟩
    have applied := workResult_eq_ok_iff.mpr pass
    exact ⟨records, applied, forwards_of_bindings applied⟩

section Example

def oneProvider : Certificates.Store :=
  Families.write Certificates.Store.empty
    [.put .providers "letsencrypt".toList (.ok { id := "letsencrypt".toList, isDefault := true })]

def exactRoute (host : Text) (action : TlsRouteAction) : RuntimeConfig where
  defaultListener := { ordinaryTraffic := { routes := [{ matcher := { exact := [host] }, action }] } }

def forwarding (targets : Text) : RuntimeConfig where
  additionalListeners := HashMap.singleton "relay".toList (.forward { bind := "0.0.0.0:9000".toList, targets })

theorem oneProvider_consistent : Consistent oneProvider := by
  refine ⟨?_, ?_, ?_⟩
  · intro id row found
    rcases Families.getElem?_assignAll_cases (Certificates.Store.empty .providers)
      [("letsencrypt".toList, some (.ok { id := "letsencrypt".toList, isDefault := true }))] id with
      ⟨change, member, -, same⟩ | ⟨-, same⟩
    · cases List.mem_singleton.mp member
      cases same.symm.trans found
      exact ⟨_, rfl⟩
    · cases same.symm.trans found
  · intro id row found
    cases found
  · intro domain id found
    cases found

/-- What the validator accepts and the next step rejects: a target without a port, on a layer-4 route and on a
forward listener, and a host with an empty label. -/
theorem validated_not_applicable :
    let portless := exactRoute "a.example".toList (.passthrough 443 (some "backend".toList) .roundRobin .none)
    let emptyLabel := exactRoute "a..b".toList (.terminate 8080 none .plaintext .roundRobin .none)
    portless.validate bareEnvironment = .ok () ∧ workResult (bindings portless) ≠ .ok () ∧
    (forwarding "backend".toList).validate bareEnvironment = .ok () ∧
    workResult (registerForwardListener "relay".toList { bind := "0.0.0.0:9000".toList, targets := "backend".toList })
      ≠ .ok () ∧
    emptyLabel.validate bareEnvironment = .ok () ∧
    ∀ result, ensureAutomaticCertificates oneProvider emptyLabel (fun _ => 0) ≠ .ok result := by
  refine ⟨rfl, by decide +kernel, rfl, by decide +kernel, rfl, ?_⟩
  intro result done
  have fails : (ensureAutomaticCertificates oneProvider
      (exactRoute "a..b".toList (.terminate 8080 none .plaintext .roundRobin .none)) (fun _ => 0)).toBool = false := by
    decide +kernel
  rw [done] at fails
  cases fails

theorem applies_iff_oneProvider :
    let site := exactRoute "a.example".toList (.terminate 8080 (some "10.0.0.1:80".toList) .plaintext .roundRobin .none)
    Consistent oneProvider ∧ Applies site oneProvider fun _ => 0 := by
  refine ⟨oneProvider_consistent, (applies_iff oneProvider_consistent _ _).mpr ⟨?_, ?_⟩⟩
  · refine unfailing_bindings.mp (workResult_eq_ok_iff.mp ?_)
    decide +kernel
  · intro _ before host after split
    have single : terminatingHosts (exactRoute "a.example".toList
        (.terminate 8080 (some "10.0.0.1:80".toList) .plaintext .roundRobin .none)) = ["a.example".toList] := by
      decide +kernel
    rw [single] at split
    cases before with
    | nil =>
      cases split
      exact ⟨"a.example".toList, "a.example".toList, rfl, rfl, .inr ⟨rfl, by decide⟩⟩
    | cons first rest => cases rest <;> cases split

end Example

end TlsProxy.Runtime
