import TlsProxy.Config.Legacy
import TlsProxy.Forward.Probed
import TlsProxy.Forward.Rebuild

/-! What the listeners of a migrated configuration admit and which targets they
choose from, compared with the legacy listeners they come from. -/
namespace TlsProxy.Forward

open Config Config.Legacy Checks

def Tables.members (t : Tables) (listener : Text) : List Nat :=
  ((t.listeners.lookup listener).getD []).filterMap t.groups.table.lookup

def Tables.viability (t : Tables) (group : Nat) : Option Bool :=
  (t.groups.object? group).bind fun object => groupIsViable object.2.endpoints

/-- The members that are not known to be down; if there are none, those that are. -/
def Tables.available (t : Tables) (listener : Text) : List Nat :=
  let viable (verdict : Bool) := (t.members listener).filter fun group => t.viability group == some verdict
  if (viable true).isEmpty then viable false else viable true

def chooseOnline (platform : Platform) (input : Input) (t : Tables) (listener : Text) (clientIp : IpAddr)
    (loadBalancing : HttpLoadBalancing) : Tables × Option SelectedTarget :=
  let available := t.available listener
  let requestedTarget (group : Nat) : Text :=
    ((t.groups.object? group).map fun object => object.1.requestedTarget).getD []
  let (index, pick, next) := match loadBalancing with
    | .clientIpHash => (rendezvousIndex platform.hash available requestedTarget clientIp, Pick.sticky clientIp, t)
    | .roundRobin =>
      let cursor := (t.cursors.lookup listener).getD input.seed
      (cursor.toNat % available.length, .sequential, { t with cursors := t.cursors.insert listener (cursor + 1) })
  match available[index]? with
  | none => (t, none)
  | some member =>
    match t.groups.object? member with
    | none => (t, none)
    | some (group, state) =>
      let choose := fun state => group.chooseEndpoint platform.hash platform.endpointIsIpv4 state pick
      ({ next with groups := next.groups.update member fun state => (choose state).2 }, (choose state).1)

/-- The targets of the groups that `choose_online` considers. -/
def Tables.memberTargets (t : Tables) (listener : Text) : List Text :=
  (t.members listener).filterMap fun group => (t.groupKey group).map GroupKey.target

theorem mem_candidates {endpointIsIpv4 : Text → Bool} {endpoints : List EndpointState} {member : EndpointState}
    (candidate : member ∈ candidates endpointIsIpv4 endpoints) : member ∈ endpoints := by
  unfold candidates at candidate
  dsimp only at candidate
  split at candidate
  · exact (List.mem_filter.mp candidate).1
  · split at candidate
    · grind
    · grind

theorem endpoint_of_chooseEndpoint {hash : IpAddr → Text → Nat} {endpointIsIpv4 : Text → Bool} {group : MonitorGroup}
    {state : GroupState} {pick : Pick} {target : SelectedTarget}
    (chosen : (group.chooseEndpoint hash endpointIsIpv4 state pick).1 = some target) :
    ∃ member ∈ state.endpoints, member.endpoint = target.endpoint := by
  obtain ⟨member, found, rfl⟩ := chooseEndpoint_eq_some chosen
  exact ⟨member, mem_candidates found, rfl⟩

theorem mem_members_of_available {t : Tables} {listener : Text} {group : Nat} (available : group ∈ t.available listener) :
    group ∈ t.members listener := by grind [Tables.available]

theorem chooseOnline_member {platform : Platform} {input : Input} {t : Tables} {listener : Text} {clientIp : IpAddr}
    {loadBalancing : HttpLoadBalancing} {target : SelectedTarget}
    (chosen : (chooseOnline platform input t listener clientIp loadBalancing).2 = some target) :
    ∃ member ∈ t.members listener, ∃ object, t.groups.object? member = some object ∧
      ∃ endpoint ∈ object.2.endpoints, endpoint.endpoint = target.endpoint := by
  unfold chooseOnline at chosen
  dsimp only at chosen
  split at chosen
  · cases chosen
  · rename_i member listed
    split at chosen
    · cases chosen
    · rename_i group state there
      exact ⟨member, mem_members_of_available (List.mem_of_getElem? listed), _, there,
        endpoint_of_chooseEndpoint chosen⟩

def namedTargets (targets : Text) : Except Text (List HostAndPort) :=
  (parseTargets targets).map fun texts => texts.map (HostAndPort.parseOrDefault · 0)

def forwardTargets (listener : Listener) : Except Text (List HostAndPort) := namedTargets (listener.target.getD [])

/-- Without backends the request's own host is meant, at the port of the listener. -/
def httpTargets (listener : Listener) (host : Text) : Except Text (List HostAndPort) :=
  match httpListenerTargets listener.target with
  | some targets => do namedTargets (← parseHttpTargets targets)
  | none => .ok [{ host, port := listener.targetPort.toNat }]

variable (resolve : Text → Nat → Option Text)

def leadsTo (address : HostAndPort) : Text := (resolveOverrideFirst resolve address).display

def Exactly (targets : List Text) (denoted : Except Text (List HostAndPort)) : Prop :=
  ∃ addresses, denoted = .ok addresses ∧ ∀ target, target ∈ targets ↔ target ∈ addresses.map (leadsTo resolve)

/-- A converted HTTP listener admits what the legacy one admits, and its requests go where they went. -/
structure PreservesHttp (isMatch : Regex → Text → Bool) (name : Text) (listener : Listener)
    (converted : HostRoutedHttpListenerConfig) : Prop where
  admits : ∀ host, (converted.selectRoute isMatch host).isSome = listener.isAllowed isMatch host
  serves : ∀ clientIp looped (head : Http.HttpHead) action framing,
    converted.selectRoute isMatch head.host = some action → head.loopTokens.any looped = false →
    head.bodyFraming = .ok framing → ∃ selection, dispatchHttp name clientIp looped head action = some selection
  selects : ∀ clientIp looped (head : Http.HttpHead) action selection,
    converted.selectRoute isMatch head.host = some action →
    dispatchHttp name clientIp looped head action = some selection →
    Exactly resolve ((lookedUpKeys resolve selection.requests).map GroupKey.target) (httpTargets listener head.host)

/-- Where the text of a target leads that is read as one address. -/
def asOneTarget (listener : Listener) (target : Text) : List Text :=
  let requested := HostAndPort.parseOrDefault target listener.targetPort.toNat
  if requested.port = 0 then [] else [leadsTo resolve requested]

/-- No target is given, no host is admitted, or overrides lead the text of the target, read as one address, to where
they lead what it denotes. -/
def TargetKept (isMatch : Regex → Text → Bool) (listener : Listener) : Prop :=
  ∀ target host, listener.target = some target → listener.isAllowed isMatch host = true →
    Exactly resolve (asOneTarget resolve listener target) (httpTargets listener host)

/-- The tables of a converted forward listener offer what the legacy one names. -/
structure PreservesForward (name : Text) (listener : Listener) (config : RuntimeConfig) : Prop where
  starts : ∀ (platform : Platform) (s : State) task (answers : Nat → Input),
    platform.resolver config.dnsOverrides = resolve → s.tasks task = .idle → ∃ steps last, Runs.run (step platform) s
      (.begin task (.reload config) :: (List.range steps).map fun i => .advance task (answers i)) = some last ∧
      Built resolve config last.tables
  selects : ∀ t, Built resolve config t → Exactly resolve (t.memberTargets name) (forwardTargets listener)
  chooses : ∀ t platform input clientIp loadBalancing target,
    (chooseOnline platform input t name clientIp loadBalancing).2 = some target →
    ∃ member ∈ t.members name, ∃ object, t.groups.object? member = some object ∧
      ∃ endpoint ∈ object.2.endpoints, endpoint.endpoint = target.endpoint

variable {resolve}

/-- Without path routes every request that is well formed and no loop is forwarded by its host action. -/
theorem dispatchHttp_pathless {name : Text} {clientIp : IpAddr} {looped : Text → Bool} {head : Http.HttpHead}
    {action : HttpRouteAction} (proxied : action.behavior = .reverseProxy) (pathless : action.paths = [])
    {selection : Selection} :
    dispatchHttp name clientIp looped head action = some selection ↔
      head.loopTokens.any looped = false ∧ (∃ framing, head.bodyFraming = .ok framing) ∧
        selectHttpBackend (httpRouteKey name head.host) head.host clientIp action = selection := by
  have unrouted : Http.selectPath action head.target = none := by
    simp only [Http.selectPath, Http.routeOfPath, pathless]
    rfl
  cases loops : head.loopTokens.any looped <;> cases framed : head.bodyFraming <;>
    simp [dispatchHttp, proxied, Http.dispatch, Http.admitRequest, loops, Http.routed, unrouted, pathless,
      Http.framed, framed, httpSelection]

theorem selectRoute_routeless {isMatch : Regex → Text → Bool} {listener : HostRoutedHttpListenerConfig}
    (routeless : listener.routes = []) (host : Text) :
    listener.selectRoute isMatch host =
      if admitted isMatch listener.unknownHostPolicy listener.unknownHostRules host then some listener.defaultRoute
      else none := by
  have unmatched : bestHostRoute isMatch HttpHostRoute.matcher listener.routes host = none := by
    rw [routeless]
    rfl
  simp only [HostRoutedHttpListenerConfig.selectRoute, selectAction, unmatched]

theorem isSome_selectRoute_routeless {isMatch : Regex → Text → Bool} {listener : HostRoutedHttpListenerConfig}
    (routeless : listener.routes = []) (host : Text) :
    (listener.selectRoute isMatch host).isSome =
      admitted isMatch listener.unknownHostPolicy listener.unknownHostRules host := by grind [selectRoute_routeless]

theorem selectRoute_fromLegacy {isMatch : Regex → Text → Bool} {listener : Listener} {host : Text}
    {action : HttpRouteAction}
    (selected : (HostRoutedHttpListenerConfig.fromLegacy listener).selectRoute isMatch host = some action) :
    admitted isMatch listener.policy listener.rules host = true ∧
      (HostRoutedHttpListenerConfig.fromLegacy listener).defaultRoute = action := by
  rw [selectRoute_routeless rfl, Option.ite_none_right_eq_some, Option.some.injEq] at selected
  exact selected

theorem lookedUpKeys_selectRoutedTarget {host : Text} {port : Nat} {upstreamTls : Bool} {proxyProtocol : ProxyProtocol}
    (named : port ≠ 0) :
    (lookedUpKeys resolve (selectRoutedTarget host none port upstreamTls proxyProtocol).requests).map GroupKey.target =
      [leadsTo resolve { host, port }] := by
  simp only [selectRoutedTarget, if_neg named]
  rfl

theorem lookedUpKeys_explicit {listener : Listener} {host target : Text} {upstreamTls : Bool}
    {proxyProtocol : ProxyProtocol} :
    (lookedUpKeys resolve (selectRoutedTarget host (some target) listener.targetPort.toNat upstreamTls
      proxyProtocol).requests).map GroupKey.target = asOneTarget resolve listener target := by
  simp only [selectRoutedTarget, asOneTarget]
  split <;> rfl

/-- The requests of an admitted host go to the target, or to the host if there is none. -/
theorem targets_fromLegacy {isMatch : Regex → Text → Bool} {name : Text} {clientIp : IpAddr} {looped : Text → Bool}
    {head : Http.HttpHead} {listener : Listener} {action : HttpRouteAction}
    (selected : (HostRoutedHttpListenerConfig.fromLegacy listener).selectRoute isMatch head.host = some action)
    {selection : Selection} (dispatched : dispatchHttp name clientIp looped head action = some selection) :
    selection = selectRoutedTarget head.host listener.target listener.targetPort.toNat (listener.upstream == .tls)
      .none := by
  obtain ⟨-, rfl⟩ := selectRoute_fromLegacy selected
  obtain ⟨-, -, rfl⟩ := (dispatchHttp_pathless rfl rfl).mp dispatched
  rfl

theorem preservesHttp_of_kept {isMatch : Regex → Text → Bool} (name : Text) {listener : Listener}
    (port : listener.targetPort ≠ 0) (kept : TargetKept resolve isMatch listener) :
    PreservesHttp resolve isMatch name listener (.fromLegacy listener) where
  -- `is_allowed` and the fallback policy are one function.
  admits := isSome_selectRoute_routeless rfl
  serves := by
    intro clientIp looped head action framing selected unlooped framed
    obtain ⟨-, rfl⟩ := selectRoute_fromLegacy selected
    exact ⟨_, (dispatchHttp_pathless rfl rfl).mpr ⟨unlooped, ⟨framing, framed⟩, rfl⟩⟩
  selects := by
    intro clientIp looped head action selection selected dispatched
    rw [targets_fromLegacy selected dispatched]
    cases given : listener.target with
    | none =>
      have named : listener.targetPort.toNat ≠ 0 := fun zero => port (UInt16.toNat_inj.mp zero)
      have own : httpTargets listener head.host = .ok [{ host := head.host, port := listener.targetPort.toNat }] := by
        simp only [httpTargets, given]
        rfl
      refine ⟨_, own, fun target => ?_⟩
      rw [lookedUpKeys_selectRoutedTarget named]
      rfl
    | some target =>
      rw [lookedUpKeys_explicit]
      exact kept target head.host given (selectRoute_fromLegacy selected).1

/-- Any host can stand in a request that is well formed. -/
theorem kept_of_preservesHttp {isMatch : Regex → Text → Bool} {name : Text} {listener : Listener}
    (preserves : PreservesHttp resolve isMatch name listener (.fromLegacy listener)) :
    TargetKept resolve isMatch listener := by
  intro target host given allowed
  let head : Http.HttpHead := { Http.anonymousHead with host := host }
  let action := (HostRoutedHttpListenerConfig.fromLegacy listener).defaultRoute
  have selected : (HostRoutedHttpListenerConfig.fromLegacy listener).selectRoute isMatch head.host = some action := by
    rw [selectRoute_routeless rfl]
    exact if_pos allowed
  obtain ⟨framing, framed⟩ : ∃ framing, head.bodyFraming = .ok framing := ⟨_, rfl⟩
  obtain ⟨selection, dispatched⟩ :=
    preserves.serves exampleClient (fun _ => false) head action framing selected (by simp) framed
  have exact_ := preserves.selects exampleClient _ head action selection selected dispatched
  rwa [targets_fromLegacy selected dispatched, given, lookedUpKeys_explicit] at exact_

theorem validateEntry_ok {entry : Text × Listener} (valid : validateEntry entry = .ok ()) :
    entry.2.validate = .ok () := by
  unfold validateEntry at valid
  cases checked : entry.2.validate with
  | ok done => rfl
  | error cause => rw [checked] at valid; cases valid

theorem validate_listener {config : LegacyConfig} (valid : config.validate = .ok ()) {entry : Text × Listener}
    (member : entry ∈ config.listeners.entries) : entry.2.validate = .ok () := by
  obtain ⟨-, -, listeners⟩ := bind_eq_ok.mp valid
  exact validateEntry_ok (forM_eq_ok.mp listeners entry member)

theorem parseTargets_of_validate {listener : Listener} (valid : listener.validate = .ok ())
    (mode : listener.mode = .forward) : ∃ texts, parseTargets (listener.target.getD []) = .ok texts := by
  unfold Listener.validate at valid
  obtain ⟨-, -, rest⟩ := bind_eq_ok.mp valid
  rw [mode] at rest
  obtain ⟨texts, parsed, -⟩ := bind_eq_ok.mp rest
  exact ⟨texts, parsed⟩

theorem bindings_fromLegacy_clean {config : LegacyConfig} (valid : config.validate = .ok ()) (message : Text) :
    .fail message ∉ bindings (.fromLegacy config) := by
  intro fails
  rcases List.mem_append.mp fails with default | additional
  · cases default
  obtain ⟨⟨name, converted⟩, enabled, inside⟩ := List.mem_flatMap.mp additional
  obtain ⟨⟨_, listener⟩, member, same⟩ := List.mem_map.mp (List.mem_filter.mp enabled).1
  cases same
  have checked := validate_listener valid member
  dsimp only at checked inside
  unfold AdditionalListenerConfig.fromLegacy at inside
  cases mode : listener.mode with
  | passthrough => rw [mode] at inside; cases inside
  | terminate => rw [mode] at inside; cases inside
  | http => rw [mode] at inside; cases inside
  | forward =>
    obtain ⟨texts, parsed⟩ := parseTargets_of_validate checked mode
    rw [mode] at inside
    simp only [bindListener, bindForwardListener, forwardWork, RawForwardListenerConfig.fromLegacy, parsed] at inside
    simp at inside

theorem memberTargets_of_listed {t : Tables} {listener : Text} {keys : List GroupKey}
    (listed : t.listeners.lookup listener = some keys) (configured : ∀ key ∈ keys, Configured t key) :
    t.memberTargets listener = keys.map GroupKey.target := by
  rw [Tables.memberTargets, Tables.members, listed, Option.getD_some, List.filterMap_filterMap, ← List.filterMap_eq_map]
  apply List.filterMap_congr
  intro key member
  obtain ⟨object, found, -⟩ := configured key member
  obtain ⟨group, here, -⟩ := Option.bind_eq_some_iff.mp found
  rw [here, Option.bind_some, key_of_lookup here]
  rfl

theorem configured_of_built {config : RuntimeConfig} {t : Tables} (built : Built resolve config t) {listener : Text}
    {value : RawForwardListenerConfig} (enabled : (listener, value) ∈ enabledForwards config) {key : GroupKey}
    (member : key ∈ forwardKeys resolve value) : Configured t key := by
  rw [built.configured]
  unfold forwardKeys at member
  split at member
  · cases member
  · rename_i texts parsed
    obtain ⟨text, listed, rfl⟩ := List.mem_map.mp member
    have ensured : .ensure (forwardRequest value text) none true ∈ registerForwardListener listener value := by
      grind [registerForwardListener, forwardWork]
    exact ensured_mem_registeredKeys (List.mem_flatMap.mpr ⟨_, enabled, ensured⟩)

theorem mem_enabledForwards_fromLegacy {config : LegacyConfig} {name : Text} {listener : Listener}
    (member : (name, listener) ∈ config.listeners.entries) (mode : listener.mode = .forward) :
    (name, RawForwardListenerConfig.fromLegacy listener) ∈ enabledForwards (.fromLegacy config) := by
  have converted : AdditionalListenerConfig.fromLegacy listener = .forward (.fromLegacy listener) := by
    simp only [AdditionalListenerConfig.fromLegacy, mode]
  refine mem_enabledForwards.mpr (List.mem_filter.mpr ⟨List.mem_map.mpr ⟨_, member, ?_⟩, rfl⟩)
  rw [converted]

theorem reload_builds {config : RuntimeConfig} (clean : ∀ message, .fail message ∉ bindings config)
    {platform : Platform} (overrides : platform.resolver config.dnsOverrides = resolve) {s : State} {task : Nat}
    (idle : s.tasks task = .idle) (answers : Nat → Input) :
    ∃ steps last, Runs.run (step platform) s
      (.begin task (.reload config) :: (List.range steps).map fun i => .advance task (answers i)) = some last ∧
      Built resolve config last.tables := by
  let begun := s.put s.tables task (Job.start (.reload config))
  let reset : Pass := { reload := true, config, phase := .resetListeners }
  let pointed := begun.put { s.tables with resolve := platform.resolver config.dnsOverrides } task (.pass reset)
  have begins : step platform s (.begin task (.reload config)) = some begun := by simp only [step, idle]; rfl
  have points : step platform begun (.advance task (answers 0)) = some pointed := advance_pass (put_task ..)
  have sound : reset.Sound resolve pointed.tables := ⟨overrides, trivial⟩
  obtain ⟨steps, last, whole, completed⟩ :=
    pass_completes platform (fun i => answers (i + 1)) (put_task begun _ task (.pass reset)) sound clean
  have advances : Runs.run (step platform) pointed
      (((List.range steps).map fun i => answers (i + 1)).map (.advance task)) = some last := by
    rw [List.map_map]
    exact whole
  refine ⟨steps + 1, last, ?_, run_pass_built (put_task begun _ task (.pass reset)) sound advances completed⟩
  rw [List.range_succ_eq_map, List.map_cons, List.map_map, Runs.run, begins]
  simp only [Option.bind_some, Runs.run, points]
  exact whole

theorem preservesForward {config : LegacyConfig} (valid : config.validate = .ok ()) {name : Text} {listener : Listener}
    (member : (name, listener) ∈ config.listeners.entries) (mode : listener.mode = .forward) :
    PreservesForward resolve name listener (.fromLegacy config) where
  starts := by
    intro platform s task answers overrides idle
    exact reload_builds (bindings_fromLegacy_clean valid) overrides idle answers
  selects := by
    intro t built
    have enabled := mem_enabledForwards_fromLegacy member mode
    obtain ⟨texts, parsed⟩ := parseTargets_of_validate (validate_listener valid member) mode
    refine ⟨texts.map (HostAndPort.parseOrDefault · 0), ?_, ?_⟩
    · simp only [forwardTargets, namedTargets, parsed]
      rfl
    · intro target
      have keys : forwardKeys resolve (.fromLegacy listener) =
          texts.map fun text => (forwardRequest (.fromLegacy listener) text).keyUnder resolve := by
        simp only [forwardKeys, RawForwardListenerConfig.fromLegacy, parsed]
      rw [memberTargets_of_listed (built.listeners _ _ enabled) fun _ => configured_of_built built enabled, keys,
        List.map_map, List.map_map]
      rfl
  chooses := by
    intro t platform input clientIp loadBalancing target chosen
    exact chooseOnline_member chosen

theorem host_of_parseAuthority {rest : Text} {address : HostAndPort} (read : parseAuthority rest = some address)
    {c : Char} (member : c ∈ address.host) : c ∈ rest := by
  unfold parseAuthority at read
  split at read
  · rename_i parsed ok
    cases read
    obtain ⟨left, trimmed, within, -⟩ := HostAndPort.fromStr_host ok
    rw [← trimmed] at member
    exact within (Text.mem_of_mem_trim member)
  · split at read
    · cases read
    · cases read
      exact member

/-- A legacy target has a scheme, and none of its slashes is handed on. -/
theorem parseHttpTarget_slash {target parsed : Text} (ok : parseHttpTarget target = .ok parsed) :
    '/' ∈ target ∧ '/' ∉ parsed := by
  unfold parseHttpTarget at ok
  dsimp only at ok
  split at ok
  · cases ok
  split at ok
  · cases ok
  rename_i scheme
  split at ok
  · cases ok
  rename_i plain
  split at ok
  · cases ok
  rename_i address read
  split at ok
  · cases ok
  cases ok
  simp only [Bool.not_eq_true', Bool.not_eq_false, List.isPrefixOf_iff_prefix] at scheme
  constructor
  · have lowered : '/' ∈ Text.toAsciiLowercase target := scheme.subset (by decide)
    obtain ⟨c, member, slash⟩ := List.mem_map.mp lowered
    rwa [← Text.eq_of_toLower_eq (by decide) slash]
  · generalize (Text.stripSuffix ['/'] _).getD _ = rest at plain read
    simp only [Bool.or_eq_true, not_or, Bool.not_eq_true, List.any_eq_false] at plain
    have clean : '/' ∉ rest := fun member => absurd (plain.1.2 '/' member) (by decide)
    intro member
    rcases List.mem_append.mp member with inHost | printed
    · exact clean (host_of_parseAuthority read inHost)
    · exact HostAndPort.not_mem_printed (by decide) rfl _ printed

theorem parseHttpTargets_ok {targets list : Text} (ok : parseHttpTargets targets = .ok list) :
    ∃ parsed, (splitTargets targets).mapM parseHttpTarget = .ok parsed ∧ parsed ≠ [] ∧
      list = Text.join [';'] parsed := by
  unfold parseHttpTargets at ok
  obtain ⟨parsed, mapped, rest⟩ := bind_eq_ok.mp ok
  split at rest
  · cases rest
  · rename_i nonempty
    cases rest
    exact ⟨parsed, mapped, by simpa using nonempty, rfl⟩

theorem mem_of_mem_splitTargets {targets target : Text} (part : target ∈ splitTargets targets) {c : Char}
    (member : c ∈ target) : c ∈ targets := by
  obtain ⟨raw, split, rfl⟩ := List.mem_map.mp (List.mem_filter.mp part).1
  exact (Text.mem_splitOnP split c (Text.mem_of_mem_trim member)).2

/-- The targets of an HTTP listener have slashes, and the list that is made of them has none. -/
theorem parseHttpTargets_slash {targets list : Text} (ok : parseHttpTargets targets = .ok list) :
    '/' ∈ targets ∧ '/' ∉ list := by
  obtain ⟨parsed, mapped, nonempty, rfl⟩ := parseHttpTargets_ok ok
  constructor
  · obtain ⟨text, member⟩ := List.exists_mem_of_ne_nil parsed nonempty
    obtain ⟨target, part, read⟩ := exists_of_mem_mapM mapped member
    exact mem_of_mem_splitTargets part (parseHttpTarget_slash read).1
  · intro inside
    rcases Text.mem_join inside with separator | ⟨text, member, inText⟩
    · exact absurd separator (by decide)
    · obtain ⟨target, -, read⟩ := exists_of_mem_mapM mapped member
      exact (parseHttpTarget_slash read).2 inText

/-- Parsed targets take their characters from the list. -/
theorem mem_of_mem_namedTargets {targets : Text} {addresses : List HostAndPort}
    (named : namedTargets targets = .ok addresses) {address : HostAndPort} (member : address ∈ addresses) {c : Char}
    (inHost : c ∈ address.host) : c ∈ targets := by
  unfold namedTargets at named
  cases parsed : parseTargets targets with
  | error cause => rw [parsed] at named; cases named
  | ok texts =>
      rw [parsed] at named
      cases named
      obtain ⟨text, listed, rfl⟩ := List.mem_map.mp member
      obtain ⟨target, part, read⟩ := exists_of_mem_mapM (parseTargets_ok parsed).1 listed
      obtain ⟨requested, ok, -, rfl⟩ := parseTarget_ok read
      rw [HostAndPort.parseOrDefault_display ok] at inHost
      obtain ⟨left, trimmed, within, -⟩ := HostAndPort.fromStr_host ok
      rw [← trimmed] at inHost
      exact mem_of_mem_splitTargets part (within (Text.mem_of_mem_trim inHost))

theorem slash_mem_parseOrDefault {target : Text} (slash : '/' ∈ target) (port : Nat) :
    '/' ∈ (HostAndPort.parseOrDefault target port).host := by
  unfold HostAndPort.parseOrDefault
  split
  · rename_i requested ok
    obtain ⟨left, trimmed, -, kept⟩ := HostAndPort.fromStr_host ok
    rw [← trimmed]
    exact Text.mem_trim (kept slash) rfl
  · exact slash

/-- The address that is asked for has the slashes of the scheme, and those denoted have none. -/
theorem explicit_target_missed {listener : Listener} {target : Text} (given : listener.target = some target)
    (nonblank : Text.trim target ≠ []) {host : Text} {addresses : List HostAndPort}
    (denoted : httpTargets listener host = .ok addresses) :
    HostAndPort.parseOrDefault target listener.targetPort.toNat ∉ addresses := by
  have explicit : httpListenerTargets listener.target = some (Text.trim target) := by
    simp [httpListenerTargets, given, Option.filter, nonblank]
  simp only [httpTargets, explicit] at denoted
  obtain ⟨list, parsed, named⟩ := bind_eq_ok.mp denoted
  have slashes := parseHttpTargets_slash parsed
  intro member
  have inHost := slash_mem_parseOrDefault (Text.mem_of_mem_trim slashes.1) listener.targetPort.toNat
  exact slashes.2 (mem_of_mem_namedTargets named member inHost)

/-- Migration preserves every forward listener. It preserves an HTTP listener if no target is given or no host is
admitted; otherwise it takes an override, since what the converted listener asks for is none of what is denoted. -/
theorem migration_preserves (isMatch : Regex → Text → Bool) {config : LegacyConfig} (valid : config.validate = .ok ())
    {name : Text} {listener : Listener} (member : (name, listener) ∈ config.listeners.entries)
    (port : listener.targetPort ≠ 0) :
    let migrated := RuntimeConfig.fromLegacy config
    (listener.mode = .http →
      migrated.additionalListeners.get? name = some (.http (.fromLegacy listener)) ∧
      (∀ resolve, PreservesHttp resolve isMatch name listener (.fromLegacy listener) ↔
        TargetKept resolve isMatch listener) ∧
      ∀ target host addresses, listener.target = some target → Text.trim target ≠ [] →
        httpTargets listener host = .ok addresses →
        HostAndPort.parseOrDefault target listener.targetPort.toNat ∉ addresses) ∧
    (listener.mode = .forward →
      migrated.additionalListeners.get? name = some (.forward (.fromLegacy listener)) ∧
      ∀ resolve, PreservesForward resolve name listener migrated) := by
  have found : (RuntimeConfig.fromLegacy config).additionalListeners.get? name = some (.fromLegacy listener) :=
    HashMap.get?_of_mem (List.mem_map.mpr ⟨_, member, rfl⟩)
  constructor
  · intro mode
    refine ⟨?_, fun resolve => ⟨kept_of_preservesHttp, preservesHttp_of_kept name port⟩,
      fun target host addresses given nonblank denoted => explicit_target_missed given nonblank denoted⟩
    rw [found, AdditionalListenerConfig.fromLegacy, mode]
  · intro mode
    refine ⟨?_, fun resolve => preservesForward valid member mode⟩
    rw [found, AdditionalListenerConfig.fromLegacy, mode]

def legacyListener (mode : ListenerMode) (target : Option Text) : Listener :=
  { bind := "0.0.0.0:1080".toList, target, targetPort := 80, policy := .deny, rules := {}, mode }

def dynamicListener : Listener := legacyListener .http none

def relayedListener : Listener := legacyListener .forward (some "a.example:80; b.example:8080".toList)

def backedListener : Listener := legacyListener .http (some "http://backend:8080".toList)

def mixedConfig : LegacyConfig where
  listeners :=
    { entries := [("dynamic".toList, dynamicListener), ("relayed".toList, relayedListener)]
      distinct := by decide }

theorem migration_preserves_mixed :
    mixedConfig.validate = .ok () ∧
      (∀ resolve, PreservesHttp resolve (fun _ _ => false) "dynamic".toList dynamicListener
        (.fromLegacy dynamicListener)) ∧
      ∀ resolve, PreservesForward resolve "relayed".toList relayedListener (.fromLegacy mixedConfig) := by
  have valid : mixedConfig.validate = .ok () := by decide +kernel
  have dynamic := (migration_preserves (fun _ _ => false) valid List.mem_cons_self (by decide)).1 rfl
  have relayed :=
    (migration_preserves (fun _ _ => false) valid (List.mem_cons_of_mem _ List.mem_cons_self) (by decide)).2 rfl
  exact ⟨valid, fun resolve => (dynamic.2.1 resolve).mpr nofun, relayed.2⟩

def backedConfig : LegacyConfig where
  listeners := .singleton "backed".toList backedListener

/-- The scheme of a legacy target ends up in the name of the upstream host. -/
theorem migrated_scheme_kept :
    backedConfig.validate = .ok () ∧ ("backed".toList, backedListener) ∈ backedConfig.listeners.entries ∧
      backedListener.mode = .http ∧ backedListener.targetPort ≠ 0 ∧
      (RuntimeConfig.fromLegacy backedConfig).additionalListeners.get? "backed".toList =
        some (.http (.fromLegacy backedListener)) ∧
      ∃ action selection, (HostRoutedHttpListenerConfig.fromLegacy backedListener).selectRoute (fun _ _ => false)
          Http.anonymousHead.host = some action ∧
        dispatchHttp "backed".toList exampleClient (fun _ => false) Http.anonymousHead action = some selection ∧
        (lookedUpKeys (fun _ _ => none) selection.requests).map GroupKey.target = ["http://backend:8080".toList] ∧
        httpTargets backedListener Http.anonymousHead.host = .ok [{ host := "backend".toList, port := 8080 }] ∧
        leadsTo (fun _ _ => none) { host := "backend".toList, port := 8080 } = "backend:8080".toList := by
  refine ⟨by decide +kernel, List.mem_singleton_self _, rfl, by decide, rfl, _, _, rfl, rfl, ?_, ?_, ?_⟩
  · decide +kernel
  · decide +kernel
  · decide +kernel

end TlsProxy.Forward
