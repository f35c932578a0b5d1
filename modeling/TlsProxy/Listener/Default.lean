import TlsProxy.Config.HostMatch
import TlsProxy.Config.Validate

/-! `decide` and `classify` of the mandatory listener, and the routing of the
additional TLS listeners in `runtime.rs`. -/
namespace TlsProxy.Listener

open Config

structure ClientHello where
  sniHost : Text
  alpnProtocols : List (List UInt8) := []

def tlsAlpnProtocol : List UInt8 := Utf8.encode "acme-tls/1".toList

inductive RejectReason
  | missingSni
  | policyDenied
deriving DecidableEq

inductive DefaultRoute
  | acmeChallenge (domain : Text)
  | controlPlane (hostname : Text)
  | proxy (sni : Text)
  | reject (reason : RejectReason)

inductive ConnectionRoute
  | acmeChallenge (domain : Text)
  | controlPlane (hostname : Text)
  | ordinary (sni : Text) (action : TlsRouteAction)
  | reject (reason : RejectReason)

def classify (sni : Option Text) (alpnProtocols : List (List UInt8)) (controlHostname : Option Text)
    (challengeIsActive ordinarySniIsAllowed : Text → Bool) : DefaultRoute :=
  match sni.bind fun value => (normalizeDomain value).toOption with
  | none => .reject .missingSni
  | some sni =>
    if alpnProtocols.any (· == tlsAlpnProtocol) && challengeIsActive sni then .acmeChallenge sni
    else if (controlHostname.bind fun value => (normalizeDomain value).toOption).any (· == sni) then
      .controlPlane sni
    else if ordinarySniIsAllowed sni then .proxy sni
    else .reject .policyDenied

section Routing

variable (isMatch : Regex → Text → Bool)

def decideRoute (hello : ClientHello) (config : DefaultListenerConfig) (controlHostname : Option Text)
    (challengeIsActive : Text → Bool) : ConnectionRoute :=
  match classify (some hello.sniHost) hello.alpnProtocols controlHostname challengeIsActive
      fun host => (config.ordinaryTraffic.selectRoute isMatch host).isSome with
  | .acmeChallenge domain => .acmeChallenge domain
  | .controlPlane hostname => .controlPlane hostname
  | .proxy sni =>
    match config.ordinaryTraffic.selectRoute isMatch sni with
    | some action => .ordinary sni action
    | none => .reject .policyDenied
  | .reject reason => .reject reason

/-- The listeners that accept TLS, with what each captured when its revision started. -/
inductive TlsListener
  | mandatory (controlHostname : Option Text)
  | additional (name : Text) (config : HostRoutedTlsListenerConfig)

def controlHostname (live : RuntimeConfig) (captured : Option Text) : Option Text :=
  if live.controlPlane.hostname.isEmpty then captured else some live.controlPlane.hostname

def routingInForce (live : RuntimeConfig) (name : Text) (captured : HostRoutedTlsListenerConfig) :
    OrdinaryTlsConfig :=
  match live.additionalListeners.get? name with
  | some (.tls config) => config.routing
  | _ => captured.routing

/-- The route of a connection; an additional listener fails it when its policy denies the SNI. -/
def route (live : RuntimeConfig) (hello : ClientHello) (challengeIsActive : Text → Bool) :
    TlsListener → Except Text ConnectionRoute
  | .mandatory captured =>
    .ok (decideRoute isMatch hello live.defaultListener (controlHostname live captured) challengeIsActive)
  | .additional name captured =>
    match (routingInForce live name captured).selectRoute isMatch hello.sniHost with
    | some action => .ok (.ordinary hello.sniHost action)
    | none => .error "SNI denied by listener policy".toList

def Proxied (decision : Except Text ConnectionRoute) : Prop :=
  ∃ sni action, decision = .ok (.ordinary sni action) ∧ action ≠ .reject

/-- The table refuses the host: its best route rejects, or no route matches and the fallback rejects. -/
def Refuses (routing : OrdinaryTlsConfig) (host : Text) : Prop :=
  (∃ route, BestRoute isMatch TlsHostRoute.matcher routing.routes host route ∧ route.action = .reject) ∨
  (∀ route ∈ routing.routes, matchScore isMatch route.matcher host = none) ∧
    (admitted isMatch routing.unknownHostPolicy routing.unknownHostRules host = false ∨
      routing.defaultRoute = .reject)

/-- The reserved name is safe on the mandatory listener, and elsewhere where the table refuses it. -/
def Shielded (live : RuntimeConfig) (host : Text) : TlsListener → Prop
  | .mandatory _ => True
  | .additional name captured => Refuses isMatch (routingInForce live name captured) host

theorem classify_control {sni value hostname : Text} (own : normalizeDomain value = .ok hostname)
    (named : normalizeDomain sni = .ok hostname) (alpnProtocols : List (List UInt8))
    (challengeIsActive ordinarySniIsAllowed : Text → Bool) :
    classify (some sni) alpnProtocols (some value) challengeIsActive ordinarySniIsAllowed =
        .acmeChallenge hostname ∨
      classify (some sni) alpnProtocols (some value) challengeIsActive ordinarySniIsAllowed =
        .controlPlane hostname := by
  simp only [classify, Option.bind_some, named, own, Except.toOption, Option.any_some, beq_self_eq_true, if_true]
  simp

theorem not_proxied_mandatory {live : RuntimeConfig} {hello : ClientHello} {hostname : Text}
    (reserved : live.controlPlane.hostname ≠ [])
    (own : normalizeDomain live.controlPlane.hostname = .ok hostname)
    (named : normalizeDomain hello.sniHost = .ok hostname) (challengeIsActive : Text → Bool)
    (captured : Option Text) : ¬ Proxied (route isMatch live hello challengeIsActive (.mandatory captured)) := by
  have control : controlHostname live captured = some live.controlPlane.hostname :=
    if_neg (by simpa using reserved)
  rintro ⟨sni, action, decision, -⟩
  simp only [route, control, decideRoute, Except.ok.injEq] at decision
  rcases classify_control own named hello.alpnProtocols challengeIsActive
      fun host => (live.defaultListener.ordinaryTraffic.selectRoute isMatch host).isSome with
    challenge | reservedName
  · grind
  · grind

theorem proxied_additional_iff {live : RuntimeConfig} {hello : ClientHello} {challengeIsActive : Text → Bool}
    {name : Text} {captured : HostRoutedTlsListenerConfig} :
    Proxied (route isMatch live hello challengeIsActive (.additional name captured)) ↔
      ∃ action, (routingInForce live name captured).selectRoute isMatch hello.sniHost = some action ∧
        action ≠ .reject := by grind [route, Proxied]

theorem refuses_iff {routing : OrdinaryTlsConfig} {host : Text} :
    Refuses isMatch routing host ↔
      ∀ action, routing.selectRoute isMatch host = some action → action = .reject := by
  constructor
  · intro refuses action selected
    have cases_ := (selectAction_eq_some_iff isMatch TlsHostRoute.matcher).mp selected
    rcases refuses with ⟨route, best, rejects⟩ | ⟨unmatched, fallback⟩
    · have rejected : routing.selectRoute isMatch host = some .reject :=
        (selectAction_eq_some_iff isMatch TlsHostRoute.matcher).mpr (.inl ⟨route, best, rejects⟩)
      grind
    · rcases cases_ with ⟨route, ⟨score, chosen⟩, -⟩ | ⟨-, allowed, same⟩
      · obtain ⟨member, scored⟩ := chosen.mem
        grind
      · grind
  · intro rejecting
    cases selected : routing.selectRoute isMatch host with
    | none =>
      obtain ⟨unmatched, denied⟩ := (selectAction_eq_none_iff isMatch TlsHostRoute.matcher).mp selected
      exact .inr ⟨unmatched, .inl denied⟩
    | some action =>
      obtain rfl := rejecting action selected
      rcases (selectAction_eq_some_iff isMatch TlsHostRoute.matcher).mp selected with best | ⟨unmatched, -, same⟩
      · exact .inl best
      · exact .inr ⟨unmatched, .inr same⟩

/-- A connection for the reserved name is kept from the upstreams exactly on the mandatory listener
and on the additional listeners whose table refuses the name. -/
theorem controlHost_not_proxied_iff {live : RuntimeConfig} {hello : ClientHello} {hostname : Text}
    (reserved : live.controlPlane.hostname ≠ [])
    (own : normalizeDomain live.controlPlane.hostname = .ok hostname)
    (named : normalizeDomain hello.sniHost = .ok hostname) (challengeIsActive : Text → Bool)
    (listener : TlsListener) :
    ¬ Proxied (route isMatch live hello challengeIsActive listener) ↔
      Shielded isMatch live hello.sniHost listener := by
  cases listener with
  | mandatory captured =>
    exact iff_of_true (not_proxied_mandatory isMatch reserved own named challengeIsActive captured) trivial
  | additional name captured => simp [proxied_additional_iff, Shielded, refuses_iff]

end Routing

section Example

def openListener : HostRoutedTlsListenerConfig :=
  { bind := "0.0.0.0:8443".toList, routing := { unknownHostPolicy := .deny } }

def withOpenListener : RuntimeConfig :=
  { controlPlane := { hostname := "tls.example".toList }
    additionalListeners := .singleton "extra".toList (.tls openListener) }

def noMatch : Regex → Text → Bool := fun _ _ => false

theorem controlHost_not_proxied_mandatory :
    ¬ Proxied (route noMatch withOpenListener { sniHost := "TLS.example.".toList } (fun _ => false)
      (.mandatory none)) := by
  have own : normalizeDomain withOpenListener.controlPlane.hostname = .ok "tls.example".toList := rfl
  exact (controlHost_not_proxied_iff noMatch (by decide) own rfl (fun _ => false) (.mandatory none)).mpr trivial

/-- A valid configuration whose additional listener passes the reserved name through. -/
theorem additional_listener_proxies_controlHost :
    withOpenListener.validate bareEnvironment = .ok () ∧
      normalizeDomain "tls.example".toList = normalizeDomain withOpenListener.controlPlane.hostname ∧
      Proxied (route noMatch withOpenListener { sniHost := "tls.example".toList } (fun _ => false)
        (.additional "extra".toList openListener)) :=
  ⟨rfl, rfl, "tls.example".toList, defaultTlsRoute, rfl, by simp [defaultTlsRoute]⟩

end Example

end TlsProxy.Listener
