import TlsProxy.Config.HostMatch
import TlsProxy.Config.Validate
import TlsProxy.Forward.Bindings

/-! `config.rs` with its `is_allowed` and `validate`, the targets of its HTTP
listeners, and `from_legacy`, which turns it into a runtime configuration. -/
namespace TlsProxy.Config.Legacy

open Forward

inductive ListenerMode
  | passthrough
  | terminate
  | forward
  | http
deriving DecidableEq

structure Listener where
  bind : Text
  target : Option Text := none
  targetPort : UInt16
  policy : Policy
  rules : Rules
  mode : ListenerMode := .passthrough
  upstreamTls : Bool := false

structure LegacyConfig where
  listeners : HashMap Listener := .empty
  dns : DnsConfig := {}
  accounting : Option AccountingConfig := none

section Admission

variable (isMatch : Regex → Text → Bool)

def Listener.matchHost (listener : Listener) (host : Text) : Bool :=
  listener.rules.staticHosts.any (Text.eqIgnoreAsciiCase host) || listener.rules.patterns.any (isMatch · host)

def Listener.isAllowed (listener : Listener) (host : Text) : Bool :=
  let matched := listener.matchHost isMatch host
  match listener.policy with
  | .allow => matched
  | .deny => !matched

end Admission

def badBackend (target problem : Text) : Text := "http backend ".toList ++ quoted target ++ problem

def parseAuthority (rest : Text) : Option HostAndPort :=
  match HostAndPort.fromStr rest with
  | .ok parsed => some parsed
  | .error _ => if rest.contains ':' then none else some { host := rest, port := 80 }

def parseHttpTarget (target : Text) : Except Text Text :=
  let lower := Text.toAsciiLowercase target
  if "https://".toList.isPrefixOf lower then
    .error (badBackend target " must be plaintext http://, https backends are not supported".toList)
  else if !"http://".toList.isPrefixOf lower then
    .error (badBackend target " must start with http://".toList)
  else
    let rest := target.drop "http://".toList.length
    let rest := (Text.stripSuffix ['/'] rest).getD rest
    if rest.isEmpty || rest.any (['/', '?', '#'].contains ·) || rest.any Text.isWhitespace then
      .error (badBackend target " must be http://host or http://host:port with no path".toList)
    else
      match parseAuthority rest with
      | none => .error (badBackend target " has an invalid host:port".toList)
      | some hostAndPort =>
        if hostAndPort.port = 0 then .error (badBackend target " has an invalid port".toList)
        else .ok hostAndPort.display

def parseHttpTargets (targets : Text) : Except Text Text := do
  let parsed ← (splitTargets targets).mapM parseHttpTarget
  if parsed.isEmpty then throw "http backend list requires at least one target".toList
  return Text.join [';'] parsed

def httpListenerTargets (target : Option Text) : Option Text :=
  (target.map Text.trim).filter fun targets => !targets.isEmpty

def Listener.validate (listener : Listener) : Except Text Unit := do
  let _ ← parseBindPattern listener.bind
  match listener.mode, listener.target with
  | .http, some targets =>
    if (Text.trim targets).isEmpty then pure ()
    else
      let _ ← parseHttpTargets targets
      pure ()
  | .forward, target =>
    let _ ← parseTargets (target.getD [])
    pure ()
  | .http, none | .passthrough, _ | .terminate, _ => pure ()

def validateEntry (entry : Text × Listener) : Except Text Unit :=
  entry.2.validate.mapError fun cause => "listener ".toList ++ quoted entry.1 ++ ": ".toList ++ cause

def LegacyConfig.validate (config : LegacyConfig) : Except Text Unit := do
  (match config.accounting with
    | some accounting => accounting.validate
    | none => pure ())
  config.listeners.entries.forM validateEntry

end TlsProxy.Config.Legacy

namespace TlsProxy.Config

open Legacy

def Legacy.Listener.upstream (listener : Listener) : UpstreamTransport :=
  if listener.upstreamTls then .tls else .plaintext

def HostRoutedTlsListenerConfig.fromLegacy (listener : Listener) (action : TlsRouteAction) :
    HostRoutedTlsListenerConfig where
  bind := listener.bind
  routing :=
    { routes := []
      unknownHostPolicy := listener.policy
      unknownHostRules := listener.rules
      defaultRoute := action }

def HostRoutedHttpListenerConfig.fromLegacy (listener : Listener) : HostRoutedHttpListenerConfig where
  bind := listener.bind
  redirectHttpsPort := 443
  routes := []
  unknownHostPolicy := listener.policy
  unknownHostRules := listener.rules
  defaultRoute :=
    { targetPort := listener.targetPort
      target := listener.target
      upstream := listener.upstream
      backends := []
      loadBalancing := .roundRobin
      proxyProtocol := .none
      hostHeader := none
      paths := []
      behavior := .reverseProxy
      redirect := none }

def RawForwardListenerConfig.fromLegacy (listener : Listener) : RawForwardListenerConfig where
  bind := listener.bind
  targets := listener.target.getD []
  upstreamTls := listener.upstreamTls
  loadBalancing := .roundRobin
  proxyProtocol := .none

def AdditionalListenerConfig.fromLegacy (listener : Listener) : AdditionalListenerConfig :=
  match listener.mode with
  | .passthrough =>
    .tls (.fromLegacy listener (.passthrough listener.targetPort listener.target .roundRobin .none))
  | .terminate =>
    .tls (.fromLegacy listener
      (.terminate listener.targetPort listener.target listener.upstream .roundRobin .none))
  | .http => .http (.fromLegacy listener)
  | .forward => .forward (.fromLegacy listener)

def RuntimeConfig.fromLegacy (config : LegacyConfig) : RuntimeConfig where
  additionalListeners := config.listeners.mapValues .fromLegacy
  dnsOverrides := config.dns
  accounting := config.accounting

end TlsProxy.Config
