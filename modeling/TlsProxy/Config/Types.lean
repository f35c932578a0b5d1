import TlsProxy.Lib.Text
import Mathlib.Data.Multiset.MapFold

/-! The configuration tree of `runtime_config.rs`, `config.rs` and `acme_types.rs`.
A hash map or a hash set is the list of its entries in iteration order, with
distinct keys. -/
namespace TlsProxy

structure HashMap (α : Type) where
  entries : List (Text × α)
  distinct : (entries.map Prod.fst).Nodup

structure HashSet where
  elements : List Text
  distinct : elements.Nodup
deriving DecidableEq

namespace HashMap

variable {α : Type}

def empty : HashMap α where
  entries := []
  distinct := List.nodup_nil

def singleton (key : Text) (value : α) : HashMap α where
  entries := [(key, value)]
  distinct := List.nodup_singleton key

def get? (m : HashMap α) (key : Text) : Option α := m.entries.lookup key

def containsKey (m : HashMap α) (key : Text) : Bool := (m.get? key).isSome

def mapValues {β : Type} (f : α → β) (m : HashMap α) : HashMap β where
  entries := m.entries.map fun entry => (entry.1, f entry.2)
  distinct := by
    rw [List.map_map]
    exact m.distinct

theorem get?_of_mem {m : HashMap α} {key : Text} {value : α} (member : (key, value) ∈ m.entries) :
    m.get? key = some value := by
  obtain ⟨entries, distinct⟩ := m
  unfold get?
  induction entries with
  | nil => cases member
  | cons first rest ih =>
    obtain ⟨fresh, distinct⟩ := List.nodup_cons.mp distinct
    rcases List.mem_cons.mp member with rfl | later
    · exact List.lookup_cons_self
    · have other : (key == first.1) = false := by grind
      grind

end HashMap

namespace HashSet

def empty : HashSet where
  elements := []
  distinct := List.nodup_nil

def contains (s : HashSet) (element : Text) : Bool := s.elements.contains element

def insert (s : HashSet) (element : Text) : HashSet where
  elements := s.elements.insert element
  distinct := s.distinct.insert

def remove (s : HashSet) (element : Text) : HashSet where
  elements := s.elements.erase element
  distinct := s.distinct.erase element

end HashSet

namespace Config

/-- A compiled pattern, known by its source text. -/
structure Regex where
  asStr : Text
deriving DecidableEq

inductive Policy
  | allow
  | deny
deriving DecidableEq

structure Rules where
  staticHosts : List Text := []
  patterns : List Regex := []

structure HostMatcher where
  exact : List Text := []
  suffix : List Text := []
  patterns : List Regex := []

inductive UpstreamTransport
  | plaintext
  | tls
deriving DecidableEq

inductive HttpLoadBalancing
  | roundRobin
  | clientIpHash
deriving DecidableEq

inductive ProxyProtocol
  | none
  | v1
  | v2
deriving DecidableEq

inductive HttpBehavior
  | reverseProxy
  | redirectHttps
deriving DecidableEq

structure HttpBackend where
  address : Text
  transport : UpstreamTransport := .plaintext
  tlsServerName : Option Text := none
deriving DecidableEq

structure HttpRedirectConfig where
  hostname : Option Text := none
  port : Option UInt16 := none
  status : UInt16 := 308
  preserveHost : Bool := false

structure HttpBasicAuthUser where
  username : Text
  password : Text
deriving DecidableEq

structure HttpBasicAuth where
  enabled : Bool := false
  users : List HttpBasicAuthUser := []

/-- What a path route does; the parameter closes the recursion through host actions. -/
inductive PathAction (α : Type)
  | reverseProxy (action : α)
  | staticFiles (documentRoot : Text) (index : Option Text) (directoryListing : Bool)

structure PathRoute (α : Type) where
  pathPrefix : Text
  stripPrefix : Bool := false
  basicAuth : HttpBasicAuth := {}
  action : PathAction α

structure HttpRouteAction where
  behavior : HttpBehavior := .reverseProxy
  targetPort : UInt16 := 80
  target : Option Text := none
  upstream : UpstreamTransport := .plaintext
  backends : List HttpBackend := []
  loadBalancing : HttpLoadBalancing := .roundRobin
  proxyProtocol : ProxyProtocol := .none
  hostHeader : Option Text := none
  paths : List (PathRoute HttpRouteAction) := []
  redirect : Option HttpRedirectConfig := none

abbrev HttpPathRoute := PathRoute HttpRouteAction

abbrev HttpPathAction := PathAction HttpRouteAction

structure HttpHostRoute where
  name : Text := []
  matcher : HostMatcher
  action : HttpRouteAction

structure HostRoutedHttpListenerConfig where
  bind : Text
  redirectHttpsPort : UInt16 := 443
  routes : List HttpHostRoute := []
  unknownHostPolicy : Policy := .allow
  unknownHostRules : Rules := {}
  defaultRoute : HttpRouteAction := {}

inductive TlsRouteAction
  | passthrough (targetPort : UInt16) (target : Option Text) (loadBalancing : HttpLoadBalancing)
      (proxyProtocol : ProxyProtocol)
  | terminate (targetPort : UInt16) (target : Option Text) (upstream : UpstreamTransport)
      (loadBalancing : HttpLoadBalancing) (proxyProtocol : ProxyProtocol)
  | reverseProxy (action : HttpRouteAction)
  | reject

def TlsRouteAction.targetPort : TlsRouteAction → Option UInt16
  | .passthrough targetPort .. | .terminate targetPort .. => some targetPort
  | .reverseProxy _ | .reject => none

def defaultTlsRoute : TlsRouteAction := .passthrough 443 none .roundRobin .none

structure TlsHostRoute where
  name : Text := []
  matcher : HostMatcher
  action : TlsRouteAction

structure OrdinaryTlsConfig where
  routes : List TlsHostRoute := []
  unknownHostPolicy : Policy := .allow
  unknownHostRules : Rules := {}
  defaultRoute : TlsRouteAction := defaultTlsRoute

structure HostRoutedTlsListenerConfig where
  bind : Text
  routing : OrdinaryTlsConfig := {}

structure RawForwardListenerConfig where
  bind : Text
  targets : Text
  upstreamTls : Bool := false
  loadBalancing : HttpLoadBalancing := .roundRobin
  proxyProtocol : ProxyProtocol := .none

inductive AdditionalListenerConfig
  | tls (config : HostRoutedTlsListenerConfig)
  | http (config : HostRoutedHttpListenerConfig)
  | redirect (config : HostRoutedHttpListenerConfig)
  | forward (config : RawForwardListenerConfig)

def AdditionalListenerConfig.bind : AdditionalListenerConfig → Text
  | .tls config => config.bind
  | .http config => config.bind
  | .redirect config => config.bind
  | .forward config => config.bind

structure DefaultListenerConfig where
  bind : Text := "0.0.0.0:443".toList
  ordinaryTraffic : OrdinaryTlsConfig := {}

structure DnsRule where
  from_ : Text
  to_ : Text
deriving DecidableEq

structure RegexDnsRule where
  hostname : Text
  port : Option UInt16 := none
  to_ : Text
deriving DecidableEq

structure DnsConfig where
  exact : List DnsRule := []
  suffix : List DnsRule := []
  regex : List RegexDnsRule := []
deriving DecidableEq

inductive Compression
  | zstd
  | gzip
  | none
deriving DecidableEq

structure AccountingConfig where
  enabled : Bool := false
  logFile : Text := []
  rotateSize : Text := "100MiB".toList
  maxKeep : Nat := 10
  compressAfter : Nat := 3
  compression : Compression := .zstd
deriving DecidableEq

structure ControlPlaneConfig where
  hostname : Text := []
  selfIps : List Text := []
  publicResolvers : List Text := []
  requireAllResolvers : Bool := false
  providerId : Text := []
deriving DecidableEq

structure AcmeSettings where
  enabled : Bool := true
  renewBeforeDays : UInt16 := 15
  scanIntervalHours : UInt16 := 12
  challengeTtlSeconds : UInt16 := 600
  dnsCheckScript : Text := []
  cacheFailureTimeSecs : UInt16 := 60
deriving DecidableEq

inductive CertificateFallbackPolicy
  | localCa
  | reject
deriving DecidableEq

structure RuntimeConfig where
  defaultListener : DefaultListenerConfig := {}
  additionalListeners : HashMap AdditionalListenerConfig := .empty
  disabledListeners : HashSet := .empty
  dnsOverrides : DnsConfig := {}
  accounting : Option AccountingConfig := none
  controlPlane : ControlPlaneConfig := {}
  acme : AcmeSettings := {}
  certificateFallback : CertificateFallbackPolicy := .localCa

/-- The serialized tag of an additional listener. -/
inductive Protocol
  | tls
  | http
  | redirect
  | forward
deriving DecidableEq

def AdditionalListenerConfig.protocol : AdditionalListenerConfig → Protocol
  | .tls _ => .tls
  | .http _ => .http
  | .redirect _ => .redirect
  | .forward _ => .forward

/-- What `listener_settings_only` compares: everything except the settings inside a listener. The
listeners are a JSON object, so their order does not count; the disabled ones are an array. -/
structure Topology where
  defaultBind : Text
  listeners : Multiset (Text × Protocol × Text)
  disabled : HashSet
  dnsOverrides : DnsConfig
  accounting : Option AccountingConfig
  controlPlane : ControlPlaneConfig
  acme : AcmeSettings
  certificateFallback : CertificateFallbackPolicy
deriving DecidableEq

def RuntimeConfig.topology (config : RuntimeConfig) : Topology where
  defaultBind := config.defaultListener.bind
  listeners := config.additionalListeners.entries.map fun entry => (entry.1, entry.2.protocol, entry.2.bind)
  disabled := config.disabledListeners
  dnsOverrides := config.dnsOverrides
  accounting := config.accounting
  controlPlane := config.controlPlane
  acme := config.acme
  certificateFallback := config.certificateFallback

def listenerSettingsOnly (old new : RuntimeConfig) : Bool := decide (old.topology = new.topology)

end Config

end TlsProxy
