import TlsProxy.Forward.Bindings

/-! The selectors of `forward/mod.rs` by their arguments to `ensure_group`, their
balancing and the texts of their errors. -/
namespace TlsProxy.Forward

open Config

inductive Balance
  /-- The only group, without a look at its health. -/
  | direct
  | pooled (routeKey : Text) (clientIp : IpAddr) (loadBalancing : HttpLoadBalancing) (unavailable : Text)
deriving DecidableEq

structure Selection where
  requests : List (Except Text GroupRequest)
  balance : Balance
  /-- The server name put in the place of the group's. -/
  serverName : Option Text := none
  /-- The error when the group has no endpoint, if it does not name the group. -/
  noEndpoint : Option Text := none
deriving DecidableEq

def Selection.withoutEndpoint (selection : Selection) (key : GroupKey) : Text :=
  selection.noEndpoint.getD ("no available upstream endpoint for ".toList ++ key.target)

def selectRoutedTarget (sniHost : Text) (explicitTarget : Option Text) (defaultPort : Nat) (upstreamTls : Bool)
    (proxyProtocol : ProxyProtocol) : Selection where
  requests :=
    let requested := match explicitTarget with
      | some target => HostAndPort.parseOrDefault target defaultPort
      | none => { host := sniHost, port := defaultPort }
    if requested.port = 0 then [.error "route target port must be non-zero".toList]
    else [.ok (l4Request requested upstreamTls proxyProtocol sniHost)]
  balance := .direct
  serverName := some sniHost

def selectRoutedPool (routeKey sniHost : Text) (explicitTargets : Option Text) (defaultPort : Nat)
    (upstreamTls : Bool) (proxyProtocol : ProxyProtocol) (clientIp : IpAddr) (loadBalancing : HttpLoadBalancing) :
    Selection :=
  let unavailable := "no available upstream endpoint for route ".toList ++ quoted routeKey
  let targets := match explicitTargets with
    | some targets => splitTargets targets
    | none => [sniHost]
  { requests :=
      if targets.isEmpty then [.error "route backend pool requires at least one target".toList]
      else targets.map fun target =>
        let requested := HostAndPort.parseOrDefault target defaultPort
        if requested.port = 0 then
          .error ("route target ".toList ++ quoted target ++ " has an invalid port".toList)
        else .ok (l4Request requested upstreamTls proxyProtocol sniHost)
    balance := .pooled routeKey clientIp loadBalancing unavailable
    serverName := some sniHost
    noEndpoint := some unavailable }

def backendRequest (proxyProtocol : ProxyProtocol) (backend : HttpBackend) : Except Text GroupRequest :=
  match HostAndPort.fromStr backend.address with
  | .error cause => .error ("invalid HTTP backend ".toList ++ quoted backend.address ++ ": ".toList ++ cause)
  | .ok requested => .ok (httpRequest proxyProtocol backend requested)

def selectHttpBackend (routeKey host : Text) (clientIp : IpAddr) (action : HttpRouteAction) : Selection :=
  if action.backends.isEmpty then
    selectRoutedTarget host action.target action.targetPort.toNat (action.upstream == .tls) action.proxyProtocol
  else
    { requests := action.backends.map (backendRequest action.proxyProtocol)
      balance := .pooled routeKey clientIp action.loadBalancing
        ("no reverse-proxy backends for ".toList ++ quoted host)
      noEndpoint := some ("no healthy reverse-proxy endpoints for ".toList ++ quoted host) }

end TlsProxy.Forward
