import TlsProxy.Lib.IpAddr
import TlsProxy.Lib.Select
import TlsProxy.Lib.Shared
import TlsProxy.Config.Names

/-! The backend groups of `forward/mod.rs`: their keys, their state, the choice of
an endpoint, and the table that shares one group between all callers with its
key. -/
namespace TlsProxy.Forward

open Config

structure GroupKey where
  target : Text
  upstreamTls : Bool
  httpHealth : Bool
  proxyProtocol : ProxyProtocol
deriving DecidableEq

inductive Owner
  | configured
  | runtime
deriving DecidableEq

structure EndpointState where
  endpoint : Text
  online : Option Bool := none
  sinceMs : Nat
  lastCheckedMs : Nat := 0
deriving DecidableEq

/-- Without endpoints there is no verdict. -/
def groupIsViable (endpoints : List EndpointState) : Option Bool :=
  if endpoints.isEmpty then none else some (endpoints.any fun endpoint => endpoint.online != some false)

structure MonitorGroup where
  key : GroupKey
  requestedTarget : Text
  tlsServerName : Text
deriving DecidableEq

structure GroupState where
  owner : Owner
  endpoints : List EndpointState := []
  lastActivityMs : Nat
  sequence : UInt64
deriving DecidableEq

structure SelectedTarget where
  endpoint : Text
  tlsServerName : Text
deriving DecidableEq

inductive Pick
  | sequential
  | sticky (clientIp : IpAddr)

structure GroupRequest where
  requested : HostAndPort
  upstreamTls : Bool
  httpHealth : Bool
  proxyProtocol : ProxyProtocol
  tlsServerName : Text
deriving DecidableEq

def resolveOverrideFirst (resolve : Text → Nat → Option Text) (requested : HostAndPort) : HostAndPort :=
  HostAndPort.parseOrDefault ((resolve requested.host requested.port).getD requested.display) requested.port

def GroupRequest.key (request : GroupRequest) (effective : HostAndPort) : GroupKey where
  target := effective.display
  upstreamTls := request.upstreamTls
  httpHealth := request.httpHealth
  proxyProtocol := request.proxyProtocol

def GroupRequest.keyUnder (resolve : Text → Nat → Option Text) (request : GroupRequest) : GroupKey :=
  request.key (resolveOverrideFirst resolve request.requested)

namespace GroupState

def touch (now : Nat) (state : GroupState) : GroupState := { state with lastActivityMs := now }

def promote (state : GroupState) : GroupState := { state with owner := .configured }

def demote (state : GroupState) : GroupState := { state with owner := .runtime }

/-- A known endpoint keeps its state; of several entries for it, the last one. -/
def reconcileEndpoints (resolved : List Text) (now : Nat) (state : GroupState) : GroupState :=
  { state with
    endpoints := resolved.map fun endpoint =>
      (state.endpoints.reverse.find? fun old => old.endpoint == endpoint).getD { endpoint, sinceMs := now } }

/-- The first entry for the endpoint takes the outcome of its probe. -/
def setEndpointState (endpoint : Text) (online : Bool) (now : Nat) (state : GroupState) : GroupState :=
  { state with
    endpoints := state.endpoints.modify (state.endpoints.findIdx fun old => old.endpoint == endpoint) fun old =>
      if old.online = some online then { old with lastCheckedMs := now }
      else { old with online := some online, sinceMs := now, lastCheckedMs := now } }

def runtimeTtlMs : Nat := 600000

def expired (now : Nat) (state : GroupState) : Bool :=
  state.owner == .runtime && decide (now - state.lastActivityMs > runtimeTtlMs)

end GroupState

def GroupRequest.group (request : GroupRequest) (effective : HostAndPort) : MonitorGroup where
  key := request.key effective
  requestedTarget := request.requested.display
  tlsServerName := request.tlsServerName

/-- The state of a new group, whose DNS answer arrives some time after it was begun. -/
def GroupState.new (owner : Owner) (startedMs : Nat) (resolved : List Text) (resolvedMs : Nat) : GroupState :=
  reconcileEndpoints resolved resolvedMs { owner, lastActivityMs := startedMs, sequence := UInt64.ofNat startedMs }

abbrev Groups := Shared.Registry MonitorGroup.key GroupState

section Choice

variable (hash : IpAddr → Text → Nat) (endpointIsIpv4 : Text → Bool)

/-- The member with the greatest hash; of several, the last. -/
def rendezvousIndex {α : Type} (items : List α) (memberKey : α → Text) (clientIp : IpAddr) : Nat :=
  match Select.select (fun new old : Nat => old ≤ new)
      (fun entry : α × Nat => some (hash clientIp (memberKey entry.1))) items.zipIdx with
  | some ((_, index), _) => index
  | none => 0

/-- Online endpoints, else unprobed ones, else all of them; IPv4 first unless online. -/
def candidates (endpoints : List EndpointState) : List EndpointState :=
  let online := endpoints.filter fun endpoint => endpoint.online == some true
  let unknown := endpoints.filter fun endpoint => endpoint.online.isNone
  if !online.isEmpty then online
  else
    let fallback := if !unknown.isEmpty then unknown else endpoints
    let ipv4 := fallback.filter fun endpoint => endpointIsIpv4 endpoint.endpoint
    if !ipv4.isEmpty then ipv4 else fallback

def MonitorGroup.selected (group : MonitorGroup) (member : EndpointState) : SelectedTarget where
  endpoint := member.endpoint
  tlsServerName := group.tlsServerName

def MonitorGroup.chooseEndpoint (group : MonitorGroup) (state : GroupState) (pick : Pick) :
    Option SelectedTarget × GroupState :=
  let members := candidates endpointIsIpv4 state.endpoints
  if members.isEmpty then (none, state)
  else
    match pick with
    | .sequential =>
      (members[state.sequence.toNat % members.length]?.map group.selected,
        { state with sequence := state.sequence + 1 })
    | .sticky clientIp =>
      (members[rendezvousIndex hash members EndpointState.endpoint clientIp]?.map group.selected, state)

variable {hash endpointIsIpv4} in
theorem chooseEndpoint_eq_some {group : MonitorGroup} {state : GroupState} {pick : Pick} {target : SelectedTarget}
    (chosen : (group.chooseEndpoint hash endpointIsIpv4 state pick).1 = some target) :
    ∃ member ∈ candidates endpointIsIpv4 state.endpoints, group.selected member = target := by
  unfold MonitorGroup.chooseEndpoint at chosen
  simp only at chosen
  split at chosen
  · cases chosen
  · cases pick <;>
    · obtain ⟨member, found, rfl⟩ := Option.map_eq_some_iff.mp chosen
      exact ⟨member, List.mem_of_getElem? found, rfl⟩

end Choice

def runtimeGroupMax : Nat := 1000

/-- The least recently active groups over the cap. -/
def excessRuntimeGroupsToEvict (runtimeGroups : List (GroupKey × Nat)) : List GroupKey :=
  if runtimeGroups.length ≤ runtimeGroupMax then []
  else
    ((runtimeGroups.mergeSort fun a b => decide (a.2 ≤ b.2)).take
      (runtimeGroups.length - runtimeGroupMax)).map Prod.fst

end TlsProxy.Forward
