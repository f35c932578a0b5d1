import TlsProxy.Lib.Runs
import TlsProxy.Forward.Selection
import Mathlib.Logic.Function.Basic

/-! Data-plane selections, configuration passes and eviction sweeps run
concurrently on the tables of `forward/mod.rs`. A step is what a task does
between two points at which it may wait for a lock, for DNS or for another
task. `ensure_group` holds the read lock on `GROUPS` while it touches or
promotes the group it found, but not while it creates a missing one. -/
namespace TlsProxy.Forward

open Config

structure Platform where
  /-- The hash of a client address and a member's key. -/
  hash : IpAddr → Text → Nat
  endpointIsIpv4 : Text → Bool
  /-- The overrides that `init_dns` installs. -/
  resolver : DnsConfig → Text → Nat → Option Text

structure Tables where
  resolve : Text → Nat → Option Text := fun _ _ => none
  groups : Groups := .empty
  listeners : AList fun _ : Text => List GroupKey := ∅
  healthBindings : List HealthBinding := []
  cursors : AList fun _ : Text => UInt64 := ∅
  /-- Not in the source: the server names that came with each key since `GROUPS` was last cleared. -/
  calls : List (GroupKey × Text) := []

structure Input where
  now : Nat := 0
  /-- The answer of DNS. -/
  resolved : List Text := []
  seed : UInt64 := 0

inductive Call
  | resolve
  | lookup (effective : HostAndPort)
  | create (effective : HostAndPort) (startedMs : Nat)
  | insert (effective : HostAndPort) (startedMs : Nat) (resolved : List Text) (resolvedMs : Nat)

inductive Called
  | pending (call : Call)
  | returned (group : Nat)

def Tables.recordCall (t : Tables) (key : GroupKey) (tlsServerName : Text) : Tables :=
  { t with calls := (key, tlsServerName) :: t.calls }

def GroupState.claim (owner : Owner) (now : Nat) : GroupState → GroupState :=
  match owner with
  | .runtime => touch now
  | .configured => promote

/-- One step of `ensure_group`, which holds no lock between the look into the table and the insertion. -/
def ensureGroup (owner : Owner) (request : GroupRequest) (input : Input) (t : Tables) : Call → Tables × Called
  | .resolve => (t, .pending (.lookup (resolveOverrideFirst t.resolve request.requested)))
  | .lookup effective =>
    let called := t.recordCall (request.key effective) request.tlsServerName
    match t.groups.table.lookup (request.key effective) with
    | some group =>
      ({ called with groups := t.groups.update group (GroupState.claim owner input.now) }, .returned group)
    | none => (called, .pending (.create effective input.now))
  | .create effective startedMs => (t, .pending (.insert effective startedMs input.resolved input.now))
  | .insert effective startedMs resolved resolvedMs =>
    ({ t.recordCall (request.key effective) request.tlsServerName with
        groups := t.groups.insert (request.group effective) (GroupState.new owner startedMs resolved resolvedMs) },
      .returned t.groups.objects.length)

inductive Stage
  | ready
  | ensuring (call : Call)
  | ensured (group : Nat)

structure Runner where
  work : List Work
  stage : Stage := .ready
  keys : List GroupKey := []

def Tables.groupKey (t : Tables) (group : Nat) : Option GroupKey := (t.groups.object? group).map fun object => object.1.key

/-- One step through the groups and listeners that a configuration asks for; a failure ends it. -/
def Runner.step (input : Input) (t : Tables) (runner : Runner) : Tables × Option Runner :=
  match runner.work with
  | [] => (t, some runner)
  | .fail _ :: _ => (t, none)
  | .listen listener :: rest =>
    ({ t with listeners := t.listeners.insert listener runner.keys }, some { work := rest })
  | .ensure request binding collect :: rest =>
    match runner.stage with
    | .ready => (t, some { runner with stage := .ensuring .resolve })
    | .ensuring call =>
      match ensureGroup .configured request input t call with
      | (next, .pending call) => (next, some { runner with stage := .ensuring call })
      | (next, .returned group) => (next, some { runner with stage := .ensured group })
    | .ensured group =>
      match t.groupKey group with
      | none => (t, none)
      | some key =>
        ({ t with healthBindings := t.healthBindings ++ (binding.map (HealthBinding.mk · key)).toList },
          some { work := rest, keys := runner.keys ++ if collect then [key] else [] })

inductive Phase
  | initDns
  /-- The tables that `reset` clears one after the other. -/
  | resetListeners
  | resetGroups
  | resetCursors
  | resetBindings
  /-- Forward listeners are registered before a hot `configure_health_checks`. -/
  | register (runner : Runner)
  | configure
  | bind (runner : Runner)
  | release
  | demote (referenced : List GroupKey) (pending : List Nat)
  /-- Forward listeners are registered after the reload's `configure_health_checks`. -/
  | finish (runner : Runner)

structure Pass where
  reload : Bool
  config : RuntimeConfig
  phase : Phase

def Tables.demote (t : Tables) (referenced : List GroupKey) (group : Nat) : Tables :=
  match t.groupKey group with
  | none => t
  | some key => if key ∈ referenced then t else { t with groups := t.groups.update group GroupState.demote }

def Pass.goto (pass : Pass) (phase : Phase) : Option Pass := some { pass with phase }

def Pass.work (pass : Pass) (input : Input) (t : Tables) (runner : Runner) (stay : Runner → Phase)
    (next : Option Pass) : Tables × Option Pass :=
  match runner.work with
  | [] => (t, next)
  | _ :: _ =>
    let stepped := runner.step input t
    (stepped.1, stepped.2.bind fun runner => pass.goto (stay runner))

/-- One step of a reload or of a hot application; other tasks run in between. -/
def Pass.step (platform : Platform) (input : Input) (t : Tables) (pass : Pass) : Tables × Option Pass :=
  match pass.phase with
  | .initDns => ({ t with resolve := platform.resolver pass.config.dnsOverrides }, pass.goto .resetListeners)
  | .resetListeners => ({ t with listeners := ∅ }, pass.goto .resetGroups)
  | .resetGroups => ({ t with groups := t.groups.clear, calls := [] }, pass.goto .resetCursors)
  | .resetCursors => ({ t with cursors := ∅ }, pass.goto .resetBindings)
  | .resetBindings => ({ t with healthBindings := [] }, pass.goto .configure)
  | .register runner => pass.work input t runner .register (pass.goto .configure)
  | .configure => ({ t with healthBindings := [] }, pass.goto (.bind { work := bindings pass.config }))
  | .bind runner => pass.work input t runner .bind (pass.goto .release)
  | .release => (t, pass.goto (.demote (t.healthBindings.map HealthBinding.group) t.groups.pointers))
  | .demote referenced (group :: rest) => (t.demote referenced group, pass.goto (.demote referenced rest))
  | .demote _ [] =>
    (t, if pass.reload then pass.goto (.finish { work := registrations pass.config }) else none)
  | .finish runner => pass.work input t runner .finish none

/-- The two evictions of a health-check round: each takes a snapshot of the groups, looks at one after
the other, and removes what it found. -/
inductive Sweep
  | expire
  | expiring (now : Nat) (pending : List Nat) (doomed : List GroupKey)
  | excess
  | counting (pending : List Nat) (runtimeGroups : List (GroupKey × Nat))

def Sweep.step (input : Input) (t : Tables) : Sweep → Tables × Option Sweep
  | .expire => (t, some (.expiring input.now t.groups.pointers []))
  | .expiring now (group :: rest) doomed =>
    let found := (t.groups.object? group).toList.filter fun object => object.2.expired now
    (t, some (.expiring now rest (doomed ++ found.map fun object => object.1.key)))
  | .expiring _ [] doomed => ({ t with groups := t.groups.remove doomed }, some .excess)
  | .excess => (t, some (.counting t.groups.pointers []))
  | .counting (group :: rest) runtimeGroups =>
    let found := (t.groups.object? group).toList.filter fun object => object.2.owner == .runtime
    (t, some (.counting rest (runtimeGroups ++ found.map fun object => (object.1.key, object.2.lastActivityMs))))
  | .counting [] runtimeGroups =>
    ({ t with groups := t.groups.remove (excessRuntimeGroupsToEvict runtimeGroups) }, none)

structure Candidate where
  request : GroupRequest
  group : Nat
deriving DecidableEq

inductive Serving
  | loop (requests : List (Except Text GroupRequest)) (preferred fallback : List Candidate)
  | ensuring (request : GroupRequest) (call : Call) (rest : List (Except Text GroupRequest))
      (preferred fallback : List Candidate)
  | ensured (candidate : Candidate) (rest : List (Except Text GroupRequest)) (preferred fallback : List Candidate)
  | picked (candidate : Candidate) (pick : Pick)
  | returned (candidate : Candidate) (target : SelectedTarget)
  | failed (message : Text)

def Tables.requestedTarget (t : Tables) (candidate : Candidate) : Text :=
  ((t.groups.object? candidate.group).map fun object => object.1.requestedTarget).getD []

/-- The index of the chosen member, how it picks its endpoint, and the cursors afterwards. -/
def balance (platform : Platform) (input : Input) (t : Tables) (available : List Candidate) (routeKey : Text)
    (clientIp : IpAddr) : HttpLoadBalancing → Nat × Pick × Tables
  | .clientIpHash => (rendezvousIndex platform.hash available t.requestedTarget clientIp, .sticky clientIp, t)
  | .roundRobin =>
    let cursor := (t.cursors.lookup routeKey).getD input.seed
    (cursor.toNat % available.length, .sequential, { t with cursors := t.cursors.insert routeKey (cursor + 1) })

def pickMember (platform : Platform) (input : Input) (t : Tables) (selection : Selection)
    (preferred fallback : List Candidate) : Tables × Serving :=
  match selection.balance with
  -- A selection without a pool has picked its group before.
  | .direct => (t, .failed [])
  | .pooled routeKey clientIp loadBalancing unavailable =>
    let available := if preferred.isEmpty then fallback else preferred
    let (index, pick, next) := balance platform input t available routeKey clientIp loadBalancing
    match available[index]? with
    | some candidate => (next, .picked candidate pick)
    | none => (t, .failed unavailable)

def weigh (t : Tables) (candidate : Candidate) (rest : List (Except Text GroupRequest))
    (preferred fallback : List Candidate) : Serving :=
  match (t.groups.object? candidate.group).bind fun object => groupIsViable object.2.endpoints with
  | some true => .loop rest (preferred ++ [candidate]) fallback
  | some false => .loop rest preferred (fallback ++ [candidate])
  | none => .loop rest preferred fallback

def chooseEndpoint (platform : Platform) (t : Tables) (selection : Selection) (candidate : Candidate) (pick : Pick) :
    Tables × Serving :=
  match t.groups.object? candidate.group with
  | none => (t, .failed [])
  | some (group, state) =>
    let choose := fun state => group.chooseEndpoint platform.hash platform.endpointIsIpv4 state pick
    ({ t with groups := t.groups.update candidate.group fun state => (choose state).2 },
      match (choose state).1 with
      | none => .failed (selection.withoutEndpoint group.key)
      | some target =>
        .returned candidate { target with tlsServerName := selection.serverName.getD target.tlsServerName })

/-- One step of a selection: each backend's group is ensured, then a member and its endpoint are picked. -/
def Serving.step (platform : Platform) (input : Input) (t : Tables) (selection : Selection) :
    Serving → Option (Tables × Serving)
  | .loop [] preferred fallback => some (pickMember platform input t selection preferred fallback)
  | .loop (.error message :: _) _ _ => some (t, .failed message)
  | .loop (.ok request :: rest) preferred fallback => some (t, .ensuring request .resolve rest preferred fallback)
  | .ensuring request call rest preferred fallback =>
    match ensureGroup .runtime request input t call with
    | (next, .pending call) => some (next, .ensuring request call rest preferred fallback)
    | (next, .returned group) => some (next, .ensured { request, group } rest preferred fallback)
  | .ensured candidate rest preferred fallback =>
    let touched := { t with groups := t.groups.update candidate.group (GroupState.touch input.now) }
    match selection.balance with
    | .direct => some (touched, .picked candidate .sequential)
    | .pooled .. => some (touched, weigh touched candidate rest preferred fallback)
  | .picked candidate pick => some (chooseEndpoint platform t selection candidate pick)
  | .returned .. | .failed _ => none

inductive Task
  | idle
  | serve (selection : Selection) (serving : Serving)
  | pass (pass : Pass)
  | sweep (sweep : Sweep)

structure State where
  tables : Tables := {}
  tasks : Nat → Task := fun _ => .idle

inductive Job
  | select (selection : Selection)
  /-- The hot application of listener settings. -/
  | hotApply (config : RuntimeConfig)
  | reload (config : RuntimeConfig)
  | evict

inductive Event
  | begin (task : Nat) (job : Job)
  | advance (task : Nat) (input : Input)
  | reconcile (group : Nat) (resolved : List Text) (now : Nat)
  | probed (group : Nat) (endpoint : Text) (online : Bool) (now : Nat)

def Job.start : Job → Task
  | .select selection => .serve selection (.loop selection.requests [] [])
  | .hotApply config => .pass { reload := false, config, phase := .register { work := registrations config } }
  | .reload config => .pass { reload := true, config, phase := .initDns }
  | .evict => .sweep .expire

def State.put (s : State) (tables : Tables) (task : Nat) (next : Task) : State :=
  { tables, tasks := Function.update s.tasks task next }

def State.advance (platform : Platform) (s : State) (task : Nat) (input : Input) : Option State :=
  match s.tasks task with
  | .idle => none
  | .serve selection serving =>
    (serving.step platform input s.tables selection).map fun next => s.put next.1 task (.serve selection next.2)
  | .pass pass =>
    let next := pass.step platform input s.tables
    some (s.put next.1 task ((next.2.map Task.pass).getD .idle))
  | .sweep sweep =>
    let next := sweep.step input s.tables
    some (s.put next.1 task ((next.2.map Task.sweep).getD .idle))

def Tables.updateGroup (t : Tables) (group : Nat) (f : GroupState → GroupState) : Tables :=
  { t with groups := t.groups.update group f }

/-- A job begins, a task takes its next step, or the answer of DNS or of a probe comes in. -/
def step (platform : Platform) (s : State) : Event → Option State
  | .begin task job =>
    match s.tasks task with
    | .idle => some (s.put s.tables task job.start)
    | _ => none
  | .advance task input => s.advance platform task input
  | .reconcile group resolved now =>
    some { s with tables := s.tables.updateGroup group (GroupState.reconcileEndpoints resolved now) }
  | .probed group endpoint online now =>
    some { s with tables := s.tables.updateGroup group (GroupState.setEndpointState endpoint online now) }

def exampleClient : IpAddr := .v4 ⟨#v[10, 0, 0, 9]⟩

def plainPlatform : Platform where
  hash := fun _ _ => 0
  endpointIsIpv4 := fun _ => true
  resolver := fun _ _ _ => none

end TlsProxy.Forward
