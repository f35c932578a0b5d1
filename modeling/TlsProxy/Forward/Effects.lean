import TlsProxy.Forward.Machine

/-! One lemma for each kind of task says what its step can do. -/
namespace TlsProxy.Forward

open Config Shared

def Configured (t : Tables) (key : GroupKey) : Prop :=
  t.groups.Marked (fun state => state.owner = .configured) key

/-- A step of a call, a selection or a sweep; `lost` are the keys whose entries it replaces by a runtime
group or removes. -/
inductive Effect (t : Tables) : List GroupKey → Tables → Prop
  | cursors (cursors : AList fun _ : Text => UInt64) : Effect t [] { t with cursors }
  | called (key : GroupKey) (name : Text) : Effect t [] (t.recordCall key name)
  | updated (group : Nat) {f : GroupState → GroupState} (keeps : ∀ state, (f state).owner = state.owner) :
      Effect t [] (t.updateGroup group f)
  | claimed (key : GroupKey) (name : Text) (group : Nat) (owner : Owner) (now : Nat) :
      Effect t [] { t.recordCall key name with groups := t.groups.update group (GroupState.claim owner now) }
  | inserted (request : GroupRequest) (effective : HostAndPort) {state : GroupState} {lost : List GroupKey}
      (loses : state.owner = .configured ∨ request.key effective ∈ lost) :
      Effect t lost { t.recordCall (request.key effective) request.tlsServerName with
        groups := t.groups.insert (request.group effective) state }
  | removed (doomed : List GroupKey) : Effect t doomed { t with groups := t.groups.remove doomed }

theorem Effect.refl (t : Tables) : Effect t [] t := .cursors t.cursors

def Call.inserts (request : GroupRequest) : Call → Option GroupKey
  | .insert effective .. => some (request.key effective)
  | _ => none

def Call.loses (owner : Owner) (request : GroupRequest) (call : Call) : List GroupKey :=
  match owner with
  | .configured => []
  | .runtime => (call.inserts request).toList

theorem ensureGroup_effect (owner : Owner) (request : GroupRequest) (input : Input) (t : Tables) (call : Call) :
    Effect t (call.loses owner request) (ensureGroup owner request input t call).1 := by
  have none : ∀ call : Call, call.inserts request = none → call.loses owner request = [] := by
    intro call vacant
    cases owner with
    | configured => rfl
    | runtime => rw [Call.loses, vacant]; rfl
  cases call with
  | resolve => rw [none _ rfl]; exact .refl t
  | create effective startedMs => rw [none _ rfl]; exact .refl t
  | lookup effective =>
    rw [none _ rfl]
    simp only [ensureGroup]
    cases t.groups.table.lookup (request.key effective) with
    | none => exact .called _ _
    | some group => exact .claimed _ _ group owner input.now
  | insert effective startedMs resolved resolvedMs =>
    refine .inserted request effective ?_
    cases owner with
    | configured => exact .inl rfl
    | runtime => exact .inr (List.mem_singleton_self _)

theorem ensureGroup_configured {request : GroupRequest} {input : Input} {t : Tables} {call : Call} {group : Nat}
    (returned : (ensureGroup .configured request input t call).2 = .returned group) :
    ∃ key, (ensureGroup .configured request input t call).1.groupKey group = some key ∧
      Configured (ensureGroup .configured request input t call).1 key := by
  cases call with
  | resolve => cases returned
  | create effective startedMs => cases returned
  | lookup effective =>
    simp only [ensureGroup] at returned ⊢
    cases listed : t.groups.table.lookup (request.key effective) with
    | none => rw [listed] at returned; cases returned
    | some found =>
      rw [listed] at returned
      cases returned
      obtain ⟨object, there, keyed⟩ := t.groups.sound _ _ listed
      have read : (t.groups.update group (GroupState.claim .configured input.now)).object? group =
          some (object.1, object.2.promote) := by
        rw [Registry.object?_update, Registry.object?, there, Option.map_some, if_pos rfl]
        rfl
      refine ⟨request.key effective, ?_, (object.1, object.2.promote), ?_, rfl⟩
      · grind [Tables.groupKey]
      · exact (Registry.get?_of_lookup (r := t.groups.update group _) listed).trans read
  | insert effective startedMs resolved resolvedMs =>
    cases returned
    refine ⟨request.key effective, ?_, Registry.marked_insert_self (request.group effective) rfl⟩
    simp only [ensureGroup, Tables.groupKey, Registry.object?_insert, Option.map_some, GroupRequest.group]

theorem balance_tables (platform : Platform) (input : Input) (t : Tables) (available : List Candidate)
    (routeKey : Text) (clientIp : IpAddr) (loadBalancing : HttpLoadBalancing) :
    ∃ cursors, (balance platform input t available routeKey clientIp loadBalancing).2.2 = { t with cursors } := by
  cases loadBalancing with
  | clientIpHash => exact ⟨t.cursors, rfl⟩
  | roundRobin => exact ⟨_, rfl⟩

theorem pickMember_tables (platform : Platform) (input : Input) (t : Tables) (selection : Selection)
    (preferred fallback : List Candidate) :
    ∃ cursors, (pickMember platform input t selection preferred fallback).1 = { t with cursors } := by
  unfold pickMember
  cases selection.balance with
  | direct => exact ⟨t.cursors, rfl⟩
  | pooled routeKey clientIp loadBalancing unavailable =>
    simp only
    split
    · exact balance_tables ..
    · exact ⟨t.cursors, rfl⟩

theorem chooseEndpoint_owner (hash : IpAddr → Text → Nat) (endpointIsIpv4 : Text → Bool) (group : MonitorGroup)
    (state : GroupState) (pick : Pick) :
    (group.chooseEndpoint hash endpointIsIpv4 state pick).2.owner = state.owner := by
  unfold MonitorGroup.chooseEndpoint
  grind

def Serving.loses : Serving → List GroupKey
  | .ensuring request call .. => call.loses .runtime request
  | _ => []

theorem Serving.step_effect {platform : Platform} {input : Input} {t : Tables} {selection : Selection}
    {serving : Serving} {next : Tables × Serving} (stepped : serving.step platform input t selection = some next) :
    Effect t serving.loses next.1 := by
  cases serving with
  | loop requests preferred fallback =>
    cases requests with
    | nil =>
      cases stepped
      obtain ⟨cursors, same⟩ := pickMember_tables platform input t selection preferred fallback
      rw [same]
      exact .cursors cursors
    | cons first rest => cases first <;> cases stepped <;> exact .refl t
  | ensuring request call rest preferred fallback =>
    have effect := ensureGroup_effect .runtime request input t call
    simp only [Serving.step] at stepped
    generalize ensureGroup .runtime request input t call = result at stepped effect
    obtain ⟨after, called⟩ := result
    cases called <;> cases stepped <;> exact effect
  | ensured candidate rest preferred fallback =>
    have effect := Effect.updated (t := t) candidate.group (f := GroupState.touch input.now) fun _ => rfl
    simp only [Serving.step] at stepped
    split at stepped <;> cases stepped <;> exact effect
  | picked candidate pick =>
    cases stepped
    simp only [chooseEndpoint]
    split
    · exact .refl t
    · exact .updated candidate.group fun state => chooseEndpoint_owner _ _ _ state pick
  | returned candidate target => cases stepped
  | failed message => cases stepped

def Sweep.doomed : Sweep → List GroupKey
  | .expiring _ [] doomed => doomed
  | .counting [] runtimeGroups => excessRuntimeGroupsToEvict runtimeGroups
  | _ => []

theorem Sweep.step_effect (input : Input) (t : Tables) (sweep : Sweep) :
    Effect t sweep.doomed (sweep.step input t).1 := by
  cases sweep with
  | expire => exact .refl t
  | excess => exact .refl t
  | expiring now pending doomed =>
    cases pending with
    | nil => exact .removed doomed
    | cons group rest => exact .refl t
  | counting pending runtimeGroups =>
    cases pending with
    | nil => exact .removed _
    | cons group rest => exact .refl t

inductive Worked (t : Tables) (runner : Runner) : Tables → Option Runner → Prop
  | stopped : Worked t runner t none
  | listened {listener : Text} {rest : List Work} (first : runner.work = .listen listener :: rest) :
      Worked t runner { t with listeners := t.listeners.insert listener runner.keys } (some { work := rest })
  | moved {next : Tables} {stage : Stage} (effect : Effect t [] next)
      (ensured : ∀ group, stage = .ensured group → ∃ key, next.groupKey group = some key ∧ Configured next key) :
      Worked t runner next (some { runner with stage })
  | pushed {request : GroupRequest} {binding : Option BoundRoute} {collect : Bool} {rest : List Work} {group : Nat}
      {key : GroupKey} (first : runner.work = .ensure request binding collect :: rest)
      (stage : runner.stage = .ensured group) (known : t.groupKey group = some key) :
      Worked t runner { t with healthBindings := t.healthBindings ++ (binding.map (HealthBinding.mk · key)).toList }
        (some { work := rest, keys := runner.keys ++ if collect then [key] else [] })

theorem Runner.step_worked (input : Input) (t : Tables) {runner : Runner} {first : Work} {rest : List Work}
    (work : runner.work = first :: rest) : Worked t runner (runner.step input t).1 (runner.step input t).2 := by
  obtain ⟨_, stage, keys⟩ := runner
  cases work
  cases first with
  | fail message => exact .stopped
  | listen listener => exact .listened rfl
  | ensure request binding collect =>
    cases stage with
    | ready =>
      refine .moved (.refl t) ?_
      intro group same
      cases same
    | ensuring call =>
      have effect := ensureGroup_effect .configured request input t call
      have ensured := @ensureGroup_configured request input t call
      simp only [Runner.step]
      generalize ensureGroup .configured request input t call = result at effect ensured
      obtain ⟨after, called⟩ := result
      cases called with
      | pending call =>
        refine .moved effect ?_
        intro group same
        cases same
      | returned found =>
        refine .moved effect ?_
        grind
    | ensured group =>
      simp only [Runner.step]
      cases known : t.groupKey group with
      | none => exact .stopped
      | some key => exact .pushed rfl rfl known

def Event.task : Event → Option Nat
  | .begin task _ | .advance task _ => some task
  | .reconcile .. | .probed .. => none

inductive Stepped (platform : Platform) (s : State) : Event → State → Prop
  | began {task : Nat} {job : Job} (idle : s.tasks task = .idle) :
      Stepped platform s (.begin task job) (s.put s.tables task job.start)
  | served {task : Nat} {input : Input} {selection : Selection} {serving : Serving} {next : Tables × Serving}
      (running : s.tasks task = .serve selection serving)
      (taken : serving.step platform input s.tables selection = some next) :
      Stepped platform s (.advance task input) (s.put next.1 task (.serve selection next.2))
  | passed {task : Nat} {input : Input} {pass : Pass} {tables : Tables} {left : Option Pass}
      (running : s.tasks task = .pass pass) (taken : pass.step platform input s.tables = (tables, left)) :
      Stepped platform s (.advance task input) (s.put tables task ((left.map Task.pass).getD .idle))
  | swept {task : Nat} {input : Input} {sweep : Sweep} {tables : Tables} {left : Option Sweep}
      (running : s.tasks task = .sweep sweep) (taken : sweep.step input s.tables = (tables, left)) :
      Stepped platform s (.advance task input) (s.put tables task ((left.map Task.sweep).getD .idle))
  | refreshed {event : Event} {tables : Tables} (free : event.task = none) (effect : Effect s.tables [] tables) :
      Stepped platform s event { s with tables }

theorem step_stepped {platform : Platform} {s next : State} {event : Event}
    (taken : step platform s event = some next) : Stepped platform s event next := by
  cases event with
  | begin task job =>
    simp only [step] at taken
    split at taken
    · rename_i idle
      cases taken
      exact .began idle
    · cases taken
  | advance task input =>
    simp only [step, State.advance] at taken
    split at taken
    · cases taken
    · rename_i selection serving running
      obtain ⟨after, served, rfl⟩ := Option.map_eq_some_iff.mp taken
      exact .served running served
    · rename_i pass running
      cases taken
      exact .passed running rfl
    · rename_i sweep running
      cases taken
      exact .swept running rfl
  | reconcile group resolved now =>
    cases taken
    exact .refreshed rfl (.updated group fun _ => rfl)
  | probed group endpoint online now =>
    cases taken
    exact .refreshed rfl (.updated group fun _ => rfl)

end TlsProxy.Forward
