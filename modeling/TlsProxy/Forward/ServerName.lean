import TlsProxy.Config.Validate
import TlsProxy.Forward.Effects

/-! A group carries the TLS server name of the call that created it, and its key
does not mention the name. -/
namespace TlsProxy.Forward

open Config Shared

/-- Every group in the table was inserted by a call on record. -/
def Recorded (t : Tables) : Prop :=
  ∀ key object, t.groups.get? key = some object → (key, object.1.tlsServerName) ∈ t.calls

/-- What every step grants: groups keep their identity, and the record of the calls is kept up. -/
structure Evolves (t next : Tables) : Prop where
  kept : t.groups.Extends next.groups
  recorded : Recorded t → Recorded next

theorem evolves_of_eq {t next : Tables} (groups : next.groups = t.groups) (calls : t.calls ⊆ next.calls) :
    Evolves t next where
  kept := by rw [groups]; exact .refl _
  recorded := by
    intro recorded key object found
    rw [groups] at found
    exact calls (recorded key object found)

theorem evolves_of_update {t next : Tables} {group : Nat} {f : GroupState → GroupState}
    (groups : next.groups = t.groups.update group f) (calls : t.calls ⊆ next.calls) : Evolves t next where
  kept := by rw [groups]; exact Registry.extends_update _ _ _
  recorded := by
    intro recorded key object found
    rw [groups, Registry.get?_update] at found
    obtain ⟨before, listed, rfl⟩ := Option.map_eq_some_iff.mp found
    have known := calls (recorded key before listed)
    split <;> exact known

theorem evolves_insert (t : Tables) (request : GroupRequest) (effective : HostAndPort) (state : GroupState) :
    Evolves t { t.recordCall (request.key effective) request.tlsServerName with
      groups := t.groups.insert (request.group effective) state } where
  kept := Registry.extends_insert _ _ _
  recorded := by
    intro recorded key object found
    by_cases same : key = request.key effective
    · subst same
      have fresh := Registry.get?_insert_self t.groups (request.group effective) state
      cases found.symm.trans fresh
      exact List.mem_cons_self
    · have old := (Registry.get?_insert_of_ne t.groups (request.group effective) state same).symm.trans found
      exact List.mem_cons_of_mem _ (recorded key object old)

theorem evolves_remove (t : Tables) (doomed : List GroupKey) :
    Evolves t { t with groups := t.groups.remove doomed } where
  kept := Registry.extends_remove _ _
  recorded := by
    intro recorded key object found
    rw [Registry.get?_remove] at found
    split at found
    · cases found
    · exact recorded key object found

theorem Effect.evolves {t next : Tables} {lost : List GroupKey} (effect : Effect t lost next) : Evolves t next := by
  cases effect with
  | cursors cursors => exact evolves_of_eq rfl fun _ known => known
  | called key name => exact evolves_of_eq rfl (List.subset_cons_self _ _)
  | updated group keeps => exact evolves_of_update rfl fun _ known => known
  | claimed key name group owner now => exact evolves_of_update rfl (List.subset_cons_self _ _)
  | inserted request effective loses => exact evolves_insert t request effective _
  | removed => exact evolves_remove t lost

theorem Worked.evolves {t next : Tables} {runner : Runner} {left : Option Runner} (worked : Worked t runner next left) :
    Evolves t next := by
  cases worked with
  | stopped => exact evolves_of_eq rfl fun _ known => known
  | listened first => exact evolves_of_eq rfl fun _ known => known
  | moved effect ensured => exact effect.evolves
  | pushed first stage known => exact evolves_of_eq rfl fun _ known => known

theorem Pass.work_evolves (pass : Pass) (input : Input) (t : Tables) (runner : Runner) (stay : Runner → Phase)
    (next : Option Pass) : Evolves t (pass.work input t runner stay next).1 := by
  unfold Pass.work
  grind [evolves_of_eq, Runner.step_worked, Worked.evolves]

theorem demote_evolves (t : Tables) (referenced : List GroupKey) (group : Nat) :
    Evolves t (t.demote referenced group) := by
  unfold Tables.demote
  cases t.groupKey group with
  | none => exact evolves_of_eq rfl fun _ known => known
  | some key => grind [evolves_of_eq, evolves_of_update]

theorem Pass.step_evolves (platform : Platform) (input : Input) (t : Tables) (pass : Pass) :
    Evolves t (pass.step platform input t).1 := by
  obtain ⟨reload, config, phase⟩ := pass
  cases phase with
  | resetGroups =>
    refine ⟨Registry.extends_clear _, fun _ key object found => ?_⟩
    cases found
  | register runner => exact Pass.work_evolves ..
  | bind runner => exact Pass.work_evolves ..
  | finish runner => exact Pass.work_evolves ..
  | demote referenced pending =>
    cases pending with
    | nil => exact evolves_of_eq rfl fun _ known => known
    | cons group rest => exact demote_evolves t referenced group
  | initDns => exact evolves_of_eq rfl fun _ known => known
  | resetListeners => exact evolves_of_eq rfl fun _ known => known
  | resetCursors => exact evolves_of_eq rfl fun _ known => known
  | resetBindings => exact evolves_of_eq rfl fun _ known => known
  | configure => exact evolves_of_eq rfl fun _ known => known
  | release => exact evolves_of_eq rfl fun _ known => known

/-- A group that a selection has ensured for one of its requests and that carries the request's name. -/
structure Matched (t : Tables) (selection : Selection) (candidate : Candidate) : Prop where
  asked : .ok candidate.request ∈ selection.requests
  named : ∃ object, t.groups.object? candidate.group = some object ∧
    (candidate.request.httpHealth = true → candidate.request.upstreamTls = true →
      object.1.tlsServerName = candidate.request.tlsServerName)

theorem Matched.evolves {t next : Tables} {selection : Selection} {candidate : Candidate}
    (matched : Matched t selection candidate) (evolves : Evolves t next) : Matched next selection candidate := by
  obtain ⟨object, there, named⟩ := matched.named
  obtain ⟨state, still⟩ := evolves.kept _ object there
  exact ⟨matched.asked, _, still, named⟩

def ServingInv (t : Tables) (selection : Selection) : Serving → Prop
  | .loop requests preferred fallback =>
    requests ⊆ selection.requests ∧ ∀ candidate ∈ preferred ++ fallback, Matched t selection candidate
  | .ensuring request _ rest preferred fallback =>
    .ok request ∈ selection.requests ∧ rest ⊆ selection.requests ∧
      ∀ candidate ∈ preferred ++ fallback, Matched t selection candidate
  | .ensured candidate rest preferred fallback =>
    Matched t selection candidate ∧ rest ⊆ selection.requests ∧
      ∀ candidate ∈ preferred ++ fallback, Matched t selection candidate
  | .picked candidate _ => Matched t selection candidate
  | .returned candidate target =>
    .ok candidate.request ∈ selection.requests ∧
      (candidate.request.httpHealth = true → candidate.request.upstreamTls = true →
        target.tlsServerName = selection.serverName.getD candidate.request.tlsServerName)
  | .failed _ => True

theorem ServingInv.evolves {t next : Tables} {selection : Selection} {serving : Serving}
    (inv : ServingInv t selection serving) (evolves : Evolves t next) : ServingInv next selection serving := by
  cases serving with
  | loop requests preferred fallback => exact ⟨inv.1, fun candidate member => (inv.2 candidate member).evolves evolves⟩
  | ensuring request call rest preferred fallback =>
    exact ⟨inv.1, inv.2.1, fun candidate member => (inv.2.2 candidate member).evolves evolves⟩
  | ensured candidate rest preferred fallback =>
    exact ⟨inv.1.evolves evolves, inv.2.1, fun candidate member => (inv.2.2 candidate member).evolves evolves⟩
  | picked candidate pick => exact Matched.evolves inv evolves
  | returned candidate target => exact inv
  | failed message => exact inv

def AgreesOn (t : Tables) (key : GroupKey) (name : Text) : Prop := ∀ call ∈ t.calls, call.1 = key → call.2 = name

/-- The group that a call returns carries the name of the call, if the earlier calls with its key agree. -/
theorem ensureGroup_named {owner : Owner} {request : GroupRequest} {input : Input} {t : Tables} {call : Call}
    {group : Nat} (recorded : Recorded t)
    (agreed : ∀ effective, call = .lookup effective → request.httpHealth = true → request.upstreamTls = true →
      AgreesOn t (request.key effective) request.tlsServerName)
    (returned : (ensureGroup owner request input t call).2 = .returned group) :
    ∃ object, (ensureGroup owner request input t call).1.groups.object? group = some object ∧
      (request.httpHealth = true → request.upstreamTls = true → object.1.tlsServerName = request.tlsServerName) := by
  cases call with
  | resolve => cases returned
  | create effective startedMs => cases returned
  | lookup effective =>
    simp only [ensureGroup] at returned ⊢
    cases listed : t.groups.table.lookup (request.key effective) with
    | none => rw [listed] at returned; cases returned
    | some found =>
      rw [listed] at returned
      cases returned
      obtain ⟨object, there, -⟩ := t.groups.sound _ _ listed
      have known := recorded _ object ((Registry.get?_of_lookup listed).trans there)
      obtain ⟨state, still⟩ := Registry.extends_update t.groups group (GroupState.claim owner input.now) group object there
      exact ⟨_, still, fun health tls => agreed effective rfl health tls _ known rfl⟩
  | insert effective startedMs resolved resolvedMs =>
    cases returned
    exact ⟨_, Registry.object?_insert _ _ _, fun _ _ => rfl⟩

def Serving.lookup : Serving → Option (GroupRequest × HostAndPort)
  | .ensuring request (.lookup effective) .. => some (request, effective)
  | _ => none

/-- If the selection is about to look up an HTTP backend behind TLS, the calls with its key agree with it. -/
def Serving.Agrees (t : Tables) (serving : Serving) : Prop :=
  match serving.lookup with
  | some (request, effective) =>
    request.httpHealth = true → request.upstreamTls = true →
      AgreesOn t (request.key effective) request.tlsServerName
  | none => True

theorem pickMember_inv {platform : Platform} {input : Input} {t : Tables} {selection : Selection}
    {preferred fallback : List Candidate} (matched : ∀ candidate ∈ preferred ++ fallback, Matched t selection candidate) :
    ServingInv t selection (pickMember platform input t selection preferred fallback).2 := by
  unfold pickMember
  cases selection.balance with
  | direct => trivial
  | pooled routeKey clientIp loadBalancing unavailable =>
    simp only
    split
    · rename_i candidate found
      refine matched candidate (List.mem_append.mpr ?_)
      grind
    · trivial

theorem weigh_inv {t : Tables} {selection : Selection} {candidate : Candidate}
    {rest : List (Except Text GroupRequest)} {preferred fallback : List Candidate}
    (matched : Matched t selection candidate) (inside : rest ⊆ selection.requests)
    (others : ∀ candidate ∈ preferred ++ fallback, Matched t selection candidate) :
    ServingInv t selection (weigh t candidate rest preferred fallback) := by
  unfold weigh
  split
  · refine ⟨inside, fun other member => ?_⟩
    grind
  · refine ⟨inside, fun other member => ?_⟩
    grind
  · exact ⟨inside, others⟩

theorem chooseEndpoint_inv {platform : Platform} {t : Tables} {selection : Selection} {candidate : Candidate}
    {pick : Pick} (matched : Matched t selection candidate) (after : Tables) :
    ServingInv after selection (chooseEndpoint platform t selection candidate pick).2 := by
  obtain ⟨⟨group, state⟩, there, named⟩ := matched.named
  unfold chooseEndpoint
  rw [there]
  dsimp only
  split
  · trivial
  · rename_i target chosen
    refine ⟨matched.asked, fun health tls => ?_⟩
    obtain ⟨member, -, rfl⟩ := chooseEndpoint_eq_some chosen
    rw [← named health tls]
    rfl

theorem Serving.step_inv {platform : Platform} {input : Input} {t : Tables} {selection : Selection}
    {serving : Serving} {next : Tables × Serving} (stepped : serving.step platform input t selection = some next)
    (recorded : Recorded t) (inv : ServingInv t selection serving) (agreed : serving.Agrees t) :
    ServingInv next.1 selection next.2 := by
  have evolves : Evolves t next.1 := (Serving.step_effect stepped).evolves
  have still := inv.evolves evolves
  cases serving with
  | loop requests preferred fallback =>
    cases requests with
    | nil =>
      cases stepped
      exact (pickMember_inv inv.2).evolves evolves
    | cons first rest =>
      cases first with
      | error message => cases stepped; trivial
      | ok request =>
        cases stepped
        exact ⟨inv.1 List.mem_cons_self, fun _ member => inv.1 (List.mem_cons_of_mem _ member), inv.2⟩
  | ensuring request call rest preferred fallback =>
    have named := @ensureGroup_named .runtime request input t call
    simp only [Serving.step] at stepped
    generalize ensureGroup .runtime request input t call = result at stepped named
    obtain ⟨after, called⟩ := result
    cases called with
    | pending call => cases stepped; exact still
    | returned group =>
      cases stepped
      refine ⟨⟨inv.1, named recorded ?_ rfl⟩, still.2⟩
      rintro effective rfl
      exact agreed
  | ensured candidate rest preferred fallback =>
    simp only [Serving.step] at stepped
    split at stepped
    · cases stepped
      exact still.1
    · cases stepped
      exact weigh_inv still.1 still.2.1 still.2.2
  | picked candidate pick =>
    cases stepped
    exact chooseEndpoint_inv inv _
  | returned candidate target => cases stepped
  | failed message => cases stepped

/-- The calls with one key since `GROUPS` was last cleared agree on the server name, as far as selections
of HTTP backends behind TLS are concerned. -/
def Agreed (s : State) : Event → Prop
  | .advance task _ =>
    match s.tasks task with
    | .serve _ serving => serving.Agrees s.tables
    | _ => True
  | _ => True

structure NameInv (s : State) : Prop where
  recorded : Recorded s.tables
  serving : ∀ task selection serving, s.tasks task = .serve selection serving → ServingInv s.tables selection serving

theorem nameInv_initial : NameInv {} where
  recorded := by intro key object found; cases found
  serving := by simp

theorem NameInv.put {s : State} (inv : NameInv s) {tables : Tables} (task : Nat) {next : Task}
    (evolves : Evolves s.tables tables)
    (fresh : ∀ selection serving, next = .serve selection serving → ServingInv tables selection serving) :
    NameInv (s.put tables task next) where
  recorded := evolves.recorded inv.recorded
  serving := by
    intro other selection serving here
    simp only [State.put, Function.update_apply] at here
    split at here
    · exact fresh selection serving here
    · exact (inv.serving other selection serving here).evolves evolves

theorem step_preserves_names {platform : Platform} (s : State) (event : Event) (next : State) (inv : NameInv s)
    (agreed : Agreed s event) (taken : step platform s event = some next) : NameInv next := by
  cases step_stepped taken with
  | @began task job idle =>
    refine inv.put task (evolves_of_eq rfl fun _ known => known) ?_
    intro selection serving same
    cases job with
    | select wanted =>
      cases same
      exact ⟨fun _ member => member, fun candidate member => (List.not_mem_nil member).elim⟩
    | hotApply config => cases same
    | reload config => cases same
    | evict => cases same
  | @served task input selection serving after running served =>
    simp only [Agreed, running] at agreed
    refine inv.put task (Serving.step_effect served).evolves ?_
    grind [Serving.step_inv, NameInv.recorded, NameInv.serving]
  | @passed task input pass tables left running passed =>
    have evolves := Pass.step_evolves platform input s.tables pass
    rw [passed] at evolves
    refine inv.put task evolves ?_
    intro selection serving same
    cases left <;> cases same
  | @swept task input sweep tables left running swept =>
    have effect := Sweep.step_effect input s.tables sweep
    rw [swept] at effect
    refine inv.put task effect.evolves ?_
    intro selection serving same
    cases left <;> cases same
  | refreshed free effect =>
    refine ⟨effect.evolves.recorded inv.recorded, ?_⟩
    intro task selection serving here
    exact (inv.serving task selection serving here).evolves effect.evolves

theorem mem_backend_requests {proxyProtocol : ProxyProtocol} {backends : List HttpBackend} {request : GroupRequest}
    (member : .ok request ∈ backends.map (backendRequest proxyProtocol)) :
    ∃ backend ∈ backends, ∃ requested, HostAndPort.fromStr backend.address = .ok requested ∧
      request = httpRequest proxyProtocol backend requested := by
  obtain ⟨backend, belongs, made⟩ := List.mem_map.mp member
  unfold backendRequest at made
  cases parsed : HostAndPort.fromStr backend.address with
  | error cause => rw [parsed] at made; cases made
  | ok requested => grind

/-- In every run in which the calls agree, a selection from a pool that goes out over TLS returns the
server name of the backend it was made for, or else that backend's host. -/
theorem selected_serverName (platform : Platform) {events : List Event} {s : State}
    (agreed : Runs.Meets (step platform) Agreed {} events) (reached : Runs.run (step platform) {} events = some s)
    {task : Nat} {routeKey host : Text} {clientIp : IpAddr} {action : HttpRouteAction} {candidate : Candidate}
    {target : SelectedTarget} (pool : action.backends ≠ [])
    (returned : s.tasks task = .serve (selectHttpBackend routeKey host clientIp action) (.returned candidate target))
    (tls : candidate.request.upstreamTls = true) :
    ∃ backend ∈ action.backends, ∃ requested, HostAndPort.fromStr backend.address = .ok requested ∧
      candidate.request = httpRequest action.proxyProtocol backend requested ∧
      target.tlsServerName = backend.tlsServerName.getD requested.host := by
  have inv : NameInv s := Runs.run_invariant (step platform) step_preserves_names nameInv_initial agreed reached
  obtain ⟨asked, named⟩ := inv.serving task _ _ returned
  have pooled : (selectHttpBackend routeKey host clientIp action).requests =
      action.backends.map (backendRequest action.proxyProtocol) ∧
      (selectHttpBackend routeKey host clientIp action).serverName = none := by
    rw [selectHttpBackend, if_neg (by simpa using pool)]
    exact ⟨rfl, rfl⟩
  rw [pooled.1] at asked
  rw [pooled.2, Option.getD_none] at named
  obtain ⟨backend, member, requested, parsed, same⟩ := mem_backend_requests asked
  refine ⟨backend, member, requested, parsed, same, ?_⟩
  rw [named (by rw [same]; rfl) tls, same]
  rfl

section Example

instance (t : Tables) (key : GroupKey) (name : Text) : Decidable (AgreesOn t key name) :=
  inferInstanceAs (Decidable (∀ call ∈ t.calls, call.1 = key → call.2 = name))

instance (t : Tables) (serving : Serving) : Decidable (serving.Agrees t) :=
  match found : serving.lookup with
  | some (request, effective) =>
    decidable_of_iff (request.httpHealth = true → request.upstreamTls = true →
      AgreesOn t (request.key effective) request.tlsServerName) (by rw [Serving.Agrees, found])
  | none => .isTrue (by rw [Serving.Agrees, found]; trivial)

instance (s : State) : ∀ event, Decidable (Agreed s event)
  | .advance task _ =>
    match running : s.tasks task with
    | .serve _ serving => decidable_of_iff (serving.Agrees s.tables) (by rw [Agreed, running])
    | .idle | .pass _ | .sweep _ => .isTrue (by rw [Agreed, running]; trivial)
  | .begin .. | .reconcile .. | .probed .. => .isTrue trivial

def internalAction (name : Text) : HttpRouteAction :=
  { backends := [{ address := "10.0.0.1:443".toList, transport := .tls, tlsServerName := some name }] }

def internalRoute (host name : Text) : TlsHostRoute :=
  { matcher := { exact := [host] }, action := .reverseProxy (internalAction name) }

def sharedSite : RuntimeConfig :=
  { defaultListener := { ordinaryTraffic :=
      { routes := [internalRoute "a.example".toList "a.internal".toList,
          internalRoute "b.example".toList "b.internal".toList] } } }

def internalSelection (host name : Text) : Selection :=
  selectHttpBackend host host exampleClient (internalAction name)

def answered : Input := { resolved := ["10.0.0.1:443".toList] }

def firstRequest : List Event :=
  .begin 1 (.select (internalSelection "a.example".toList "a.internal".toList)) ::
    List.replicate 8 (.advance 1 answered)

def requestOfSecond : List Event :=
  .begin 0 (.hotApply sharedSite) :: List.replicate 16 (.advance 0 answered) ++
    .begin 1 (.select (internalSelection "b.example".toList "b.internal".toList)) ::
      List.replicate 6 (.advance 1 answered)

def answer (s : State) (task : Nat) : Option (Selection × Candidate × SelectedTarget) :=
  match s.tasks task with
  | .serve selection (.returned candidate target) => some (selection, candidate, target)
  | _ => none

theorem tasks_of_answer {s : State} {task : Nat} {selection : Selection} {candidate : Candidate}
    {target : SelectedTarget} (same : answer s task = some (selection, candidate, target)) :
    s.tasks task = .serve selection (.returned candidate target) := by
  unfold answer at same
  grind

def internalRequest (name : Text) : GroupRequest :=
  ⟨⟨"10.0.0.1".toList, 443⟩, true, true, .none, name⟩

theorem exists_answer {events : List Event} {host name : Text} {target : SelectedTarget}
    (computed : ((Runs.run (step plainPlatform) {} events).bind (answer · 1)) =
      some (internalSelection host name, ⟨internalRequest name, 0⟩, target)) :
    ∃ s, Runs.run (step plainPlatform) {} events = some s ∧
      s.tasks 1 = .serve (internalSelection host name) (.returned ⟨internalRequest name, 0⟩ target) := by
  obtain ⟨s, reached, same⟩ := Option.bind_eq_some_iff.mp computed
  exact ⟨s, reached, tasks_of_answer same⟩

theorem selected_serverName_firstRequest :
    ∃ s candidate target, Runs.run (step plainPlatform) {} firstRequest = some s ∧
      s.tasks 1 = .serve (internalSelection "a.example".toList "a.internal".toList) (.returned candidate target) ∧
      candidate.request.upstreamTls = true ∧ target.tlsServerName = "a.internal".toList := by
  obtain ⟨s, reached, returned⟩ := @exists_answer firstRequest "a.example".toList "a.internal".toList
    ⟨"10.0.0.1:443".toList, "a.internal".toList⟩ (by decide +kernel)
  have agreed : Runs.Meets (step plainPlatform) Agreed {} firstRequest := by decide +kernel
  refine ⟨s, _, _, reached, returned, rfl, ?_⟩
  obtain ⟨backend, member, requested, -, -, named⟩ :=
    selected_serverName plainPlatform agreed reached (List.cons_ne_nil _ _) returned rfl
  obtain rfl := List.mem_singleton.mp member
  exact named

/-- The group of a shared address keeps the name it was first asked for. -/
theorem shared_group_misnames_backend :
    sharedSite.validate ⟨fun _ => .error [], fun _ => .error [], fun _ => none⟩ = .ok () ∧
    ∃ s candidate target, Runs.run (step plainPlatform) {} requestOfSecond = some s ∧
      s.tasks 1 = .serve (internalSelection "b.example".toList "b.internal".toList) (.returned candidate target) ∧
      candidate.request.upstreamTls = true ∧
      (internalAction "b.internal".toList).backends.map HttpBackend.tlsServerName = [some "b.internal".toList] ∧
      target.tlsServerName = "a.internal".toList := by
  obtain ⟨s, reached, returned⟩ := @exists_answer requestOfSecond "b.example".toList "b.internal".toList
    ⟨"10.0.0.1:443".toList, "a.internal".toList⟩ (by decide +kernel)
  exact ⟨rfl, s, _, _, reached, returned, rfl, rfl, rfl⟩

end Example

end TlsProxy.Forward
