import TlsProxy.Lib.RoundRobin
import TlsProxy.Forward.Rebuild
import TlsProxy.Forward.Probed

/-! A pool takes the next value of the cursor under its route key, between the
steps of all other connections. The layer-4 workers pass the listener's name
as the key, so that the routes of one listener move one cursor. -/
namespace TlsProxy.Forward

open Config RoundRobin

structure Picked where
  task : Nat
  /-- The groups of the backends to choose from, in the order of the configuration. -/
  groups : List (Option GroupKey)
  group : Option GroupKey
deriving DecidableEq

/-- The route key and the backends of a round-robin pool at the end of its loop. -/
def Task.turn : Task → Option (Text × List Candidate)
  | .serve { balance := .pooled routeKey _ .roundRobin _, .. } (.loop [] preferred fallback) =>
    some (routeKey, if preferred.isEmpty then fallback else preferred)
  | _ => none

def picked (s next : State) : Event → Option Picked
  | .advance task _ =>
    match (s.tasks task).turn, next.tasks task with
    | some (_, available), .serve _ (.picked candidate _) =>
      some
        { task
          groups := available.map fun candidate => s.tables.groupKey candidate.group
          group := s.tables.groupKey candidate.group }
    | _, _ => none
  | _ => none

def picks (platform : Platform) : State → List Event → List Picked
  | _, [] => []
  | s, event :: rest =>
    match step platform s event with
    | none => []
    | some next => (picked s next event).toList ++ picks platform next rest

theorem ensureGroup_cursors (owner : Owner) (request : GroupRequest) (input : Input) (t : Tables) (call : Call) :
    (ensureGroup owner request input t call).1.cursors = t.cursors := by
  cases call with
  | lookup effective =>
    simp only [ensureGroup]
    split <;> rfl
  | resolve => rfl
  | create effective startedMs => rfl
  | insert effective startedMs resolved resolvedMs => rfl

theorem Runner.step_cursors (input : Input) (t : Tables) (runner : Runner) :
    (runner.step input t).1.cursors = t.cursors := by
  obtain ⟨work, stage, keys⟩ := runner
  cases work with
  | nil => rfl
  | cons first rest =>
    cases first with
    | fail message => rfl
    | listen listener => rfl
    | ensure request binding collect =>
      cases stage with
      | ready => rfl
      | ensuring call => grind [ensureGroup_cursors, Runner.step]
      | ensured group => grind [Runner.step]

theorem Pass.step_cursors (platform : Platform) (input : Input) (t : Tables) {pass : Pass}
    (keeps : pass.phase ≠ .resetCursors) : (pass.step platform input t).1.cursors = t.cursors := by
  have works : ∀ (runner : Runner) (stay : Runner → Phase) (left : Option Pass),
      (pass.work input t runner stay left).1.cursors = t.cursors := by grind [Pass.work, Runner.step_cursors]
  obtain ⟨reload, config, phase⟩ := pass
  cases phase with
  | register runner => exact works runner _ _
  | bind runner => exact works runner _ _
  | finish runner => exact works runner _ _
  | resetCursors => exact (keeps rfl).elim
  | demote referenced pending =>
    cases pending with
    | nil => rfl
    | cons group rest =>
      obtain ⟨groups, frame, -⟩ := demote_frame t referenced group
      simp only [Pass.step, frame]
  | initDns => rfl
  | resetListeners => rfl
  | resetGroups => rfl
  | resetBindings => rfl
  | configure => rfl
  | release => rfl

theorem Sweep.step_cursors (input : Input) (t : Tables) (sweep : Sweep) :
    (sweep.step input t).1.cursors = t.cursors := by
  cases sweep with
  | expire => rfl
  | excess => rfl
  | expiring now pending doomed => cases pending <;> rfl
  | counting pending runtimeGroups => cases pending <;> rfl

theorem pickMember_cursors (platform : Platform) (input : Input) (t : Tables) (selection : Selection)
    (preferred fallback : List Candidate)
    (other : Task.turn (.serve selection (.loop [] preferred fallback)) = none) :
    (pickMember platform input t selection preferred fallback).1.cursors = t.cursors := by
  obtain ⟨requests, balance, serverName, noEndpoint⟩ := selection
  cases balance with
  | direct => rfl
  | pooled routeKey clientIp loadBalancing unavailable =>
    cases loadBalancing with
    | roundRobin => cases other
    | clientIpHash =>
      simp only [pickMember, balance]
      split <;> rfl

theorem Serving.step_cursors {platform : Platform} {input : Input} {t : Tables} {selection : Selection}
    {serving : Serving} {next : Tables × Serving} (stepped : serving.step platform input t selection = some next)
    (other : Task.turn (.serve selection serving) = none) : next.1.cursors = t.cursors := by
  cases serving with
  | loop requests preferred fallback =>
    cases requests with
    | nil =>
      cases stepped
      grind [pickMember_cursors]
    | cons first rest => cases first <;> cases stepped <;> rfl
  | ensuring request call rest preferred fallback => grind [ensureGroup_cursors, Serving.step]
  | ensured candidate rest preferred fallback => grind [Serving.step]
  | picked candidate pick =>
    cases stepped
    simp only [chooseEndpoint]
    split <;> rfl
  | returned candidate target => cases stepped
  | failed message => cases stepped

section Turn

variable {platform : Platform} {input : Input} {t : Tables} {selection : Selection} {routeKey : Text} {clientIp : IpAddr}
variable {unavailable : Text} {preferred fallback available : List Candidate}

theorem pickMember_roundRobin {candidate : Candidate}
    (pool : selection.balance = .pooled routeKey clientIp .roundRobin unavailable)
    (chosen : available = if preferred.isEmpty then fallback else preferred)
    (found : available[((t.cursors.lookup routeKey).getD input.seed).toNat % available.length]? = some candidate) :
    pickMember platform input t selection preferred fallback =
      ({ t with cursors := t.cursors.insert routeKey ((t.cursors.lookup routeKey).getD input.seed + 1) },
        .picked candidate .sequential) := by grind [pickMember, balance]

theorem pickMember_roundRobin_empty
    (pool : selection.balance = .pooled routeKey clientIp .roundRobin unavailable)
    (chosen : available = if preferred.isEmpty then fallback else preferred)
    (found : available[((t.cursors.lookup routeKey).getD input.seed).toNat % available.length]? = none) :
    pickMember platform input t selection preferred fallback = (t, .failed unavailable) := by
  grind [pickMember, balance]

end Turn

/-- What a step does to the cursor under one key. -/
inductive Turned (key : Text) (s next : State) : Event → Prop
  /-- A pool with this key takes the cursor's value, or a seed if there is none, and moves it on. -/
  | picks {task : Nat} {input : Input} {available : List Candidate} {pick : Picked} {cursor : UInt64}
      (turn : (s.tasks task).turn = some (key, available))
      (value : cursor = (s.tables.cursors.lookup key).getD input.seed)
      (moved : next.tables.cursors.lookup key = some (cursor + 1))
      (here : picked s next (.advance task input) = some pick) (own : pick.task = task)
      (group : pick.groups[cursor.toNat % pick.groups.length]? = some pick.group) :
      Turned key s next (.advance task input)
  | rests {event : Event} (same : next.tables.cursors.lookup key = s.tables.cursors.lookup key)
      (elsewhere : ∀ pick, picked s next event = some pick →
        ∃ routeKey available, (s.tasks pick.task).turn = some (routeKey, available) ∧ routeKey ≠ key) :
      Turned key s next event

def Task.resets : Task → Bool
  | .pass { phase := .resetCursors, .. } => true
  | _ => false

theorem picked_of_no_turn {s next : State} {task : Nat} {input : Input} (other : (s.tasks task).turn = none) :
    picked s next (.advance task input) = none := by
  simp only [picked, other]

theorem event_of_picked {s next : State} {event : Event} {pick : Picked} (here : picked s next event = some pick) :
    ∃ input, event = .advance pick.task input := by
  cases event with
  | advance task input => grind [picked]
  | begin task job => cases here
  | reconcile group resolved now => cases here
  | probed group endpoint online now => cases here

theorem turn_eq_some {task : Task} {routeKey : Text} {available : List Candidate}
    (turn : task.turn = some (routeKey, available)) :
    ∃ selection clientIp unavailable preferred fallback, task = .serve selection (.loop [] preferred fallback) ∧
      selection.balance = .pooled routeKey clientIp .roundRobin unavailable ∧
      available = if preferred.isEmpty then fallback else preferred := by
  unfold Task.turn at turn
  grind

theorem step_turned {platform : Platform} (key : Text) {s next : State} {event : Event}
    (keeps : ∀ task input, event = .advance task input → (s.tasks task).resets = false)
    (taken : step platform s event = some next) :
    Turned key s next event := by
  cases event with
  | begin task job =>
    simp only [step] at taken
    split at taken <;> cases taken
    exact .rests rfl fun pick none => by cases none
  | reconcile group resolved now =>
    cases taken
    exact .rests rfl fun pick none => by cases none
  | probed group endpoint online now =>
    cases taken
    exact .rests rfl fun pick none => by cases none
  | advance task input =>
    cases turn : (s.tasks task).turn with
    | none =>
      refine .rests ?_ fun pick here => by rw [picked_of_no_turn turn] at here; cases here
      congr 1
      cases step_stepped taken with
      | served running served =>
        rw [running] at turn
        exact Serving.step_cursors served turn
      | @passed _ _ pass tables left running passed =>
        have kept := @Pass.step_cursors platform input s.tables pass ?_
        · rw [passed] at kept
          exact kept
        · intro resetting
          have quiet := keeps task input rfl
          rw [running] at quiet
          obtain ⟨reload, config, phase⟩ := pass
          cases resetting
          cases quiet
      | @swept _ _ sweep tables left running swept =>
        have kept := Sweep.step_cursors input s.tables sweep
        rw [swept] at kept
        exact kept
      | refreshed free effect => cases free
    | some pool =>
      obtain ⟨routeKey, available⟩ := pool
      obtain ⟨selection, clientIp, unavailable, preferred, fallback, running, pool, chosen⟩ := turn_eq_some turn
      simp only [step, State.advance, running, Serving.step, Option.map_some, Option.some.injEq] at taken
      cases found : available[((s.tables.cursors.lookup routeKey).getD input.seed).toNat % available.length]? with
      | none =>
        rw [pickMember_roundRobin_empty pool chosen found] at taken
        cases taken
        refine .rests rfl ?_
        grind [picked, put_task]
      | some candidate =>
        rw [pickMember_roundRobin pool chosen found] at taken
        cases taken
        have here : ∀ tables, picked s (s.put tables task (.serve selection (.picked candidate .sequential)))
            (.advance task input) =
            some ⟨task, available.map fun candidate => s.tables.groupKey candidate.group,
              s.tables.groupKey candidate.group⟩ := by grind [picked, put_task]
        by_cases same : routeKey = key
        · subst same
          refine .picks turn rfl (AList.lookup_insert _) (here _) rfl ?_
          grind
        · refine .rests (AList.lookup_insert_ne (Ne.symm same)) ?_
          grind

/-- The connections `mine` have the cursor under `key` for themselves, and it does not wrap around in the middle of a
turn of `n` backends. -/
def Isolated (key : Text) (mine : Nat → Prop) (n : Nat) (s : State) : Event → Prop
  | .advance task input =>
    (s.tasks task).resets = false ∧ ∀ pool ∈ (s.tasks task).turn, (mine task ↔ pool.1 = key) ∧
      (mine task → ((s.tables.cursors.lookup key).getD input.seed).toNat + 1 < UInt64.size ∨ n ∣ UInt64.size)
  | _ => True

instance decidableIsolated (key : Text) (mine : Nat → Prop) [DecidablePred mine] (n : Nat) (s : State) :
    (event : Event) → Decidable (Isolated key mine n s event)
  | .advance task input => inferInstanceAs (Decidable ((s.tasks task).resets = false ∧
      ∀ pool ∈ (s.tasks task).turn, (mine task ↔ pool.1 = key) ∧
        (mine task → ((s.tables.cursors.lookup key).getD input.seed).toNat + 1 < UInt64.size ∨ n ∣ UInt64.size)))
  | .begin .. | .reconcile .. | .probed .. => .isTrue trivial

section Fairness

variable {platform : Platform} {key : Text} {mine : Nat → Prop} [DecidablePred mine] {groups : List (Option GroupKey)}

def picksOf (mine : Nat → Prop) [DecidablePred mine] (all : List Picked) : List Picked :=
  all.filter fun pick => decide (mine pick.task)

/-- The picks of the run take their groups at the residues of one counter, which goes on from the stored cursor. -/
theorem picks_rotate {s last : State} {events : List Event}
    (isolated : Runs.Meets (step platform) (Isolated key mine groups.length) s events)
    (reached : Runs.run (step platform) s events = some last)
    (stable : ∀ pick ∈ picksOf mine (picks platform s events), pick.groups = groups) :
    ∃ start positions, (∀ cursor, s.tables.cursors.lookup key = some cursor →
        start % groups.length = cursor.toNat % groups.length) ∧
      Rotating groups.length start positions ∧
      (picksOf mine (picks platform s events)).map (fun pick => some pick.group) = positions.map (groups[·]?) := by
  induction events generalizing s with
  | nil =>
    cases lookup : s.tables.cursors.lookup key with
    | none => exact ⟨0, [], fun _ same => (by cases same), .nil 0, rfl⟩
    | some cursor => exact ⟨cursor.toNat, [], fun _ same => (by cases same; rfl), .nil _, rfl⟩
  | cons event rest ih =>
    obtain ⟨next, taken, later⟩ := Runs.run_cons_inv _ reached
    have first := isolated.1
    simp only [picks, taken, picksOf, List.filter_append] at stable ⊢
    obtain ⟨start, positions, continues, rotating, read⟩ := ih (isolated.2 next taken) later
      fun pick member => stable pick (List.mem_append_right _ member)
    have turned := step_turned key (fun task input same => by cases same; exact first.1) taken
    cases turned with
    | rests same elsewhere =>
      have others : (picked s next event).toList.filter (fun pick => decide (mine pick.task)) = [] := by
        refine List.filter_eq_nil_iff.mpr ?_
        intro pick member
        have here := Option.mem_toList.mp member
        obtain ⟨routeKey, available, turn, different⟩ := elsewhere pick here
        obtain ⟨input, rfl⟩ := event_of_picked here
        exact fun own => different ((first.2 _ turn).1.mp (of_decide_eq_true own))
      rw [others, List.nil_append]
      exact ⟨start, positions, fun cursor listed => continues cursor (same.trans listed), rotating, read⟩
    | @picks task input available pick cursor turn value moved here own group =>
      obtain ⟨iff, steady⟩ := first.2 _ turn
      rw [← value] at steady
      have belongs : mine task := iff.mpr rfl
      have taken : (picked s next (.advance task input)).toList.filter (fun pick => decide (mine pick.task)) =
          [pick] := by grind
      rw [taken] at stable ⊢
      have settled : pick.groups = groups := stable pick (List.mem_append_left _ (List.mem_singleton_self _))
      refine ⟨cursor.toNat, cursor.toNat % groups.length :: positions, ?_, .cons (rotating.congr ?_), ?_⟩
      · grind
      · exact (continues _ moved).trans (succ_mod (steady belongs))
      · rw [List.singleton_append, List.map_cons, List.map_cons, ← group, settled]
        exact congrArg _ read

/-- Any `n` consecutive picks for `n` backends pick each of them once. -/
theorem round_robin_fair {s last : State} {events : List Event} {block : List Picked}
    (isolated : Runs.Meets (step platform) (Isolated key mine groups.length) s events)
    (reached : Runs.run (step platform) s events = some last)
    (stable : ∀ pick ∈ picksOf mine (picks platform s events), pick.groups = groups)
    (consecutive : block <:+: picksOf mine (picks platform s events)) (full : block.length = groups.length) :
    (block.map Picked.group).Perm groups := by
  obtain ⟨start, positions, -, rotating, read⟩ := picks_rotate isolated reached stable
  have inside : block.map (fun pick => some pick.group) <:+: positions.map (groups[·]?) :=
    read ▸ consecutive.map _
  obtain ⟨indices, part, same⟩ := List.infix_map_iff.mp inside
  obtain ⟨first, turn⟩ := rotating.of_block part
  have length : indices.length = groups.length := by grind [List.length_map]
  refine (List.map_perm_map_iff (Option.some_injective _)).mp ?_
  rw [List.map_map, ← getElem?_range groups]
  refine List.Perm.trans (.of_eq same) ?_
  exact (turn.perm_range length).map _

end Fairness

section Example

def layer4Key (target : String) : Option GroupKey := some ⟨target.toList, true, false, .none⟩

def mirrored (targets : String) : TlsRouteAction :=
  .passthrough 443 (some targets.toList) .roundRobin .none

def mirroredSite : RuntimeConfig :=
  { defaultListener := { ordinaryTraffic := { routes :=
      [{ matcher := { exact := ["a.example".toList] }, action := mirrored "10.0.0.1:443;10.0.0.2:443" },
       { matcher := { exact := ["b.example".toList] }, action := mirrored "10.0.0.3:443" }] } } }

def mirroredSelection (sni targets : String) : Selection :=
  passthroughSelection defaultListenerName exampleClient sni.toList
    { target := some targets.toList, targetPort := 443, loadBalancing := .roundRobin, proxyProtocol := .none }

def connection (task : Nat) (selection : Selection) (seed : UInt64) (steps : Nat) : List Event :=
  .begin task (.select selection) ::
    List.replicate steps (.advance task { resolved := ["10.0.0.1:443".toList], seed })

def toA : Selection := mirroredSelection "a.example" "10.0.0.1:443;10.0.0.2:443"

def toB : Selection := mirroredSelection "b.example" "10.0.0.3:443"

def toThree : Selection := mirroredSelection "c.example" "10.0.0.1:443;10.0.0.2:443;10.0.0.3:443"

def alternating : List Event := connection 0 toA 0 13 ++ connection 1 toB 0 7 ++ connection 2 toA 0 9

/-- Connections to a route with three backends, from the last value of the cursor on. -/
def wrapping : List Event :=
  connection 0 toThree (.ofNat (UInt64.size - 1)) 19 ++ connection 1 toThree 0 13 ++ connection 2 toThree 0 13

def undisturbed : List Event := connection 0 toA 0 13 ++ connection 1 toA 0 9

theorem round_robin_fair_undisturbed :
    ((picks plainPlatform {} undisturbed).map Picked.group).Perm
      [layer4Key "10.0.0.1:443", layer4Key "10.0.0.2:443"] := by
  have reached : (Runs.run (step plainPlatform) {} undisturbed).isSome = true := by decide +kernel
  obtain ⟨last, reached⟩ := Option.isSome_iff_exists.mp reached
  have own : picksOf (· ∈ [0, 1]) (picks plainPlatform {} undisturbed) = picks plainPlatform {} undisturbed := by
    decide +kernel
  refine @round_robin_fair plainPlatform defaultListenerName (· ∈ [0, 1]) _ _ {} last undisturbed _ ?_ reached ?_ ?_ ?_
  · decide +kernel
  · decide +kernel
  · rw [own]
  · decide +kernel

theorem shared_cursor_repeats_backend :
    mirroredSite.validate bareEnvironment = .ok () ∧
    (∀ looped head, dispatchTls defaultListenerName exampleClient looped "a.example".toList head
      (mirrored "10.0.0.1:443;10.0.0.2:443") = some toA) ∧
    (∀ looped head, dispatchTls defaultListenerName exampleClient looped "b.example".toList head
      (mirrored "10.0.0.3:443") = some toB) ∧
    (Runs.run (step plainPlatform) {} alternating).isSome = true ∧
    picksOf (· ∈ [0, 2]) (picks plainPlatform {} alternating) =
      [⟨0, [layer4Key "10.0.0.1:443", layer4Key "10.0.0.2:443"], layer4Key "10.0.0.1:443"⟩,
       ⟨2, [layer4Key "10.0.0.1:443", layer4Key "10.0.0.2:443"], layer4Key "10.0.0.1:443"⟩] ∧
    (picks plainPlatform {} wrapping).map Picked.group =
      [layer4Key "10.0.0.1:443", layer4Key "10.0.0.1:443", layer4Key "10.0.0.2:443"] := by
  refine ⟨rfl, fun _ _ => rfl, fun _ _ => rfl, ?_, ?_, ?_⟩
  · decide +kernel
  · decide +kernel
  · decide +kernel

end Example

end TlsProxy.Forward
