import TlsProxy.Forward.Registered

/-! A pass that no other task disturbs enters into the tables what its work says:
under fixed overrides, the key of a group depends on nothing else. -/
namespace TlsProxy.Forward

open Config Shared

section Ledger

variable (resolve : Text → Nat → Option Text)

/-- The keys collected for the current forward listener, and `FORWARD_LISTENERS`, after one item. -/
def record (ledger : List GroupKey × (Text → Option (List GroupKey))) :
    Work → List GroupKey × (Text → Option (List GroupKey))
  | .ensure request _ collect => (ledger.1 ++ (if collect then [request.keyUnder resolve] else []), ledger.2)
  | .listen listener => ([], Function.update ledger.2 listener (some ledger.1))
  | .fail _ => ledger

def ledger (start : Text → Option (List GroupKey)) (work : List Work) :
    List GroupKey × (Text → Option (List GroupKey)) :=
  work.foldl (record resolve) ([], start)

end Ledger

variable {resolve : Text → Nat → Option Text}

theorem ledger_concat (start : Text → Option (List GroupKey)) (work : List Work) (item : Work) :
    ledger resolve start (work ++ [item]) = record resolve (ledger resolve start work) item := by
  rw [ledger, List.foldl_concat, ledger]

theorem boundBindings_append (first second : List Work) :
    boundBindings resolve (first ++ second) = boundBindings resolve first ++ boundBindings resolve second :=
  List.filterMap_append

def Call.Targets (effective : HostAndPort) : Call → Prop
  | .resolve => True
  | .lookup address | .create address _ | .insert address _ _ _ => address = effective

/-- What the call hands back is the group of the request. -/
def Called.Yields (resolve : Text → Nat → Option Text) (request : GroupRequest) (t : Tables) : Called → Prop
  | .pending call => call.Targets (resolveOverrideFirst resolve request.requested)
  | .returned group => t.groupKey group = some (request.keyUnder resolve)

theorem key_of_lookup {t : Tables} {key : GroupKey} {group : Nat} (listed : t.groups.table.lookup key = some group) :
    t.groupKey group = some key := by
  obtain ⟨object, there, rfl⟩ := t.groups.sound key group listed
  rw [Tables.groupKey, Registry.object?, there, Option.map_some]

theorem groupKey_update (t : Tables) (pointer : Nat) (f : GroupState → GroupState) (group : Nat) :
    (t.updateGroup pointer f).groupKey group = t.groupKey group := by
  simp only [Tables.groupKey, Tables.updateGroup, Registry.object?_update, Option.map_map]
  congr 1
  grind

theorem ensureGroup_yields {owner : Owner} {request : GroupRequest} {input : Input} {t : Tables} {call : Call}
    (fixed : t.resolve = resolve) (targets : call.Targets (resolveOverrideFirst resolve request.requested)) :
    (ensureGroup owner request input t call).1.resolve = resolve ∧
      (ensureGroup owner request input t call).2.Yields resolve request (ensureGroup owner request input t call).1 := by
  cases call with
  | resolve => exact ⟨fixed, by rw [← fixed]; rfl⟩
  | create effective startedMs => exact ⟨fixed, targets⟩
  | insert effective startedMs resolved resolvedMs =>
    refine ⟨fixed, ?_⟩
    cases targets
    simp only [ensureGroup, Called.Yields, Tables.groupKey, Registry.object?_insert, Option.map_some,
      GroupRequest.group, GroupRequest.keyUnder]
  | lookup effective =>
    cases targets
    simp only [ensureGroup]
    cases listed : t.groups.table.lookup (request.key (resolveOverrideFirst resolve request.requested)) with
    | none => exact ⟨fixed, rfl⟩
    | some group =>
      exact ⟨fixed, (groupKey_update t group _ group).trans (key_of_lookup listed)⟩

theorem ensureGroup_configures {request : GroupRequest} {input : Input} {t : Tables} {call : Call} {owner : Owner}
    (targets : call.Targets (resolveOverrideFirst resolve request.requested)) {key : GroupKey}
    (has : Configured (ensureGroup owner request input t call).1 key) :
    Configured t key ∨ key = request.keyUnder resolve := by
  cases call with
  | resolve => exact .inl has
  | create effective startedMs => exact .inl has
  | insert effective startedMs resolved resolvedMs =>
    cases targets
    by_cases same : key = request.keyUnder resolve
    · exact .inr same
    · obtain ⟨object, found, owned⟩ := has
      exact .inl ⟨object, (Registry.get?_insert_of_ne t.groups (request.group _) _ same).symm.trans found, owned⟩
  | lookup effective =>
    cases targets
    simp only [ensureGroup] at has
    cases listed : t.groups.table.lookup (request.key (resolveOverrideFirst resolve request.requested)) with
    | none =>
      rw [listed] at has
      exact .inl has
    | some group =>
      rw [listed] at has
      obtain ⟨object, found, owned⟩ := has
      rw [Registry.get?_update] at found
      obtain ⟨before, there, same⟩ := Option.map_eq_some_iff.mp found
      split at same
      · rename_i here
        have sameKey := (key_of_lookup here).symm.trans (key_of_lookup listed)
        exact .inr (Option.some.inj sameKey)
      · cases same
        exact .inl ⟨object, there, owned⟩

def Stage.Sound (resolve : Text → Nat → Option Text) (t : Tables) (request : GroupRequest) : Stage → Prop
  | .ready => True
  | .ensuring call => call.Targets (resolveOverrideFirst resolve request.requested)
  | .ensured group =>
    t.groupKey group = some (request.keyUnder resolve) ∧ Configured t (request.keyUnder resolve)

/-- A runner in the middle of its work: the items before it have been entered under the overrides. -/
structure Progress (resolve : Text → Nat → Option Text) (whole done : List Work)
    (start : Text → Option (List GroupKey)) (t : Tables) (runner : Runner) : Prop where
  split : whole = done ++ runner.work
  fixed : t.resolve = resolve
  entered : (runner.keys, fun listener => t.listeners.lookup listener) = ledger resolve start done
  clean : ∀ message, Work.fail message ∉ done
  stage : ∀ request binding collect rest, runner.work = .ensure request binding collect :: rest →
    runner.stage.Sound resolve t request

theorem progress_start {t : Tables} (fixed : t.resolve = resolve) (work : List Work) :
    Progress resolve work [] (fun listener => t.listeners.lookup listener) t { work } where
  split := rfl
  fixed := fixed
  entered := rfl
  clean := by
    intro message member
    cases member
  stage := by
    intro request binding collect rest first
    trivial

/-- What one step adds to the tables besides the entries of `FORWARD_LISTENERS`. -/
structure Adds (resolve : Text → Nat → Option Text) (whole added : List Work) (t next : Tables) : Prop where
  healthBindings : next.healthBindings = t.healthBindings ++ boundBindings resolve added
  kept : ∀ key, Configured t key → Configured next key
  bound : ∀ key ∈ registeredKeys resolve added, Configured next key
  only : ∀ key, Configured next key →
    Configured t key ∨ ∃ request binding collect, .ensure request binding collect ∈ whole ∧ key = request.keyUnder resolve

theorem Adds.nothing {whole : List Work} {t next : Tables} (spares : Spares t next)
    (only : ∀ key, Configured next key → Configured t key ∨
      ∃ request binding collect, .ensure request binding collect ∈ whole ∧ key = request.keyUnder resolve) :
    Adds resolve whole [] t next where
  healthBindings := by rw [spares.healthBindings]; exact (List.append_nil _).symm
  kept := spares.configured
  bound := by
    intro key member
    cases member
  only := only

theorem Progress.moved {whole done : List Work} {start : Text → Option (List GroupKey)} {t next : Tables}
    {runner : Runner} {stage : Stage} (progress : Progress resolve whole done start t runner)
    (fixed : next.resolve = resolve) (listeners : next.listeners = t.listeners)
    (sound : ∀ request binding collect rest, runner.work = .ensure request binding collect :: rest →
      stage.Sound resolve next request) :
    Progress resolve whole (done ++ []) start next { runner with stage } where
  split := by rw [List.append_nil]; exact progress.split
  fixed := fixed
  entered := by grind [Progress.entered]
  clean := by rw [List.append_nil]; exact progress.clean
  stage := sound

theorem Progress.popped {whole done rest : List Work} {start : Text → Option (List GroupKey)} {t next : Tables}
    {runner : Runner} {item : Work} {keys : List GroupKey} (progress : Progress resolve whole done start t runner)
    (work : runner.work = item :: rest) (succeeds : ∀ message, item ≠ .fail message) (fixed : next.resolve = resolve)
    (entered : (keys, fun listener => next.listeners.lookup listener) =
      record resolve (runner.keys, fun listener => t.listeners.lookup listener) item) :
    Progress resolve whole (done ++ [item]) start next { work := rest, keys } where
  split := by grind [Progress.split]
  fixed := fixed
  entered := by rw [ledger_concat, ← progress.entered]; exact entered
  clean := by
    intro message member
    rcases List.mem_append.mp member with before | last
    · exact progress.clean message before
    · grind
  stage := by
    intro request binding collect rest first
    trivial

def Call.rank : Call → Nat
  | .resolve => 4
  | .lookup _ => 3
  | .create .. => 2
  | .insert .. => 1

def Stage.rank : Stage → Nat
  | .ready => 5
  | .ensuring call => call.rank
  | .ensured _ => 0

/-- An upper bound on the steps that are left. -/
def Runner.rank (runner : Runner) : Nat := 6 * runner.work.length + runner.stage.rank

theorem ensureGroup_rank {owner : Owner} {request : GroupRequest} {input : Input} {t : Tables} {call later : Call}
    (pending : (ensureGroup owner request input t call).2 = .pending later) : later.rank < call.rank := by
  cases call with
  | resolve => cases pending; exact Nat.lt_succ_self _
  | create effective startedMs => cases pending; exact Nat.lt_succ_self _
  | insert effective startedMs resolved resolvedMs => cases pending
  | lookup effective =>
    simp only [ensureGroup] at pending
    split at pending <;> cases pending
    exact Nat.lt_succ_self _

inductive Progressed (resolve : Text → Nat → Option Text) (whole done : List Work)
    (start : Text → Option (List GroupKey)) (t : Tables) (runner : Runner) (next : Tables) : Option Runner → Prop
  | failed {message : Text} (first : runner.work.head? = some (.fail message)) :
      Progressed resolve whole done start t runner next none
  | added {after : Runner} {added : List Work} (progress : Progress resolve whole (done ++ added) start next after)
      (adds : Adds resolve whole added t next) (shrinks : after.rank < runner.rank) :
      Progressed resolve whole done start t runner next (some after)

theorem Runner.step_progress (input : Input) {whole done rest : List Work} {start : Text → Option (List GroupKey)}
    {t : Tables} {runner : Runner} {first : Work} (progress : Progress resolve whole done start t runner)
    (work : runner.work = first :: rest) :
    Progressed resolve whole done start t runner (runner.step input t).1 (runner.step input t).2 := by
  have member : first ∈ whole := by rw [progress.split, work]; simp
  obtain ⟨items, stage, keys⟩ := runner
  cases work
  cases first with
  | fail message => exact .failed rfl
  | listen listener =>
    refine .added (progress.popped rfl (by intro message same; cases same) progress.fixed ?_)
      ⟨(List.append_nil _).symm, fun _ has => has, fun _ none => (List.not_mem_nil none).elim,
        fun _ has => .inl has⟩ ?_
    · simp only [Runner.step, record, Prod.mk.injEq, true_and]
      grind [AList.lookup_insert, AList.lookup_insert_ne]
    · grind [Runner.rank, Stage.rank]
  | ensure request binding collect =>
    have sound := progress.stage request binding collect rest rfl
    cases stage with
    | ready =>
      refine .added (progress.moved progress.fixed rfl ?_) (.nothing (.refl t) fun _ has => .inl has) ?_
      · intro _ _ _ _ _
        trivial
      · simp only [Runner.rank, Stage.rank, Call.rank]
        omega
    | ensuring call =>
      have spares := (ensureGroup_effect .configured request input t call).harmless
      have yields := @ensureGroup_yields resolve .configured request input t call progress.fixed sound
      have ensured := @ensureGroup_configured request input t call
      have shrinks := @ensureGroup_rank .configured request input t call
      have only : ∀ key, Configured (ensureGroup .configured request input t call).1 key → Configured t key ∨
          ∃ request binding collect, .ensure request binding collect ∈ whole ∧ key = request.keyUnder resolve := by
        intro key has
        refine (ensureGroup_configures sound has).imp_right ?_
        grind
      simp only [Runner.step]
      generalize ensureGroup .configured request input t call = result at spares yields ensured shrinks only
      obtain ⟨next, called⟩ := result
      cases called with
      | pending later =>
        refine .added (progress.moved yields.1 spares.listeners ?_) (.nothing spares only) ?_
        · intro _ _ _ _ same
          cases same
          exact yields.2
        · grind [Runner.rank, Stage.rank]
      | returned group =>
        refine .added (progress.moved yields.1 spares.listeners ?_) (.nothing spares only) ?_
        · intro _ _ _ _ same
          cases same
          obtain ⟨key, known, has⟩ := ensured rfl
          cases known.symm.trans yields.2
          exact ⟨known, has⟩
        · simp only [Runner.rank, Stage.rank]
          cases call <;> simp [Call.rank]
    | ensured group =>
      obtain ⟨known, has⟩ := sound
      simp only [Runner.step, known]
      refine .added (progress.popped rfl (by intro message same; cases same) progress.fixed rfl)
        ⟨?_, fun _ has => has, ?_, fun _ has => .inl has⟩ ?_
      · cases binding <;> rfl
      · intro key bound
        cases binding with
        | none => cases bound
        | some route => cases List.mem_singleton.mp bound; exact has
      · grind [Runner.rank, Stage.rank]

def forwardKeys (resolve : Text → Nat → Option Text) (configured : RawForwardListenerConfig) : List GroupKey :=
  match parseTargets configured.targets with
  | .error _ => []
  | .ok targets => targets.map fun target => (forwardRequest configured target).keyUnder resolve

def enterForwards (resolve : Text → Nat → Option Text) (start : Text → Option (List GroupKey))
    (forwards : List (Text × RawForwardListenerConfig)) : Text → Option (List GroupKey) :=
  forwards.foldl (fun listeners entry => Function.update listeners entry.1 (some (forwardKeys resolve entry.2))) start

theorem enterForwards_of_absent {start : Text → Option (List GroupKey)}
    {forwards : List (Text × RawForwardListenerConfig)} {listener : Text}
    (absent : listener ∉ forwards.map Prod.fst) : enterForwards resolve start forwards listener = start listener := by
  induction forwards generalizing start with
  | nil => rfl
  | cons first rest ih =>
    rw [List.map_cons, List.mem_cons, not_or] at absent
    obtain ⟨different, later⟩ := absent
    exact (ih later).trans (Function.update_of_ne different _ _)

theorem enterForwards_of_mem {start : Text → Option (List GroupKey)}
    {forwards : List (Text × RawForwardListenerConfig)} (distinct : (forwards.map Prod.fst).Nodup)
    {listener : Text} {value : RawForwardListenerConfig} (member : (listener, value) ∈ forwards) :
    enterForwards resolve start forwards listener = some (forwardKeys resolve value) := by
  induction forwards generalizing start with
  | nil => cases member
  | cons first rest ih =>
    obtain ⟨fresh, distinct⟩ := List.nodup_cons.mp distinct
    rcases List.mem_cons.mp member with rfl | later
    · exact (enterForwards_of_absent fresh).trans (Function.update_self _ _ _)
    · exact ih distinct later

theorem enabledForwards_nodup (config : RuntimeConfig) : ((enabledForwards config).map Prod.fst).Nodup := by
  have listeners : ((enabledListeners config).map Prod.fst).Nodup :=
    (List.filter_sublist.map Prod.fst).nodup config.additionalListeners.distinct
  refine List.Nodup.sublist ?_ listeners
  unfold enabledForwards
  generalize enabledListeners config = entries
  induction entries with
  | nil => exact .slnil
  | cons first rest ih =>
    obtain ⟨name, listener⟩ := first
    cases listener with
    | forward value => exact ih.cons_cons name
    | tls value => exact ih.cons name
    | http value => exact ih.cons name
    | redirect value => exact ih.cons name

section Segments

variable {listeners : Text → Option (List GroupKey)}

theorem record_collects (targets : List Text) {configured : RawForwardListenerConfig} {each : Text → Work}
    (collects : ∀ target, ∃ binding, each target = .ensure (forwardRequest configured target) binding true)
    (keys : List GroupKey) :
    (targets.map each).foldl (record resolve) (keys, listeners) =
      (keys ++ targets.map fun target => (forwardRequest configured target).keyUnder resolve, listeners) := by
  induction targets generalizing keys with
  | nil => simp
  | cons target rest ih =>
    obtain ⟨binding, same⟩ := collects target
    rw [List.map_cons, List.foldl_cons, same, record, if_pos rfl, ih, List.append_assoc]
    rfl

theorem record_forwardWork {listener : Text} {configured : RawForwardListenerConfig} {each : Text → Work}
    (collects : ∀ target, ∃ binding, each target = .ensure (forwardRequest configured target) binding true)
    (clean : ∀ message, .fail message ∉ forwardWork listener configured each) :
    (forwardWork listener configured each).foldl (record resolve) ([], listeners) =
      ([], Function.update listeners listener (some (forwardKeys resolve configured))) := by
  unfold forwardWork forwardKeys at *
  cases parsed : parseTargets configured.targets with
  | error message => grind
  | ok targets =>
    simp only
    rw [List.foldl_append, record_collects targets collects, List.nil_append]
    rfl

theorem record_binds {work : List Work} (binds : ∀ item ∈ work, item.Binds ∨ ∃ message, item = .fail message)
    (entered : List GroupKey × (Text → Option (List GroupKey))) : work.foldl (record resolve) entered = entered := by
  induction work with
  | nil => rfl
  | cons first rest ih =>
    have kept : record resolve entered first = entered := by
      rcases binds first List.mem_cons_self with own | ⟨message, rfl⟩
      · match first, own with
        | .ensure request (some route) false, _ => grind [record]
      · rfl
    grind

end Segments

theorem ledger_registrations {config : RuntimeConfig} (clean : ∀ message, .fail message ∉ registrations config)
    (start : Text → Option (List GroupKey)) :
    ledger resolve start (registrations config) = ([], enterForwards resolve start (enabledForwards config)) := by
  unfold registrations at *
  unfold ledger enterForwards
  generalize enabledForwards config = forwards at *
  induction forwards generalizing start with
  | nil => rfl
  | cons first rest ih =>
    simp only [List.flatMap_cons, List.mem_append, not_or] at clean
    rw [List.flatMap_cons, List.foldl_append, List.foldl_cons, registerForwardListener,
      record_forwardWork (fun target => ⟨_, rfl⟩) fun message => (clean message).1]
    exact ih _ fun message => (clean message).2

theorem ledger_bindings {config : RuntimeConfig} (clean : ∀ message, .fail message ∉ bindings config)
    (start : Text → Option (List GroupKey)) :
    ledger resolve start (bindings config) = ([], enterForwards resolve start (enabledForwards config)) := by
  have routes : ∀ (listener : Text) (routes : List TlsHostRoute), ∀ item ∈ routes.flatMap (bindTlsRoute listener),
      item.Binds ∨ ∃ message, item = .fail message := by grind [bindTlsRoute_binds]
  unfold bindings at *
  unfold ledger enterForwards enabledForwards
  rw [List.foldl_append, record_binds (routes _ _)]
  have additional : ∀ message, .fail message ∉ (enabledListeners config).flatMap fun entry =>
      bindListener entry.1 entry.2 := fun message member => clean message (List.mem_append_right _ member)
  generalize enabledListeners config = entries at additional
  clear clean
  induction entries generalizing start with
  | nil => rfl
  | cons first rest ih =>
    obtain ⟨name, listener⟩ := first
    simp only [List.flatMap_cons, List.mem_append, not_or] at additional
    have later := fun start => ih start fun message => (additional message).2
    rw [List.flatMap_cons, List.foldl_append]
    cases listener with
    | tls value =>
      rw [bindListener, record_binds (routes name _)]
      exact later start
    | http value =>
      have binds : ∀ item ∈ bindListener name (.http value), item.Binds ∨ ∃ message, item = .fail message := by
        intro item member
        obtain ⟨route, -, inside⟩ := List.mem_flatMap.mp member
        exact .inl (bindHttpAction_binds _ _ _ _ item inside)
      rw [record_binds binds]
      exact later start
    | redirect value => exact later start
    | forward value =>
      rw [bindListener, bindForwardListener,
        record_forwardWork (fun target => ⟨_, rfl⟩) fun message => (additional message).1]
      exact later _

theorem forwardWork_failure {listener : Text} {configured : RawForwardListenerConfig} {each : Text → Work}
    (ensures : ∀ target message, each target ≠ .fail message) {message : Text}
    (fails : .fail message ∈ forwardWork listener configured each) (other : Text → Work) :
    .fail message ∈ forwardWork listener configured other := by
  unfold forwardWork at *
  cases parsed : parseTargets configured.targets with
  | error cause => rwa [parsed] at fails
  | ok targets => grind

theorem bindForwardListener_subset {config : RuntimeConfig} {listener : Text} {value : RawForwardListenerConfig}
    (enabled : (listener, value) ∈ enabledForwards config) : bindForwardListener listener value ⊆ bindings config := by
  intro item member
  exact List.mem_append_right _ (List.mem_flatMap.mpr ⟨_, mem_enabledForwards.mp enabled, member⟩)

theorem fail_of_registrations {config : RuntimeConfig} {message : Text} (fails : .fail message ∈ registrations config) :
    .fail message ∈ bindings config := by
  obtain ⟨⟨listener, value⟩, enabled, inside⟩ := List.mem_flatMap.mp fails
  refine bindForwardListener_subset enabled (forwardWork_failure ?_ inside _)
  intro target message same
  cases same

theorem ensured_mem_registeredKeys {config : RuntimeConfig} {request : GroupRequest} {binding : Option BoundRoute}
    {collect : Bool} (member : .ensure request binding collect ∈ registrations config) :
    request.keyUnder resolve ∈ registeredKeys resolve (bindings config) := by
  obtain ⟨⟨listener, value⟩, enabled, inside⟩ := List.mem_flatMap.mp member
  have bound : ∃ route, .ensure request (some route) true ∈ bindForwardListener listener value := by
    simp only [registerForwardListener, bindForwardListener, forwardWork] at *
    cases parsed : parseTargets value.targets with
    | error cause => grind
    | ok targets =>
      rw [parsed] at inside
      rcases List.mem_append.mp inside with mapped | last
      · obtain ⟨target, listed, same⟩ := List.mem_map.mp mapped
        grind [List.mem_map_of_mem]
      · cases List.mem_singleton.mp last
  obtain ⟨route, bound⟩ := bound
  refine List.mem_map.mpr ⟨⟨route, request.keyUnder resolve⟩, ?_, rfl⟩
  exact List.mem_filterMap.mpr ⟨_, bindForwardListener_subset enabled bound, rfl⟩

end TlsProxy.Forward
