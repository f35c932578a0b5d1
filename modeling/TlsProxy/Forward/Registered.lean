import TlsProxy.Forward.Effects

/-! A key that a health binding or a forward listener refers to is in `GROUPS`,
under a group that no eviction considers. -/
namespace TlsProxy.Forward

open Config Shared

def bound (t : Tables) : List GroupKey := t.healthBindings.map HealthBinding.group

def Referenced (t : Tables) (key : GroupKey) : Prop :=
  key ∈ bound t ∨ ∃ listener keys, t.listeners.lookup listener = some keys ∧ key ∈ keys

def Registered (t : Tables) : Prop := ∀ key, Referenced t key → Configured t key

def forwardNames (config : RuntimeConfig) : List Text := (enabledForwards config).map Prod.fst

/-- Every listener in `FORWARD_LISTENERS` is a forward listener of the configuration. -/
def Covered (t : Tables) (config : RuntimeConfig) : Prop :=
  ∀ listener keys, t.listeners.lookup listener = some keys → listener ∈ forwardNames config

/-- A change to the tables that takes no configured group away. -/
structure Spares (t next : Tables) : Prop where
  configured : ∀ key, Configured t key → Configured next key
  listeners : next.listeners = t.listeners
  healthBindings : next.healthBindings = t.healthBindings
  kept : t.groups.Extends next.groups

theorem Spares.refl (t : Tables) : Spares t t := ⟨fun _ has => has, rfl, rfl, .refl _⟩

theorem Spares.referenced {t next : Tables} (spares : Spares t next) {key : GroupKey} :
    Referenced next key ↔ Referenced t key := by
  simp only [Referenced, bound, spares.listeners, spares.healthBindings]

theorem Spares.registered {t next : Tables} (spares : Spares t next) (registered : Registered t) :
    Registered next := by
  intro key refers
  exact spares.configured key (registered key (spares.referenced.mp refers))

theorem Spares.groupKey {t next : Tables} (spares : Spares t next) {group : Nat} {key : GroupKey}
    (known : t.groupKey group = some key) : next.groupKey group = some key := by
  obtain ⟨object, there, rfl⟩ := Option.map_eq_some_iff.mp known
  obtain ⟨state, still⟩ := spares.kept group object there
  rw [Tables.groupKey, still]
  rfl

theorem claim_keeps (owner : Owner) (now : Nat) (state : GroupState) (has : state.owner = .configured) :
    (GroupState.claim owner now state).owner = .configured := by
  cases owner with
  | configured => rfl
  | runtime => exact has

theorem Effect.spares {t next : Tables} {lost : List GroupKey} (effect : Effect t lost next)
    (idle : ∀ key ∈ lost, ¬ Configured t key) : Spares t next := by
  cases effect with
  | cursors cursors => exact ⟨fun _ has => has, rfl, rfl, .refl _⟩
  | called key name => exact ⟨fun _ has => has, rfl, rfl, .refl _⟩
  | updated group keeps =>
    refine ⟨fun _ has => has.update fun _ state owned => ?_, rfl, rfl, Registry.extends_update _ _ _⟩
    exact (keeps state).trans owned
  | claimed key name group owner now =>
    exact ⟨fun _ has => has.update fun _ => claim_keeps owner now, rfl, rfl, Registry.extends_update _ _ _⟩
  | inserted request effective loses =>
    refine ⟨fun key has => ?_, rfl, rfl, Registry.extends_insert _ _ _⟩
    rcases loses with owned | member
    · exact has.insert owned
    · refine has.insert_of_ne _ ?_
      rintro rfl
      exact idle _ member has
  | removed doomed =>
    exact ⟨fun key has => has.remove fun member => idle key member has, rfl, rfl, Registry.extends_remove _ _⟩

theorem Effect.harmless {t next : Tables} (effect : Effect t [] next) : Spares t next :=
  effect.spares fun _ member => (List.not_mem_nil member).elim

/-- What a pass has ensured but not yet entered into the tables. -/
structure Held (t : Tables) (runner : Runner) : Prop where
  keys : ∀ key ∈ runner.keys, Configured t key
  ensured : ∀ group, runner.stage = .ensured group → ∃ key, t.groupKey group = some key ∧ Configured t key

theorem held_start (t : Tables) (work : List Work) : Held t { work } where
  keys := by intro key member; cases member
  ensured := by intro group same; cases same

theorem Held.spared {t next : Tables} {runner : Runner} (held : Held t runner) (spares : Spares t next) :
    Held next runner where
  keys := fun key member => spares.configured key (held.keys key member)
  ensured := by grind [Held.ensured, Spares.groupKey, Spares.configured]

theorem mem_bound_append {t : Tables} {binding : Option BoundRoute} {key other : GroupKey} :
    other ∈ bound { t with healthBindings := t.healthBindings ++ (binding.map (HealthBinding.mk · key)).toList } ↔
      other ∈ bound t ∨ binding.isSome = true ∧ other = key := by
  cases binding <;> simp [bound]

theorem Worked.sound {t next : Tables} {runner : Runner} {left : Option Runner} (worked : Worked t runner next left)
    (registered : Registered t) (held : Held t runner) :
    Registered next ∧ ∀ after, left = some after → Held next after := by
  cases worked with
  | stopped => grind
  | @listened listener rest first =>
    refine ⟨?_, fun _ same => by cases same; exact held_start _ rest⟩
    rintro key (member | ⟨name, keys, listed, member⟩)
    · exact registered key (.inl member)
    · by_cases same : name = listener
      · rw [same, AList.lookup_insert] at listed
        cases listed
        exact held.keys key member
      · rw [AList.lookup_insert_ne same] at listed
        exact registered key (.inr ⟨name, keys, listed, member⟩)
  | moved effect ensured =>
    refine ⟨effect.harmless.registered registered, fun _ same => ?_⟩
    cases same
    exact ⟨(held.spared effect.harmless).keys, ensured⟩
  | @pushed request binding collect rest group key first stage known =>
    have has : Configured t key := by grind [Held.ensured]
    refine ⟨?_, fun _ same => ?_⟩
    · rintro other (member | listed)
      · rcases mem_bound_append.mp member with old | ⟨-, rfl⟩
        · exact registered other (.inl old)
        · exact has
      · exact registered other (.inr listed)
    · cases same
      refine ⟨fun other member => ?_, fun _ same => by cases same⟩
      rcases List.mem_append.mp member with old | new
      · exact held.keys other old
      · cases collect with
        | false => cases new
        | true => rw [List.mem_singleton.mp new]; exact has

theorem Worked.work_subset {t next : Tables} {runner left : Runner} (worked : Worked t runner next (some left))
    {item : Work} (member : item ∈ left.work) : item ∈ runner.work := by
  cases worked with
  | listened first => grind
  | moved effect ensured => exact member
  | pushed first stage known => grind

theorem Worked.covered {t next : Tables} {runner left : Runner} (worked : Worked t runner next (some left))
    {config : RuntimeConfig} (covered : Covered t config)
    (named : ∀ listener, Work.listen listener ∈ runner.work → listener ∈ forwardNames config) :
    Covered next config := by
  intro listener keys listed
  cases worked with
  | @listened entered rest first =>
    by_cases same : listener = entered
    · grind
    · rw [AList.lookup_insert_ne same] at listed
      exact covered listener keys listed
  | moved effect ensured =>
    rw [effect.harmless.listeners] at listed
    exact covered listener keys listed
  | pushed first stage known => exact covered listener keys listed

/-- A pass that binds: what it has not bound yet of a listener, it is still going to bind, or it is
going to fail. -/
structure Rebinding (t : Tables) (runner : Runner) : Prop where
  keys : ∀ key ∈ runner.keys, key ∈ bound t
  binds : ∀ request collect, Work.ensure request none collect ∉ runner.work
  listeners : ∀ listener keys, t.listeners.lookup listener = some keys →
    (∀ key ∈ keys, key ∈ bound t) ∨ Work.listen listener ∈ runner.work ∨ ∃ message, Work.fail message ∈ runner.work

theorem Rebinding.spared {t next : Tables} {runner : Runner} (rebinding : Rebinding t runner)
    (spares : Spares t next) : Rebinding next runner := by
  have same : bound next = bound t := by rw [bound, bound, spares.healthBindings]
  refine ⟨by rw [same]; exact rebinding.keys, rebinding.binds, ?_⟩
  rw [spares.listeners, same]
  exact rebinding.listeners

theorem Worked.rebinding {t next : Tables} {runner left : Runner} (worked : Worked t runner next (some left))
    (rebinding : Rebinding t runner) : Rebinding next left := by
  have binds : ∀ request collect, Work.ensure request none collect ∉ left.work :=
    fun request collect member => rebinding.binds request collect (worked.work_subset member)
  cases worked with
  | @listened entered rest first =>
    refine ⟨fun key member => (List.not_mem_nil member).elim, binds, ?_⟩
    intro listener keys listed
    by_cases same : listener = entered
    · rw [same, AList.lookup_insert] at listed
      cases listed
      exact .inl rebinding.keys
    · rw [AList.lookup_insert_ne same] at listed
      rcases rebinding.listeners listener keys listed with done | later | ⟨message, fails⟩
      · exact .inl done
      · grind
      · grind
  | moved effect ensured =>
    have kept := rebinding.spared effect.harmless
    exact ⟨kept.keys, kept.binds, kept.listeners⟩
  | @pushed request binding collect rest group key first stage known =>
    have grows : ∀ {other}, other ∈ bound t → other ∈ bound { t with healthBindings :=
        t.healthBindings ++ (binding.map (HealthBinding.mk · key)).toList } :=
      fun member => mem_bound_append.mpr (.inl member)
    refine ⟨?_, binds, ?_⟩
    · intro other member
      rcases List.mem_append.mp member with old | new
      · exact grows (rebinding.keys other old)
      · cases collect with
        | false => cases new
        | true =>
          cases binding with
          | none => grind [List.mem_cons_self, Rebinding.binds]
          | some route => exact mem_bound_append.mpr (.inr ⟨rfl, List.mem_singleton.mp new⟩)
    · grind [Rebinding.listeners]

def PassInv (t : Tables) (pass : Pass) : Prop :=
  match pass.phase with
  | .initDns | .resetListeners => Registered t
  | .resetGroups => Registered t ∧ t.listeners = ∅
  -- The groups are gone, the bindings not yet.
  | .resetCursors | .resetBindings => t.listeners = ∅
  | .register runner =>
    Registered t ∧ Held t runner ∧ Covered t pass.config ∧
      ∀ listener, Work.listen listener ∈ runner.work → listener ∈ forwardNames pass.config
  | .configure => Registered t ∧ Covered t pass.config
  | .bind runner => Registered t ∧ Held t runner ∧ Rebinding t runner
  | .release => Registered t ∧ ∀ listener keys, t.listeners.lookup listener = some keys → ∀ key ∈ keys, key ∈ bound t
  | .demote referenced _ => Registered t ∧ ∀ key, Referenced t key → key ∈ referenced
  | .finish runner => Registered t ∧ Held t runner

theorem Covered.spared {t next : Tables} {config : RuntimeConfig} (covered : Covered t config)
    (spares : Spares t next) : Covered next config := by
  unfold Covered
  rw [spares.listeners]
  exact covered

theorem PassInv.spared {t next : Tables} {pass : Pass} (inv : PassInv t pass) (spares : Spares t next) :
    PassInv next pass := by
  obtain ⟨reload, config, phase⟩ := pass
  cases phase with
  | initDns => exact spares.registered inv
  | resetListeners => exact spares.registered inv
  | resetGroups => exact ⟨spares.registered inv.1, spares.listeners.trans inv.2⟩
  | resetCursors => exact spares.listeners.trans inv
  | resetBindings => exact spares.listeners.trans inv
  | register runner =>
    obtain ⟨registered, held, covered, named⟩ := inv
    exact ⟨spares.registered registered, held.spared spares, covered.spared spares, named⟩
  | configure => exact ⟨spares.registered inv.1, inv.2.spared spares⟩
  | bind runner => exact ⟨spares.registered inv.1, inv.2.1.spared spares, inv.2.2.spared spares⟩
  | release =>
    refine ⟨spares.registered inv.1, ?_⟩
    rw [spares.listeners, bound, spares.healthBindings]
    exact inv.2
  | demote referenced pending =>
    exact ⟨spares.registered inv.1, fun key refers => inv.2 key (spares.referenced.mp refers)⟩
  | finish runner => exact ⟨spares.registered inv.1, inv.2.spared spares⟩

/-- What a pass leaves: its invariant, or the registration itself when it is over. -/
def Leaves (t : Tables) : Option Pass → Prop
  | some pass => PassInv t pass
  | none => Registered t

/-- The work of a phase keeps the phase's invariant, and its end establishes that of the next. -/
theorem Pass.work_leaves (pass : Pass) (input : Input) {t : Tables} {runner : Runner} {stay : Runner → Phase}
    {next : Option Pass} (registered : Registered t) (held : Held t runner)
    (stays : ∀ after left, Worked t runner after (some left) → Registered after → Held after left →
      PassInv after { pass with phase := stay left })
    (ends : runner.work = [] → Leaves t next) :
    Leaves (pass.work input t runner stay next).1 (pass.work input t runner stay next).2 := by
  unfold Pass.work
  cases work : runner.work with
  | nil => exact ends work
  | cons first rest =>
    have worked := Runner.step_worked input t work
    obtain ⟨still, holds⟩ := worked.sound registered held
    dsimp only
    generalize runner.step input t = stepped at worked still holds
    obtain ⟨after, left⟩ := stepped
    cases left with
    | none => exact still
    | some left => exact stays after left worked still (holds left rfl)

theorem registered_of_empty {t : Tables} (listeners : t.listeners = ∅) (unbound : t.healthBindings = []) :
    Registered t := by
  rintro key (member | ⟨listener, keys, listed, -⟩)
  · grind [bound]
  · grind [AList.lookup_empty]

theorem covered_of_empty {t : Tables} (listeners : t.listeners = ∅) (config : RuntimeConfig) : Covered t config := by
  intro listener keys listed
  grind [AList.lookup_empty]

theorem registered_without_listeners {t : Tables} (registered : Registered t) :
    Registered { t with listeners := ∅ } := by
  rintro key (member | ⟨listener, keys, listed, -⟩)
  · exact registered key (.inl member)
  · rw [AList.lookup_empty] at listed
    cases listed

theorem registered_without_bindings {t : Tables} (registered : Registered t) :
    Registered { t with healthBindings := [] } := by
  rintro key (member | listed)
  · cases member
  · exact registered key (.inr listed)

/-- Demotion passes over whatever is referenced. -/
theorem demote_registered {t : Tables} {referenced : List GroupKey} (group : Nat) (registered : Registered t)
    (all : ∀ key, Referenced t key → key ∈ referenced) :
    Registered (t.demote referenced group) ∧ ∀ key, Referenced (t.demote referenced group) key → key ∈ referenced := by
  unfold Tables.demote
  cases known : t.groupKey group with
  | none => exact ⟨registered, all⟩
  | some key =>
    dsimp only
    split
    · exact ⟨registered, all⟩
    · rename_i unreferenced
      refine ⟨fun other refers => (registered other refers).update fun listed => ?_, all⟩
      obtain ⟨object, there, keyed⟩ := t.groups.sound other group listed
      rw [Tables.groupKey, Registry.object?, there] at known
      cases known
      exact absurd (all other refers) (keyed ▸ unreferenced)

theorem Pass.step_leaves (platform : Platform) (input : Input) {t : Tables} {pass : Pass} (inv : PassInv t pass) :
    Leaves (pass.step platform input t).1 (pass.step platform input t).2 := by
  obtain ⟨reload, config, phase⟩ := pass
  cases phase with
  | initDns => exact inv
  | resetListeners => exact ⟨registered_without_listeners inv, rfl⟩
  | resetGroups => exact inv.2
  | resetCursors => exact inv
  | resetBindings => exact ⟨registered_of_empty inv rfl, covered_of_empty inv config⟩
  | register runner =>
    obtain ⟨registered, held, covered, named⟩ := inv
    refine Pass.work_leaves _ input registered held ?_ fun _ => ⟨registered, covered⟩
    intro after left worked still holds
    exact ⟨still, holds, worked.covered covered named,
      fun listener member => named listener (worked.work_subset member)⟩
  | configure =>
    refine ⟨registered_without_bindings inv.1, held_start _ _, ?_⟩
    refine ⟨fun key member => (List.not_mem_nil member).elim, ?_, fun listener keys listed => ?_⟩
    · intro request collect member
      cases ensure_mem_bindings member
    · exact .inr (listen_mem_bindings (inv.2 listener keys listed))
  | bind runner =>
    obtain ⟨registered, held, rebinding⟩ := inv
    refine Pass.work_leaves _ input registered held ?_ fun done => ⟨registered, fun listener keys listed => ?_⟩
    · intro after left worked still holds
      exact ⟨still, holds, worked.rebinding rebinding⟩
    · have left := rebinding.listeners listener keys listed
      grind
  | release =>
    refine ⟨inv.1, ?_⟩
    rintro key (member | ⟨listener, keys, listed, member⟩)
    · exact member
    · exact inv.2 listener keys listed key member
  | demote referenced pending =>
    cases pending with
    | nil =>
      cases reload with
      | false => exact inv.1
      | true => exact ⟨inv.1, held_start _ _⟩
    | cons group rest => exact demote_registered group inv.1 inv.2
  | finish runner =>
    exact Pass.work_leaves _ input inv.1 inv.2 (fun _ _ _ still holds => ⟨still, holds⟩) fun _ => inv.1

/-- The order between tasks that the registration depends on: passes run one at a time, and a hot pass
over a configuration with every registered forward listener; an insertion by the data plane finds its
key as vacant as the lookup did; an eviction removes only what is still evictable. -/
def Orderly (s : State) : Event → Prop
  | .begin _ (.hotApply config) => (∀ task pass, s.tasks task ≠ .pass pass) ∧ Covered s.tables config
  | .begin _ (.reload _) => ∀ task pass, s.tasks task ≠ .pass pass
  | .advance task _ =>
    match s.tasks task with
    | .serve _ serving => ∀ key ∈ serving.loses, s.tables.groups.table.lookup key = none
    | .sweep sweep => ∀ key ∈ sweep.doomed, ¬ Configured s.tables key
    | _ => True
  | _ => True

structure Inv (s : State) : Prop where
  passes : ∀ task pass, s.tasks task = .pass pass → PassInv s.tables pass
  single : ∀ task pass other second, s.tasks task = .pass pass → s.tasks other = .pass second → task = other
  settled : (∀ task pass, s.tasks task ≠ .pass pass) → Registered s.tables

theorem inv_initial : Inv {} where
  passes := by intro task pass same; cases same
  single := by simp
  settled := fun _ => registered_of_empty rfl rfl

theorem Inv.spared {s next : State} (inv : Inv s) (spares : Spares s.tables next.tables)
    (same : ∀ task pass, next.tasks task = .pass pass ↔ s.tasks task = .pass pass) : Inv next where
  passes := fun task pass here => (inv.passes task pass ((same task pass).mp here)).spared spares
  single := fun task pass other second here there =>
    inv.single task pass other second ((same task pass).mp here) ((same other second).mp there)
  settled := fun none => spares.registered (inv.settled fun task pass here => none task pass ((same task pass).mpr here))

theorem put_passes {s : State} {tables : Tables} {task : Nat} {next : Task}
    (before : ∀ pass, s.tasks task ≠ .pass pass) (after : ∀ pass, next ≠ .pass pass) (other : Nat) (pass : Pass) :
    (s.put tables task next).tasks other = .pass pass ↔ s.tasks other = .pass pass := by
  simp only [State.put, Function.update_apply]
  grind

theorem Inv.put_pass {s : State} {task : Nat} {tables : Tables} (left : Option Pass)
    (others : ∀ other pass, other ≠ task → s.tasks other ≠ .pass pass) (leaves : Leaves tables left) :
    Inv (s.put tables task ((left.map Task.pass).getD .idle)) := by
  have only : ∀ other pass, (s.put tables task ((left.map Task.pass).getD .idle)).tasks other = .pass pass →
      other = task ∧ left = some pass := by
    intro other pass here
    simp only [State.put, Function.update_apply] at here
    split at here
    · rename_i same
      cases left with
      | none => cases here
      | some kept => cases here; exact ⟨same, rfl⟩
    · grind
  refine ⟨fun other pass here => ?_, fun first pass second next here there => ?_, fun none => ?_⟩
  · obtain ⟨-, rfl⟩ := only other pass here
    exact leaves
  · grind
  · cases left with
    | none => exact leaves
    | some pass => exact absurd (by simp [State.put]) (none task pass)

theorem step_preserves_registration {platform : Platform} (s : State) (event : Event) (next : State) (inv : Inv s)
    (orderly : Orderly s event) (taken : step platform s event = some next) : Inv next := by
  cases step_stepped taken with
  | @began task job idle =>
    have before : ∀ pass, s.tasks task ≠ .pass pass := by grind
    cases job with
    | select selection => exact inv.spared (.refl _) (put_passes before fun pass same => by cases same)
    | evict => exact inv.spared (.refl _) (put_passes before fun pass same => by cases same)
    | hotApply config =>
      refine Inv.put_pass (some _) (fun other pass _ => orderly.1 other pass) ?_
      exact ⟨inv.settled orderly.1, held_start _ _, orderly.2, fun listener => listen_mem_registrations⟩
    | reload config =>
      refine Inv.put_pass (some _) (fun other pass _ => orderly other pass) ?_
      exact inv.settled orderly
  | @served task input selection serving after running served =>
    simp only [Orderly, running] at orderly
    have vacant : ∀ key ∈ serving.loses, ¬ Configured s.tables key :=
      fun key member => Registry.not_marked_of_vacant (orderly key member)
    refine inv.spared ((Serving.step_effect served).spares vacant) (put_passes ?_ fun pass same => by cases same)
    grind
  | @passed task input pass tables left running passed =>
    have leaves := Pass.step_leaves platform input (inv.passes task pass running)
    grind [Inv.put_pass, Inv.single]
  | @swept task input sweep tables left running swept =>
    simp only [Orderly, running] at orderly
    have effect := Sweep.step_effect input s.tables sweep
    rw [swept] at effect
    refine inv.spared (effect.spares orderly) (put_passes ?_ ?_)
    · grind
    · intro pass same
      cases left <;> cases same
  | refreshed free effect => exact inv.spared effect.harmless fun _ _ => Iff.rfl

/-- The pass is between clearing `GROUPS` and clearing `HEALTH_BINDINGS`. -/
def Pass.Resetting (pass : Pass) : Prop := pass.phase = .resetCursors ∨ pass.phase = .resetBindings

theorem PassInv.registered {t : Tables} {pass : Pass} (inv : PassInv t pass) (past : ¬ pass.Resetting) :
    Registered t := by
  obtain ⟨reload, config, phase⟩ := pass
  cases phase with
  | initDns => exact inv
  | resetListeners => exact inv
  | resetCursors => exact absurd (.inl rfl) past
  | resetBindings => exact absurd (.inr rfl) past
  | resetGroups => exact inv.1
  | register runner => exact inv.1
  | configure => exact inv.1
  | bind runner => exact inv.1
  | release => exact inv.1
  | demote referenced pending => exact inv.1
  | finish runner => exact inv.1

/-- In every orderly run, whatever a health binding or a forward listener refers to is in `GROUPS` under
a configured group, at every moment at which no reload is resetting the tables. -/
theorem configured_backends_registered (platform : Platform) {events : List Event} {s : State}
    (orderly : Runs.Meets (step platform) Orderly {} events) (reached : Runs.run (step platform) {} events = some s)
    (quiet : ∀ task pass, s.tasks task = .pass pass → ¬ pass.Resetting) : Registered s.tables := by
  have inv : Inv s := Runs.run_invariant (step platform) step_preserves_registration inv_initial orderly reached
  by_cases passing : ∃ task pass, s.tasks task = .pass pass
  · obtain ⟨task, pass, here⟩ := passing
    exact (inv.passes task pass here).registered (quiet task pass here)
  · grind [Inv.settled]

section Example

theorem step_tasks_of_ne {platform : Platform} {s next : State} {event : Event} {task : Nat}
    (taken : step platform s event = some next) (other : event.task ≠ some task) :
    next.tasks task = s.tasks task := by
  have apart : ∀ {touched : Nat} (tables after), some touched ≠ some task →
      (s.put tables touched after).tasks task = s.tasks task := by
    intro touched tables after different
    exact Function.update_of_ne (fun same => different (congrArg some same.symm)) _ _
  cases step_stepped taken with
  | began idle => exact apart _ _ other
  | served running served => exact apart _ _ other
  | passed running passed => exact apart _ _ other
  | swept running swept => exact apart _ _ other
  | refreshed free effect => rfl

theorem run_tasks_of_ne {platform : Platform} {s last : State} {events : List Event} {task : Nat}
    (reached : Runs.run (step platform) s events = some last) (others : ∀ event ∈ events, event.task ≠ some task) :
    last.tasks task = s.tasks task := by
  induction events generalizing s with
  | nil => cases reached; rfl
  | cons event rest ih =>
    obtain ⟨next, stepped, later⟩ := Runs.run_cons_inv _ reached
    grind [step_tasks_of_ne]

def appAction : HttpRouteAction := { backends := [{ address := "10.0.0.1:80".toList }] }

def appSite : RuntimeConfig :=
  { defaultListener := { ordinaryTraffic :=
      { routes := [{ matcher := { exact := ["app.example".toList] }, action := .reverseProxy appAction }] } } }

def appKey : GroupKey := ⟨"10.0.0.1:80".toList, false, true, .none⟩

def appSelection : Selection :=
  selectHttpBackend "app".toList "app.example".toList exampleClient appAction

def hotPass (steps : Nat) : List Event := .begin 0 (.hotApply appSite) :: List.replicate steps (.advance 0 {})

structure Outcome where
  passing : List Bool
  isBound : Bool
  owner : Option Owner
deriving DecidableEq

def Task.isPass : Task → Bool
  | .pass _ => true
  | _ => false

def outcome (s : State) : Outcome where
  passing := [0, 1, 2].map fun task => (s.tasks task).isPass
  isBound := decide (appKey ∈ bound s.tables)
  owner := (s.tables.groups.get? appKey).map fun object => object.2.owner

/-- A request that looked the group up before the pass replaces the configured group after it. -/
def slowRequest : List Event :=
  .begin 1 (.select appSelection) :: List.replicate 4 (.advance 1 {}) ++ hotPass 12 ++ [.advance 1 {}]

/-- A round of evictions that found the group idle before the pass removes it after the pass. -/
def slowEviction : List Event :=
  .begin 1 (.select appSelection) :: List.replicate 5 (.advance 1 {}) ++
    [.begin 2 .evict, .advance 2 { now := 700000 }, .advance 2 {}] ++ hotPass 10 ++ [.advance 2 {}]

theorem no_pass_of_outcome {events : List Event} {s : State}
    (reached : Runs.run (step plainPlatform) {} events = some s)
    (few : ∀ event ∈ events, event.task ∈ [some 0, some 1, some 2])
    (idle : (outcome s).passing = [false, false, false]) (task : Nat) (pass : Pass) : s.tasks task ≠ .pass pass := by
  intro here
  by_cases small : task ∈ [0, 1, 2]
  · grind [outcome, Task.isPass]
  · rw [run_tasks_of_ne reached] at here
    · cases here
    · grind

theorem exists_outcome {events : List Event} {result : Outcome}
    (computed : (Runs.run (step plainPlatform) {} events).map outcome = some result) :
    ∃ s, Runs.run (step plainPlatform) {} events = some s ∧ outcome s = result :=
  Option.map_eq_some_iff.mp computed

def Task.Configuring : Task → Prop
  | .idle | .pass _ => True
  | _ => False

theorem meets_orderly_pass {platform : Platform} {s : State} {task : Nat} (alone : (s.tasks task).Configuring)
    (input : Input) (n : Nat) : Runs.Meets (step platform) Orderly s (List.replicate n (.advance task input)) := by
  induction n generalizing s with
  | zero => trivial
  | succ n ih =>
    refine ⟨?_, fun next taken => ih ?_⟩
    · simp only [Orderly]
      cases running : s.tasks task <;> rw [running] at alone <;> trivial
    · cases step_stepped taken with
      | served running served => rw [running] at alone; exact alone.elim
      | @passed _ _ pass tables left running passed =>
        simp only [State.put, Function.update_self]
        cases left <;> trivial
      | swept running swept => rw [running] at alone; exact alone.elim
      | refreshed free effect => exact alone

theorem configured_backends_registered_hotPass :
    ∃ s, Runs.run (step plainPlatform) {} (hotPass 12) = some s ∧ Referenced s.tables appKey ∧
      Configured s.tables appKey := by
  obtain ⟨s, reached, seen⟩ := @exists_outcome (hotPass 12) ⟨[false, false, false], true, some .configured⟩
    (by decide +kernel)
  have orderly : Runs.Meets (step plainPlatform) Orderly {} (hotPass 12) := by
    refine ⟨⟨fun task pass here => (by cases here), covered_of_empty rfl appSite⟩, fun next stepped => ?_⟩
    cases stepped
    refine meets_orderly_pass ?_ {} 12
    exact trivial
  have quiet := no_pass_of_outcome reached (by decide +kernel) (congrArg (·.passing) seen)
  have refers : Referenced s.tables appKey := .inl (of_decide_eq_true (congrArg (·.isBound) seen))
  exact ⟨s, reached, refers, configured_backends_registered plainPlatform orderly reached
    (fun task pass here => absurd here (quiet task pass)) appKey refers⟩

/-- A finished pass and then a request that inserts too late; a finished pass and then a late removal. -/
theorem stale_steps_unregister_backend :
    (∃ s, Runs.run (step plainPlatform) {} slowRequest = some s ∧ (∀ task pass, s.tasks task ≠ .pass pass) ∧
      Referenced s.tables appKey ∧ ¬ Configured s.tables appKey) ∧
    ∃ s, Runs.run (step plainPlatform) {} slowEviction = some s ∧ (∀ task pass, s.tasks task ≠ .pass pass) ∧
      Referenced s.tables appKey ∧ s.tables.groups.get? appKey = none := by
  constructor
  · obtain ⟨s, reached, seen⟩ := @exists_outcome slowRequest ⟨[false, false, false], true, some .runtime⟩
      (by decide +kernel)
    refine ⟨s, reached, no_pass_of_outcome reached (by decide +kernel) (congrArg (·.passing) seen),
      .inl (of_decide_eq_true (congrArg (·.isBound) seen)), ?_⟩
    rintro ⟨object, found, owned⟩
    have owner : ((s.tables.groups.get? appKey).map fun object => object.2.owner) = some .runtime :=
      congrArg (·.owner) seen
    grind
  · obtain ⟨s, reached, seen⟩ := @exists_outcome slowEviction ⟨[false, false, false], true, none⟩ (by decide +kernel)
    refine ⟨s, reached, no_pass_of_outcome reached (by decide +kernel) (congrArg (·.passing) seen),
      .inl (of_decide_eq_true (congrArg (·.isBound) seen)), ?_⟩
    exact Option.map_eq_none_iff.mp (congrArg (·.owner) seen)

end Example

end TlsProxy.Forward
