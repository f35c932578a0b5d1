import TlsProxy.Forward.Ledger
import Mathlib.Data.Prod.Lex

/-! `apply_hot_listener_settings` works on the tables that earlier traffic has left
behind; a reload clears them first. What it leaves in the tables depends only on
the configuration and on the overrides. -/
namespace TlsProxy.Forward

open Config Shared

variable {resolve : Text → Nat → Option Text}

theorem demote_configured {t : Tables} {referenced : List GroupKey} {group : Nat} {key : GroupKey} :
    Configured (t.demote referenced group) key ↔
      Configured t key ∧ (key ∈ referenced ∨ t.groups.table.lookup key ≠ some group) := by
  unfold Tables.demote
  cases known : t.groupKey group with
  | none =>
    refine ⟨fun has => ⟨has, .inr fun listed => ?_⟩, And.left⟩
    cases known.symm.trans (key_of_lookup listed)
  | some own =>
    simp only
    split
    · rename_i kept
      refine ⟨fun has => ⟨has, ?_⟩, And.left⟩
      by_cases listed : t.groups.table.lookup key = some group
      · cases known.symm.trans (key_of_lookup listed)
        exact .inl kept
      · exact .inr listed
    · rename_i dropped
      by_cases listed : t.groups.table.lookup key = some group
      · cases known.symm.trans (key_of_lookup listed)
        refine iff_of_false ?_ ?_
        · rintro ⟨object, found, owned⟩
          rw [Registry.get?_update] at found
          simp only [if_pos listed] at found
          obtain ⟨before, -, rfl⟩ := Option.map_eq_some_iff.mp found
          cases owned
        · grind
      · have same : (t.groups.update group GroupState.demote).get? key = t.groups.get? key := by
          grind [Registry.get?_update, Option.map_id']
        simp only [Configured, Registry.Marked, same, ne_eq, listed, not_false_eq_true, or_true, and_true]

structure Filled (resolve : Text → Nat → Option Text) (config : RuntimeConfig) (t : Tables) : Prop where
  clean : ∀ message, .fail message ∉ bindings config
  healthBindings : t.healthBindings = boundBindings resolve (bindings config)
  configured : ∀ key ∈ registeredKeys resolve (bindings config), Configured t key

def Listed (resolve : Text → Nat → Option Text) (config : RuntimeConfig) (t : Tables) : Prop :=
  ∀ listener value, (listener, value) ∈ enabledForwards config →
    t.listeners.lookup listener = some (forwardKeys resolve value)

/-- The tables of a configuration: what they hold depends on nothing else. -/
structure Built (resolve : Text → Nat → Option Text) (config : RuntimeConfig) (t : Tables) : Prop where
  clean : ∀ message, .fail message ∉ bindings config
  listeners : Listed resolve config t
  healthBindings : t.healthBindings = boundBindings resolve (bindings config)
  configured : ∀ key, Configured t key ↔ key ∈ registeredKeys resolve (bindings config)

/-- What holds of the tables in each phase of a pass that runs alone. -/
def Pass.Sound (resolve : Text → Nat → Option Text) (t : Tables) (pass : Pass) : Prop :=
  t.resolve = resolve ∧
    match pass.phase with
    | .initDns => False
    | .resetListeners | .resetGroups | .resetCursors | .resetBindings | .configure => True
    | .register runner => ∃ done start, Progress resolve (registrations pass.config) done start t runner
    | .bind runner => ∃ done start, Progress resolve (bindings pass.config) done start t runner ∧
        t.healthBindings = boundBindings resolve done ∧ ∀ key ∈ registeredKeys resolve done, Configured t key
    | .release => Filled resolve pass.config t ∧ Listed resolve pass.config t
    | .demote referenced pending => Filled resolve pass.config t ∧ Listed resolve pass.config t ∧
        referenced = registeredKeys resolve (bindings pass.config) ∧
        ∀ key, Configured t key → key ∈ referenced ∨ ∃ group ∈ pending, t.groups.table.lookup key = some group
    | .finish runner => Filled resolve pass.config t ∧
        (∀ key, Configured t key → key ∈ registeredKeys resolve (bindings pass.config)) ∧
        ∃ done start, Progress resolve (registrations pass.config) done start t runner

def Pass.Completed (pass : Pass) : Prop :=
  match pass.phase with
  | .demote _ pending => pending = [] ∧ pass.reload = false
  | .finish runner => runner.work = []
  | _ => False

theorem Progress.listed {config : RuntimeConfig} {whole done : List Work} {start : Text → Option (List GroupKey)}
    {t : Tables} {runner : Runner} (progress : Progress resolve whole done start t runner) (ended : runner.work = [])
    (enters : ledger resolve start whole = ([], enterForwards resolve start (enabledForwards config))) :
    Listed resolve config t := by
  have complete : whole = done := by rw [progress.split, ended, List.append_nil]
  have entered := progress.entered.trans (complete ▸ enters)
  intro listener value enabled
  have read := congrFun (congrArg Prod.snd entered) listener
  exact read.trans (enterForwards_of_mem (enabledForwards_nodup config) enabled)

theorem Pass.Sound.built {t : Tables} {pass : Pass} (sound : pass.Sound resolve t) (completed : pass.Completed) :
    Built resolve pass.config t := by
  obtain ⟨reload, config, phase⟩ := pass
  obtain ⟨fixed, sound⟩ := sound
  match phase, sound, completed with
  | .demote referenced [], ⟨filled, listed, same, only⟩, ⟨rfl, _⟩ =>
    refine ⟨filled.clean, listed, filled.healthBindings, fun key => ⟨fun has => ?_, filled.configured key⟩⟩
    grind
  | .finish runner, ⟨filled, only, done, start, progress⟩, ended =>
    refine ⟨filled.clean, progress.listed ended (ledger_registrations ?_ start), filled.healthBindings,
      fun key => ⟨only key, filled.configured key⟩⟩
    exact fun message fails => filled.clean message (fail_of_registrations fails)

def Phase.rank : Phase → Nat ×ₗ Nat
  | .initDns => toLex (11, 0)
  | .resetListeners => toLex (10, 0)
  | .resetGroups => toLex (9, 0)
  | .resetCursors => toLex (8, 0)
  | .resetBindings => toLex (7, 0)
  | .register runner => toLex (7, runner.rank)
  | .configure => toLex (6, 0)
  | .bind runner => toLex (5, runner.rank)
  | .release => toLex (4, 0)
  | .demote _ pending => toLex (3, pending.length)
  | .finish runner => toLex (2, runner.rank)

/-- A step of a sound pass: it stays sound and comes closer to its end, unless it was there or its
configuration names a target that does not parse. -/
def Pass.Follows (resolve : Text → Nat → Option Text) (t : Tables) (pass : Pass) : Option Pass → Prop
  | none => pass.Completed ∨ ∃ message, .fail message ∈ bindings pass.config
  | some next => next.Sound resolve t ∧ next.config = pass.config ∧ next.reload = pass.reload ∧
      next.phase.rank < pass.phase.rank

theorem Pass.goto_follows {pass : Pass} {t : Tables} {phase : Phase} (less : phase.rank < pass.phase.rank)
    (sound : Pass.Sound resolve t { pass with phase }) : pass.Follows resolve t (pass.goto phase) :=
  ⟨sound, rfl, rfl, less⟩

theorem rank_lt_of_phase {phase next : Phase} (less : (ofLex next.rank).1 < (ofLex phase.rank).1) :
    next.rank < phase.rank :=
  Prod.Lex.lt_iff.mpr (.inl less)

theorem rank_lt_of_rest {phase next : Phase} (same : (ofLex next.rank).1 = (ofLex phase.rank).1)
    (less : (ofLex next.rank).2 < (ofLex phase.rank).2) : next.rank < phase.rank :=
  Prod.Lex.lt_iff.mpr (.inr ⟨same, less⟩)

theorem Progress.first_mem {whole done : List Work} {start : Text → Option (List GroupKey)} {t : Tables}
    {runner : Runner} (progress : Progress resolve whole done start t runner) {item : Work}
    (first : runner.work.head? = some item) : item ∈ whole := by
  rw [progress.split]
  grind [List.mem_of_mem_head?]

/-- A phase that works through a list: `keeps` says what an item leaves, `ends` where the phase goes on. -/
theorem Pass.work_follows (pass : Pass) (input : Input) {t : Tables} {runner : Runner} {stay : Runner → Phase}
    {left : Option Pass} {whole done : List Work} {start : Text → Option (List GroupKey)}
    (phase : pass.phase = stay runner) (rank : ∃ n, ∀ runner, (stay runner).rank = toLex (n, runner.rank))
    (progress : Progress resolve whole done start t runner)
    (fails : ∀ message, .fail message ∈ whole → .fail message ∈ bindings pass.config)
    (keeps : ∀ next after added, Progress resolve whole (done ++ added) start next after →
      Adds resolve whole added t next → Pass.Sound resolve next { pass with phase := stay after })
    (ends : runner.work = [] → pass.Follows resolve t left) :
    pass.Follows resolve (pass.work input t runner stay left).1 (pass.work input t runner stay left).2 := by
  unfold Pass.work
  cases work : runner.work with
  | nil => exact ends work
  | cons first rest =>
    simp only
    have progressed := Runner.step_progress input progress work
    generalize runner.step input t = result at progressed
    obtain ⟨next, after⟩ := result
    cases progressed with
    | failed first => exact .inr ⟨_, fails _ (progress.first_mem first)⟩
    | @added after added further adds shrinks =>
      obtain ⟨n, ranks⟩ := rank
      refine Pass.goto_follows ?_ (keeps next after added further adds)
      rw [phase, ranks, ranks]
      exact Prod.Lex.toLex_lt_toLex.mpr (.inr ⟨rfl, shrinks⟩)

theorem registeredKeys_append (first second : List Work) :
    registeredKeys resolve (first ++ second) = registeredKeys resolve first ++ registeredKeys resolve second := by
  rw [registeredKeys, boundBindings_append, List.map_append]
  rfl

theorem boundBindings_registrations (config : RuntimeConfig) : boundBindings resolve (registrations config) = [] := by
  refine List.filterMap_eq_nil_iff.mpr ?_
  intro item member
  obtain ⟨entry, -, inside⟩ := List.mem_flatMap.mp member
  rcases mem_forwardWork inside with ⟨target, rfl⟩ | rfl | ⟨message, rfl⟩ <;> rfl

theorem Filled.kept {config : RuntimeConfig} {t next : Tables} (filled : Filled resolve config t)
    (healthBindings : next.healthBindings = t.healthBindings)
    (kept : ∀ key ∈ registeredKeys resolve (bindings config), Configured t key → Configured next key) :
    Filled resolve config next where
  clean := filled.clean
  healthBindings := healthBindings.trans filled.healthBindings
  configured := fun key member => kept key member (filled.configured key member)

theorem demote_frame (t : Tables) (referenced : List GroupKey) (group : Nat) :
    ∃ groups, t.demote referenced group = { t with groups } ∧ groups.table = t.groups.table := by
  unfold Tables.demote
  split
  · exact ⟨t.groups, rfl, rfl⟩
  · split
    · exact ⟨t.groups, rfl, rfl⟩
    · exact ⟨_, rfl, rfl⟩

theorem Pass.step_follows (platform : Platform) (input : Input) {t : Tables} {pass : Pass}
    (sound : pass.Sound resolve t) :
    pass.Follows resolve (pass.step platform input t).1 (pass.step platform input t).2 := by
  obtain ⟨reload, config, phase⟩ := pass
  obtain ⟨fixed, sound⟩ := sound
  cases phase with
  | initDns => cases sound
  | resetListeners => exact goto_follows (rank_lt_of_phase (Nat.lt_succ_self _)) ⟨fixed, trivial⟩
  | resetGroups => exact goto_follows (rank_lt_of_phase (Nat.lt_succ_self _)) ⟨fixed, trivial⟩
  | resetCursors => exact goto_follows (rank_lt_of_phase (Nat.lt_succ_self _)) ⟨fixed, trivial⟩
  | resetBindings => exact goto_follows (rank_lt_of_phase (Nat.lt_succ_self _)) ⟨fixed, trivial⟩
  | register runner =>
    obtain ⟨done, start, progress⟩ := sound
    refine Pass.work_follows _ input rfl ⟨7, fun _ => rfl⟩ progress (fun _ => fail_of_registrations) ?_ ?_
    · intro next after added further adds
      exact ⟨further.fixed, _, _, further⟩
    · intro ended
      exact goto_follows (rank_lt_of_phase (Nat.lt_succ_self _)) ⟨fixed, trivial⟩
  | configure =>
    refine goto_follows (rank_lt_of_phase (Nat.lt_succ_self _))
      ⟨fixed, [], _, progress_start (t := { t with healthBindings := [] }) fixed _, rfl, ?_⟩
    intro key member
    cases member
  | bind runner =>
    obtain ⟨done, start, progress, entered, configured⟩ := sound
    refine Pass.work_follows _ input rfl ⟨5, fun _ => rfl⟩ progress (fun _ fails => fails) ?_ ?_
    · intro next after added further adds
      refine ⟨further.fixed, _, _, further, ?_, ?_⟩
      · rw [adds.healthBindings, entered, boundBindings_append]
      · grind [registeredKeys_append, Adds.kept, Adds.bound]
    · intro ended
      have complete : bindings config = done := by rw [progress.split, ended, List.append_nil]
      have clean : ∀ message, .fail message ∉ bindings config := complete ▸ progress.clean
      refine goto_follows (rank_lt_of_phase (Nat.lt_succ_self _)) ⟨fixed, ?_, ?_⟩
      · exact ⟨clean, complete ▸ entered, complete ▸ configured⟩
      · exact progress.listed ended (ledger_bindings clean start)
  | release =>
    obtain ⟨filled, listed⟩ := sound
    refine goto_follows (rank_lt_of_phase (Nat.lt_succ_self _)) ⟨fixed, filled, listed, ?_, ?_⟩
    · rw [filled.healthBindings, registeredKeys]
    · rintro key ⟨object, found, -⟩
      obtain ⟨group, listed, -⟩ := Option.bind_eq_some_iff.mp found
      refine .inr ⟨group, ?_, listed⟩
      exact List.mem_map.mpr ⟨⟨key, group⟩, AList.mem_lookup_iff.mp listed, rfl⟩
  | demote referenced pending =>
    obtain ⟨filled, listed, same, only⟩ := sound
    cases pending with
    | nil =>
      cases reload with
      | false => exact .inl ⟨rfl, rfl⟩
      | true =>
        refine goto_follows (rank_lt_of_phase (Nat.lt_succ_self _)) ⟨fixed, filled, ?_, [], _, progress_start fixed _⟩
        intro key has
        rcases only key has with member | ⟨group, none, -⟩
        · exact same ▸ member
        · cases none
    | cons group rest =>
      obtain ⟨groups, frame, table⟩ := demote_frame t referenced group
      have demoted := fun key => @demote_configured t referenced group key
      simp only [Pass.step, frame] at demoted ⊢
      refine goto_follows (rank_lt_of_rest rfl (Nat.lt_succ_self _)) ⟨fixed, filled.kept rfl ?_, listed, same, ?_⟩
      · grind
      · intro key has
        obtain ⟨before, kept | unlisted⟩ := (demoted key).mp has
        · exact .inl kept
        · grind
  | finish runner =>
    obtain ⟨filled, only, done, start, progress⟩ := sound
    refine Pass.work_follows _ input rfl ⟨2, fun _ => rfl⟩ progress (fun _ => fail_of_registrations) ?_ .inl
    intro next after added further adds
    have unbound : boundBindings resolve added = [] := by
      have none := @boundBindings_registrations resolve config
      rw [further.split, boundBindings_append, boundBindings_append, List.append_eq_nil_iff,
        List.append_eq_nil_iff] at none
      exact none.1.2
    refine ⟨further.fixed, filled.kept ?_ fun key _ => adds.kept key, ?_, _, _, further⟩
    · rw [adds.healthBindings, unbound, List.append_nil]
    · grind [Adds.only, ensured_mem_registeredKeys]

def Task.Completed : Task → Prop
  | .pass running => running.Completed
  | _ => False

theorem advance_pass {platform : Platform} {s : State} {task : Nat} {input : Input} {pass : Pass}
    (running : s.tasks task = .pass pass) :
    step platform s (.advance task input) =
      some (s.put (pass.step platform input s.tables).1 task
        (((pass.step platform input s.tables).2.map Task.pass).getD .idle)) := by
  simp only [step, State.advance, running]

theorem put_task (s : State) (tables : Tables) (task : Nat) (next : Task) : (s.put tables task next).tasks task = next :=
  Function.update_self ..

theorem run_pass_sound {platform : Platform} {s last : State} {task : Nat} {pass final : Pass} {inputs : List Input}
    (running : s.tasks task = .pass pass) (sound : pass.Sound resolve s.tables)
    (whole : Runs.run (step platform) s (inputs.map (.advance task)) = some last)
    (left : last.tasks task = .pass final) : final.Sound resolve last.tables ∧ final.config = pass.config := by
  induction inputs generalizing s pass with
  | nil =>
    cases whole
    grind
  | cons input rest ih =>
    obtain ⟨next, taken, later⟩ := Runs.run_cons_inv _ whole
    have follows := Pass.step_follows platform input sound
    rw [advance_pass running] at taken
    generalize pass.step platform input s.tables = result at taken follows
    obtain ⟨tables, after⟩ := result
    cases taken
    cases after with
    | some after =>
      obtain ⟨sound, config, -⟩ := follows
      obtain ⟨sound, same⟩ := ih (put_task s tables task _) sound later
      exact ⟨sound, same.trans config⟩
    | none =>
      -- The task is idle now, so the run ends here.
      cases rest with
      | nil =>
        cases later
        grind [put_task]
      | cons input rest =>
        obtain ⟨next, taken, -⟩ := Runs.run_cons_inv _ later
        grind [step, State.advance, put_task]

theorem run_pass_built {platform : Platform} {s last : State} {task : Nat} {pass : Pass} {inputs : List Input}
    (running : s.tasks task = .pass pass) (sound : pass.Sound resolve s.tables)
    (whole : Runs.run (step platform) s (inputs.map (.advance task)) = some last)
    (completed : (last.tasks task).Completed) : Built resolve pass.config last.tables := by
  cases left : last.tasks task with
  | pass final =>
    rw [left] at completed
    obtain ⟨sound, same⟩ := run_pass_sound running sound whole left
    rw [← same]
    exact sound.built completed
  | idle => rw [left] at completed; cases completed
  | serve selection serving => rw [left] at completed; cases completed
  | sweep sweep => rw [left] at completed; cases completed

theorem hotApply_sound (t : Tables) (config : RuntimeConfig) :
    Pass.Sound t.resolve t { reload := false, config, phase := .register { work := registrations config } } :=
  ⟨rfl, [], _, progress_start rfl _⟩

/-- Whatever DNS answers and whenever the steps are taken, the pass comes to its end. -/
theorem pass_completes (platform : Platform) {s : State} {task : Nat} {pass : Pass} (answers : Nat → Input)
    (running : s.tasks task = .pass pass) (sound : pass.Sound resolve s.tables)
    (clean : ∀ message, .fail message ∉ bindings pass.config) :
    ∃ steps last, Runs.run (step platform) s ((List.range steps).map fun i => .advance task (answers i)) = some last ∧
      (last.tasks task).Completed := by
  generalize bound : pass.phase.rank = rank
  induction rank using WellFoundedLT.induction generalizing s pass answers with
  | _ rank ih =>
    by_cases completed : pass.Completed
    · exact ⟨0, s, rfl, by rw [running]; exact completed⟩
    have follows := Pass.step_follows platform (answers 0) sound
    have taken := @advance_pass platform s task (answers 0) pass running
    generalize pass.step platform (answers 0) s.tables = result at taken follows
    obtain ⟨tables, after⟩ := result
    cases after with
    | none =>
      rcases follows with done | ⟨message, fails⟩
      · exact (completed done).elim
      · exact (clean message fails).elim
    | some after =>
      obtain ⟨sound, config, -, less⟩ := follows
      subst bound
      obtain ⟨steps, last, whole, completed⟩ :=
        ih _ less (fun i => answers (i + 1)) (put_task s tables task _) sound (config ▸ clean) rfl
      refine ⟨steps + 1, last, ?_, completed⟩
      rw [List.range_succ_eq_map, List.map_cons, List.map_map, Runs.run, taken]
      exact whole

structure Reordered (config other : RuntimeConfig) : Prop where
  settings : other = { config with additionalListeners := other.additionalListeners }
  listeners : config.additionalListeners.entries.Perm other.additionalListeners.entries

theorem Reordered.enabledListeners_perm {config other : RuntimeConfig} (reordered : Reordered config other) :
    (enabledListeners config).Perm (enabledListeners other) := by
  have disabled : other.disabledListeners = config.disabledListeners := by rw [reordered.settings]
  unfold enabledListeners
  rw [disabled]
  exact reordered.listeners.filter _

theorem Reordered.bindings_perm {config other : RuntimeConfig} (reordered : Reordered config other) :
    (bindings config).Perm (bindings other) := by
  have default : other.defaultListener = config.defaultListener := by rw [reordered.settings]
  unfold bindings
  rw [default]
  exact (reordered.enabledListeners_perm.flatMap_right _).append_left _

theorem Reordered.boundBindings_perm {config other : RuntimeConfig} (reordered : Reordered config other) :
    (boundBindings resolve (bindings config)).Perm (boundBindings resolve (bindings other)) :=
  reordered.bindings_perm.filterMap _

/-- A hot application that succeeds leaves what a rebuild from any other tables leaves, and that rebuild succeeds. -/
theorem hot_apply_eq_rebuild (platform : Platform) {s applied r : State} {task other : Nat} {new fresh : RuntimeConfig}
    {inputs : List Input}
    (applies : Runs.run (step platform) s (.begin task (.hotApply new) :: inputs.map (.advance task)) = some applied)
    (succeeds : (applied.tasks task).Completed) (reordered : Reordered new fresh)
    (overrides : r.tables.resolve = s.tables.resolve)
    (reset : r.tasks other = .pass { reload := true, config := fresh, phase := .resetListeners })
    (answers : Nat → Input) :
    ∃ steps rebuilt,
      Runs.run (step platform) r ((List.range steps).map fun i => .advance other (answers i)) = some rebuilt ∧
      (rebuilt.tasks other).Completed ∧
      (∀ listener ∈ forwardNames new,
        applied.tables.listeners.lookup listener = rebuilt.tables.listeners.lookup listener) ∧
      applied.tables.healthBindings.Perm rebuilt.tables.healthBindings ∧
      ∀ key, Configured applied.tables key ↔ Configured rebuilt.tables key := by
  obtain ⟨begun, starts, advances⟩ := Runs.run_cons_inv _ applies
  have hot : Built s.tables.resolve new applied.tables := by
    simp only [step] at starts
    split at starts <;> cases starts
    exact run_pass_built (put_task s _ task _) (hotApply_sound s.tables new) advances succeeds
  have sound : Pass.Sound s.tables.resolve r.tables { reload := true, config := fresh, phase := .resetListeners } :=
    ⟨overrides, trivial⟩
  have clean : ∀ message, .fail message ∉ bindings fresh := by
    intro message fails
    exact hot.clean message (reordered.bindings_perm.mem_iff.mpr fails)
  obtain ⟨steps, rebuilt, rebuilds, completed⟩ := pass_completes platform answers reset sound clean
  have built : Built s.tables.resolve fresh rebuilt.tables := by
    have whole : Runs.run (step platform) r (((List.range steps).map answers).map (.advance other)) = some rebuilt := by
      rw [List.map_map]
      exact rebuilds
    exact run_pass_built reset sound whole completed
  have bindings := @Reordered.boundBindings_perm s.tables.resolve _ _ reordered
  refine ⟨steps, rebuilt, rebuilds, completed, ?_, ?_, ?_⟩
  · intro listener enabled
    obtain ⟨⟨name, value⟩, member, rfl⟩ := List.mem_map.mp enabled
    have again := mem_enabledForwards.mpr (reordered.enabledListeners_perm.mem_iff.mp (mem_enabledForwards.mp member))
    exact (hot.listeners name value member).trans (built.listeners name value again).symm
  · grind [Built.healthBindings]
  · intro key
    rw [hot.configured, built.configured]
    exact (bindings.map HealthBinding.group).mem_iff

instance Pass.decidableCompleted (pass : Pass) : Decidable pass.Completed :=
  match pass with
  | { phase := .demote _ pending, reload, .. } => inferInstanceAs (Decidable (pending = [] ∧ reload = false))
  | { phase := .finish runner, .. } => inferInstanceAs (Decidable (runner.work = []))
  | { phase := .initDns, .. } | { phase := .resetListeners, .. } | { phase := .resetGroups, .. }
  | { phase := .resetCursors, .. } | { phase := .resetBindings, .. } | { phase := .register _, .. }
  | { phase := .configure, .. } | { phase := .bind _, .. } | { phase := .release, .. } => .isFalse id

instance Task.decidableCompleted : (task : Task) → Decidable task.Completed
  | .pass running => inferInstanceAs (Decidable running.Completed)
  | .idle | .serve .. | .sweep _ => .isFalse id

def relaying (target : Text) (site : RuntimeConfig) : RuntimeConfig :=
  { site with additionalListeners :=
      HashMap.singleton "relay".toList (.forward { bind := "0.0.0.0:9000".toList, targets := target }) }

def relaySite : RuntimeConfig := relaying "10.0.0.7:70".toList appSite

/-- A pass of a site without the application, and a request to the application. -/
def relayBefore : List Event :=
  .begin 1 (.hotApply (relaying "10.0.0.8:80".toList {})) :: List.replicate 18 (.advance 1 {}) ++
    .begin 2 (.select appSelection) :: List.replicate 7 (.advance 2 {})

def relayPass : List Event := .begin 0 (.hotApply relaySite) :: (List.replicate 23 {}).map (.advance 0)

def relayReset (s : State) : State :=
  { s with tasks := fun _ => .pass { reload := true, config := relaySite, phase := .resetListeners } }

def relayOwners (s : State) : List (Option Owner) :=
  [appKey, ⟨"10.0.0.8:80".toList, false, false, .none⟩].map fun key =>
    (s.tables.groups.get? key).map fun object => object.2.owner

/-- The group of the application is promoted, and that of the relay's earlier target released. -/
theorem hot_apply_eq_rebuild_relay :
    ∃ before applied rebuilt : State, ∃ steps, Runs.run (step plainPlatform) {} relayBefore = some before ∧
      Runs.run (step plainPlatform) before relayPass = some applied ∧
      relayOwners before ++ relayOwners applied =
        [some .runtime, some .configured] ++ [some .configured, some .runtime] ∧
      Runs.run (step plainPlatform) (relayReset before) ((List.range steps).map fun _ => .advance 0 {}) = some rebuilt ∧
      rebuilt.tables.listeners.lookup "relay".toList = some [⟨"10.0.0.7:70".toList, false, false, .none⟩] ∧
      ∀ key, Configured applied.tables key ↔ Configured rebuilt.tables key := by
  have computed : ((Runs.run (step plainPlatform) {} relayBefore).bind fun before =>
      (Runs.run (step plainPlatform) before relayPass).map fun applied => (relayOwners before ++ relayOwners applied,
        decide (applied.tasks 0).Completed, applied.tables.listeners.lookup "relay".toList)) =
      some ([some .runtime, some .configured] ++ [some .configured, some .runtime], true,
        some [⟨"10.0.0.7:70".toList, false, false, .none⟩]) := by
    decide +kernel
  obtain ⟨before, earlier, passed⟩ := Option.bind_eq_some_iff.mp computed
  obtain ⟨applied, applies, seen⟩ := Option.map_eq_some_iff.mp passed
  obtain ⟨moved, seen⟩ := Prod.mk.inj seen
  obtain ⟨completed, listed⟩ := Prod.mk.inj seen
  obtain ⟨steps, rebuilt, rebuilds, -, listeners, -, configured⟩ :=
    @hot_apply_eq_rebuild plainPlatform before applied (relayReset before) 0 0 relaySite relaySite _ applies
      (of_decide_eq_true completed) ⟨rfl, .refl _⟩ rfl rfl fun _ => {}
  refine ⟨before, applied, rebuilt, steps, earlier, applies, moved, rebuilds, ?_, configured⟩
  exact (listeners _ (by decide +kernel)).symm.trans listed

end TlsProxy.Forward
