import TlsProxy.Forward.Effects
import Mathlib.Data.Finset.Card
import Mathlib.Data.List.Dedup

/-! One health-check round evicts expired runtime groups and then the least
recently active ones over the cap. Here a round runs without another task in
between; the order in which the table is iterated is arbitrary. -/
namespace TlsProxy.Forward

open Shared Runs

def Tables.listed (t : Tables) : List (MonitorGroup × GroupState) := t.groups.pointers.filterMap t.groups.object?

def isRuntime (object : MonitorGroup × GroupState) : Bool := object.2.owner == .runtime

def Tables.keysWhere (t : Tables) (p : MonitorGroup × GroupState → Bool) : Finset GroupKey :=
  ((t.listed.filter p).map fun object => object.1.key).toFinset

def Tables.runtimeKeys (t : Tables) : Finset GroupKey := t.keysWhere isRuntime

def Tables.expiredKeys (t : Tables) (now : Nat) : Finset GroupKey := t.keysWhere fun object => object.2.expired now

def Tables.without (t : Tables) (doomed : List GroupKey) : Tables := { t with groups := t.groups.remove doomed }

theorem mem_listed {t : Tables} {object : MonitorGroup × GroupState} :
    object ∈ t.listed ↔ t.groups.get? object.1.key = some object := by
  rw [Tables.listed, List.mem_filterMap]
  constructor
  · rintro ⟨pointer, member, there⟩
    obtain ⟨other, same, listed⟩ := Registry.lookup_of_mem_pointers member
    cases there.symm.trans same
    rw [Registry.get?_of_lookup listed, there]
  · intro found
    obtain ⟨pointer, listed, there⟩ := Option.bind_eq_some_iff.mp found
    exact ⟨pointer, List.mem_map.mpr ⟨⟨_, pointer⟩, AList.mem_lookup_iff.mp listed, rfl⟩, there⟩

theorem nodup_listed_keys (t : Tables) : (t.listed.map fun object => object.1.key).Nodup := by
  have keys : ∀ entries : List (Sigma fun _ : GroupKey => Nat), entries ⊆ t.groups.table.entries →
      ((entries.map Sigma.snd).filterMap t.groups.object?).map (fun object => object.1.key) = entries.keys := by
    intro entries part
    induction entries with
    | nil => rfl
    | cons entry rest ih =>
      obtain ⟨listed, later⟩ := List.cons_subset.mp part
      obtain ⟨object, there, keyed⟩ := t.groups.sound entry.1 entry.2 (AList.mem_lookup_iff.mpr listed)
      have shown : t.groups.object? entry.2 = some object := there
      rw [List.map_cons, List.filterMap_cons_some shown, List.map_cons, ih later, keyed, List.keys_cons]
  rw [Tables.listed, Registry.pointers, keys _ (List.Subset.refl _)]
  exact t.groups.table.nodupKeys

theorem get?_key {t : Tables} {key : GroupKey} {object : MonitorGroup × GroupState}
    (found : t.groups.get? key = some object) : object.1.key = key := by
  obtain ⟨pointer, listed, there⟩ := Option.bind_eq_some_iff.mp found
  obtain ⟨other, same, keyed⟩ := t.groups.sound key pointer listed
  cases there.symm.trans same
  exact keyed

theorem mem_keysWhere {t : Tables} {p : MonitorGroup × GroupState → Bool} {key : GroupKey} :
    key ∈ t.keysWhere p ↔ ∃ object, t.groups.get? key = some object ∧ p object = true := by
  rw [Tables.keysWhere, List.mem_toFinset, List.mem_map]
  constructor
  · rintro ⟨object, member, rfl⟩
    obtain ⟨listed, holds⟩ := List.mem_filter.mp member
    exact ⟨object, mem_listed.mp listed, holds⟩
  · rintro ⟨object, found, holds⟩
    obtain rfl := get?_key found
    exact ⟨object, List.mem_filter.mpr ⟨mem_listed.mpr found, holds⟩, rfl⟩

theorem get?_without (t : Tables) (doomed : List GroupKey) (key : GroupKey) :
    (t.without doomed).groups.get? key = if key ∈ doomed.toFinset then none else t.groups.get? key := by
  rw [Tables.without, Registry.get?_remove]
  simp only [List.mem_toFinset]

theorem expiredKeys_subset (t : Tables) (now : Nat) : t.expiredKeys now ⊆ t.runtimeKeys := by
  intro key member
  obtain ⟨object, found, expired⟩ := mem_keysWhere.mp member
  exact mem_keysWhere.mpr ⟨object, found, (Bool.and_eq_true_iff.mp expired).1⟩

theorem not_configured {t : Tables} {key : GroupKey} (runtime : key ∈ t.runtimeKeys) : ¬ Configured t key := by
  rintro ⟨object, found, configured⟩
  obtain ⟨other, again, owned⟩ := mem_keysWhere.mp runtime
  cases found.symm.trans again
  rw [isRuntime, configured] at owned
  cases owned

theorem keysWhere_without (t : Tables) (doomed : List GroupKey) (p : MonitorGroup × GroupState → Bool) :
    (t.without doomed).keysWhere p = t.keysWhere p \ doomed.toFinset := by
  ext key
  rw [Finset.mem_sdiff, mem_keysWhere, mem_keysWhere, get?_without]
  by_cases gone : key ∈ doomed.toFinset
  · simp [gone]
  · simp [gone]

section Excess

variable {rows : List (GroupKey × Nat)}

theorem excessRuntimeGroupsToEvict_eq (rows : List (GroupKey × Nat)) :
    excessRuntimeGroupsToEvict rows =
      ((rows.mergeSort fun a b => decide (a.2 ≤ b.2)).take (rows.length - runtimeGroupMax)).map Prod.fst := by
  rw [excessRuntimeGroupsToEvict]
  split
  · next few => rw [Nat.sub_eq_zero_of_le few, List.take_zero, List.map_nil]
  · rfl

theorem excess_sublist_keys (rows : List (GroupKey × Nat)) :
    ∃ keys, keys.Perm (rows.map Prod.fst) ∧ (excessRuntimeGroupsToEvict rows).Sublist keys := by
  refine ⟨_, (List.mergeSort_perm rows fun a b => decide (a.2 ≤ b.2)).map Prod.fst, ?_⟩
  rw [excessRuntimeGroupsToEvict_eq]
  exact (List.take_sublist _ _).map _

theorem card_excess (distinct : (rows.map Prod.fst).Nodup) :
    (excessRuntimeGroupsToEvict rows).toFinset.card = rows.length - runtimeGroupMax := by
  obtain ⟨keys, same, part⟩ := excess_sublist_keys rows
  rw [List.toFinset_card_of_nodup (part.nodup (same.nodup_iff.mpr distinct)), excessRuntimeGroupsToEvict_eq,
    List.length_map, List.length_take, List.length_mergeSort]
  omega

theorem excess_oldest {out kept : GroupKey × Nat} (distinct : (rows.map Prod.fst).Nodup) (left : out ∈ rows)
    (evicted : out.1 ∈ excessRuntimeGroupsToEvict rows) (right : kept ∈ rows)
    (stays : kept.1 ∉ excessRuntimeGroupsToEvict rows) : out.2 ≤ kept.2 := by
  rw [excessRuntimeGroupsToEvict_eq] at evicted stays
  have sorted : (rows.mergeSort fun a b => decide (a.2 ≤ b.2)).Pairwise fun a b => decide (a.2 ≤ b.2) = true :=
    List.pairwise_mergeSort (by simp only [decide_eq_true_eq]; omega) (by simp; omega) rows
  have members : ∀ row, row ∈ rows.mergeSort (fun a b => decide (a.2 ≤ b.2)) ↔ row ∈ rows := fun _ =>
    List.mem_mergeSort
  generalize (rows.mergeSort fun a b => decide (a.2 ≤ b.2)) = order at *
  rw [← List.take_append_drop (rows.length - runtimeGroupMax) order] at sorted members
  obtain ⟨same, early, keyed⟩ := List.mem_map.mp evicted
  have taken : out = same :=
    List.inj_on_of_nodup_map distinct left ((members same).mp (List.mem_append_left _ early)) keyed.symm
  have late : kept ∈ order.drop (rows.length - runtimeGroupMax) :=
    (List.mem_append.mp ((members kept).mpr right)).resolve_left fun early =>
      stays (List.mem_map_of_mem early)
  exact of_decide_eq_true ((List.pairwise_append.mp sorted).2.2 out (taken ▸ early) kept late)

end Excess

def sweeping (s : Tables × Option Sweep) (input : Input) : Option (Tables × Option Sweep) :=
  s.2.map fun sweep => sweep.step input s.1

theorem leads_sweep {post : Tables × Option Sweep → Prop} {t : Tables} {sweep : Sweep}
    (each : ∀ input, Leads sweeping post (sweep.step input t)) : Leads sweeping post (t, some sweep) := by
  refine .step (fun _ => rfl) fun input next taken => ?_
  cases taken
  exact each input

theorem filterMap_cons_toList {α β : Type} (f : α → Option β) (first : α) (rest : List α) :
    (first :: rest).filterMap f = (f first).toList ++ rest.filterMap f := by
  rw [List.filterMap_cons]
  cases f first with
  | none => rfl
  | some value => rfl

section Scans

variable {post : Tables × Option Sweep → Prop} {t : Tables} {pending : List Nat}

theorem leads_expiring {now : Nat} {doomed : List GroupKey}
    (after : Leads sweeping post (t.without (doomed ++ ((pending.filterMap t.groups.object?).filter
      fun object => object.2.expired now).map fun object => object.1.key), some .excess)) :
    Leads sweeping post (t, some (.expiring now pending doomed)) := by
  induction pending generalizing doomed with
  | nil =>
    rw [List.filterMap_nil, List.filter_nil, List.map_nil, List.append_nil] at after
    exact leads_sweep fun _ => after
  | cons group rest ih =>
    rw [filterMap_cons_toList, List.filter_append, List.map_append, ← List.append_assoc] at after
    exact leads_sweep fun _ => ih after

def activity (object : MonitorGroup × GroupState) : GroupKey × Nat := (object.1.key, object.2.lastActivityMs)

theorem leads_counting {rows : List (GroupKey × Nat)}
    (after : Leads sweeping post (t.without (excessRuntimeGroupsToEvict
      (rows ++ ((pending.filterMap t.groups.object?).filter isRuntime).map activity)), none)) :
    Leads sweeping post (t, some (.counting pending rows)) := by
  induction pending generalizing rows with
  | nil =>
    rw [List.filterMap_nil, List.filter_nil, List.map_nil, List.append_nil] at after
    exact leads_sweep fun _ => after
  | cons group rest ih =>
    rw [filterMap_cons_toList, List.filter_append, List.map_append, ← List.append_assoc] at after
    exact leads_sweep fun _ => ih after

end Scans

def Tables.activities (t : Tables) : List (GroupKey × Nat) := (t.listed.filter isRuntime).map activity

theorem map_fst_activities (t : Tables) :
    t.activities.map Prod.fst = (t.listed.filter isRuntime).map fun object => object.1.key := List.map_map

theorem nodup_activities (t : Tables) : (t.activities.map Prod.fst).Nodup := by
  rw [map_fst_activities]
  exact (nodup_listed_keys t).sublist (List.filter_sublist.map _)

theorem length_activities (t : Tables) : t.activities.length = t.runtimeKeys.card := by
  have distinct := nodup_activities t
  rw [map_fst_activities] at distinct
  rw [Tables.runtimeKeys, Tables.keysWhere, List.toFinset_card_of_nodup distinct, List.length_map, Tables.activities,
    List.length_map]

theorem excess_subset (t : Tables) : (excessRuntimeGroupsToEvict t.activities).toFinset ⊆ t.runtimeKeys := by
  intro key member
  obtain ⟨keys, same, part⟩ := excess_sublist_keys t.activities
  rw [map_fst_activities] at same
  exact List.mem_toFinset.mpr (same.subset (part.subset (List.mem_toFinset.mp member)))

def Tables.lastActive (t : Tables) (key : GroupKey) : Nat :=
  ((t.groups.get? key).map fun object => object.2.lastActivityMs).getD 0

theorem mem_activities {t : Tables} {key : GroupKey} (runtime : key ∈ t.runtimeKeys) :
    (key, t.lastActive key) ∈ t.activities := by
  obtain ⟨object, found, holds⟩ := mem_keysWhere.mp runtime
  obtain rfl := get?_key found
  refine List.mem_map.mpr ⟨object, List.mem_filter.mpr ⟨mem_listed.mpr found, holds⟩, ?_⟩
  rw [activity, Tables.lastActive, found]
  rfl

/-- What a round leaves of the table when the `excess` keys are evicted over the cap. -/
structure Capped (now : Nat) (t last : Tables) (excess : Finset GroupKey) : Prop where
  left : ∀ key, last.groups.get? key = if key ∈ t.expiredKeys now ∪ excess then none else t.groups.get? key
  configured : ∀ key, Configured t key → last.groups.get? key = t.groups.get? key
  capped : last.runtimeKeys.card ≤ runtimeGroupMax
  runtime : excess ⊆ t.runtimeKeys \ t.expiredKeys now
  count : excess.card = (t.runtimeKeys \ t.expiredKeys now).card - runtimeGroupMax
  oldest : ∀ out ∈ excess, ∀ kept ∈ last.runtimeKeys, t.lastActive out ≤ t.lastActive kept

/-- The excess is computed on the table without the expired groups, where the groups that are left are as before. -/
theorem capped_without (t : Tables) (now : Nat) {doomed excess : List GroupKey}
    (expired : doomed.toFinset = t.expiredKeys now)
    (beyond : excess = excessRuntimeGroupsToEvict (t.without doomed).activities) :
    Capped now t ((t.without doomed).without excess) excess.toFinset := by
  have live : (t.without doomed).runtimeKeys = t.runtimeKeys \ t.expiredKeys now := by
    rw [Tables.runtimeKeys, keysWhere_without, expired, Tables.runtimeKeys]
  have rest : ((t.without doomed).without excess).runtimeKeys = (t.without doomed).runtimeKeys \ excess.toFinset :=
    keysWhere_without _ _ _
  have subset : excess.toFinset ⊆ (t.without doomed).runtimeKeys := beyond ▸ excess_subset (t.without doomed)
  have count : excess.toFinset.card = (t.without doomed).runtimeKeys.card - runtimeGroupMax := by
    rw [beyond, card_excess (nodup_activities _), length_activities]
  have left : ∀ key, ((t.without doomed).without excess).groups.get? key =
      if key ∈ t.expiredKeys now ∪ excess.toFinset then none else t.groups.get? key := by
    intro key
    rw [get?_without, get?_without, expired]
    by_cases gone : key ∈ t.expiredKeys now <;> simp [gone]
  have same : ∀ key ∈ (t.without doomed).runtimeKeys, (t.without doomed).lastActive key = t.lastActive key := by
    intro key member
    rw [live, ← expired] at member
    rw [Tables.lastActive, get?_without, if_neg (Finset.mem_sdiff.mp member).2, Tables.lastActive]
  refine ⟨left, fun key configured => ?_, ?_, live ▸ subset, live ▸ count, fun out evicted kept stays => ?_⟩
  · rw [left, if_neg]
    intro gone
    have runtime : key ∈ t.runtimeKeys := by
      rcases Finset.mem_union.mp gone with old | excessive
      · exact expiredKeys_subset t now old
      · exact (Finset.mem_sdiff.mp (live ▸ subset excessive)).1
    exact not_configured runtime configured
  · rw [rest, Finset.card_sdiff_of_subset subset, count]
    omega
  · rw [rest, Finset.mem_sdiff, List.mem_toFinset, beyond] at stays
    have older := excess_oldest (nodup_activities _) (mem_activities (subset evicted))
      (beyond ▸ List.mem_toFinset.mp evicted) (mem_activities stays.1) stays.2
    rwa [same out (subset evicted), same kept stays.1] at older

/-- A round of evictions comes to its end, whatever the clock reads after its first step. -/
theorem runtime_groups_capped (t : Tables) (input : Input) :
    Leads sweeping (fun last => last.2 = none ∧ ∃ excess, Capped input.now t last.1 excess)
      (Sweep.expire.step input t) := by
  refine leads_expiring (leads_sweep fun _ => leads_counting (.here ⟨rfl, ?_⟩))
  rw [List.nil_append, List.nil_append]
  exact ⟨_, capped_without t input.now rfl rfl⟩

end TlsProxy.Forward
