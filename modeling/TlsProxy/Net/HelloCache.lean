import Mathlib.Data.List.AList
import Mathlib.Data.List.Induction
import Mathlib.Data.List.Perm.Subperm

/-! `hello_cache.rs`: identifiers that were sent upstream are remembered for a
constant time. A map answers the queries; a queue in the order of insertion lets
an insert evict what has expired. -/
namespace TlsProxy.HelloCache

variable {κ : Type} [DecidableEq κ]

/-- Expiry times by key, and the keys with their expiry times in the order of insertion. -/
structure Cache (κ : Type) where
  byKey : AList fun _ : κ => Nat
  byInsertion : List (κ × Nat)

namespace Cache

def new : Cache κ where
  byKey := ∅
  byInsertion := []

def evict (now : Nat) (byKey : AList fun _ : κ => Nat) : List (κ × Nat) → Cache κ
  | [] => { byKey, byInsertion := [] }
  | (key, expiresAt) :: rest =>
    if now < expiresAt then { byKey, byInsertion := (key, expiresAt) :: rest }
    -- The map entry goes only if it still belongs to this node.
    else evict now (if byKey.lookup key = some expiresAt then byKey.erase key else byKey) rest

def evictExpired (cache : Cache κ) (now : Nat) : Cache κ := evict now cache.byKey cache.byInsertion

def insert (cache : Cache κ) (key : κ) (ttl now : Nat) : Cache κ :=
  let cache := cache.evictExpired now
  let expiresAt := now + ttl
  { byKey := cache.byKey.insert key expiresAt, byInsertion := cache.byInsertion ++ [(key, expiresAt)] }

def isLooped (cache : Cache κ) (key : κ) (now : Nat) : Bool × Cache κ :=
  ((cache.byKey.lookup key).any fun expiresAt => now < expiresAt, { cache with byKey := cache.byKey.erase key })

end Cache

inductive Op (κ : Type)
  | insert (key : κ) (now : Nat)
  | query (key : κ) (now : Nat)
deriving DecidableEq

namespace Op

def key : Op κ → κ
  | insert key _ | query key _ => key

def time : Op κ → Nat
  | insert _ now | query _ now => now

end Op

def perform (ttl : Nat) (cache : Cache κ) : Op κ → Cache κ
  | .insert key now => cache.insert key ttl now
  | .query key now => (cache.isLooped key now).2

def run (ttl : Nat) (ops : List (Op κ)) : Cache κ := ops.foldl (perform ttl) .new

theorem run_append (ttl : Nat) (ops : List (Op κ)) (op : Op κ) :
    run ttl (ops ++ [op]) = perform ttl (run ttl ops) op := by
  rw [run, List.foldl_append]
  rfl

def lastOn (key : κ) (ops : List (Op κ)) : Option (Op κ) := (ops.filter fun op => op.key = key).getLast?

theorem lastOn_append_self (ops : List (Op κ)) (op : Op κ) : lastOn op.key (ops ++ [op]) = some op := by
  simp [lastOn, List.filter_append]

theorem lastOn_append_of_ne {key : κ} (ops : List (Op κ)) {op : Op κ} (other : op.key ≠ key) :
    lastOn key (ops ++ [op]) = lastOn key ops := by
  simp [lastOn, List.filter_append, other]

theorem mem_of_lastOn {key : κ} {ops : List (Op κ)} {op : Op κ} (last : lastOn key ops = some op) : op ∈ ops :=
  (List.mem_filter.mp (List.mem_of_getLast? last)).1

section Inserts

omit [DecidableEq κ]

def Op.inserted : Op κ → Option (κ × Nat)
  | .insert key now => some (key, now)
  | .query .. => none

def inserts (ops : List (Op κ)) : List (κ × Nat) := ops.filterMap Op.inserted

theorem mem_inserts {ops : List (Op κ)} {key : κ} {now : Nat} : (key, now) ∈ inserts ops ↔ .insert key now ∈ ops := by
  rw [inserts, List.mem_filterMap]
  constructor
  · rintro ⟨op, member, same⟩
    cases op with
    | insert => cases same; exact member
    | query => cases same
  · intro member
    exact ⟨_, member, rfl⟩

/-- The latest insert and those less than the time to live before it. -/
def recent (ttl : Nat) (inserted : List (κ × Nat)) : List (κ × Nat) :=
  match inserted.getLast? with
  | none => []
  | some (key, latest) => (inserted.dropLast.filter fun i => latest - i.2 < ttl) ++ [(key, latest)]

theorem recent_append (ttl : Nat) (earlier : List (κ × Nat)) (key : κ) (latest : Nat) :
    recent ttl (earlier ++ [(key, latest)]) = (earlier.filter fun i => latest - i.2 < ttl) ++ [(key, latest)] := by
  simp [recent]

theorem recent_sublist (ttl : Nat) (inserted : List (κ × Nat)) : (recent ttl inserted).Sublist inserted := by
  rcases List.eq_nil_or_concat' inserted with rfl | ⟨earlier, ⟨key, latest⟩, rfl⟩
  · exact List.Sublist.refl _
  · simp [recent_append]

theorem filter_recent (ttl : Nat) {inserted : List (κ × Nat)} {now : Nat} (later : ∀ i ∈ inserted, i.2 ≤ now) :
    ((recent ttl inserted).filter fun i => now < i.2 + ttl) = inserted.filter fun i => now - i.2 < ttl := by
  rcases List.eq_nil_or_concat' inserted with rfl | ⟨earlier, ⟨key, latest⟩, rfl⟩
  · rfl
  · have last : latest ≤ now := later (key, latest) (by simp)
    rw [recent_append, List.filter_append, List.filter_append, List.filter_filter]
    congr 1
    · grind
    · grind

end Inserts

section Eviction

variable {now : Nat} {queue : List (κ × Nat)} {byKey : AList fun _ : κ => Nat}

def Ordered (queue : List (κ × Nat)) : Prop := queue.Pairwise fun a b => a.2 ≤ b.2

def Matched (byKey : AList fun _ : κ => Nat) (queue : List (κ × Nat)) : Prop :=
  ∀ key expiresAt, byKey.lookup key = some expiresAt → (key, expiresAt) ∈ queue

theorem evict_byInsertion (ordered : Ordered queue) :
    (Cache.evict now byKey queue).byInsertion = queue.filter fun node => now < node.2 := by
  induction queue generalizing byKey with
  | nil => rfl
  | cons node rest ih =>
    obtain ⟨front, behind⟩ := List.pairwise_cons.mp ordered
    rw [Cache.evict]
    split
    · rename_i young
      refine (List.filter_eq_self.mpr fun other member => ?_).symm
      grind
    · rename_i old
      rw [ih behind, List.filter_cons_of_neg (by simpa using old)]

theorem Matched.tail {key : κ} {expiresAt : Nat} (matched : Matched byKey ((key, expiresAt) :: queue)) :
    Matched (if byKey.lookup key = some expiresAt then byKey.erase key else byKey) queue := by
  intro other stored found
  split at found
  · by_cases same : other = key
    · grind [AList.lookup_erase]
    · rw [AList.lookup_erase_ne same] at found
      refine (List.mem_cons.mp (matched other stored found)).resolve_left fun equal => ?_
      exact same (Prod.mk.inj equal).1
  · rename_i stale
    refine (List.mem_cons.mp (matched other stored found)).resolve_left fun equal => ?_
    grind

theorem evict_lookup (ordered : Ordered queue) (matched : Matched byKey queue) (key : κ) :
    (Cache.evict now byKey queue).byKey.lookup key = (byKey.lookup key).filter fun expiresAt => now < expiresAt := by
  induction queue generalizing byKey with
  | nil =>
    cases found : byKey.lookup key with
    | none => exact found
    | some expiresAt => exact absurd (matched key expiresAt found) List.not_mem_nil
  | cons node rest ih =>
    obtain ⟨front, behind⟩ := List.pairwise_cons.mp ordered
    rw [Cache.evict]
    split
    · rename_i young
      change byKey.lookup key = _
      cases found : byKey.lookup key with
      | none => rfl
      | some expiresAt =>
        have later : now < expiresAt := by
          rcases List.mem_cons.mp (matched key expiresAt found) with same | member
          · grind
          · grind
        grind
    · rename_i old
      rw [ih behind matched.tail]
      split
      · rename_i current
        by_cases same : key = node.1
        · grind [AList.lookup_erase]
        · rw [AList.lookup_erase_ne same]
      · rfl

end Eviction

def Timely (ops : List (Op κ)) : Prop := ops.Pairwise fun a b => a.time ≤ b.time

structure Inv (ttl : Nat) (ops : List (Op κ)) (cache : Cache κ) : Prop where
  queue : cache.byInsertion = (recent ttl (inserts ops)).map fun i => (i.1, i.2 + ttl)
  matched : Matched cache.byKey cache.byInsertion
  held : ∀ key expiresAt, cache.byKey.lookup key = some expiresAt →
    ∃ since, lastOn key ops = some (.insert key since) ∧ expiresAt = since + ttl
  /-- An insert that the map has forgotten had expired. -/
  lost : ∀ key since, lastOn key ops = some (.insert key since) →
    cache.byKey.lookup key = some (since + ttl) ∨ ∃ op ∈ ops, since + ttl ≤ op.time

theorem Inv.ordered {ttl : Nat} {ops : List (Op κ)} {cache : Cache κ} (inv : Inv ttl ops cache)
    (timely : Timely ops) : Ordered cache.byInsertion := by
  have times : (inserts ops).Pairwise fun a b => a.2 ≤ b.2 := by
    refine List.Pairwise.filterMap _ ?_ timely
    rintro (_ | _) (_ | _) before i first j second <;> cases first <;> cases second
    exact before
  rw [Ordered, inv.queue, List.pairwise_map]
  grind [recent_sublist]

theorem Inv.new (ttl : Nat) : Inv ttl [] (Cache.new : Cache κ) where
  queue := rfl
  matched := fun _ _ found => by cases found
  held := fun _ _ found => by cases found
  lost := fun _ _ last => by cases last

section Steps

variable {ttl : Nat} {ops : List (Op κ)} {cache : Cache κ} {key : κ} {now : Nat}

theorem Inv.found_insert (inv : Inv ttl ops cache) (timely : Timely ops) {other : κ} {expiresAt : Nat}
    (found : (cache.insert key ttl now).byKey.lookup other = some expiresAt) :
    other = key ∧ expiresAt = now + ttl ∨
      other ≠ key ∧ cache.byKey.lookup other = some expiresAt ∧ now < expiresAt := by
  change ((cache.evictExpired now).byKey.insert key (now + ttl)).lookup other = _ at found
  by_cases same : other = key
  · grind [AList.lookup_insert]
  · rw [AList.lookup_insert_ne same, Cache.evictExpired, evict_lookup (inv.ordered timely) inv.matched,
      Option.filter_eq_some_iff] at found
    grind

theorem Inv.insert (inv : Inv ttl ops cache) (timely : Timely ops) (later : ∀ op ∈ ops, op.time ≤ now) :
    Inv ttl (ops ++ [.insert key now]) (cache.insert key ttl now) := by
  have ordered := inv.ordered timely
  have lookup : ∀ other, (cache.evictExpired now).byKey.lookup other =
      (cache.byKey.lookup other).filter fun expiresAt => now < expiresAt :=
    evict_lookup ordered inv.matched
  have queue : (cache.evictExpired now).byInsertion = cache.byInsertion.filter fun node => now < node.2 :=
    evict_byInsertion ordered
  refine ⟨?_, ?_, ?_, ?_⟩
  · have all : inserts (ops ++ [.insert key now]) = inserts ops ++ [(key, now)] := by
      simp [inserts, Op.inserted]
    have before : ∀ i ∈ inserts ops, i.2 ≤ now := fun i member => later _ (mem_inserts.mp member)
    change (cache.evictExpired now).byInsertion ++ _ = _
    rw [queue, inv.queue, all, recent_append, List.map_append, ← filter_recent ttl before, List.filter_map]
    rfl
  · intro other expiresAt found
    change _ ∈ (cache.evictExpired now).byInsertion ++ _
    rcases inv.found_insert timely found with ⟨rfl, rfl⟩ | ⟨-, before, young⟩
    · simp
    · rw [queue]
      exact List.mem_append_left _ (List.mem_filter.mpr ⟨inv.matched _ _ before, decide_eq_true young⟩)
  · intro other expiresAt found
    rcases inv.found_insert timely found with ⟨rfl, rfl⟩ | ⟨different, before, -⟩
    · exact ⟨now, lastOn_append_self ops (.insert other now), rfl⟩
    · rw [lastOn_append_of_ne ops (Ne.symm different)]
      exact inv.held _ _ before
  · intro other since last
    change ((cache.evictExpired now).byKey.insert key (now + ttl)).lookup other = _ ∨ _
    by_cases same : other = key
    · subst same
      have known := (lastOn_append_self ops (.insert other now)).symm.trans last
      cases known
      exact .inl (AList.lookup_insert _)
    · rw [lastOn_append_of_ne ops (Ne.symm same)] at last
      rw [AList.lookup_insert_ne same, lookup]
      rcases inv.lost other since last with found | ⟨op, member, expired⟩
      · by_cases young : now < since + ttl
        · grind
        · exact .inr ⟨_, List.mem_append_right _ (List.mem_singleton_self _), Nat.le_of_not_lt young⟩
      · grind

theorem Inv.query (inv : Inv ttl ops cache) : Inv ttl (ops ++ [.query key now]) (cache.isLooped key now).2 := by
  have found_of {other : κ} {expiresAt : Nat} (found : (cache.byKey.erase key).lookup other = some expiresAt) :
      other ≠ key ∧ cache.byKey.lookup other = some expiresAt := by grind [AList.lookup_erase, AList.lookup_erase_ne]
  refine ⟨?_, ?_, ?_, ?_⟩
  · have all : inserts (ops ++ [.query key now]) = inserts ops := by
      simp [inserts, Op.inserted]
    rw [all]
    exact inv.queue
  · intro other expiresAt found
    exact inv.matched _ _ (found_of found).2
  · intro other expiresAt found
    obtain ⟨different, before⟩ := found_of found
    rw [lastOn_append_of_ne ops (Ne.symm different)]
    exact inv.held _ _ before
  · intro other since last
    change (cache.byKey.erase key).lookup other = _ ∨ _
    by_cases same : other = key
    · subst same
      cases (lastOn_append_self ops (.query other now)).symm.trans last
    · rw [lastOn_append_of_ne ops (Ne.symm same)] at last
      grind [AList.lookup_erase_ne, Inv.lost]

end Steps

theorem inv_run (ttl : Nat) {ops : List (Op κ)} (timely : Timely ops) : Inv ttl ops (run ttl ops) := by
  induction ops using List.reverseRecOn with
  | nil => exact Inv.new ttl
  | append_singleton ops op ih =>
    obtain ⟨before, -, crossed⟩ := List.pairwise_append.mp timely
    have later : ∀ earlier ∈ ops, earlier.time ≤ op.time := fun earlier member =>
      crossed earlier member op (List.mem_singleton_self _)
    rw [run_append]
    cases op with
    | insert key now => exact (ih before).insert before later
    | query key now => exact (ih before).query

section Results

variable {ttl : Nat} {ops : List (Op κ)} {cache : Cache κ}

theorem Inv.isLooped_iff (inv : Inv ttl ops cache) (key : κ) {now : Nat} (later : ∀ op ∈ ops, op.time ≤ now) :
    (cache.isLooped key now).1 = true ↔ ∃ since, lastOn key ops = some (.insert key since) ∧ now - since < ttl := by
  have looped : (cache.isLooped key now).1 = true ↔
      ∃ expiresAt, cache.byKey.lookup key = some expiresAt ∧ now < expiresAt := by
    simp [Cache.isLooped, Option.any_eq_true]
  rw [looped]
  constructor
  · rintro ⟨expiresAt, found, young⟩
    obtain ⟨since, last, rfl⟩ := inv.held key expiresAt found
    have before : since ≤ now := later _ (mem_of_lastOn last)
    exact ⟨since, last, by omega⟩
  · rintro ⟨since, last, young⟩
    rcases inv.lost key since last with found | ⟨op, member, expired⟩
    · exact ⟨_, found, by omega⟩
    · grind

theorem Inv.fresh (inv : Inv ttl ops cache) {key : κ} {now : Nat} (last : ops.getLast? = some (.insert key now))
    {node : κ × Nat} (member : node ∈ cache.byInsertion) :
    node = (key, now + ttl) ∨ ∃ since, .insert node.1 since ∈ ops ∧ node.2 = since + ttl ∧ now - since < ttl := by
  obtain ⟨earlier, rfl⟩ := List.getLast?_eq_some_iff.mp last
  have all : inserts (earlier ++ [.insert key now]) = inserts earlier ++ [(key, now)] := by
    simp [inserts, Op.inserted]
  rw [inv.queue, all, recent_append] at member
  obtain ⟨i, recently, rfl⟩ := List.mem_map.mp member
  rcases List.mem_append.mp recently with old | new
  · obtain ⟨inserted, young⟩ := List.mem_filter.mp old
    exact .inr ⟨i.2, List.mem_append_left _ (mem_inserts.mp inserted), rfl, of_decide_eq_true young⟩
  · grind

theorem Inv.length_byKey_le (inv : Inv ttl ops cache) : cache.byKey.entries.length ≤ cache.byInsertion.length := by
  have inside : cache.byKey.keys ⊆ cache.byInsertion.map Prod.fst := by
    intro key member
    obtain ⟨expiresAt, found⟩ := Option.isSome_iff_exists.mp (AList.lookup_isSome.mpr (AList.mem_keys.mpr member))
    exact List.mem_map.mpr ⟨_, inv.matched key expiresAt found, rfl⟩
  have shorter := (List.subperm_of_subset cache.byKey.keys_nodup inside).length_le
  simpa [AList.keys, List.keys] using shorter

/-- A query hits exactly if the latest operation on its key is an insert less than the time to live ago; right after
an insert only such inserts are left, besides the new one; and every entry of the map has its node in the queue. -/
theorem cache_correct (ttl : Nat) (timely : Timely ops) :
    (∀ key now, (∀ op ∈ ops, op.time ≤ now) → (((run ttl ops).isLooped key now).1 = true ↔
      ∃ since, lastOn key ops = some (.insert key since) ∧ now - since < ttl)) ∧
    (∀ key now, ops.getLast? = some (.insert key now) → ∀ entry : κ × Nat,
      (run ttl ops).byKey.lookup entry.1 = some entry.2 ∨ entry ∈ (run ttl ops).byInsertion →
      entry = (key, now + ttl) ∨ ∃ since, .insert entry.1 since ∈ ops ∧ entry.2 = since + ttl ∧ now - since < ttl) ∧
    (∀ key expiresAt, (run ttl ops).byKey.lookup key = some expiresAt →
      (key, expiresAt) ∈ (run ttl ops).byInsertion) ∧
    (run ttl ops).byKey.entries.length ≤ (run ttl ops).byInsertion.length ∧
    (run ttl ops).byInsertion.length = (recent ttl (inserts ops)).length := by
  have inv := inv_run ttl timely
  refine ⟨fun key now later => inv.isLooped_iff key later, ?_, inv.matched, inv.length_byKey_le, ?_⟩
  · intro key now last entry held
    have queued : entry ∈ (run ttl ops).byInsertion := held.elim (inv.matched _ _) id
    exact inv.fresh last queued
  · rw [inv.queue, List.length_map]

end Results

section Example

def reinserted : List (Op Nat) := [.insert 6 0, .query 6 1, .insert 6 2, .insert 7 9]

theorem cache_correct_reinserted :
    Timely reinserted ∧ ((run 8 reinserted).isLooped 6 9).1 = true ∧ (run 8 reinserted).byInsertion.length = 2 := by
  have timely : Timely reinserted := by
    unfold Timely
    decide
  obtain ⟨hits, -, -, -, size⟩ := cache_correct 8 timely
  refine ⟨timely, (hits 6 9 ?_).mpr ⟨2, ?_, ?_⟩, size.trans ?_⟩
  all_goals decide

/-- With no time to live the entry just inserted has expired already. -/
theorem expired_on_insert :
    (run 0 [.insert () 5]).byKey.lookup () = some (5 + 0) ∧ ((), 5 + 0) ∈ (run 0 [.insert () 5]).byInsertion ∧
      ¬ 5 - 5 < 0 := by
  decide

end Example

end TlsProxy.HelloCache
