import TlsProxy.Acme.Alone

/-! `save_provider`, `delete_provider` and `ensure_builtin_providers` of
`store/acme.rs`. -/
namespace TlsProxy.Acme

open Config Checks Certificates Programs Families

def letsencryptProduction : Text := "letsencrypt-production".toList

def letsencryptStaging : Text := "letsencrypt-staging".toList

def isBuiltin (id : Text) : Bool := id == letsencryptProduction || id == letsencryptStaging

def checkProvider (provider : AcmeProvider) : Except Text Unit := do
  require (Text.trim provider.id ≠ []) "ACME provider ID is required".toList
  require (Text.trim provider.directoryUrl ≠ []) "ACME provider directory URL is required".toList
  require ("https://".toList.isPrefixOf provider.directoryUrl = true)
    "ACME provider directory URL must use HTTPS".toList
  require (provider.eabKeyId.isSome = provider.eabHmacKey.isSome)
    "ACME external account binding requires both key ID and HMAC key".toList

def demotions (provider : AcmeProvider) (all : List AcmeProvider) : List Certificates.Write :=
  (all.filter fun current => current.id != provider.id && current.isDefault).map fun current =>
    .put .providers current.id (.ok { current with isDefault := false })

def restoreDefault : Task Unit := do
  let all ← query Certificates.providers
  if all.any AcmeProvider.isDefault then return
  match ← query (provider · letsencryptProduction) with
  | none => return
  | some production => commit [.put .providers production.id (.ok { production with isDefault := true })]

def saveProvider (provider : AcmeProvider) : Task Unit := do
  ofExcept (checkProvider provider)
  let demoted ←
    if provider.isDefault then do
      let all ← query Certificates.providers
      pure (demotions provider all)
    else pure []
  commit (demoted ++ [.put .providers provider.id (.ok provider)])
  restoreDefault

def deleteProvider (providerId : Text) : Task Unit := do
  ofExcept (require (isBuiltin providerId = false) "built-in Let's Encrypt providers cannot be deleted".toList)
  let found ← query (provider · providerId)
  ofExcept (require (found.any AcmeProvider.isDefault = false)
    "the default ACME provider cannot be deleted; set another provider as default first".toList)
  commit [.delete .providers providerId]

def productionProvider (isDefault : Bool) : AcmeProvider where
  id := letsencryptProduction
  name := "Let's Encrypt Production".toList
  directoryUrl := "https://acme-v02.api.letsencrypt.org/directory".toList
  isDefault

def stagingProvider : AcmeProvider where
  id := letsencryptStaging
  name := "Let's Encrypt Staging".toList
  directoryUrl := "https://acme-staging-v02.api.letsencrypt.org/directory".toList
  staging := true

def builtinProviders (hasDefault : Bool) : List AcmeProvider := [productionProvider !hasDefault, stagingProvider]

def ensureProvider (builtin : AcmeProvider) : Task Unit := do
  match ← query (provider · builtin.id) with
  | some _ => return
  | none => saveProvider builtin

def ensureBuiltinProviders : Task Unit := do
  let all ← query Certificates.providers
  let hasDefault := all.any AcmeProvider.isDefault
  (builtinProviders hasDefault).forM ensureProvider
  if hasDefault then return
  match ← query (provider · letsencryptProduction) with
  | none => throw "built-in Let's Encrypt production provider is missing".toList
  | some production =>
    if production.isDefault then return
    saveProvider { production with isDefault := true }

def Keyed (store : Certificates.Store) : Prop :=
  ∀ (id : Text) (row : Json AcmeProvider), (store .providers)[id]? = some row →
    ∃ provider, row = .ok provider ∧ provider.id = id

def IsDefault (store : Certificates.Store) (id : Text) : Prop :=
  ∃ provider : AcmeProvider, (store .providers)[id]? = some (.ok provider) ∧ provider.isDefault = true

/-- There is exactly one default provider, and the built-in ones are there. -/
structure Settled (store : Certificates.Store) : Prop where
  keyed : Keyed store
  default : ∃! id, IsDefault store id
  production : (store .providers)[letsencryptProduction]? ≠ none
  staging : (store .providers)[letsencryptStaging]? ≠ none

section Reads

variable {store : Certificates.Store}

theorem Keyed.providers (keyed : Keyed store) :
    ∃ all, Certificates.providers store = .ok all ∧
      ∀ current : AcmeProvider, current ∈ all ↔ (store .providers)[current.id]? = some (.ok current) := by
  have read : ∃ all, Certificates.providers store = .ok all := by
    apply mapM_isOk_iff.mpr
    rintro ⟨id, row⟩ member
    obtain ⟨current, same, -⟩ := keyed id row (Std.ExtTreeMap.mem_toList_iff_getElem?_eq_some.mp member)
    exact ⟨current, same⟩
  obtain ⟨all, read⟩ := read
  refine ⟨all, read, fun current => ⟨fun member => ?_, fun found => ?_⟩⟩
  · obtain ⟨⟨id, row⟩, listed, rfl⟩ := exists_of_mem_mapM read member
    have found := Std.ExtTreeMap.mem_toList_iff_getElem?_eq_some.mp listed
    obtain ⟨_, same, rfl⟩ := keyed id _ found
    cases same
    exact found
  · exact mem_of_mapM read (Std.ExtTreeMap.mem_toList_iff_getElem?_eq_some.mpr found) rfl

theorem Keyed.provider (keyed : Keyed store) (id : Text) :
    ∃ found, provider store id = .ok found ∧
      ∀ current : AcmeProvider, found = some current ↔ (store .providers)[id]? = some (.ok current) := by
  have read : ∃ found, Certificates.provider store id = .ok found := by
    unfold Certificates.provider
    cases stored : (store .providers)[id]? with
    | none => exact ⟨none, rfl⟩
    | some row =>
      obtain ⟨current, rfl, -⟩ := keyed id row stored
      exact ⟨some current, rfl⟩
  obtain ⟨found, read⟩ := read
  exact ⟨found, read, decoded_eq_ok read⟩

theorem provider_of_stored {id : Text} {current : AcmeProvider} (stored : (store .providers)[id]? = some (.ok current)) :
    provider store id = .ok (some current) := by
  rw [Certificates.provider, stored]
  rfl

theorem Keyed.any_isDefault {all : List AcmeProvider} (keyed : Keyed store)
    (listed : ∀ current : AcmeProvider, current ∈ all ↔ (store .providers)[current.id]? = some (.ok current)) :
    all.any AcmeProvider.isDefault = true ↔ ∃ id, IsDefault store id := by
  rw [List.any_eq_true]
  constructor
  · rintro ⟨current, member, default⟩
    exact ⟨current.id, current, (listed current).mp member, default⟩
  · rintro ⟨id, current, found, default⟩
    obtain ⟨_, same, rfl⟩ := keyed id _ found
    cases same
    exact ⟨current, (listed current).mpr found, default⟩

end Reads

section Saves

variable {store : Certificates.Store} {saved : AcmeProvider}

def besides (saved current : AcmeProvider) : AcmeProvider :=
  if saved.isDefault then { current with isDefault := false } else current

theorem besides_of_not_default {current : AcmeProvider} (plain : current.isDefault = false) :
    besides saved current = current := by
  unfold besides
  split
  · rw [← plain]
  · rfl

theorem getElem?_write_demotions (keyed : Keyed store) {all : List AcmeProvider}
    (listed : ∀ current : AcmeProvider, current ∈ all ↔ (store .providers)[current.id]? = some (.ok current))
    (id : Text) :
    (write store ((if saved.isDefault then demotions saved all else []) ++ [.put .providers saved.id (.ok saved)])
        .providers)[id]? =
      if saved.id = id then some (.ok saved)
      else (store .providers)[id]?.map fun row => row.map (besides saved) := by
  rw [write_append]
  change ((write store _ .providers).insert saved.id _)[id]? = _
  rw [getElem?_insert]
  by_cases own : saved.id = id
  · rw [if_pos own, if_pos own]
  rw [if_neg own, if_neg own]
  have kept : ∀ batch : List Certificates.Write, (∀ row, .put .providers id row ∉ batch) → .delete .providers id ∉ batch →
      (∀ current, (store .providers)[id]? = some (.ok current) → besides saved current = current) →
      (write store batch .providers)[id]? = (store .providers)[id]?.map fun row => row.map (besides saved) := by
    intro batch noPut noDelete same
    rcases getElem?_write_cases store batch .providers id with ⟨row, put, -⟩ | ⟨deleted, -⟩ | ⟨-, -, found⟩
    · exact absurd put (noPut row)
    · exact absurd deleted noDelete
    · rw [found]
      cases stored : (store .providers)[id]? with
      | none => rfl
      | some row =>
        obtain ⟨current, rfl, -⟩ := keyed id row stored
        change _ = some (Except.ok (besides saved current))
        rw [same current stored]
  cases default : saved.isDefault with
  | false => exact kept [] (by simp) (by simp) fun current _ => by simp [besides, default]
  | true =>
    rcases getElem?_write_cases store (demotions saved all) .providers id with ⟨row, put, found⟩ | ⟨deleted, -⟩ |
      ⟨noPut, noDelete, -⟩
    · obtain ⟨current, member, same⟩ := List.mem_map.mp put
      cases same
      rw [if_pos rfl, found, (listed current).mp (List.mem_filter.mp member).1]
      simp [besides, default, Except.map]
    · obtain ⟨_, _, same⟩ := List.mem_map.mp deleted
      cases same
    · refine kept _ noPut noDelete fun current stored => besides_of_not_default ?_
      obtain ⟨_, same, rfl⟩ := keyed id _ stored
      cases same
      by_contra other
      refine noPut _ (List.mem_map.mpr ⟨current, List.mem_filter.mpr ⟨(listed current).mpr stored, ?_⟩, rfl⟩)
      simpa [Ne.symm own] using other

structure Restored (store after : Certificates.Store) : Prop where
  keyed : Keyed after
  there : ∀ id : Text, (after .providers)[id]? ≠ none ↔ (store .providers)[id]? ≠ none
  default : ∀ id, IsDefault after id ↔ IsDefault store id ∨
    (∀ other, ¬ IsDefault store other) ∧ id = letsencryptProduction ∧ (store .providers)[id]? ≠ none

theorem restored_put {production : AcmeProvider} (keyed : Keyed store) (none : ∀ id, ¬ IsDefault store id)
    (found : (store .providers)[letsencryptProduction]? = some (.ok production)) :
    Restored store (write store [.put .providers production.id (.ok { production with isDefault := true })]) := by
  obtain ⟨_, same, named⟩ := keyed _ _ found
  cases same
  have row : ∀ id : Text, (write store [.put .providers production.id (.ok { production with isDefault := true })]
      .providers)[id]? = if production.id = id then some (.ok { production with isDefault := true })
        else (store .providers)[id]? := fun id => getElem?_insert (store .providers) production.id id _
  refine ⟨?_, ?_, ?_⟩
  · intro id stored there
    rw [row] at there
    split at there
    · grind
    · exact keyed id stored there
  · intro id
    rw [row]
    grind
  · intro id
    unfold IsDefault
    rw [row]
    constructor
    · rintro ⟨current, there, default⟩
      split at there
      · rename_i own
        refine .inr ⟨none, own.symm.trans named, ?_⟩
        grind
      · exact .inl ⟨current, there, default⟩
    · grind

theorem restoreDefault_leaves {w : World} (keyed : Keyed w.store) :
    Leaves (fun after _ => Restored w.store after.store) (fun _ _ => False) w restoreDefault := by
  obtain ⟨all, read, listed⟩ := keyed.providers
  have default := keyed.any_isDefault listed
  refine Leaves.bind (Leaves.query ?_ fun cause failed => by cases read.symm.trans failed)
  intro _ same
  cases read.symm.trans same
  split
  · rename_i there
    refine ⟨keyed, fun _ => Iff.rfl, fun id => ⟨.inl, ?_⟩⟩
    grind
  · rename_i absent
    have none : ∀ id, ¬ IsDefault w.store id := fun id found => absent (default.mpr ⟨id, found⟩)
    obtain ⟨found, got, stored⟩ := keyed.provider letsencryptProduction
    refine Leaves.bind (Leaves.query ?_ fun cause failed => by cases got.symm.trans failed)
    intro _ same
    cases got.symm.trans same
    cases found with
    | none =>
      refine ⟨keyed, fun _ => Iff.rfl, fun id => ⟨.inl, ?_⟩⟩
      rintro (found | ⟨-, rfl, there⟩)
      · exact found
      · obtain ⟨row, there⟩ := Option.ne_none_iff_exists'.mp there
        obtain ⟨current, rfl, -⟩ := keyed _ _ there
        cases (stored current).mpr there
    | some production => exact Leaves.commit (restored_put keyed none ((stored production).mp rfl))

def Chosen (store : Certificates.Store) (saved : AcmeProvider) (id : Text) : Prop :=
  if saved.isDefault then id = saved.id else id ≠ saved.id ∧ IsDefault store id

structure SavedTo (store : Certificates.Store) (saved : AcmeProvider) (after : Certificates.Store) : Prop where
  keyed : Keyed after
  there : ∀ id : Text, (after .providers)[id]? ≠ none ↔ id = saved.id ∨ (store .providers)[id]? ≠ none
  default : ∀ id, IsDefault after id ↔ Chosen store saved id ∨
    (∀ other, ¬ Chosen store saved other) ∧ id = letsencryptProduction ∧
      (id = saved.id ∨ (store .providers)[id]? ≠ none)

def RowsSaved (store : Certificates.Store) (saved : AcmeProvider) (middle : Certificates.Store) : Prop :=
  ∀ id : Text, (middle .providers)[id]? = if saved.id = id then some (.ok saved)
    else (store .providers)[id]?.map fun row => row.map (besides saved)

theorem RowsSaved.keyed {middle : Certificates.Store} (rows : RowsSaved store saved middle) (keyed : Keyed store) :
    Keyed middle := by
  intro id stored there
  rw [rows] at there
  split at there
  · grind
  · obtain ⟨old, found, rfl⟩ := Option.map_eq_some_iff.mp there
    obtain ⟨current, rfl, named⟩ := keyed id old found
    refine ⟨_, rfl, ?_⟩
    unfold besides
    split <;> exact named

theorem RowsSaved.isDefault_iff {middle : Certificates.Store} (rows : RowsSaved store saved middle)
    (keyed : Keyed store) (id : Text) : IsDefault middle id ↔ Chosen store saved id := by
  unfold IsDefault Chosen
  rw [rows]
  by_cases own : saved.id = id
  · grind
  · rw [if_neg own]
    cases stored : (store .providers)[id]? with
    | none => simp [IsDefault, stored, Ne.symm own]
    | some row =>
      obtain ⟨current, rfl, -⟩ := keyed id row stored
      grind [IsDefault, besides, Except.map]

theorem Restored.savedTo {middle after : Certificates.Store} (restored : Restored middle after) (keyed : Keyed store)
    (rows : RowsSaved store saved middle) : SavedTo store saved after := by
  have there : ∀ id : Text, (middle .providers)[id]? ≠ none ↔ id = saved.id ∨ (store .providers)[id]? ≠ none := by
    intro id
    rw [rows]
    grind
  refine ⟨restored.keyed, fun id => (restored.there id).trans (there id), fun id => ?_⟩
  rw [restored.default]
  simp only [rows.isDefault_iff keyed, there]

theorem saveProvider_leaves {w : World} (keyed : Keyed w.store) (saved : AcmeProvider) :
    Leaves (fun after _ => checkProvider saved = .ok () ∧ SavedTo w.store saved after.store)
      (fun after cause => after = w ∧ checkProvider saved = .error cause) w (saveProvider saved) := by
  obtain ⟨all, read, listed⟩ := keyed.providers
  refine Leaves.bind (Leaves.ofExcept ?_ fun cause failed => ⟨rfl, failed⟩)
  intro _ passed
  have finish : Leaves (fun after _ => checkProvider saved = .ok () ∧ SavedTo w.store saved after.store)
      (fun after cause => after = w ∧ checkProvider saved = .error cause) w (do
        commit ((if saved.isDefault then demotions saved all else []) ++ [.put .providers saved.id (.ok saved)])
        restoreDefault) := by
    refine Leaves.bind (Leaves.commit ?_)
    have rows : RowsSaved w.store saved _ := @getElem?_write_demotions _ saved keyed all listed
    refine (restoreDefault_leaves (rows.keyed keyed)).mono (fun after _ restored => ?_) fun _ _ => False.elim
    exact ⟨passed, restored.savedTo keyed rows⟩
  cases default : saved.isDefault with
  | false =>
    rw [default] at finish
    exact finish
  | true => grind [Leaves.bind, Leaves.query]

def AtMostOneDefault (store : Certificates.Store) : Prop :=
  ∀ id other, IsDefault store id → IsDefault store other → id = other

variable {after : Certificates.Store}

theorem chosen_unique (atMostOne : AtMostOneDefault store) {id other : Text} (first : Chosen store saved id)
    (second : Chosen store saved other) : id = other := by
  unfold Chosen at first second
  split at first
  · grind
  · rename_i plain
    rw [if_neg plain] at second
    exact atMostOne id other first.2 second.2

theorem RowsSaved.one {middle : Certificates.Store} (rows : RowsSaved store saved middle) (keyed : Keyed store)
    (atMostOne : AtMostOneDefault store) : AtMostOneDefault middle := by
  intro id other first second
  exact chosen_unique atMostOne ((rows.isDefault_iff keyed id).mp first) ((rows.isDefault_iff keyed other).mp second)

theorem SavedTo.existsUnique (savedTo : SavedTo store saved after) (atMostOne : AtMostOneDefault store)
    (production : (after .providers)[letsencryptProduction]? ≠ none) : ∃! id, IsDefault after id := by
  by_cases chosen : ∃ id, Chosen store saved id
  · obtain ⟨id, chosen⟩ := chosen
    refine ⟨id, (savedTo.default id).mpr (.inl chosen), fun other default => ?_⟩
    rcases (savedTo.default other).mp default with also | ⟨none, -⟩
    · exact chosen_unique atMostOne also chosen
    · exact absurd chosen (none id)
  · have none : ∀ id, ¬ Chosen store saved id := not_exists.mp chosen
    refine ⟨letsencryptProduction, (savedTo.default _).mpr (.inr ⟨none, rfl, (savedTo.there _).mp production⟩), ?_⟩
    intro other default
    rcases (savedTo.default other).mp default with also | ⟨-, same, -⟩
    · exact absurd also (none other)
    · exact same

theorem SavedTo.settled (savedTo : SavedTo store saved after) (settled : Settled store) : Settled after := by
  have production := (savedTo.there _).mpr (.inr settled.production)
  refine ⟨savedTo.keyed, savedTo.existsUnique ?_ production, production, (savedTo.there _).mpr (.inr settled.staging)⟩
  intro id other first second
  exact settled.default.unique first second

end Saves

inductive ProviderCall
  | save (provider : AcmeProvider)
  | delete (providerId : Text)
  | ensureBuiltin

def ProviderCall.task : ProviderCall → Task Unit
  | .save provider => saveProvider provider
  | .delete providerId => deleteProvider providerId
  | .ensureBuiltin => ensureBuiltinProviders

def providerStep (w : World) (call : ProviderCall) : Option World := (Task.alone call.task w).map Prod.snd

section Calls

variable {w : World}

theorem Settled.erase {store : Certificates.Store} (settled : Settled store) {id : Text} (other : isBuiltin id = false)
    (plain : ¬ IsDefault store id) : Settled (write store [.delete .providers id]) := by
  have row : ∀ key : Text, (write store [.delete .providers id] .providers)[key]? =
      if id = key then none else (store .providers)[key]? := fun key => getElem?_erase (store .providers) id key
  have kept : ∀ key, isBuiltin key = true → (store .providers)[key]? ≠ none →
      (write store [.delete .providers id] .providers)[key]? ≠ none := by
    intro key builtin there
    rw [row, if_neg]
    · exact there
    · grind
  have default : ∀ key, IsDefault (write store [.delete .providers id]) key ↔ IsDefault store key := by
    intro key
    unfold IsDefault
    rw [row]
    split
    · rename_i own
      subst own
      constructor
      · simp
      · intro default
        exact absurd default plain
    · rfl
  refine ⟨?_, ?_, kept _ (by decide) settled.production, kept _ (by decide) settled.staging⟩
  · intro key stored there
    rw [row] at there
    split at there
    · cases there
    · exact settled.keyed key stored there
  · simpa only [default] using settled.default

theorem deleteProvider_leaves (settled : Settled w.store) (id : Text) :
    Leaves (fun after _ => Settled after.store) (fun after _ => Settled after.store) w (deleteProvider id) := by
  obtain ⟨found, read, stored⟩ := settled.keyed.provider id
  refine Leaves.bind (Leaves.ofExcept (fun _ other => ?_) fun _ _ => settled)
  refine Leaves.bind (Leaves.query (fun _ same => ?_) fun _ _ => settled)
  cases read.symm.trans same
  refine Leaves.bind (Leaves.ofExcept (fun _ plain => ?_) fun _ _ => settled)
  refine Leaves.commit (settled.erase (require_eq_ok.mp other) ?_)
  rintro ⟨current, there, default⟩
  have unset := require_eq_ok.mp plain
  grind

theorem ensureProvider_leaves (keyed : Keyed w.store) {builtin : AcmeProvider} (valid : checkProvider builtin = .ok ()) :
    Leaves (fun after _ => after = w ∧ (w.store .providers)[builtin.id]? ≠ none ∨
        (w.store .providers)[builtin.id]? = none ∧ SavedTo w.store builtin after.store)
      (fun _ _ => False) w (ensureProvider builtin) := by
  obtain ⟨found, read, stored⟩ := keyed.provider builtin.id
  refine Leaves.bind (Leaves.query (fun _ same => ?_) fun _ failed => by cases read.symm.trans failed)
  cases read.symm.trans same
  cases found with
  | some current =>
    refine .inl ⟨rfl, ?_⟩
    grind
  | none =>
    have absent : (w.store .providers)[builtin.id]? = none := by
      cases there : (w.store .providers)[builtin.id]? with
      | none => rfl
      | some row =>
        obtain ⟨current, rfl, -⟩ := keyed _ row there
        cases (stored current).mpr there
    grind [saveProvider_leaves]

/-- Where no provider is the default although both built-in ones are stored, the production provider that is stored
passes the checks of a save. -/
def Promotable (store : Certificates.Store) : Prop :=
  (∀ id, ¬ IsDefault store id) → (store .providers)[letsencryptStaging]? ≠ none →
    ∀ production : AcmeProvider, (store .providers)[letsencryptProduction]? = some (.ok production) →
      checkProvider production = .ok ()

def Ensured (w after : World) : Prop :=
  after = w ∧ (w.store .providers)[letsencryptProduction]? ≠ none ∧
      (w.store .providers)[letsencryptStaging]? ≠ none ∨
    Settled after.store ∧ Promotable w.store ∧
      ((∀ id, ¬ IsDefault w.store id) → IsDefault after.store letsencryptProduction)

theorem not_chosen_staging (none : ∀ id, ¬ IsDefault w.store id) (id : Text) : ¬ Chosen w.store stagingProvider id := by
  rintro ⟨-, default⟩
  exact none id default

theorem ensured (keyed : Keyed w.store) (atMostOne : AtMostOneDefault w.store) {hasDefault : Bool}
    (decides : hasDefault = true ↔ ∃ id, IsDefault w.store id) :
    Leaves (fun after _ => Ensured w after) (fun _ _ => False) w ((builtinProviders hasDefault).forM ensureProvider) := by
  have valid : checkProvider (productionProvider !hasDefault) = .ok () := by cases hasDefault <;> rfl
  refine Leaves.bind ((ensureProvider_leaves keyed valid).mono ?_ fun _ _ => id)
  rintro middle ⟨⟩ (⟨rfl, production⟩ | ⟨absent, saved⟩)
  · refine Leaves.bind ((ensureProvider_leaves keyed rfl).mono ?_ fun _ _ => id)
    rintro after ⟨⟩ (⟨rfl, staging⟩ | ⟨absent, saved⟩)
    · exact .inl ⟨rfl, production, staging⟩
    · have kept := (saved.there _).mpr (.inr production)
      refine .inr ⟨⟨saved.keyed, saved.existsUnique atMostOne kept, kept, (saved.there _).mpr (.inl rfl)⟩, ?_, ?_⟩
      · intro _ staging
        exact absurd absent staging
      · intro none
        exact (saved.default _).mpr (.inr ⟨not_chosen_staging none, rfl, .inr production⟩)
  · have made := (saved.there letsencryptProduction).mpr (.inl rfl)
    have unique := saved.existsUnique atMostOne made
    have promotable : Promotable w.store := by
      intro _ _ production found
      cases absent.symm.trans found
    have first : (∀ id, ¬ IsDefault w.store id) → IsDefault middle.store letsencryptProduction := by
      intro none
      have unset : hasDefault = false := Bool.eq_false_iff.mpr fun there => (decides.mp there).elim none
      refine (saved.default _).mpr (.inl ?_)
      rw [unset]
      exact (if_pos rfl).mpr rfl
    refine Leaves.bind ((ensureProvider_leaves saved.keyed rfl).mono ?_ fun _ _ => id)
    rintro after ⟨⟩ (⟨rfl, staging⟩ | ⟨-, second⟩)
    · exact .inr ⟨⟨saved.keyed, unique, made, staging⟩, promotable, first⟩
    · have kept := (second.there _).mpr (.inr made)
      have one : AtMostOneDefault middle.store := fun id other => unique.unique
      refine .inr ⟨⟨second.keyed, second.existsUnique one kept, kept, (second.there _).mpr (.inl rfl)⟩, promotable, ?_⟩
      intro none
      exact (second.default _).mpr (.inl ⟨by decide, first none⟩)

theorem ensureBuiltinProviders_leaves (keyed : Keyed w.store) (atMostOne : AtMostOneDefault w.store) :
    Leaves (fun after _ => Promotable w.store ∧ Settled after.store) (fun after _ => after = w ∧ ¬ Promotable w.store) w
      ensureBuiltinProviders := by
  obtain ⟨all, read, listed⟩ := keyed.providers
  have decides := keyed.any_isDefault listed
  refine Leaves.bind (Leaves.query (fun _ same => ?_) fun _ failed => by cases read.symm.trans failed)
  cases read.symm.trans same
  refine Leaves.bind ((ensured keyed atMostOne decides).mono (fun after _ ensured => ?_) fun _ _ => False.elim)
  split
  · rename_i there
    have default := decides.mp there
    rcases ensured with ⟨rfl, production, staging⟩ | ⟨settled, promotable, -⟩
    · obtain ⟨id, default⟩ := default
      refine ⟨fun none => absurd default (none id), keyed, ⟨id, default, ?_⟩, production, staging⟩
      intro other also
      exact atMostOne other id also default
    · exact ⟨promotable, settled⟩
  · rename_i absent
    have none : ∀ id, ¬ IsDefault w.store id := fun id found => absent (decides.mpr ⟨id, found⟩)
    rcases ensured with ⟨rfl, there, staging⟩ | ⟨settled, promotable, default⟩
    · obtain ⟨row, stored⟩ := Option.ne_none_iff_exists'.mp there
      obtain ⟨production, rfl, named⟩ := keyed _ _ stored
      refine Leaves.bind (Leaves.query (fun _ same => ?_) fun _ failed => ?_)
      · cases (provider_of_stored stored).symm.trans same
        have plain : production.isDefault = false := Bool.eq_false_iff.mpr fun default => none _ ⟨_, stored, default⟩
        dsimp only
        rw [if_neg (Bool.eq_false_iff.mp plain)]
        refine (saveProvider_leaves keyed _).mono ?_ ?_
        · rintro final ⟨⟩ ⟨passed, saved⟩
          have kept := (saved.there _).mpr (.inr there)
          refine ⟨?_, saved.keyed, saved.existsUnique atMostOne kept, kept, (saved.there _).mpr (.inr staging)⟩
          intro _ _ other same
          cases stored.symm.trans same
          exact passed
        · rintro final cause ⟨rfl, failed⟩
          refine ⟨rfl, fun promotable => ?_⟩
          cases (promotable none staging production stored).symm.trans failed
      · cases (provider_of_stored stored).symm.trans failed
    · obtain ⟨production, stored, default⟩ := default none
      refine Leaves.bind (Leaves.query (fun _ same => ?_) fun _ failed => ?_)
      · cases (provider_of_stored stored).symm.trans same
        dsimp only
        rw [if_pos default]
        exact ⟨promotable, settled⟩
      · cases (provider_of_stored stored).symm.trans failed

theorem call_settled (settled : Settled w.store) (call : ProviderCall) :
    Leaves (fun after _ => Settled after.store) (fun after _ => Settled after.store) w call.task := by
  cases call with
  | save provider =>
    refine (saveProvider_leaves settled.keyed provider).mono (fun after _ saved => saved.2.settled settled) ?_
    grind
  | delete id => exact deleteProvider_leaves settled id
  | ensureBuiltin =>
    have one : AtMostOneDefault w.store := fun id other => settled.default.unique
    refine (ensureBuiltinProviders_leaves settled.keyed one).mono (fun after _ done => done.2) ?_
    grind

theorem calls_settled (settled : Settled w.store) (calls : List ProviderCall) :
    ∃ last, Runs.run providerStep w calls = some last ∧ Settled last.store := by
  refine Runs.exists_run providerStep ?_ settled
  intro call _ w settled
  exact (call_settled settled call).exists_alone

end Calls

/-- A provider is stored under its ID. -/
def StoredById (store : Certificates.Store) : Prop :=
  ∀ (id : Text) (provider : AcmeProvider), (store .providers)[id]? = some (.ok provider) → provider.id = id

theorem keyed_of_read {store : Certificates.Store} (stored : StoredById store) {all : List AcmeProvider}
    (read : Certificates.providers store = .ok all) : Keyed store := by
  intro id row found
  have listed := Std.ExtTreeMap.mem_toList_iff_getElem?_eq_some.mpr found
  obtain ⟨provider, decoded⟩ := mapM_isOk_iff.mp ⟨all, read⟩ (id, row) listed
  cases decoded
  exact ⟨provider, rfl, stored id provider found⟩

/-- From a table with at most one default, `ensure_builtin_providers` fails and leaves the table as it is, where a row
cannot be read or the stored production provider cannot be promoted, or after it and every sequence of calls there are
the built-in providers and exactly one default. -/
theorem builtin_and_default_kept {w : World} (stored : StoredById w.store) (atMostOne : AtMostOneDefault w.store) :
    ∃ result after, Task.alone ensureBuiltinProviders w = some (result, after) ∧
      ((∃ cause, result = .error cause) ∧ after = w ∧
          ((∃ cause, Certificates.providers w.store = .error cause) ∨ ¬ Promotable w.store) ∨
        result = .ok () ∧ ∀ calls, ∃ last, Runs.run providerStep after calls = some last ∧ Settled last.store) := by
  cases read : Certificates.providers w.store with
  | error cause =>
    have fails : Leaves (fun _ _ => False) (fun after _ => after = w) w ensureBuiltinProviders :=
      Leaves.bind (Leaves.query (fun _ found => by cases read.symm.trans found) fun _ _ => rfl)
    obtain ⟨result, after, done, holds⟩ := leaves_iff.mp fails
    cases result with
    | ok _ => exact holds.elim
    | error cause => exact ⟨_, after, done, .inl ⟨⟨_, rfl⟩, holds, .inl ⟨_, rfl⟩⟩⟩
  | ok all =>
    obtain ⟨result, after, done, holds⟩ :=
      leaves_iff.mp (ensureBuiltinProviders_leaves (keyed_of_read stored read) atMostOne)
    cases result with
    | error cause => exact ⟨_, after, done, .inl ⟨⟨_, rfl⟩, holds.1, .inr holds.2⟩⟩
    | ok _ => exact ⟨_, after, done, .inr ⟨rfl, calls_settled holds.2⟩⟩

theorem builtin_and_default_kept_empty :
    ∃ after, Task.alone ensureBuiltinProviders {} = some (.ok (), after) ∧
      ∃ last, Runs.run providerStep after [.delete letsencryptProduction, .ensureBuiltin] = some last ∧
        Settled last.store := by
  have stored : StoredById .empty := by
    intro id provider found
    cases found
  have none : AtMostOneDefault .empty := by
    rintro id other ⟨_, found, _⟩
    cases found
  obtain ⟨_, after, done, ⟨-, -, ⟨cause, unread⟩ | blocked⟩ | ⟨rfl, kept⟩⟩ := @builtin_and_default_kept {} stored none
  · exact absurd unread nofun
  · exact absurd (fun _ staging => absurd rfl staging) blocked
  · exact ⟨after, done, kept _⟩

end TlsProxy.Acme
