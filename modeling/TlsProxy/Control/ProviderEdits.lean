import TlsProxy.Acme.Accounts
import TlsProxy.Control.Publication

/-! The handlers that save and delete ACME providers, beside the accounts that the
renewal backend creates. -/
namespace TlsProxy.Control

open Config Checks Certificates Acme Programs

def fixedFields (provider : AcmeProvider) : AcmeProvider :=
  if provider.id = letsencryptProduction then
    { provider with
      name := "Let's Encrypt Production".toList
      directoryUrl := "https://acme-v02.api.letsencrypt.org/directory".toList
      staging := false
      directoryCaPem := none }
  else if provider.id = letsencryptStaging then
    { provider with
      name := "Let's Encrypt Staging".toList
      directoryUrl := "https://acme-staging-v02.api.letsencrypt.org/directory".toList
      staging := true
      directoryCaPem := none }
  else provider

def inheriting (provider existing : AcmeProvider) : AcmeProvider :=
  { provider with
    eabHmacKey := existing.eabHmacKey
    eabKeyId := provider.eabKeyId.or existing.eabKeyId
    directoryCaPem := provider.directoryCaPem.or existing.directoryCaPem }

def inherited (provider : AcmeProvider) : Acme.Task AcmeProvider := do
  if provider.eabHmacKey.isSome then return provider
  match ← query (Certificates.provider · provider.id) with
  | none => return provider
  | some existing => return inheriting provider existing

def saveProviderRequest (provider : AcmeProvider) : Acme.Task Unit := do
  let provider ← inherited (fixedFields provider)
  saveProvider provider

def conflict (message : String) : Response := { status := 409, body := .text message.toList }

def deleteProviderRequest (id : Text) : Program BackendAction Backend Response := do
  if isBuiltin id then return conflict "built-in Let's Encrypt providers cannot be deleted"
  match ← (perform .loadConfig Backend.config).run with
  | .error cause => return internal cause
  | .ok none => return notFound
  | .ok (some config) =>
    if config.controlPlane.providerId = id then
      return conflict "provider is used by the control-plane certificate"
    match ← (inStore (query managedCertificates)).run with
    | .error cause => return internal cause
    | .ok certificates =>
      if certificates.any fun certificate => certificate.providerId == id then
        return conflict "provider is used by a managed certificate"
      match ← (inStore (deleteProvider id)).run with
      | .error cause => return internal cause
      | .ok _ => return noContent

inductive ProviderEdit
  | account (client : AccountClient) (providerId : Text)
  | save (provider : AcmeProvider)
  | delete (id : Text)

inductive ProviderAnswer
  | account (result : Except Text Account)
  | replied (response : Response)
deriving DecidableEq

def ProviderEdit.program : ProviderEdit → Program BackendAction Backend ProviderAnswer
  | .account client providerId => do return .account (← (Acme.account client providerId).run)
  | .save provider => do return .replied (savedResponse (← (inStore (saveProviderRequest provider)).run))
  | .delete id => do return .replied (← deleteProviderRequest id)

abbrev ProviderEditAction := ProviderEdit × BackendAction

def providerSystem : System ProviderEdit Empty ProviderEditAction Backend ProviderAnswer where
  program call := call.program.embed (Prod.mk call) id
  effect label := backendEffect label.2
  outside := nofun

/-- The row stays, loses the binding that the account was created with, or becomes the default where there is none. -/
inductive Spared (client : AccountClient) (providerId : Text) (store : Certificates.Store) (id : Text) :
    Json AcmeProvider → Json AcmeProvider → Prop
  | same (row : Json AcmeProvider) : Spared client providerId store id row row
  | used {provider : AcmeProvider} (own : id = providerId)
      (created : ∃ account credentials, client.createAccount provider = .ok (account, credentials)) :
      Spared client providerId store id (.ok provider) (.ok (consumed provider))
  | promoted {provider : AcmeProvider} (production : id = letsencryptProduction)
      (none : ∀ other, ¬ IsDefault store other) :
      Spared client providerId store id (.ok provider) (.ok { provider with isDefault := true })

def SparesAll (client : AccountClient) (providerId : Text) (store after : Certificates.Store) : Prop :=
  ∀ id : Text, Option.Rel (Spared client providerId store id) (store .providers)[id]? (after .providers)[id]?

def Spares (entry : Entry ProviderEditAction Backend) : Prop :=
  match entry.label with
  | (.account client providerId, .database (.write batch)) =>
    SparesAll client providerId entry.found.world.store (Families.write entry.found.world.store batch)
  | _ => True

/-- A call writes providers only if no other call has written since its first action. -/
def Exclusive (_ : Backend) (past : List (Entry ProviderEditAction Backend)) (task : Nat) (label : ProviderEditAction) :
    Prop :=
  label.2.writesStore = true →
    ∀ entry ∈ sinceStart task past, entry.label.2.writesStore = true → entry.task = task

instance (s : Backend) (past : List (Entry ProviderEditAction Backend)) (task : Nat) (label : ProviderEditAction) :
    Decidable (Exclusive s past task label) :=
  inferInstanceAs (Decidable (label.2.writesStore = true →
    ∀ entry ∈ sinceStart task past, entry.label.2.writesStore = true → entry.task = task))

abbrev Trail := List (ProviderEditAction × Backend)

/-- The task of the trace has found the store as its own actions have left it. -/
abbrev Undisturbed (steps : Trail) (store : Certificates.Store) : Prop :=
  Solo providerSystem.effect (fun s => s.world.store) steps store

structure Orderly (call : ProviderEdit) (store after : Certificates.Store) : Prop where
  keyed : Keyed after
  one : AtMostOneDefault after
  spares : ∀ client providerId, call = .account client providerId → SparesAll client providerId store after

def MayWrite (steps : Trail) (label : ProviderEditAction) : Prop :=
  ∀ batch, label.2 = .database (.write batch) → ∀ store, Undisturbed steps store → Keyed store → AtMostOneDefault store →
    Orderly label.1 store (Families.write store batch)

structure Tidy (s : Backend) : Prop where
  keyed : Keyed s.world.store
  one : AtMostOneDefault s.world.store

def handling (call : ProviderEdit) : Monitor BackendAction Backend Trail :=
  (tracking MayWrite fun _ s => Tidy s).comap (Prod.mk call)

section Rules

variable {α β : Type} {call : ProviderEdit} {steps : Trail} {ok : Trail → α → Prop}

def Handles (call : ProviderEdit) (ok : Trail → α → Prop) (steps : Trail) (task : BackendTask α) : Prop :=
  Obeys (handling call) (Outcome ok fun _ _ => True) steps task.run

theorem Handles.bind {ok : Trail → β → Prop} {task : BackendTask α} {rest : α → BackendTask β}
    (first : Handles call (fun steps a => Handles call ok steps (rest a)) steps task) :
    Handles call ok steps (task >>= rest) :=
  Obeys.bindExcept first

theorem Handles.mono {other : Trail → α → Prop} {task : BackendTask α} (handles : Handles call ok steps task)
    (weaker : ∀ steps a, ok steps a → other steps a) : Handles call other steps task := by
  refine Obeys.mono ?_ handles
  intro steps result known
  cases result with
  | ok a => exact weaker steps a known
  | error cause => trivial

theorem Handles.given {value : Except Text α} (holds : ∀ a, value = .ok a → ok steps a) :
    Handles call ok steps (given value) := by
  cases value with
  | ok a => exact holds a rfl
  | error cause => trivial

theorem Handles.perform {action : BackendAction} {answer : Backend → Except Text α}
    (allowed : MayWrite steps (call, action))
    (holds : ∀ s a, Tidy s → answer s = .ok a → ok (((call, action), s) :: steps) a) :
    Handles call ok steps (perform action answer) := by
  refine ⟨allowed, fun s tidy => ?_⟩
  change Outcome ok _ _ (answer s)
  cases found : answer s with
  | ok a => exact holds s a tidy found
  | error cause => trivial

theorem mayWrite_of_quiet {action : BackendAction} (quiet : action.writesStore = false) :
    MayWrite steps (call, action) := by
  intro batch writes
  cases writes
  cases quiet

theorem Handles.query {answer : Certificates.Store → Except Text α}
    (holds : ∀ s a, Tidy s → answer s.world.store = .ok a → ok (((call, .database .read), s) :: steps) a) :
    Handles call ok steps (inStore (Acme.query answer)) :=
  Handles.perform (mayWrite_of_quiet rfl) holds

theorem Handles.commit {batch : List Certificates.Write} {ok : Trail → Unit → Prop}
    (leaves : ∀ store, Undisturbed steps store → Keyed store → AtMostOneDefault store →
      Orderly call store (Families.write store batch))
    (next : ∀ s, ok (((call, .database (.write batch)), s) :: steps) ()) :
    Handles call ok steps (inStore (Acme.commit batch)) := by
  refine Handles.perform ?_ fun s _ _ _ => next s
  intro _ writes
  cases writes
  exact leaves

theorem Undisturbed.quiet {action : BackendAction} (quiet : action.writesStore = false) {s : Backend}
    {store : Certificates.Store} (alone : Undisturbed (((call, action), s) :: steps) store) :
    store = s.world.store ∧ Undisturbed steps s.world.store := by
  obtain ⟨⟨next, taken, rfl⟩, earlier⟩ := alone
  exact ⟨store_of_quiet quiet taken, earlier⟩

end Rules

section Calls

variable {call : ProviderEdit} {steps : Trail} {store : Certificates.Store}

theorem orderly_restored {production : AcmeProvider} (keyed : Keyed store) (none : ∀ id, ¬ IsDefault store id)
    (found : (store .providers)[letsencryptProduction]? = some (.ok production)) :
    Orderly call store
      (Families.write store [.put .providers production.id (.ok { production with isDefault := true })]) := by
  have restored := restored_put keyed none found
  refine ⟨restored.keyed, ?_, ?_⟩
  · intro id other first second
    have only : ∀ id, IsDefault _ id → id = letsencryptProduction := fun id default =>
      ((restored.default id).mp default).elim (fun before => absurd before (none id)) fun new => new.2.1
    rw [only id first, only other second]
  · intro client providerId _ id
    obtain ⟨_, same, named⟩ := keyed _ _ found
    cases same
    have row : (Families.write store [.put .providers production.id (.ok { production with isDefault := true })]
        .providers)[id]? = if production.id = id then some (.ok { production with isDefault := true })
          else (store .providers)[id]? := Families.getElem?_insert (store .providers) production.id id _
    rw [row]
    split
    · rename_i own
      obtain rfl : id = letsencryptProduction := own.symm.trans named
      rw [found]
      exact .some (.promoted rfl none)
    · cases (store .providers)[id]? with
      | none => exact .none
      | some row => exact .some (.same row)

theorem restoreDefault_handles : Handles call (fun _ _ => True) steps (inStore restoreDefault) := by
  unfold restoreDefault
  rw [inStore_bind]
  refine .bind (.query fun first all tidy read => ?_)
  split
  · trivial
  · rename_i absent
    rw [inStore_bind]
    refine .bind (.query fun second found tidyAgain got => ?_)
    cases found with
    | none => trivial
    | some production =>
      refine .commit (fun store alone keyed _ => ?_) fun _ => trivial
      obtain ⟨rfl, earlier⟩ := alone.quiet rfl
      obtain ⟨same, -⟩ := earlier.quiet rfl
      refine orderly_restored keyed ?_ ((decoded_eq_ok got production).mp rfl)
      obtain ⟨listed, again, members⟩ := tidy.keyed.providers
      cases again.symm.trans read
      grind [Keyed.any_isDefault]

theorem saveProvider_handles {saved : AcmeProvider}
    (leaves : ∀ store after, Undisturbed steps store → Keyed store → AtMostOneDefault store →
      RowsSaved store saved after → Orderly call store after) :
    Handles call (fun _ _ => True) steps (inStore (saveProvider saved)) := by
  unfold saveProvider
  rw [inStore_bind]
  refine .bind (.given fun _ _ => ?_)
  have finish : ∀ (demoted : List Certificates.Write) (steps : Trail),
      (∀ store, Undisturbed steps store → Keyed store → AtMostOneDefault store →
        Orderly call store (Families.write store (demoted ++ [.put .providers saved.id (.ok saved)]))) →
      Handles call (fun _ _ => True) steps (inStore (do
        commit (demoted ++ [.put .providers saved.id (.ok saved)])
        restoreDefault)) := by
    intro demoted steps leaves
    rw [inStore_bind]
    exact .bind (.commit leaves fun _ => restoreDefault_handles)
  cases default : saved.isDefault with
  | false =>
    refine finish [] steps fun store alone keyed one => leaves store _ alone keyed one ?_
    obtain ⟨all, -, listed⟩ := keyed.providers
    have rows := @getElem?_write_demotions _ saved keyed all listed
    rw [default] at rows
    exact rows
  | true =>
    change Handles call _ steps (inStore (query providers >>= fun all => _))
    rw [inStore_bind]
    refine .bind (.query fun s all tidy read => finish (demotions saved all) _ fun store alone keyed one => ?_)
    obtain ⟨rfl, earlier⟩ := alone.quiet rfl
    refine leaves _ _ earlier keyed one ?_
    obtain ⟨listed, again, members⟩ := keyed.providers
    cases again.symm.trans read
    have rows := @getElem?_write_demotions _ saved keyed _ members
    rw [default] at rows
    exact rows

theorem orderly_saved {saved : AcmeProvider} (other : ∀ client providerId, call ≠ .account client providerId)
    {after : Certificates.Store} (keyed : Keyed store) (one : AtMostOneDefault store)
    (rows : RowsSaved store saved after) : Orderly call store after := by
  refine ⟨rows.keyed keyed, rows.one keyed one, ?_⟩
  grind

theorem saveProviderRequest_handles (provider : AcmeProvider) :
    Handles (.save provider) (fun _ _ => True) [] (inStore (saveProviderRequest provider)) := by
  have saves : ∀ (saved : AcmeProvider) (steps : Trail),
      Handles (.save provider) (fun _ _ => True) steps (inStore (saveProvider saved)) := by
    grind [saveProvider_handles, orderly_saved]
  unfold saveProviderRequest inherited
  rw [inStore_bind]
  split
  · exact .bind (saves _ _)
  · rw [inStore_bind]
    refine .bind (.bind (.query fun s found _ _ => ?_))
    cases found with
    | none => exact saves _ _
    | some existing => exact saves _ _

theorem deleteProvider_handles (id : Text) {steps : Trail} :
    Handles (.delete id) (fun _ _ => True) steps (inStore (deleteProvider id)) := by
  unfold deleteProvider
  rw [inStore_bind]
  refine .bind (.given fun _ _ => ?_)
  rw [inStore_bind]
  refine .bind (.query fun s found _ _ => ?_)
  rw [inStore_bind]
  refine .bind (.given fun _ _ => .commit (fun store _ keyed one => ?_) fun _ => trivial)
  have before : ∀ (other : Text) (row : Json AcmeProvider),
      (Families.write store [.delete .providers id] .providers)[other]? = some row →
        (store .providers)[other]? = some row := by
    intro other row found
    rcases Families.mem_or_of_getElem?_write found with put | ⟨there, -⟩
    · simp at put
    · exact there
  refine ⟨fun other row found => keyed other row (before other row found), ?_, ?_⟩
  · rintro first second ⟨one', found, default⟩ ⟨two, again, also⟩
    exact one first second ⟨one', before first _ found, default⟩ ⟨two, before second _ again, also⟩
  · simp

/-- A provider that is saved again without its binding: it is the default if it was, and no other is. -/
theorem orderly_consumed {client : AccountClient} {providerId : Text} {provider : AcmeProvider}
    {after : Certificates.Store} (keyed : Keyed store) (one : AtMostOneDefault store)
    (stored : (store .providers)[providerId]? = some (.ok provider))
    (created : ∃ account credentials, client.createAccount provider = .ok (account, credentials))
    (rows : RowsSaved store (consumed provider) after) : Orderly (.account client providerId) store after := by
  refine ⟨rows.keyed keyed, rows.one keyed one, ?_⟩
  rintro _ _ ⟨⟩ id
  obtain ⟨_, same, named⟩ := keyed _ _ stored
  cases same
  rw [rows]
  split
  · rename_i own
    obtain rfl : id = providerId := own.symm.trans named
    rw [stored]
    exact .some (.used rfl created)
  · rename_i different
    cases found : (store .providers)[id]? with
    | none => exact .none
    | some row =>
      obtain ⟨current, rfl, -⟩ := keyed id row found
      have unchanged : besides (consumed provider) current = current := by
        by_cases default : provider.isDefault = true
        · apply besides_of_not_default
          by_contra also
          have same := one id providerId ⟨current, found, by simpa using also⟩ ⟨provider, stored, default⟩
          exact different (named.trans same.symm)
        · exact if_neg default
      change Option.Rel _ _ (some (Except.ok (besides (consumed provider) current)))
      rw [unchanged]
      exact .some (.same _)

theorem newAccount_handles {client : AccountClient} {providerId : Text} {provider : AcmeProvider}
    (found : ∀ store, Undisturbed steps store → (store .providers)[providerId]? = some (.ok provider)) :
    Handles (.account client providerId) (fun _ _ => True) steps (newAccount client providerId provider) := by
  refine .bind (.given fun created answer => .bind (.bind (.given fun _ _ => .perform (mayWrite_of_quiet rfl) ?_)))
  intro s _ _ _
  have saves : ∀ steps, (∀ store, Undisturbed steps store → (store .providers)[providerId]? = some (.ok provider)) →
      Handles (.account client providerId) (fun _ _ => True) steps (inStore (saveProvider (consumed provider))) := by
    grind [saveProvider_handles, orderly_consumed]
  dsimp only
  split
  · refine .bind ((saves _ fun store alone => ?_).mono fun _ _ _ => trivial)
    obtain ⟨rfl, earlier⟩ := alone.quiet rfl
    exact found _ earlier
  · trivial

theorem account_handles (client : AccountClient) (providerId : Text) :
    Handles (.account client providerId) (fun _ _ => True) [] (Acme.account client providerId) := by
  refine .bind (.perform (mayWrite_of_quiet rfl) fun first kept _ _ => ?_)
  cases kept with
  | some account => trivial
  | none =>
    refine .bind (.query fun second found tidy read => ?_)
    cases found with
    | none => trivial
    | some provider =>
      have keeps : ∀ (steps : Trail) (account : Account), Handles (.account client providerId) (fun _ _ => True) steps
          (do perform (.keepAccount providerId account) fun _ => .ok ()
              return account) := by
        intro steps account
        exact .bind (.perform (mayWrite_of_quiet rfl) fun _ _ _ _ => trivial)
      refine .bind (.perform (mayWrite_of_quiet rfl) fun third stored _ _ => ?_)
      cases stored with
      | some stored => exact .bind (.given fun account _ => keeps _ account)
      | none =>
        refine .bind ((newAccount_handles fun store alone => ?_).mono fun _ account _ => keeps _ account)
        obtain ⟨rfl, earlier⟩ := alone.quiet rfl
        obtain ⟨same, -⟩ := earlier.quiet rfl
        rw [same]
        exact (decoded_eq_ok read provider).mp rfl

theorem deleteProviderRequest_obeys (id : Text) :
    Obeys (handling (.delete id)) (fun _ _ => True) [] (deleteProviderRequest id) := by
  unfold deleteProviderRequest
  split
  · trivial
  · refine Obeys.bind ⟨mayWrite_of_quiet rfl, fun first _ => ?_⟩
    change Obeys _ _ _ (match first.config with
      | .error cause => _
      | .ok none => _
      | .ok (some config) => _)
    split
    · trivial
    · trivial
    · split
      · trivial
      · refine Obeys.bind ⟨mayWrite_of_quiet rfl, fun second _ => ?_⟩
        change Obeys _ _ _ (match managedCertificates second.world.store with
          | .error cause => _
          | .ok certificates => _)
        split
        · trivial
        · split
          · trivial
          · refine Obeys.bind (Obeys.mono (fun _ result _ => ?_) (deleteProvider_handles id))
            cases result <;> trivial

theorem program_obeys (call : ProviderEdit) :
    Obeys (tracking MayWrite fun _ s => Tidy s) (fun _ _ => True) [] (providerSystem.program call) := by
  refine Obeys.embed ?_
  cases call with
  | account client providerId =>
    exact Obeys.bind (Obeys.mono (fun _ _ _ => trivial) (account_handles client providerId))
  | save provider => exact Obeys.bind (Obeys.mono (fun _ _ _ => trivial) (saveProviderRequest_handles provider))
  | delete id => exact Obeys.bind (Obeys.mono (fun _ _ _ => trivial) (deleteProviderRequest_obeys id))

end Calls

theorem providers_track {first : Backend} (tidy : Tidy first) :
    Tracks providerSystem first MayWrite (fun _ s => Tidy s) (fun _ _ _ => True) Exclusive
      fun s past => Tidy s ∧ ∀ entry ∈ past, Spares entry where
  programs := program_obeys
  start := ⟨tidy, fun _ none => (List.not_mem_nil none).elim⟩
  sound := fun _ _ _ inv => inv.1
  advance := by
    rintro s past task ⟨call, action⟩ next leads ⟨tidy, spared⟩ may exclusive taken
    have both : Tidy next ∧ Spares ⟨task, (call, action), s⟩ := by
      cases writes : action.writesStore with
      | false =>
        have same := store_of_quiet writes taken
        refine ⟨⟨?_, ?_⟩, ?_⟩
        · rw [same]
          exact tidy.keyed
        · rw [same]
          exact tidy.one
        · unfold Spares
          split
          · rename_i written
            cases written
            cases writes
          · trivial
      | true =>
        obtain ⟨batch, rfl⟩ : ∃ batch, action = .database (.write batch) := by
          unfold BackendAction.writesStore at writes
          grind
        have alone : Undisturbed (trace task past) s.world.store := by
          refine leads.solo fun entry inside other next taken => ?_
          have quiet : entry.label.2.writesStore = false := by
            by_contra wrote
            exact other (exclusive writes entry inside (by simpa using wrote))
          exact store_of_quiet quiet taken
        have leaves := may batch rfl s.world.store alone tidy.keyed tidy.one
        cases taken
        refine ⟨⟨leaves.keyed, leaves.one⟩, ?_⟩
        cases call with
        | account client providerId => exact leaves.spares client providerId rfl
        | save _ => trivial
        | delete _ => trivial
    grind

/-- In every run in which a call writes providers only if no other call has written any since it began, accounts spare
what is there and at most one provider is the default. -/
theorem accounts_spare_administration {first : Backend} (keyed : Keyed first.world.store)
    (one : AtMostOneDefault first.world.store) {events : List (Event ProviderEdit Empty)}
    {last : State ProviderEdit ProviderEditAction Backend ProviderAnswer}
    (meets : Runs.Meets (step providerSystem) (Observes Exclusive) { shared := first } events)
    (whole : Runs.run (step providerSystem) { shared := first } events = some last) :
    (∀ entry ∈ last.history, Spares entry) ∧ AtMostOneDefault last.shared.world.store := by
  obtain ⟨tidy, spared⟩ := ((providers_track ⟨keyed, one⟩).run meets whole).holds
  exact ⟨fun entry member => spared entry (List.mem_reverse.mpr member), tidy.one⟩

section Example

def labProvider : AcmeProvider where
  id := "lab".toList
  directoryUrl := "https://ca.lab/directory".toList
  eabKeyId := some "kid".toList
  eabHmacKey := some "hmac".toList
  isDefault := true

def labBackend : Backend where
  world := { store := Families.write Certificates.Store.empty [.put .providers labProvider.id (.ok labProvider)] }

def labClient : AccountClient where
  restoreAccount := fun _ _ => .ok []
  createAccount := fun _ => .ok ([], .value [])
  now := 0

def addContact : ProviderEdit :=
  .save { labProvider with contacts := ["mailto:admin@lab".toList], eabKeyId := none, eabHmacKey := none }

theorem labBackend_row (id : Text) (row : Json AcmeProvider)
    (found : (labBackend.world.store .providers)[id]? = some row) : id = labProvider.id ∧ row = .ok labProvider := by
  rcases Families.mem_or_of_getElem?_write found with put | ⟨absent, -⟩
  · simpa using put
  · cases absent

theorem labBackend_keyed : Keyed labBackend.world.store := by
  intro id row found
  grind [labBackend_row]

theorem labBackend_one : AtMostOneDefault labBackend.world.store := by
  rintro id other ⟨_, first, -⟩ ⟨_, second, -⟩
  exact (labBackend_row id _ first).1.trans (labBackend_row other _ second).1.symm

def contactFirst : List (Event ProviderEdit Empty) :=
  [.spawn 1 addContact, .advance 1, .advance 1, .advance 1, .spawn 0 (.account labClient labProvider.id), .advance 0,
    .advance 0, .advance 1, .advance 0, .advance 0, .advance 0, .advance 0, .advance 0, .advance 0]

theorem accounts_spare_administration_contactFirst :
    ∃ last, Runs.run (step providerSystem) { shared := labBackend } contactFirst = some last ∧
      (last.history.filter fun entry => entry.label.2.writesStore).length = 2 ∧
      (∀ entry ∈ last.history, Spares entry) ∧ AtMostOneDefault last.shared.world.store := by
  have meets : Runs.Meets (step providerSystem) (Observes Exclusive) { shared := labBackend } contactFirst := by
    decide +kernel
  have writes : (Runs.run (step providerSystem) { shared := labBackend } contactFirst).map (fun last =>
      (last.history.filter fun entry => entry.label.2.writesStore).length) = some 2 := by
    decide +kernel
  obtain ⟨last, whole, two⟩ := Option.map_eq_some_iff.mp writes
  exact ⟨last, whole, two, accounts_spare_administration labBackend_keyed labBackend_one meets whole⟩

def contactMeanwhile : List (Event ProviderEdit Empty) :=
  [.spawn 0 (.account labClient labProvider.id), .advance 0, .advance 0, .spawn 1 addContact, .advance 1, .advance 1,
    .advance 1, .advance 1, .advance 0, .advance 0, .advance 0, .advance 0, .advance 0, .advance 0]

def contactsOf (store : Certificates.Store) (id : Text) : Option (List Text) :=
  ((store .providers)[id]?.bind Except.toOption).map AcmeProvider.contacts

/-- An account that writes other contacts than it finds. -/
def changesContacts (id : Text) (entry : Entry ProviderEditAction Backend) : Bool :=
  match entry.label with
  | (.account .., .database (.write batch)) =>
    contactsOf (Families.write entry.found.world.store batch) id != contactsOf entry.found.world.store id
  | _ => false

theorem Spares.changesContacts_eq_false {entry : Entry ProviderEditAction Backend} (spares : Spares entry) (id : Text) :
    changesContacts id entry = false := by
  unfold changesContacts
  split
  · rename_i client providerId batch written
    rw [Spares, written] at spares
    have same : contactsOf (Families.write entry.found.world.store batch) id =
        contactsOf entry.found.world.store id := by
      have rows := spares id
      unfold contactsOf
      revert rows
      generalize (entry.found.world.store .providers)[id]? = before
      generalize (Families.write entry.found.world.store batch .providers)[id]? = after
      rintro (⟨spared⟩ | -)
      · cases spared <;> rfl
      · rfl
    simp [same]
  · rfl

theorem account_reverts_save :
    ∃ last, Runs.run (step providerSystem) { shared := labBackend } contactMeanwhile = some last ∧
      (last.returned? 1).map Prod.snd = some (.replied noContent) ∧
      contactsOf last.shared.world.store labProvider.id = some [] ∧ ¬ ∀ entry ∈ last.history, Spares entry := by
  have reverted : (Runs.run (step providerSystem) { shared := labBackend } contactMeanwhile).map (fun last =>
      ((last.returned? 1).map Prod.snd, contactsOf last.shared.world.store labProvider.id,
        last.history.any (changesContacts labProvider.id))) = some (some (.replied noContent), some [], true) := by
    decide +kernel
  obtain ⟨last, whole, seen⟩ := Option.map_eq_some_iff.mp reverted
  simp only [Prod.mk.injEq] at seen
  grind [Spares.changesContacts_eq_false]

end Example

end TlsProxy.Control
