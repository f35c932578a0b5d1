import TlsProxy.Acme.Alone
import TlsProxy.Config.Validate
import TlsProxy.Store.Automatic
import TlsProxy.Store.Database

/-! Calls of the store that write certificate records, one after the other:
`bootstrap`, saves, automatic registrations and deletes. -/
namespace TlsProxy.Acme

open Config Checks Certificates Families

structure Server where
  config : TlsProxy.Store.Database := {}
  users : Std.ExtTreeMap Text TlsProxy.Store.UserRecord := ∅
  world : World := {}

section Bootstrap

open TlsProxy.Store (StoredConfig UserRecord)

def controlRecord (domain providerId : Text) (now : OffsetDateTime) : ManagedCertificate where
  id := domain
  domains := [domain]
  providerId
  enabled := true
  automatic := true
  createdAt := some now
  updatedAt := some now

def controlCertificate (config : ControlPlaneConfig) (now : OffsetDateTime) : Except Text (List Certificates.Write) :=
  if config.hostname ≠ [] ∧ config.providerId ≠ [] then do
    let domain ← normalizeDomain config.hostname
    return [.put .certificates domain (.ok (controlRecord domain config.providerId now)),
      .put .domainIndex domain domain]
  else .ok []

def bootstrap (env : Environment) (config : RuntimeConfig) (administrator : UserRecord) (now : OffsetDateTime)
    (server : Server) : Except Text (StoredConfig × Server) := do
  require (server.config.isInitialized = false) "initial setup is already complete".toList
  require (Text.trim administrator.username ≠ [] ∧ administrator.passwordHash ≠ [] ∧
    administrator.administrator = true) "a valid initial administrator is required".toList
  config.validate env
  let stored : StoredConfig := { revision := 1, updatedBy := administrator.username, config }
  let batch ← controlCertificate config.controlPlane now
  return (stored, { server with
    config := server.config.write stored
    users := server.users.insert administrator.username administrator
    world.store := write server.world.store batch })

end Bootstrap

section Ensure

variable (providerId : Text) (clock : Text → OffsetDateTime)

def ensureHost (host : Text) : Task Bool := do
  let domain ← ofExcept (normalizeDomain host)
  match ← certificateForDomain domain with
  | some _ => return false
  | none =>
    saveManagedCertificate (automaticCertificate domain providerId) (clock domain)
    return true

def ensureHosts : List Text → Task Nat
  | [] => return 0
  | host :: rest => do
    let created ← ensureHost providerId clock host
    let others ← ensureHosts rest
    return created.toNat + others

end Ensure

def ensureAutomaticCertificates (config : RuntimeConfig) (clock : Text → OffsetDateTime) : Task Nat :=
  if config.acme.enabled then do
    let providerId ← query defaultProviderId
    ensureHosts providerId clock (terminatingHosts config)
  else return 0

section Refines

variable {w : World} (providerId : Text) (clock : Text → OffsetDateTime)

def registered (w : World) : Except Text (Bool × Certificates.Store) → Except Text Bool × World
  | .ok (created, store) => (.ok created, { w with store })
  | .error cause => (.error cause, w)

/-- With nothing else running, a host is registered as the sequential description says, also when that fails. -/
theorem ensureHost_alone (free : w.gate = false) (host : Text) :
    Task.alone (ensureHost providerId clock host) w =
      some (registered w (Certificates.ensureHost providerId clock w.store host)) := by
  have released : { w with gate := false } = w := by
    rw [← free]
  unfold Certificates.ensureHost ensureHost
  cases normalizeDomain host with
  | error cause => rfl
  | ok name =>
    have looked := certificateForDomain_alone name w
    change Task.alone (certificateForDomain name >>= _) w =
      some (registered w (Certificates.certificateForDomain w.store name >>= _))
    generalize Certificates.certificateForDomain w.store name = answer at looked ⊢
    rcases answer with cause | (_ | certificate)
    · exact alone_bind_error looked
    · have inside := underGate_alone free
        (saveManagedCertificateLocked_alone (automaticCertificate name providerId) (clock name) { w with gate := true })
      refine (alone_bind_ok looked).trans ?_
      change _ = some (registered w (Certificates.saveManagedCertificateLocked w.store _ _ >>= _))
      dsimp only at inside
      generalize Certificates.saveManagedCertificateLocked w.store (automaticCertificate name providerId) (clock name) =
        saved at inside ⊢
      rcases saved with cause | batch
      · exact (alone_bind_error inside).trans (congrArg (fun w => some (Except.error cause, w)) released)
      · exact (alone_bind_ok inside).trans (by rw [← released]; rfl)
    · exact alone_bind_ok looked

/-- So are all hosts, and what was registered before a failure stays. -/
theorem ensureHosts_alone (free : w.gate = false) (hosts : List Text) :
    Task.alone (ensureHosts providerId clock hosts) w =
      some ((registerHosts providerId clock w.store hosts).1,
        { w with store := (registerHosts providerId clock w.store hosts).2 }) := by
  induction hosts generalizing w with
  | nil => rfl
  | cons host rest ih =>
    have first := ensureHost_alone providerId clock free host
    rw [ensureHosts, registerHosts]
    generalize Certificates.ensureHost providerId clock w.store host = answer at first ⊢
    rcases answer with cause | ⟨created, store⟩
    · exact alone_bind_error first
    · have later := @ih { w with store } free
      refine (alone_bind_ok first).trans ?_
      dsimp only at later ⊢
      generalize registerHosts providerId clock store rest = rest at later ⊢
      rcases rest with ⟨cause | others, last⟩
      · exact alone_bind_error later
      · exact alone_bind_ok later

end Refines

inductive StoreCall
  | bootstrap (env : Environment) (config : RuntimeConfig) (administrator : TlsProxy.Store.UserRecord)
      (now : OffsetDateTime)
  | save (certificate : ManagedCertificate) (now : OffsetDateTime)
  | create (domain : Text) (now : OffsetDateTime)
  | ensure (config : RuntimeConfig) (clock : Text → OffsetDateTime)
  | delete (certificateId : Text)

def StoreCall.names : StoreCall → List Text
  | .bootstrap _ config _ _ => [config.controlPlane.hostname]
  | .save certificate _ => certificate.domains
  | .create domain _ => [domain]
  | .ensure config _ => terminatingHosts config
  | .delete _ => []

def Server.after {α : Type} (server : Server) (task : Task α) : Option Server :=
  ((Task.alone task server.world).map Prod.snd).map fun world => { server with world }

def storeStep (server : Server) : StoreCall → Option Server
  | .bootstrap env config administrator now =>
    match bootstrap env config administrator now server with
    | .ok (_, next) => some next
    | .error _ => some server
  | .save certificate now => server.after (saveManagedCertificate certificate now)
  | .create domain now => server.after (createAutomaticCertificateIfAbsent domain now)
  | .ensure config clock => server.after (ensureAutomaticCertificates config clock)
  | .delete certificateId => server.after (deleteManagedCertificate certificateId)

/-- The index lists exactly the records, each of which has its own normal ID as its only domain. -/
structure Indexed (store : Certificates.Store) : Prop where
  rows : ∀ (id : Text) (row : Json ManagedCertificate), (store .certificates)[id]? = some row →
    normalizeDomain id = .ok id ∧ ∃ certificate, row = .ok certificate ∧ certificate.id = id ∧
      certificate.domains = [id]
  index : ∀ domain id : Text, (store .domainIndex)[domain]? = some id ↔
    id = domain ∧ (store .certificates)[domain]? ≠ none

section Indexed

variable {store next : Certificates.Store}

theorem indexed_empty : Indexed .empty where
  rows := by
    intro id row found
    cases found
  index := by
    intro domain id
    constructor
    · intro found
      cases found
    · rintro ⟨-, there⟩
      exact absurd rfl there

theorem Indexed.put (indexed : Indexed store) {certificate : ManagedCertificate}
    (normal : normalizeDomain certificate.id = .ok certificate.id) (single : certificate.domains = [certificate.id])
    (rows : next .certificates = (store .certificates).insert certificate.id (.ok certificate))
    (index : next .domainIndex = (store .domainIndex).insert certificate.id certificate.id) : Indexed next where
  rows := by
    intro id row found
    rw [rows, getElem?_insert] at found
    split at found
    · grind
    · exact indexed.rows id row found
  index := by
    intro domain id
    rw [rows, index, getElem?_insert, getElem?_insert]
    grind [Indexed.index]

theorem Indexed.erase (indexed : Indexed store) {removed : Text}
    (rows : next .certificates = (store .certificates).erase removed)
    (index : next .domainIndex = (store .domainIndex).erase removed) : Indexed next where
  rows := by grind [Indexed.rows]
  index := by
    intro domain id
    rw [rows, index, getElem?_erase, getElem?_erase]
    grind [Indexed.index]

theorem Indexed.managedCertificate (indexed : Indexed store) {id : Text} {found : Option ManagedCertificate}
    (read : managedCertificate store id = .ok found) :
    (found.map ManagedCertificate.domains).getD [] = (found.map fun _ => id).toList := by
  cases found with
  | none => rfl
  | some certificate =>
    obtain ⟨-, _, same, -, single⟩ := indexed.rows id _ ((decoded_eq_ok read certificate).mp rfl)
    grind

/-- A save adds or replaces the record of its own domain and changes no other entry of the index. -/
theorem Indexed.save (indexed : Indexed store) {certificate : ManagedCertificate} {now : OffsetDateTime}
    {batch : List Certificates.Write}
    (solid : ∀ domain ∈ certificate.domains, ∀ c ∈ domain, Text.isWhitespace c = false)
    (saved : Certificates.saveManagedCertificateLocked store certificate now = .ok batch) :
    Indexed (write store batch) := by
  obtain ⟨domain, existing, old, single, read, normal, plain, owned, released, rfl⟩ :=
    saveManagedCertificateLocked_eq_ok.mp saved
  have fixed : normalizeDomain certificate.id = .ok certificate.id :=
    normalizeDomain_normal (solid domain (by grind)) normal
  have same : old = (existing.map fun _ => certificate.id).toList := by
    rw [indexed.managedCertificate read] at released
    cases existing with
    | none => exact (Except.ok.inj released).symm
    | some _ =>
      cases (mapM_eq_ok.mpr (.cons fixed .nil)).symm.trans released
      rfl
  have kept : (old.filter fun other => !([certificate.id].contains other)) = [] := by
    rw [same]
    cases existing <;> simp
  rw [saveBatch, kept, List.map_nil, List.nil_append]
  exact @Indexed.put store _ indexed { certificate with
    domains := [certificate.id]
    createdAt := (existing.bind ManagedCertificate.createdAt).or (some now)
    updatedAt := some now } fixed rfl rfl rfl

theorem Indexed.delete (indexed : Indexed store) (id : Text) (generations diagnostics : List Text) :
    Indexed (write store (deleteBatch id [id] generations diagnostics)) := by
  have untouched : ∀ {family other : ColumnFamily} (_ : other ≠ family) (keys : List Text),
      ∀ item ∈ keys.map (Families.Write.delete other : Text → Certificates.Write),
        Families.Write.on family item = none := by grind [Write.on_delete_of_ne]
  apply indexed.erase
  · rw [deleteBatch, write_append, write_of_untouched (untouched (by decide) diagnostics), write_append,
      write_of_untouched (untouched (by decide) generations)]
    rfl
  · rw [deleteBatch, write_append, write_of_untouched (untouched (by decide) diagnostics), write_append,
      write_of_untouched (untouched (by decide) generations)]
    rfl

theorem write_saveBatch (certificate : ManagedCertificate) (existing : Option ManagedCertificate)
    (old normalized : List Text) (now : OffsetDateTime) :
    write store (saveBatch certificate existing old normalized now) .certificates =
      (store .certificates).insert certificate.id (.ok { certificate with
        domains := normalized
        createdAt := (existing.bind ManagedCertificate.createdAt).or (some now)
        updatedAt := some now }) := by
  have untouched : write store ((old.filter fun domain => !normalized.contains domain).map (.delete .domainIndex) ++
      normalized.map fun domain => .put .domainIndex domain certificate.id) .certificates = store .certificates := by
    apply write_of_untouched
    intro item member
    grind [Write.on_delete_of_ne, Write.on_put_of_ne]
  rw [saveBatch, write_append, write_put, untouched]

theorem Indexed.ne_none (indexed : Indexed store) {name : Text} (normal : normalizeDomain name = .ok name)
    {row : Json ManagedCertificate} (there : (store .certificates)[name]? = some row) :
    Certificates.certificateForDomain store name ≠ .ok none := by
  obtain ⟨-, certificate, rfl, -⟩ := indexed.rows name row there
  have listed : (store .domainIndex)[name]? = some name := (indexed.index name name).mpr ⟨rfl, by rw [there]; simp⟩
  rw [certificateForDomain_of_listed store normal listed, Certificates.managedCertificate, there]
  intro same
  cases same

end Indexed

/-- Between calls the index is exact and nobody holds the gate. -/
structure AtRest (w : World) : Prop where
  indexed : Indexed w.store
  free : w.gate = false

section Tasks

variable {w : World}

theorem saveManagedCertificate_atRest (rest : AtRest w) {certificate : ManagedCertificate} (now : OffsetDateTime)
    (solid : ∀ domain ∈ certificate.domains, ∀ c ∈ domain, Text.isWhitespace c = false) :
    Leaves (fun after _ => AtRest after) (fun after _ => AtRest after) w (saveManagedCertificate certificate now) := by
  refine Leaves.underGate rest.free (leaves_iff.mpr ⟨_, _, saveManagedCertificateLocked_alone .., ?_⟩)
  dsimp only
  cases saved : Certificates.saveManagedCertificateLocked w.store certificate now with
  | ok batch => exact ⟨rest.indexed.save solid saved, rfl⟩
  | error cause => exact ⟨rest.indexed, rfl⟩

theorem certificateForDomain_leaves {ok : World → Option ManagedCertificate → Prop} {failed : World → Text → Prop}
    {domain : Text} (holds : ∀ found, Certificates.certificateForDomain w.store domain = .ok found → ok w found)
    (fails : ∀ cause, failed w cause) : Leaves ok failed w (certificateForDomain domain) := by
  refine leaves_iff.mpr ⟨_, _, certificateForDomain_alone domain w, ?_⟩
  cases found : Certificates.certificateForDomain w.store domain with
  | ok certificate => exact holds certificate found
  | error cause => exact fails cause

theorem ensureHost_atRest (rest : AtRest w) (providerId : Text) (clock : Text → OffsetDateTime) {host : Text}
    (solid : ∀ c ∈ host, Text.isWhitespace c = false) :
    Leaves (fun after _ => AtRest after) (fun after _ => AtRest after) w (ensureHost providerId clock host) := by
  refine Leaves.bind (Leaves.ofExcept (fun name normal => ?_) fun _ _ => rest)
  refine Leaves.bind (certificateForDomain_leaves (fun found _ => ?_) fun _ => rest)
  cases found with
  | some certificate => exact Leaves.pure rest
  | none =>
    have named : ∀ domain ∈ [name], ∀ c ∈ domain, Text.isWhitespace c = false := by grind [normalizeDomain_solid]
    refine Leaves.bind ((saveManagedCertificate_atRest rest (clock name) named).mono ?_ fun _ _ => id)
    exact fun _ _ rest => Leaves.pure rest

theorem ensureHosts_atRest (rest : AtRest w) (providerId : Text) (clock : Text → OffsetDateTime) {hosts : List Text}
    (solid : ∀ host ∈ hosts, ∀ c ∈ host, Text.isWhitespace c = false) :
    Leaves (fun after _ => AtRest after) (fun after _ => AtRest after) w (ensureHosts providerId clock hosts) := by
  induction hosts generalizing w with
  | nil => exact Leaves.pure rest
  | cons host others ih =>
    have first := ensureHost_atRest rest providerId clock (solid host List.mem_cons_self)
    refine Leaves.bind (first.mono ?_ fun _ _ => id)
    intro w created rest
    refine Leaves.bind ((ih rest fun other later => solid other (List.mem_cons_of_mem _ later)).mono ?_ fun _ _ => id)
    exact fun _ _ rest => Leaves.pure rest

theorem ensureAutomaticCertificates_atRest (rest : AtRest w) {config : RuntimeConfig} (clock : Text → OffsetDateTime)
    (solid : ∀ host ∈ terminatingHosts config, ∀ c ∈ host, Text.isWhitespace c = false) :
    Leaves (fun after _ => AtRest after) (fun after _ => AtRest after) w (ensureAutomaticCertificates config clock) := by
  unfold ensureAutomaticCertificates
  split
  · grind [Leaves.bind, Leaves.query, ensureHosts_atRest]
  · exact Leaves.pure rest

theorem createIfAbsentLocked_leaves (name : Text) (now : OffsetDateTime) :
    Leaves (fun after _ => after = w ∨ ∃ providerId batch,
        Certificates.certificateForDomain w.store name = .ok none ∧
        Certificates.saveManagedCertificateLocked w.store (automaticCertificate name providerId) now = .ok batch ∧
        after = { w with store := write w.store batch })
      (fun after _ => after = w) w (createIfAbsentLocked name now) := by
  refine Leaves.bind (certificateForDomain_leaves (fun found absent => ?_) fun _ => rfl)
  cases found with
  | some certificate => exact Leaves.pure (.inl rfl)
  | none =>
    refine Leaves.bind (Leaves.query (fun providerId _ => Leaves.bind ?_) fun _ _ => rfl)
    refine leaves_iff.mpr ⟨_, _, saveManagedCertificateLocked_alone .., ?_⟩
    cases saved : Certificates.saveManagedCertificateLocked w.store (automaticCertificate name providerId) now with
    | ok batch => exact Leaves.pure (.inr ⟨providerId, batch, absent, saved, rfl⟩)
    | error cause => rfl

theorem createAutomaticCertificateIfAbsent_atRest (rest : AtRest w) {domain : Text} (now : OffsetDateTime)
    (solid : ∀ c ∈ domain, Text.isWhitespace c = false) :
    Leaves (fun after _ => AtRest after) (fun after _ => AtRest after) w
      (createAutomaticCertificateIfAbsent domain now) := by
  refine Leaves.bind (Leaves.ofExcept (fun name normal => Leaves.underGate rest.free ?_) fun _ _ => rest)
  refine (createIfAbsentLocked_leaves name now).mono ?_ ?_
  · rintro after _ (rfl | ⟨providerId, batch, -, saved, rfl⟩)
    · exact ⟨rest.indexed, rfl⟩
    · refine ⟨rest.indexed.save ?_ saved, rfl⟩
      intro other member
      cases List.mem_singleton.mp member
      exact normalizeDomain_solid solid normal
  · rintro after _ rfl
    exact ⟨rest.indexed, rfl⟩

def Additive (w after : World) : Prop :=
  ∀ (id : Text) (row : Json ManagedCertificate), (w.store .certificates)[id]? = some row →
    (after.store .certificates)[id]? = some row

theorem createAutomaticCertificateIfAbsent_additive (rest : AtRest w) (domain : Text) (now : OffsetDateTime) :
    Leaves (fun after _ => Additive w after) (fun after _ => Additive w after) w
      (createAutomaticCertificateIfAbsent domain now) := by
  have unchanged : Additive w w := fun _ _ => id
  refine Leaves.bind (Leaves.ofExcept (fun name normal => Leaves.underGate rest.free ?_) fun _ _ => unchanged)
  refine (createIfAbsentLocked_leaves name now).mono ?_ ?_
  · rintro after _ (rfl | ⟨providerId, batch, absent, saved, rfl⟩)
    · exact unchanged
    · obtain ⟨_, existing, old, single, -, fixed, -, -, -, rfl⟩ := saveManagedCertificateLocked_eq_ok.mp saved
      cases single
      intro id row there
      dsimp only
      rw [write_saveBatch, getElem?_insert, if_neg]
      · exact there
      · rintro rfl
        exact rest.indexed.ne_none fixed there absent
  · rintro after _ rfl
    exact unchanged

theorem deleteManagedCertificate_atRest (rest : AtRest w) (id : Text) :
    Leaves (fun after _ => AtRest after) (fun after _ => AtRest after) w (deleteManagedCertificate id) := by
  refine Leaves.bind (Leaves.query (fun found read => ?_) fun _ _ => rest)
  cases found with
  | none => exact Leaves.pure rest
  | some certificate =>
    have there := (decoded_eq_ok read certificate).mp rfl
    obtain ⟨normal, _, same, -, single⟩ := rest.indexed.rows id _ there
    cases same
    have listed : (w.store .domainIndex)[id]? = some id := (rest.indexed.index id id).mpr ⟨rfl, by rw [there]; simp⟩
    have named : certificate.domains.mapM normalizeDomain = .ok [id] := by
      rw [single, List.mapM_cons, normal]
      rfl
    have owned : Task.alone (ownedDomains id certificate.domains) w = some (.ok [id], w) := by
      rw [ownedDomains_alone id named, List.filter_cons_of_pos (by simp [listed]), List.filter_nil]
    refine Leaves.bind (leaves_iff.mpr ⟨_, _, owned, ?_⟩)
    refine Leaves.bind (Leaves.query (fun generations _ => ?_) fun _ _ => rest)
    refine Leaves.bind (Leaves.query (fun diagnostics _ => ?_) fun _ _ => rest)
    refine Leaves.bind (Leaves.commit (Leaves.pure ⟨rest.indexed.delete id generations diagnostics, rest.free⟩))

end Tasks

theorem controlCertificate_indexed {store : Certificates.Store} (indexed : Indexed store) {config : ControlPlaneConfig}
    {now : OffsetDateTime} {batch : List Certificates.Write}
    (solid : ∀ c ∈ config.hostname, Text.isWhitespace c = false)
    (made : controlCertificate config now = .ok batch) : Indexed (write store batch) := by
  unfold controlCertificate at made
  split at made
  · obtain ⟨domain, normal, made⟩ := bind_eq_ok.mp made
    cases made
    exact @Indexed.put store _ indexed (controlRecord domain config.providerId now)
      (normalizeDomain_normal solid normal) rfl rfl rfl
  · cases made
    exact indexed

theorem bootstrap_atRest {server next : Server} (rest : AtRest server.world) {env : Environment}
    {config : RuntimeConfig} {administrator : TlsProxy.Store.UserRecord} {now : OffsetDateTime}
    {stored : TlsProxy.Store.StoredConfig} (solid : ∀ c ∈ config.controlPlane.hostname, Text.isWhitespace c = false)
    (done : bootstrap env config administrator now server = .ok (stored, next)) : AtRest next.world := by
  obtain ⟨⟨⟩, -, done⟩ := bind_eq_ok.mp done
  obtain ⟨⟨⟩, -, done⟩ := bind_eq_ok.mp done
  obtain ⟨⟨⟩, -, done⟩ := bind_eq_ok.mp done
  obtain ⟨batch, made, done⟩ := bind_eq_ok.mp done
  cases done
  exact ⟨controlCertificate_indexed rest.indexed solid made, rest.free⟩

theorem Server.exists_after {α : Type} {server : Server} {task : Task α} {kept : World → Prop}
    (leaves : Leaves (fun after _ => kept after) (fun after _ => kept after) server.world task) :
    ∃ next, server.after task = some next ∧ kept next.world := by
  obtain ⟨world, done, holds⟩ := leaves.exists_alone
  grind [Server.after]

theorem storeStep_atRest {server : Server} (rest : AtRest server.world) {call : StoreCall}
    (solid : ∀ domain ∈ call.names, ∀ c ∈ domain, Text.isWhitespace c = false) :
    ∃ next, storeStep server call = some next ∧ AtRest next.world := by
  cases call with
  | bootstrap env config administrator now =>
    cases done : bootstrap env config administrator now server with
    | ok result =>
      refine ⟨result.2, by rw [storeStep, done], ?_⟩
      exact bootstrap_atRest rest (solid _ (List.mem_singleton_self _)) done
    | error cause => grind [storeStep]
  | save certificate now => exact Server.exists_after (saveManagedCertificate_atRest rest now solid)
  | create domain now =>
    have named := solid domain (List.mem_singleton_self domain)
    exact Server.exists_after (createAutomaticCertificateIfAbsent_atRest rest now named)
  | ensure config clock => exact Server.exists_after (ensureAutomaticCertificates_atRest rest clock solid)
  | delete certificateId => exact Server.exists_after (deleteManagedCertificate_atRest rest certificateId)

/-- After every sequence of calls the index lists exactly the records, and a registration would change none of them. -/
theorem domain_index_exact (calls : List StoreCall)
    (solid : ∀ call ∈ calls, ∀ domain ∈ call.names, ∀ c ∈ domain, Text.isWhitespace c = false) :
    ∃ last, Runs.run storeStep {} calls = some last ∧
      (∀ domain id : Text, (last.world.store .domainIndex)[domain]? = some id ↔
        ∃ certificate : ManagedCertificate, (last.world.store .certificates)[id]? = some (.ok certificate) ∧
          certificate.domains = [domain] ∧ id = domain) ∧
      (∀ (id : Text) (row : Json ManagedCertificate), (last.world.store .certificates)[id]? = some row →
        normalizeDomain id = .ok id) ∧
      ∀ domain now, ∃ next, storeStep last (.create domain now) = some next ∧ Additive last.world next.world := by
  have start : AtRest ({} : Server).world := ⟨indexed_empty, rfl⟩
  obtain ⟨last, whole, rest⟩ := @Runs.exists_run _ _ storeStep (fun server => AtRest server.world) calls
    (fun call member server rest => storeStep_atRest rest (solid call member)) _ start
  refine ⟨last, whole, ?_, fun id row found => (rest.indexed.rows id row found).1, ?_⟩
  · intro domain id
    rw [rest.indexed.index]
    constructor
    · rintro ⟨rfl, there⟩
      obtain ⟨row, found⟩ := Option.ne_none_iff_exists'.mp there
      obtain ⟨-, certificate, rfl, -, single⟩ := rest.indexed.rows id row found
      exact ⟨certificate, found, single, rfl⟩
    · grind
  · intro domain now
    exact Server.exists_after (createAutomaticCertificateIfAbsent_additive rest domain now)

def shopCalls : List StoreCall :=
  [.create "Shop.Example.".toList 0,
    .save { id := "shop.example".toList, domains := ["shop.example".toList], enabled := false } 1,
    .create "shop.example".toList 2, .delete "other.example".toList]

theorem domain_index_exact_shop :
    (∀ call ∈ shopCalls, ∀ domain ∈ call.names, ∀ c ∈ domain, Text.isWhitespace c = false) ∧
    ∃ last, Runs.run storeStep {} shopCalls = some last ∧
      ∀ domain id : Text, (last.world.store .domainIndex)[domain]? = some id ↔
        ∃ certificate : ManagedCertificate, (last.world.store .certificates)[id]? = some (.ok certificate) ∧
          certificate.domains = [domain] ∧ id = domain := by
  have solid : ∀ call ∈ shopCalls, ∀ domain ∈ call.names, ∀ c ∈ domain, Text.isWhitespace c = false := by
    have checked : (shopCalls.all fun call => call.names.all (·.all (!Text.isWhitespace ·))) = true := by
      decide +kernel
    simpa only [List.all_eq_true, Bool.not_eq_true'] using checked
  obtain ⟨last, whole, exactly, -⟩ := domain_index_exact shopCalls solid
  exact ⟨solid, last, whole, exactly⟩

end TlsProxy.Acme
