import TlsProxy.Acme.DomainIndex
import TlsProxy.Control.Publication
import TlsProxy.Lib.Linearization

/-! The handlers that save, delete and publish certificates, and automatic
registration. A handler does its work in a blocking call, which goes on when the
handler is dropped. The guard of `config_write` is released then, so that it
keeps no two of these calls apart; the gate of the store is held by the calls
themselves. -/
namespace TlsProxy.Control

open Config Checks Certificates Acme Programs

/-- The certificate as the handler takes it: manual, and under its normalized domain if there is just one. -/
def named (certificate : ManagedCertificate) : Except Text ManagedCertificate :=
  match certificate.domains with
  | [domain] => do
    let domain ← normalizeDomain domain
    return { certificate with automatic := false, id := domain, domains := [domain] }
  | _ => .ok { certificate with automatic := false }

def notQualified (domain : Text) : Text :=
  quoted domain ++ " is not a fully-qualified domain name (it has no dot); did you mean `".toList ++ domain ++
    ".<your-domain>`?".toList

def saveCertificate (certificate : ManagedCertificate) (now : OffsetDateTime) : Acme.Task Unit := do
  let certificate ← Acme.ofExcept (named certificate)
  match certificate.domains.find? (!·.contains '.') with
  | some domain => throw (notQualified domain)
  | none => saveManagedCertificate certificate now

def updateCertificatePublish (id : Text) (publish : PublishPolicy) (now : OffsetDateTime) : Acme.Task Unit := do
  match ← query (managedCertificate · id) with
  | none => throw "managed certificate not found".toList
  | some certificate => saveManagedCertificate { certificate with publish } now

def deletedResponse : Except Text Bool → Response
  | .ok true => noContent
  | .ok false => notFound
  | .error cause => { status := 409, body := .text cause }

inductive EditCall
  | publish (id : Text) (policy : PublishPolicy) (now : OffsetDateTime)
  | save (certificate : ManagedCertificate) (now : OffsetDateTime)
  | delete (id : Text)
  | register (domain : Text) (now : OffsetDateTime)
deriving DecidableEq

inductive Answer
  | replied (response : Response)
  | registered (result : Except Text Bool)
deriving DecidableEq

def Answer.completed : Answer → Bool
  | .replied response => response.status == 204 || response.status == 404
  | .registered result => result.toOption.isSome

def EditCall.program : EditCall → Program Action World Answer
  | .publish id policy now => do return .replied (savedResponse (← (updateCertificatePublish id policy now).run))
  | .save certificate now => do return .replied (savedResponse (← (saveCertificate certificate now).run))
  | .delete id => do return .replied (deletedResponse (← (deleteManagedCertificate id).run))
  | .register domain now => do return .registered (← (createAutomaticCertificateIfAbsent domain now).run)

abbrev EditAction := EditCall × Action

def editSystem : System EditCall Empty EditAction World Answer where
  program call := call.program.embed (Prod.mk call) id
  effect label := effect label.2
  outside := nofun

abbrev EditState := State EditCall EditAction World Answer

abbrev Table := Text → Option ManagedCertificate

def table (store : Certificates.Store) : Table := fun id => (store .certificates)[id]?.bind Except.toOption

def stamped (now : OffsetDateTime) (existing : Option ManagedCertificate) (certificate : ManagedCertificate) :
    ManagedCertificate :=
  { certificate with
    createdAt := (existing.bind ManagedCertificate.createdAt).or (some now)
    updatedAt := some now }

def EditCall.target : EditCall → Option Text
  | .publish id .. | .delete id => some id
  | .save certificate _ =>
    match certificate.domains with
    | [domain] => (normalizeDomain domain).toOption
    | _ => none
  | .register domain _ => (normalizeDomain domain >>= normalizeDomain).toOption

def EditCall.edit (provider : Except Text Text) (name : Text) (row : Option ManagedCertificate) :
    EditCall → Option ManagedCertificate
  | .publish _ policy now => row.map fun certificate => stamped now row { certificate with publish := policy }
  | .save certificate now =>
    some (stamped now row { certificate with automatic := false, id := name, domains := [name] })
  | .delete _ => none
  | .register _ now => row.or (provider.toOption.map fun providerId =>
    stamped now none (automaticCertificate name providerId))

def EditCall.apply (provider : Except Text Text) (call : EditCall) (rows : Table) : Table :=
  match call.target with
  | none => rows
  | some name => Function.update rows name (call.edit provider name (rows name))

/-- The table is the result of the completed calls, and possibly of some that have not returned, in the order of one
action of each. -/
def Serial (first : World) (last : EditState) : Prop :=
  ∃ order : List (Entry EditAction World), order.Sublist last.history ∧ (order.map Entry.task).Nodup ∧
    (∀ task call answer, last.returned? task = some (call, answer) →
      if answer.completed then ∃ entry ∈ order, entry.task = task ∧ entry.label.1 = call
      else ∀ entry ∈ order, entry.task ≠ task) ∧
    table last.shared.store =
      order.foldl (fun rows entry => entry.label.1.apply (defaultProviderId first.store) rows) (table first.store)

/-- How many actions of its own lie between the first read of the row by a call and its write. -/
def EditCall.between : EditCall → Option Nat
  | .publish .. => some 3
  | .save .. => some 1
  | .delete _ | .register .. => none

/-- A save or a change of the publication writes its row only if nobody has written it since the call has read it. -/
def Unedited (_ : World) (past : List (Entry EditAction World)) (task : Nat) (label : EditAction) : Prop :=
  match label with
  | (call, .write _) => ∀ between ∈ call.between, ∀ name ∈ call.target,
      ((since task between past).all fun entry => !entry.label.2.writes .certificates name) = true
  | _ => True

instance (w : World) (past : List (Entry EditAction World)) (task : Nat) :
    (label : EditAction) → Decidable (Unedited w past task label)
  | (call, .write _) => inferInstanceAs (Decidable (∀ between ∈ call.between, ∀ name ∈ call.target,
      ((since task between past).all fun entry => !entry.label.2.writes .certificates name) = true))
  | (_, .read) | (_, .lock) | (_, .unlock) | (_, .load _) | (_, .swap _) | (_, .recallRejection ..)
  | (_, .putRejection ..) | (_, .script ..) | (_, .verified ..) => .isTrue trivial

/-- The rows of certificates lie under their normal domains, where the index lists them; it may list more. -/
structure Recorded (store : Certificates.Store) : Prop where
  rows : ∀ (id : Text) (row : Json ManagedCertificate), (store .certificates)[id]? = some row →
    normalizeDomain id = .ok id ∧ ∃ certificate, row = .ok certificate ∧ certificate.id = id ∧
      certificate.domains = [id]
  index : ∀ domain id : Text, (store .domainIndex)[domain]? = some id → id = domain
  listed : ∀ id : Text, (store .certificates)[id]? ≠ none → (store .domainIndex)[id]? ≠ none

theorem recorded_of_indexed {store : Certificates.Store} (indexed : Indexed store) : Recorded store where
  rows := indexed.rows
  index := fun domain id found => ((indexed.index domain id).mp found).1
  listed := by
    intro id there
    rw [(indexed.index id id).mpr ⟨rfl, there⟩]
    exact Option.some_ne_none id

def putBatch (certificate : ManagedCertificate) : List Certificates.Write :=
  [.put .domainIndex certificate.id certificate.id, .put .certificates certificate.id (.ok certificate)]

section Store

variable {store : Certificates.Store}

theorem table_eq_none {id : Text} (absent : (store .certificates)[id]? = none) : table store id = none := by
  rw [table, absent]
  rfl

theorem Recorded.managedCertificate (recorded : Recorded store) (id : Text) :
    managedCertificate store id = .ok (table store id) := by
  unfold Certificates.managedCertificate table
  cases found : (store .certificates)[id]? with
  | none => rfl
  | some row =>
    obtain ⟨-, certificate, rfl, -⟩ := recorded.rows id row found
    rfl

theorem Recorded.of_table (recorded : Recorded store) {id : Text} {certificate : ManagedCertificate}
    (there : table store id = some certificate) :
    normalizeDomain id = .ok id ∧ certificate.id = id ∧ certificate.domains = [id] := by
  obtain ⟨row, found, same⟩ := Option.bind_eq_some_iff.mp there
  obtain ⟨normal, certificate, rfl, rest⟩ := recorded.rows id row found
  cases same
  exact ⟨normal, rest⟩

theorem Recorded.checkOwner (recorded : Recorded store) (id : Text) : checkOwner store id id = .ok () := by
  unfold Certificates.checkOwner
  split
  · rfl
  · rename_i owner found
    exact require_eq_ok.mpr (recorded.index id owner found)

theorem table_put (certificate : ManagedCertificate) :
    table (Families.write store (putBatch certificate)) =
      Function.update (table store) certificate.id (some certificate) := by
  funext id
  by_cases own : id = certificate.id
  · subst own
    rw [Function.update_self, table]
    rcases Families.getElem?_write_cases store (putBatch certificate) .certificates certificate.id with
      ⟨row, put, found⟩ | ⟨deleted, -⟩ | ⟨none, -⟩
    · have same : row = .ok certificate := by simpa [putBatch] using put
      rw [found, same]
      rfl
    · simp [putBatch] at deleted
    · grind [putBatch]
  · rw [Function.update_of_ne own, table, table]
    rcases Families.getElem?_write_cases store (putBatch certificate) .certificates id with
      ⟨row, put, -⟩ | ⟨deleted, -⟩ | ⟨-, -, same⟩
    · grind [putBatch]
    · simp [putBatch] at deleted
    · rw [same]

theorem table_delete (id : Text) (domains generations diagnostics : List Text) :
    table (Families.write store (deleteBatch id domains generations diagnostics)) =
      Function.update (table store) id none := by
  funext other
  have erased : (Families.write store (deleteBatch id domains generations diagnostics) .certificates)[other]? =
      if other = id then none else (store .certificates)[other]? := by
    rcases Families.getElem?_write_cases store (deleteBatch id domains generations diagnostics) .certificates other with
      ⟨row, put, -⟩ | ⟨deleted, found⟩ | ⟨-, kept, same⟩
    · simp [deleteBatch] at put
    · have own : other = id := by simpa [deleteBatch] using deleted
      rw [found, if_pos own]
    · grind [deleteBatch]
  grind [table]

theorem Recorded.put (recorded : Recorded store) {certificate : ManagedCertificate}
    (normal : normalizeDomain certificate.id = .ok certificate.id) (single : certificate.domains = [certificate.id]) :
    Recorded (Families.write store (putBatch certificate)) where
  rows := by
    intro id row found
    rcases Families.mem_or_of_getElem?_write found with put | ⟨there, -⟩
    · grind [putBatch]
    · exact recorded.rows id row there
  index := by
    intro domain id found
    rcases Families.mem_or_of_getElem?_write found with put | ⟨there, -⟩
    · grind [putBatch]
    · exact recorded.index domain id there
  listed := by
    intro id there
    refine Families.getElem?_write_ne_none (by simp [putBatch]) ?_
    by_cases own : id = certificate.id
    · grind [putBatch]
    · obtain ⟨row, found⟩ := Option.ne_none_iff_exists'.mp there
      rcases Families.mem_or_of_getElem?_write found with put | ⟨there, -⟩
      · grind [putBatch]
      · exact .inl (recorded.listed id (by rw [there]; exact Option.some_ne_none row))

theorem Recorded.delete (recorded : Recorded store) {id : Text} {domains : List Text}
    (own : ∀ domain ∈ domains, domain = id) (generations diagnostics : List Text) :
    Recorded (Families.write store (deleteBatch id domains generations diagnostics)) where
  rows := by
    intro other row found
    rcases Families.mem_or_of_getElem?_write found with put | ⟨there, -⟩
    · simp [deleteBatch] at put
    · exact recorded.rows other row there
  index := by
    intro domain other found
    rcases Families.mem_or_of_getElem?_write found with put | ⟨there, -⟩
    · simp [deleteBatch] at put
    · exact recorded.index domain other there
  listed := by
    intro other there
    obtain ⟨row, found⟩ := Option.ne_none_iff_exists'.mp there
    rcases Families.mem_or_of_getElem?_write found with put | ⟨there, kept⟩
    · simp [deleteBatch] at put
    · have different : other ≠ id := by simpa [deleteBatch] using kept
      have unlisted : other ∉ domains := fun member => different (own other member)
      refine Families.getElem?_write_ne_none (by simpa [deleteBatch] using unlisted) (.inl ?_)
      grind [Recorded.listed]

end Store

abbrev Steps := List (EditAction × World)

def holdsGate : Steps → Bool
  | [] => false
  | ((_, .lock), _) :: _ => true
  | ((_, .unlock), _) :: _ => false
  | _ :: earlier => holdsGate earlier

/-- The task has seen under the gate that there is no row. -/
def vacant (name : Text) : Steps → Bool
  | ((_, .read), found) :: earlier => (table found.store name).isNone && holdsGate earlier || vacant name earlier
  | _ => false

def lookedUp : Steps → Bool
  | [((_, .read), _), ((_, .lock), _)] => true
  | _ => false

/-- A call takes effect when it writes, or when it sees that it has nothing to do. -/
def point (steps : Steps) (label : EditAction) (found : World) : Bool :=
  match label with
  | (_, .write _) => true
  | (.delete id, .read) => steps.isEmpty && (table found.store id).isNone
  | (.register domain now, .read) => lookedUp steps &&
      (EditCall.register domain now).target.any fun name => (table found.store name).isSome
  | _ => false

theorem point_write (steps : Steps) (call : EditCall) (batch : List Certificates.Write) (w : World) :
    point steps (call, .write batch) w = true := by
  cases call <;> rfl

theorem point_lock (steps : Steps) (call : EditCall) (w : World) : point steps (call, .lock) w = false := by
  cases call <;> rfl

theorem point_unlock (steps : Steps) (call : EditCall) (w : World) : point steps (call, .unlock) w = false := by
  cases call <;> rfl

theorem lookedUp_eq_false {steps : Steps} (long : 2 < steps.length) : lookedUp steps = false := by
  unfold lookedUp
  grind

theorem pointed_of_lookedUp {steps : Steps} (early : lookedUp steps = true) : pointed point steps = false := by
  unfold lookedUp at early
  split at early
  · rename_i call found other locked
    cases call <;> cases other <;> rfl
  · cases early

def Based (provider : Except Text Text) (call : EditCall) (steps : Steps) (certificate : ManagedCertificate) : Prop :=
  match call with
  | .publish .. => ∃ read before again now, steps[3]? = some (read, before) ∧ steps[1]? = some (again, now) ∧
      (table now.store certificate.id = table before.store certificate.id →
        call.edit provider certificate.id (table before.store certificate.id) = some certificate)
  | .save .. => ∃ read before, steps[1]? = some (read, before) ∧
      call.edit provider certificate.id (table before.store certificate.id) = some certificate
  | .register .. => vacant certificate.id steps = true ∧ call.edit provider certificate.id none = some certificate
  | .delete _ => False

inductive Writes (provider : Except Text Text) (steps : Steps) : EditCall → List Certificates.Write → Prop
  | deletes {id : Text} {domains generations diagnostics : List Text} (own : ∀ domain ∈ domains, domain = id) :
      Writes provider steps (.delete id) (deleteBatch id domains generations diagnostics)
  | puts {call : EditCall} {certificate : ManagedCertificate} (gate : holdsGate steps = true)
      (normal : normalizeDomain certificate.id = .ok certificate.id)
      (single : certificate.domains = [certificate.id]) (target : call.target = some certificate.id)
      (based : Based provider call steps certificate) : Writes provider steps call (putBatch certificate)

def May (provider : Except Text Text) (steps : Steps) (label : EditAction) : Prop :=
  match label.2 with
  | .read | .lock => True
  | .unlock => holdsGate steps = true
  | .write batch => pointed point steps = false ∧ Writes provider steps label.1 batch
  | _ => False

/-- What a task may rely on: nobody fills a row that it has seen missing under the gate. -/
structure Sound (provider : Except Text Text) (steps : Steps) (w : World) : Prop where
  recorded : Recorded w.store
  provider : defaultProviderId w.store = provider
  vacant : ∀ name, vacant name steps = true → table w.store name = none

def editing (provider : Except Text Text) (call : EditCall) : Monitor Action World Steps :=
  (tracking (May provider) (Sound provider)).comap (Prod.mk call)

section Calls

variable {provider : Except Text Text} {call : EditCall} {steps : Steps}

theorem concludes_query {α : Type} {answer : Certificates.Store → Except Text α} {ok : Steps → α → Prop}
    {failed : Steps → Text → Prop}
    (holds : ∀ w a, Sound provider steps w → answer w.store = .ok a → ok (((call, .read), w) :: steps) a)
    (fails : ∀ w cause, Sound provider steps w → answer w.store = .error cause →
      failed (((call, .read), w) :: steps) cause) : Concludes (editing provider call) ok failed steps (query answer) :=
  Concludes.ask trivial holds fails

theorem concludes_commit {batch : List Certificates.Write} {ok : Steps → Unit → Prop} {failed : Steps → Text → Prop}
    (allowed : May provider steps (call, .write batch)) (next : ∀ after, ok (((call, .write batch), after) :: steps) ()) :
    Concludes (editing provider call) ok failed steps (commit batch) := by
  refine Concludes.ask allowed (fun after _ _ _ => next after) ?_
  intro _ _ _ refused
  cases refused

theorem Recorded.mapM_domains {store : Certificates.Store} (recorded : Recorded store) {id : Text} :
    ((table store id).map ManagedCertificate.domains |>.getD []).mapM normalizeDomain =
      .ok ((table store id).map fun _ => id).toList := by
  cases there : table store id with
  | none => rfl
  | some certificate =>
    obtain ⟨normal, -, single⟩ := recorded.of_table there
    rw [Option.map_some, Option.getD_some, single]
    exact mapM_eq_ok.mpr (.cons normal .nil)

theorem saveBatch_eq_putBatch {certificate : ManagedCertificate} (single : certificate.domains = [certificate.id])
    (existing : Option ManagedCertificate) (now : OffsetDateTime) :
    saveBatch certificate existing (existing.map fun _ => certificate.id).toList [certificate.id] now =
      putBatch (stamped now existing certificate) := by
  cases existing <;> simp [saveBatch, putBatch, stamped, single]

theorem saveManagedCertificateLocked_concludes {certificate : ManagedCertificate} {now : OffsetDateTime}
    {ok : Steps → Unit → Prop} {failed : Steps → Text → Prop} (single : certificate.domains = [certificate.id])
    (fails : ∀ w cause, Sound provider steps w → failed (((call, .read), w) :: steps) cause)
    (writes : ∀ before w, Sound provider steps before → normalizeDomain certificate.id = .ok certificate.id →
      May provider (((call, .read), w) :: ((call, .read), before) :: steps)
        (call, .write (putBatch (stamped now (table before.store certificate.id) certificate))))
    (next : ∀ batch before w after, ok (((call, .write batch), after) :: ((call, .read), w) ::
      ((call, .read), before) :: steps) ()) :
    Concludes (editing provider call) ok failed steps (saveManagedCertificateLocked certificate now) := by
  unfold Acme.saveManagedCertificateLocked
  rw [single]
  refine .bind (.ofExcept (fun _ _ => ?_) (by nofun))
  refine .bind (concludes_query (fun before existing sound read => ?_) (fun w cause sound _ => fails w cause sound))
  cases (sound.recorded.managedCertificate certificate.id).symm.trans read
  refine .bind (.ofExcept (fun normalized mapped => ?_) (fun cause _ => fails before cause sound))
  refine .bind (.ofExcept (fun _ checked => ?_) (fun cause _ => fails before cause sound))
  cases mapM_eq_ok.mp mapped with
  | cons normal none =>
    cases none
    obtain ⟨rfl, -⟩ := checkNames_eq_ok.mp checked
    refine .bind (.bind (concludes_query (fun w _ _ _ => .pure ?_) ?_))
    · refine .bind (.ofExcept (fun old released => ?_) ?_)
      · cases sound.recorded.mapM_domains.symm.trans released
        grind [saveBatch_eq_putBatch, concludes_commit]
      · intro cause released
        cases sound.recorded.mapM_domains.symm.trans released
    · intro w cause sound refused
      cases (sound.recorded.checkOwner certificate.id).symm.trans refused

/-- The call has passed its point exactly if it succeeds. -/
def Pointed (call : EditCall) {α : Type} (provider : Except Text Text) (task : Acme.Task α) : Prop :=
  Concludes (editing provider call) (fun steps _ => pointed point steps = true)
    (fun steps _ => pointed point steps = false) [] task

theorem pointed_underGate {α : Type} {body : Acme.Task α}
    (inside : ∀ w, Concludes (editing provider call) (fun steps _ => holdsGate steps = true ∧ pointed point steps = true)
      (fun steps _ => holdsGate steps = true ∧ pointed point steps = false) (((call, .lock), w) :: steps) body) :
    Concludes (editing provider call) (fun steps _ => pointed point steps = true)
      (fun steps _ => pointed point steps = false) steps (underGate body) := by
  have unlocked : ∀ (more : Steps) (w : World), pointed point (((call, .unlock), w) :: more) = pointed point more := by
    intro more w
    rw [pointed, point_unlock, Bool.false_or]
  refine .underGate trivial fun w _ => (inside w).mono ?_ ?_
  · exact fun more _ known => ⟨known.1, fun w => (unlocked more w).trans known.2⟩
  · exact fun more _ known => ⟨known.1, fun w => (unlocked more w).trans known.2⟩

theorem updateCertificatePublish_pointed (id : Text) (policy : PublishPolicy) (now : OffsetDateTime) :
    Pointed (.publish id policy now) provider (updateCertificatePublish id policy now) := by
  refine .bind (concludes_query (fun w found sound read => ?_) (fun _ _ _ _ => rfl))
  cases (sound.recorded.managedCertificate id).symm.trans read
  cases there : table w.store id with
  | none => exact .throw rfl
  | some certificate =>
    obtain ⟨-, own, single⟩ := sound.recorded.of_table there
    subst own
    refine pointed_underGate fun gate => ?_
    refine saveManagedCertificateLocked_concludes single (fun _ _ _ => ⟨rfl, rfl⟩) ?_ (fun _ _ _ _ => ⟨rfl, rfl⟩)
    intro before again _ normal
    refine ⟨rfl, .puts rfl normal single rfl ⟨_, w, _, before, rfl, rfl, fun same => ?_⟩⟩
    grind [EditCall.edit, stamped]

theorem saveCertificate_pointed (certificate : ManagedCertificate) (now : OffsetDateTime) :
    Pointed (.save certificate now) provider (saveCertificate certificate now) := by
  refine .bind (.ofExcept (fun value made => ?_) (fun _ _ => rfl))
  split
  · exact .throw rfl
  · refine pointed_underGate fun gate => ?_
    unfold named at made
    split at made
    · rename_i domain domains
      obtain ⟨name, normalized, made⟩ := bind_eq_ok.mp made
      cases made
      refine saveManagedCertificateLocked_concludes rfl (fun _ _ _ => ⟨rfl, rfl⟩) ?_ (fun _ _ _ _ => ⟨rfl, rfl⟩)
      intro before again _ normal
      refine ⟨rfl, .puts rfl normal rfl ?_ ⟨_, before, rfl, rfl⟩⟩
      change (EditCall.save certificate now).target = some name
      grind [EditCall.target, Except.toOption]
    · rename_i several
      cases made
      refine .bind (.ofExcept (fun _ one => ?_) (fun _ _ => ⟨rfl, rfl⟩))
      obtain ⟨domain, single⟩ := List.length_eq_one_iff.mp (require_eq_ok.mp one)
      exact absurd single (several domain)

theorem ownedDomains_concludes {id : Text} (normal : normalizeDomain id = .ok id) {ok : Steps → List Text → Prop}
    {failed : Steps → Text → Prop}
    (holds : ∀ w domains, Sound provider steps w → (∀ domain ∈ domains, domain = id) →
      ok (((call, .read), w) :: steps) domains) :
    Concludes (editing provider call) ok failed steps (ownedDomains id [id]) := by
  refine .bind (.ofExcept (fun name same => ?_) (fun cause bad => ?_))
  · cases normal.symm.trans same
    refine .bind (concludes_query (fun w owner sound _ => .bind (.pure (.pure ?_))) ?_)
    · grind
    · intro _ _ _ bad
      cases bad
  · cases normal.symm.trans bad

theorem deleteManagedCertificate_pointed (id : Text) :
    Pointed (.delete id) provider (deleteManagedCertificate id) := by
  refine .bind (concludes_query (fun w found sound read => ?_) ?_)
  · cases (sound.recorded.managedCertificate id).symm.trans read
    cases there : table w.store id with
    | none =>
      refine .pure ?_
      simp [pointed, point, there]
    | some certificate =>
      obtain ⟨normal, -, single⟩ := sound.recorded.of_table there
      dsimp only
      rw [single]
      refine .bind (ownedDomains_concludes normal fun second domains _ own => ?_)
      refine .bind (concludes_query (fun third generations _ _ => ?_) ?_)
      · refine .bind (concludes_query (fun fourth diagnostics _ _ => ?_) ?_)
        · refine .bind (concludes_commit ⟨?_, .deletes own⟩ fun _ => .pure rfl)
          simp [pointed, point, there]
        · intro _ _ _ bad
          cases bad
      · intro _ _ _ bad
        cases bad
  · intro w cause sound bad
    cases (sound.recorded.managedCertificate id).symm.trans bad

theorem create_concludes {domain name : Text} {now : OffsetDateTime} (normalized : normalizeDomain domain = .ok name)
    {other : Text} (again : normalizeDomain name = .ok other) (gate : holdsGate steps = true)
    (clear : pointed point steps = false) (missing : vacant other steps = true) (later : 2 ≤ steps.length) :
    Concludes (editing provider (.register domain now))
      (fun steps _ => holdsGate steps = true ∧ pointed point steps = true)
      (fun steps _ => holdsGate steps = true ∧ pointed point steps = false) steps (do
      let providerId ← query defaultProviderId
      saveManagedCertificateLocked (automaticCertificate name providerId) now
      return true) := by
  have target : (EditCall.register domain now).target = some other := by
    rw [EditCall.target, normalized]
    exact congrArg Except.toOption again
  -- the row is missing whenever the task looks, so that no read of it is a point
  have unmoved : ∀ w, Sound provider steps w →
      pointed point (((EditCall.register domain now, Action.read), w) :: steps) = false := by
    grind [pointed, point, Sound.vacant]
  have late : ∀ (more : Steps) (w : World), 2 < more.length →
      point more (EditCall.register domain now, Action.read) w = false := by
    intro more w long
    simp [point, lookedUp_eq_false long]
  refine .bind (concludes_query (fun w providerId sound read => ?_) ?_)
  · have clear := unmoved w sound
    refine .bind (saveManagedCertificateLocked_concludes rfl ?_ ?_ ?_)
    · intro second cause _
      rw [pointed, late (_ :: steps) second (Nat.lt_succ_of_le later), clear]
      exact ⟨gate, rfl⟩
    · intro before second unchanged normal
      obtain rfl : other = name := Except.ok.inj (again.symm.trans normal)
      have absent : table before.store other = none := unchanged.vacant other (by simp [vacant, missing])
      change May provider _ (_, .write (putBatch (stamped now (table before.store other) _)))
      rw [absent]
      refine ⟨?_, .puts gate normal rfl target ⟨?_, ?_⟩⟩
      · grind [pointed]
      · change vacant other _ = true
        simp [vacant, missing]
      · cases sound.provider.symm.trans read
        rfl
    · intro batch before second after
      exact .pure ⟨gate, rfl⟩
  · intro w cause sound _
    exact ⟨gate, unmoved w sound⟩

theorem createAutomaticCertificateIfAbsent_pointed (domain : Text) (now : OffsetDateTime) :
    Pointed (.register domain now) provider (createAutomaticCertificateIfAbsent domain now) := by
  refine .bind (.ofExcept (fun name normalized => ?_) (fun _ _ => rfl))
  refine pointed_underGate fun locked => .bind (.bind (.ofExcept (fun other again => ?_) ?_))
  · refine .bind (concludes_query (fun w listed sound found => ?_) ?_)
    · cases found
      cases index : (w.store .domainIndex)[other]? with
      | none =>
        have absent : table w.store other = none := by
          apply table_eq_none
          by_contra there
          exact sound.recorded.listed other there index
        refine .pure (create_concludes normalized again rfl rfl ?_ (by simp))
        simp [vacant, holdsGate, absent]
      | some id =>
        cases sound.recorded.index other id index
        refine concludes_query (fun second row sound read => ?_) ?_
        · cases (sound.recorded.managedCertificate other).symm.trans read
          have target : (EditCall.register domain now).target = some other := by
            rw [EditCall.target, normalized]
            exact congrArg Except.toOption again
          cases there : table second.store other with
          | none =>
            refine create_concludes normalized again rfl ?_ ?_ (by simp)
            · simp [pointed, point, lookedUp, target, there]
            · simp [vacant, holdsGate, there]
          | some certificate =>
            refine .pure ⟨rfl, ?_⟩
            simp [pointed, point, lookedUp, target, there]
        · intro second cause sound bad
          cases (sound.recorded.managedCertificate other).symm.trans bad
    · intro _ _ _ bad
      cases bad
  · exact fun _ _ => ⟨rfl, rfl⟩

end Calls

def Returned (call : EditCall) (steps : Steps) (answer : Answer) : Prop :=
  answer.completed = pointed point steps ∧ ∀ step ∈ steps, step.1.1 = call

theorem program_returned (provider : Except Text Text) (call : EditCall) :
    Obeys (tracking (May provider) (Sound provider)) (Returned call) [] (editSystem.program call) := by
  refine Obeys.tagged (fun label : EditAction => label.1 = call) (fun _ => rfl)
    (fun _ none => (List.not_mem_nil none).elim) ?_
  cases call with
  | publish id policy now =>
    refine Obeys.bind (Obeys.mono ?_ (updateCertificatePublish_pointed id policy now))
    intro steps result known
    cases result <;> exact known.symm
  | save certificate now =>
    refine Obeys.bind (Obeys.mono ?_ (saveCertificate_pointed certificate now))
    intro steps result known
    cases result <;> exact known.symm
  | delete id =>
    refine Obeys.bind (Obeys.mono ?_ (deleteManagedCertificate_pointed id))
    intro steps result known
    cases result with
    | ok deleted => cases deleted <;> exact known.symm
    | error cause => exact known.symm
  | register domain now =>
    refine Obeys.bind (Obeys.mono ?_ (createAutomaticCertificateIfAbsent_pointed domain now))
    intro steps result known
    cases result <;> exact known.symm

theorem holdsGate_of_vacant {name : Text} {steps : Steps} (missing : vacant name steps = true) :
    holdsGate steps = true := by
  induction steps with
  | nil => cases missing
  | cons step earlier ih =>
    obtain ⟨⟨call, action⟩, found⟩ := step
    cases action with
    | read =>
      simp only [vacant, Bool.or_eq_true, Bool.and_eq_true] at missing
      exact missing.elim And.right ih
    | _ => cases missing

structure GateHeld (w : World) (past : List (Entry EditAction World)) : Prop where
  closed : ∀ task, holdsGate (trace task past) = true → w.gate = true
  alone : ∀ task other, holdsGate (trace task past) = true → holdsGate (trace other past) = true → task = other

section Step

variable {provider : Except Text Text} {w next : World} {past : List (Entry EditAction World)} {task : Nat}
  {call : EditCall} {action : Action}

theorem GateHeld.step (held : GateHeld w past) (may : May provider (trace task past) (call, action))
    (taken : effect action w = some next) : GateHeld next (⟨task, (call, action), w⟩ :: past) := by
  have same : (∀ steps, holdsGate (((call, action), w) :: steps) = holdsGate steps) → next.gate = w.gate →
      GateHeld next (⟨task, (call, action), w⟩ :: past) := by
    intro unchanged gate
    have traces : ∀ other, holdsGate (trace other (⟨task, (call, action), w⟩ :: past)) = holdsGate (trace other past) := by
      grind [trace_cons_self, trace_cons_of_ne]
    refine ⟨fun other => ?_, fun other another => ?_⟩
    · rw [traces, gate]
      exact held.closed other
    · grind [GateHeld.alone]
  cases action with
  | read =>
    cases taken
    exact same (fun _ => rfl) rfl
  | write batch =>
    cases taken
    exact same (fun _ => rfl) rfl
  | lock =>
    simp only [effect] at taken
    split at taken
    · cases taken
    · rename_i free
      cases taken
      -- the gate was free, so that the other tasks do not hold it
      have only : ∀ other, holdsGate (trace other (⟨task, (call, .lock), w⟩ :: past)) = true → other = task := by
        grind [trace_cons_of_ne, GateHeld.closed]
      exact ⟨fun _ _ => rfl, fun other another first second => (only other first).trans (only another second).symm⟩
  | unlock =>
    have none : ∀ other, holdsGate (trace other (⟨task, (call, .unlock), w⟩ :: past)) ≠ true := by
      intro other holds
      by_cases own : task = other
      · subst own
        rw [trace_cons_self] at holds
        cases holds
      · rw [trace_cons_of_ne own] at holds
        exact own (held.alone task other may holds)
    exact ⟨fun other holds => absurd holds (none other), fun other _ holds => absurd holds (none other)⟩
  | _ => exact may.elim

theorem table_kept {first : World} (leads : Leads editSystem.effect first past w) {k : Nat} {read : EditAction}
    {found : World} (done : (trace task past)[k]? = some (read, found)) {name : Text}
    (unedited : ∀ entry ∈ since task k past, entry.label.2.writes .certificates name = false) :
    table w.store name = table found.store name := by
  refine @Leads.kept _ _ _ _ _ _ _ leads _ _ _ _ done (fun w : World => table w.store name) ?_
  intro entry inside next taken
  exact congrArg (Option.bind · Except.toOption) (effect_of_quiet (unedited entry inside) taken)

theorem Based.now {first : World} (leads : Leads editSystem.effect first past w)
    (empty : ∀ name, vacant name (trace task past) = true → table w.store name = none) {batch : List Certificates.Write}
    (unedited : Unedited w past task (call, .write batch)) {certificate : ManagedCertificate}
    (target : call.target = some certificate.id) (based : Based provider call (trace task past) certificate) :
    call.edit provider certificate.id (table w.store certificate.id) = some certificate := by
  cases call with
  | publish id policy now =>
    obtain ⟨read, before, again, later, first, second, made⟩ := based
    have quiet : ∀ entry ∈ since task 3 past, entry.label.2.writes .certificates certificate.id = false := by
      simpa using unedited 3 rfl certificate.id target
    have early := table_kept leads first quiet
    have late := table_kept leads second fun entry inside => quiet entry (mem_since_of_le (by omega) inside)
    grind
  | save _ now =>
    obtain ⟨read, before, first, made⟩ := based
    have quiet : ∀ entry ∈ since task 1 past, entry.label.2.writes .certificates certificate.id = false := by
      simpa using unedited 1 rfl certificate.id target
    rw [table_kept leads first quiet]
    exact made
  | delete id => exact based.elim
  | register domain now =>
    rw [empty certificate.id based.1]
    exact based.2

theorem defaultProviderId_congr {one other : Certificates.Store} (same : one .providers = other .providers) :
    defaultProviderId one = defaultProviderId other := by
  unfold defaultProviderId providers
  rw [same]

/-- A write changes the row of the call as the call says, and fills a row only under the gate. -/
theorem Writes.effect {first : World} (leads : Leads editSystem.effect first past w) (recorded : Recorded w.store)
    (empty : ∀ name, vacant name (trace task past) = true → table w.store name = none) {batch : List Certificates.Write}
    (unedited : Unedited w past task (call, .write batch)) (writes : Writes provider (trace task past) call batch) :
    Recorded (Families.write w.store batch) ∧
      Families.write w.store batch .providers = w.store .providers ∧
      table (Families.write w.store batch) = call.apply provider (table w.store) ∧
      (holdsGate (trace task past) = true ∨
        ∀ name, table w.store name = none → table (Families.write w.store batch) name = none) := by
  cases writes with
  | @deletes id domains generations diagnostics own =>
    refine ⟨recorded.delete own _ _, ?_, table_delete .., .inr fun name absent => ?_⟩
    · apply Families.write_of_untouched
      intro item member
      simp only [deleteBatch, List.mem_append, List.mem_cons, List.mem_map, List.not_mem_nil, or_false] at member
      rcases member with (((rfl | rfl | rfl) | ⟨_, _, rfl⟩) | ⟨_, _, rfl⟩) | ⟨_, _, rfl⟩ <;> rfl
    · rw [table_delete, Function.update_apply, absent, ite_self]
  | @puts _ certificate gate normal single target based =>
    refine ⟨recorded.put normal single, rfl, ?_, .inl gate⟩
    grind [table_put, EditCall.apply, Based.now]

structure EditInv (first w : World) (past : List (Entry EditAction World)) : Prop where
  recorded : Recorded w.store
  provider : defaultProviderId w.store = defaultProviderId first.store
  held : GateHeld w past
  empty : ∀ task name, vacant name (trace task past) = true → table w.store name = none
  linear : Linear point (fun w => table w.store) (fun label => label.1.apply (defaultProviderId first.store)) first w past

theorem apply_of_point_read {steps : Steps} (reached : point steps (call, .read) w = true) :
    call.apply provider (table w.store) = table w.store := by
  cases call with
  | delete id =>
    simp only [point, Bool.and_eq_true, Option.isNone_iff_eq_none] at reached
    exact Function.update_eq_self_iff.mpr reached.2.symm
  | register domain now =>
    simp only [point, Bool.and_eq_true, Option.any_eq_true, Option.isSome_iff_exists] at reached
    obtain ⟨-, name, target, certificate, there⟩ := reached
    rw [EditCall.apply, target]
    refine Function.update_eq_self_iff.mpr ?_
    rw [there]
    rfl
  | publish _ _ _ => cases reached
  | save _ _ => cases reached

theorem pointed_eq_false {steps : Steps} (may : May provider steps (call, action))
    (reached : point steps (call, action) w = true) : pointed point steps = false := by
  cases action with
  | write batch => exact may.1
  | read =>
    cases call with
    | delete id =>
      simp only [point, Bool.and_eq_true, List.isEmpty_iff] at reached
      rw [reached.1]
      rfl
    | register domain now => grind [point, pointed_of_lookedUp]
    | publish _ _ _ => cases reached
    | save _ _ => cases reached
  | _ => cases call <;> cases reached

theorem EditInv.advance {first : World} (leads : Leads editSystem.effect first past w) (inv : EditInv first w past)
    (may : May (defaultProviderId first.store) (trace task past) (call, action))
    (unedited : Unedited w past task (call, action)) (taken : effect action w = some next) :
    EditInv first next (⟨task, (call, action), w⟩ :: past) := by
  have held := inv.held.step may taken
  -- what a task has seen missing under the gate stays missing
  have empty : (∀ name, vacant name (((call, action), w) :: trace task past) = true → table next.store name = none) →
      (∀ other, other ≠ task → holdsGate (trace other past) = true → ∀ name, table w.store name = none →
        table next.store name = none) →
      ∀ other name, vacant name (trace other (⟨task, (call, action), w⟩ :: past)) = true →
        table next.store name = none := by
    intro own others other name missing
    by_cases same : task = other
    · grind [trace_cons_self]
    · grind [trace_cons_of_ne, holdsGate_of_vacant, EditInv.empty]
  have still : next.store = w.store → (point (trace task past) (call, action) w = true →
      call.apply (defaultProviderId first.store) (table w.store) = table w.store) →
      (∀ name, vacant name (((call, action), w) :: trace task past) = true → table w.store name = none) →
      EditInv first next (⟨task, (call, action), w⟩ :: past) := by
    intro same unmoved own
    refine ⟨same ▸ inv.recorded, same ▸ inv.provider, held, empty (same ▸ own) (fun _ _ _ _ => same ▸ id), ?_⟩
    refine inv.linear.step (pointed_eq_false may) (fun reached => ?_) (fun _ => congrArg table same)
    grind
  cases action with
  | read =>
    cases taken
    refine still rfl apply_of_point_read ?_
    intro name missing
    simp only [vacant, Bool.or_eq_true, Bool.and_eq_true, Option.isNone_iff_eq_none] at missing
    exact missing.elim And.left (inv.empty task name)
  | lock =>
    simp only [effect] at taken
    split at taken
    · cases taken
    · cases taken
      refine still rfl (fun reached => ?_) (fun _ missing => by cases missing)
      cases (point_lock ..).symm.trans reached
  | unlock =>
    cases taken
    refine still rfl (fun reached => ?_) (fun _ missing => by cases missing)
    cases (point_unlock ..).symm.trans reached
  | write batch =>
    cases taken
    obtain ⟨recorded, providers, changed, fills⟩ := may.2.effect leads inv.recorded (inv.empty task) unedited
    refine ⟨recorded, (defaultProviderId_congr providers).trans inv.provider, held, empty ?_ ?_, ?_⟩
    · intro name missing
      cases missing
    · intro other different holds name absent
      rcases fills with gate | kept
      · exact absurd (inv.held.alone other task holds gate) different
      · exact kept name absent
    · refine inv.linear.step (pointed_eq_false may) (fun _ => changed) (fun passed => ?_)
      cases (point_write ..).symm.trans passed
  | _ => exact may.elim

end Step

theorem edits_track {first : World} (recorded : Recorded first.store) :
    Tracks editSystem first (May (defaultProviderId first.store)) (Sound (defaultProviderId first.store)) Returned
      Unedited (EditInv first) where
  programs := program_returned _
  start := by
    refine ⟨recorded, rfl, ⟨?_, ?_⟩, ?_, linear_initial⟩
    · intro task holds
      cases holds
    · intro task other holds
      cases holds
    · intro task name missing
      cases missing
  sound := fun w past task inv => ⟨inv.recorded, inv.provider, inv.empty task⟩
  advance := fun w past task label next leads inv may unedited taken => inv.advance leads may unedited taken

/-- In every run in which nobody writes a row between the read and the write of a save or a change of the publication,
the certificates are what the completed calls make of them one after the other. -/
theorem certificate_edits_serial {first : World} (recorded : Recorded first.store)
    {events : List (Event EditCall Empty)} {last : EditState}
    (meets : Runs.Meets (step editSystem) (Observes Unedited) { shared := first } events)
    (whole : Runs.run (step editSystem) { shared := first } events = some last) : Serial first last := by
  have tracked := (edits_track recorded).run meets whole
  refine ⟨(points point last.past).reverse, ?_, ?_, ?_, ?_⟩
  · grind [points_sublist, State.past]
  · rw [List.map_reverse]
    exact List.nodup_reverse.mpr tracked.holds.linear.once
  · intro task call answer returned
    obtain ⟨completed, own⟩ := tracked.returned returned
    split
    · rename_i done
      obtain ⟨entry, inside, same⟩ := (exists_mem_points_iff point).mpr (completed.symm.trans done)
      grind [mem_trace, points_sublist]
    · rename_i failed
      rintro entry inside rfl
      have passed := (exists_mem_points_iff point).mp ⟨entry, List.mem_reverse.mp inside, rfl⟩
      exact failed (completed.trans passed)
  · rw [List.foldl_reverse]
    exact tracked.holds.linear.result

section Example

def stall : ManagedCertificate where
  id := "stall.example".toList
  domains := ["stall.example".toList]

def stallWorld : World where
  store := Families.write Certificates.Store.empty (putBatch stall)

theorem stallWorld_recorded : Recorded stallWorld.store :=
  (recorded_of_indexed indexed_empty).put rfl rfl

/-- The certificate is published, saved again, deleted and registered anew, with calls that overlap. -/
def overlapping : List (Event EditCall Empty) :=
  [.spawn 0 (.publish stall.id { enabled := true } 1), .advance 0, .advance 0, .spawn 1 (.save stall 2), .advance 0,
    .advance 0, .advance 0, .spawn 2 (.delete stall.id), .advance 2, .advance 0, .advance 1, .advance 1, .advance 1,
    .advance 1, .advance 2, .advance 2, .advance 1, .advance 2, .spawn 3 (.register stall.id 3), .advance 3, .advance 3,
    .advance 2, .advance 3, .advance 3, .advance 3, .advance 3, .advance 3, .advance 3]

theorem certificate_edits_serial_overlapping :
    ∃ last, Runs.run (step editSystem) { shared := stallWorld } overlapping = some last ∧
      ((List.range 4).all fun task => (last.returned? task).any fun returned => returned.2.completed) = true ∧
      Serial stallWorld last := by
  have meets : Runs.Meets (step editSystem) (Observes Unedited) { shared := stallWorld } overlapping := by
    decide +kernel
  have done : (Runs.run (step editSystem) { shared := stallWorld } overlapping).map (fun last =>
      (List.range 4).all fun task => (last.returned? task).any fun returned => returned.2.completed) = some true := by
    decide +kernel
  obtain ⟨last, whole, completed⟩ := Option.map_eq_some_iff.mp done
  exact ⟨last, whole, completed, certificate_edits_serial stallWorld_recorded meets whole⟩

/-- The certificate is deleted between the read and the write of a change of its publication. -/
def resurrecting : List (Event EditCall Empty) :=
  [.spawn 0 (.publish stall.id { enabled := true } 1), .advance 0, .spawn 1 (.delete stall.id), .advance 1, .advance 1,
    .advance 1, .advance 1, .advance 1, .advance 0, .advance 0, .advance 0, .advance 0, .advance 0]

/-- Without saves and registrations a deleted certificate stays away, whatever the order. -/
theorem foldl_deleted {provider : Except Text Text} {id : Text} {order : List (Entry EditAction World)}
    (calls : ∀ entry ∈ order, entry.label.1 = .delete id ∨ ∃ policy now, entry.label.1 = .publish id policy now)
    {rows : Table} (gone : rows id = none ∨ ∃ entry ∈ order, entry.label.1 = .delete id) :
    order.foldl (fun rows entry => entry.label.1.apply provider rows) rows id = none := by
  induction order generalizing rows with
  | nil => exact gone.resolve_right fun ⟨_, member, _⟩ => List.not_mem_nil member
  | cons entry rest ih =>
    refine ih (fun other member => calls other (List.mem_cons_of_mem _ member)) ?_
    dsimp only
    rcases calls entry List.mem_cons_self with deletes | ⟨policy, now, publishes⟩
    · rw [deletes]
      exact .inl (Function.update_self ..)
    · rw [publishes]
      rcases gone with absent | ⟨other, member, deletes⟩
      · refine .inl ((Function.update_self ..).trans ?_)
        rw [absent]
        rfl
      · grind

theorem publish_resurrects_deleted :
    ∃ last, Runs.run (step editSystem) { shared := stallWorld } resurrecting = some last ∧
      (table last.shared.store stall.id).isSome = true ∧ ¬ Serial stallWorld last := by
  have facts : (Runs.run (step editSystem) { shared := stallWorld } resurrecting).map (fun last =>
      ((table last.shared.store stall.id).isSome,
        last.history.all fun entry => entry.label.1 = .delete stall.id ∨
          entry.label.1 = .publish stall.id { enabled := true } 1,
        decide (last.returned? 1 = some (.delete stall.id, .replied noContent)))) = some (true, true, true) := by
    decide +kernel
  obtain ⟨last, whole, facts⟩ := Option.map_eq_some_iff.mp facts
  simp only [Prod.mk.injEq] at facts
  obtain ⟨there, calls, returned⟩ := facts
  refine ⟨last, whole, there, ?_⟩
  rintro ⟨order, inside, -, completed, result⟩
  obtain ⟨entry, member, -, deletes⟩ := completed 1 _ _ (of_decide_eq_true returned)
  have gone : table last.shared.store stall.id = none := by
    rw [result]
    refine foldl_deleted (fun entry member => ?_) (.inr ⟨entry, member, deletes⟩)
    grind
  rw [gone] at there
  cases there

end Example

end TlsProxy.Control
