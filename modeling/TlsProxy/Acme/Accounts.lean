import TlsProxy.Acme.Providers
import TlsProxy.Lib.Histories

/-! `account` of the renewal backend. An account is taken from memory, restored from
its stored credentials, or created; an external account binding is good for one
creation, so that its secret is removed from the provider afterwards. -/
namespace TlsProxy.Acme

open Config Checks Certificates Programs Families

abbrev Account := Text

inductive Credentials
  | null
  | value (text : Text)
deriving DecidableEq

structure StoredAcmeAccount where
  providerId : Text := []
  credentials : Credentials := .null
  updatedAt : Option OffsetDateTime := none
deriving DecidableEq

structure AccountClient where
  restoreAccount : AcmeProvider → Credentials → Except Text Account
  createAccount : AcmeProvider → Except Text (Account × Credentials)
  now : OffsetDateTime

structure Backend where
  world : World
  credentials : Std.ExtTreeMap Text (Json StoredAcmeAccount) := ∅
  accounts : Std.ExtTreeMap Text Account := ∅
  config : Except Text (Option RuntimeConfig) := .ok none

inductive BackendAction
  | database (action : Action)
  | recallAccount
  | keepAccount (providerId : Text) (account : Account)
  | readCredentials
  | saveCredentials (stored : StoredAcmeAccount)
  | loadConfig

def backendEffect (action : BackendAction) (s : Backend) : Option Backend :=
  match action with
  | .database action => (effect action s.world).map fun world => { s with world }
  | .recallAccount | .readCredentials | .loadConfig => some s
  | .keepAccount providerId account => some { s with accounts := s.accounts.insert providerId account }
  | .saveCredentials stored => some { s with credentials := s.credentials.insert stored.providerId (.ok stored) }

def BackendAction.writesStore : BackendAction → Bool
  | .database (.write _) => true
  | _ => false

theorem store_of_quiet {action : BackendAction} {s next : Backend} (quiet : action.writesStore = false)
    (taken : backendEffect action s = some next) : next.world.store = s.world.store := by
  cases action with
  | database action =>
    obtain ⟨world, changed, rfl⟩ := Option.map_eq_some_iff.mp taken
    rcases effect_store changed with ⟨batch, rfl, -⟩ | same
    · cases quiet
    · exact same
  | _ =>
    cases taken
    rfl

abbrev BackendTask := ExceptT Text (Program BackendAction Backend)

section Calls

variable {α : Type}

def inStore (task : Task α) : BackendTask α := ExceptT.mk (task.run.embed .database Backend.world)

def perform (action : BackendAction) (answer : Backend → Except Text α) : BackendTask α :=
  ExceptT.mk (.action action fun s => .done (answer s))

def given (value : Except Text α) : BackendTask α := ExceptT.mk (.done value)

theorem inStore_bind {β : Type} (task : Task α) (rest : α → Task β) :
    inStore (task >>= rest) = inStore task >>= fun a => inStore (rest a) := by
  refine (Program.embed_bind ..).trans (congrArg (_ >>= ·) (funext fun result => ?_))
  cases result <;> rfl

end Calls

def saveAccountCredentials (client : AccountClient) (providerId : Text) (credentials : Credentials) :
    BackendTask Unit := do
  given (require (Text.trim providerId ≠ [] ∧ credentials ≠ .null)
    "ACME provider ID and account credentials are required".toList)
  perform (.saveCredentials { providerId, credentials, updatedAt := some client.now }) fun _ => .ok ()

def consumed (provider : AcmeProvider) : AcmeProvider := { provider with eabKeyId := none, eabHmacKey := none }

def newAccount (client : AccountClient) (providerId : Text) (provider : AcmeProvider) : BackendTask Account := do
  let (account, credentials) ← given (client.createAccount provider)
  saveAccountCredentials client providerId credentials
  if provider.eabHmacKey.isSome then inStore (saveProvider (consumed provider))
  return account

def account (client : AccountClient) (providerId : Text) : BackendTask Account := do
  match ← perform .recallAccount fun s => .ok s.accounts[providerId]? with
  | some account => return account
  | none =>
    match ← inStore (query (Certificates.provider · providerId)) with
    | none => throw ("ACME provider ".toList ++ quoted providerId ++ " does not exist".toList)
    | some provider =>
      let account ←
        match ← perform .readCredentials fun s => decoded s.credentials[providerId]? with
        | some stored => given (client.restoreAccount provider stored.credentials)
        | none => newAccount client providerId provider
      perform (.keepAccount providerId account) fun _ => .ok ()
      return account

end TlsProxy.Acme
