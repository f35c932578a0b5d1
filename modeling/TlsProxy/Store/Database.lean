import TlsProxy.Config.Validate
import TlsProxy.Lib.Checks

/-! The three kinds of rows that hold configurations: the current one, the revision
counter and the history. -/
namespace TlsProxy.Store

open Config Checks

structure StoredConfig where
  revision : Nat
  updatedBy : Text
  config : RuntimeConfig

structure UserRecord where
  username : Text := []
  passwordHash : Text := []
  administrator : Bool := false
  disabled : Bool := false
deriving DecidableEq

/-- A row as its reader sees it; a malformed one fails to decode. -/
inductive Row (α : Type)
  | missing
  | malformed
  | value (a : α)

structure Database where
  current : Row StoredConfig := .missing
  counter : Row Nat := .missing
  history : Nat → Row StoredConfig := fun _ => .missing

def Database.isInitialized (db : Database) : Bool :=
  match db.current with
  | .missing => false
  | .malformed | .value _ => true

def nextRevision : Row Nat → Option Nat
  | .missing => some 1
  | .malformed => none
  | .value n => if n + 1 < UInt64.size then some (n + 1) else none

def Database.write (db : Database) (stored : StoredConfig) : Database where
  current := .value stored
  counter := .value stored.revision
  history := Function.update db.history stored.revision (.value stored)

def revisionError : Row Nat → Text
  | .malformed => "invalid configuration revision".toList
  | .missing | .value _ => "configuration revision overflow".toList

/-- The validator asks the file system for the document roots, so a configuration that was saved once can fail later. -/
def saveConfig (environment : Environment) (db : Database) (config : RuntimeConfig) (updatedBy : Text) :
    Except Text (StoredConfig × Database) := do
  config.validate environment
  match nextRevision db.counter with
  | none => .error (revisionError db.counter)
  | some revision =>
    let stored : StoredConfig := { revision, updatedBy, config }
    return (stored, db.write stored)

/-- What an import does to the configuration rows: the two single rows are kept or hold what the
export says, the history gains entries after it may have been cleared. -/
structure Import where
  current : Option (Row StoredConfig) := none
  counter : Option (Row Nat) := none
  clearHistory : Bool := false
  history : List (Nat × Row StoredConfig) := []

def Import.apply (i : Import) (db : Database) : Database where
  current := i.current.getD db.current
  counter := i.counter.getD db.counter
  history := i.history.foldl (fun rows entry => Function.update rows entry.1 entry.2)
    (if i.clearHistory then fun _ => .missing else db.history)

def Row.toList {α : Type} : Row α → List α
  | .value a => [a]
  | .missing | .malformed => []

def Import.values (i : Import) : List StoredConfig :=
  (i.current.map Row.toList).getD [] ++ i.history.flatMap fun entry => entry.2.toList

theorem nextRevision_value {n revision : Nat} (next : nextRevision (.value n) = some revision) :
    revision = n + 1 := by
  simp only [nextRevision, Option.ite_none_right_eq_some, Option.some.injEq] at next
  exact next.2.symm

theorem saveConfig_eq_ok {environment : Environment} {db next : Database} {config : RuntimeConfig} {updatedBy : Text}
    {stored : StoredConfig} (saved : saveConfig environment db config updatedBy = .ok (stored, next)) :
    config.validate environment = .ok () ∧ nextRevision db.counter = some stored.revision ∧ stored.config = config ∧
      next = db.write stored := by
  obtain ⟨_, valid, saved⟩ := bind_eq_ok.mp saved
  split at saved
  · cases saved
  · rename_i revision advanced
    cases saved
    exact ⟨valid, advanced, rfl, rfl⟩

theorem saveConfig_of_valid {environment : Environment} {db : Database} {config : RuntimeConfig} {revision : Nat}
    (valid : config.validate environment = .ok ()) (advanced : nextRevision db.counter = some revision)
    (updatedBy : Text) :
    saveConfig environment db config updatedBy =
      .ok (⟨revision, updatedBy, config⟩, db.write ⟨revision, updatedBy, config⟩) :=
  bind_eq_ok.mpr ⟨(), valid, by simp only [advanced]; rfl⟩

end TlsProxy.Store
