import TlsProxy.Lib.Families
import TlsProxy.Lib.Text

/-! The two throttles of the control plane count attempts by key, each count from
the instant of its first attempt. -/
namespace TlsProxy.Control

/-- A span in seconds; instants are counted in nanoseconds. -/
def seconds (n : Nat) : Nat := n * 1000000000

abbrev Attempts := Std.ExtTreeMap Text (UInt32 × Nat)

namespace Attempts

def retain (attempts : Attempts) (limit now : Nat) : Attempts :=
  attempts.filter fun _ entry => decide (now - entry.2 < limit)

def bumped (attempts : Attempts) (key : Text) (now : Nat) : UInt32 × Nat :=
  let entry := (attempts[key]?).getD (0, now)
  (entry.1 + 1, entry.2)

def bump (attempts : Attempts) (key : Text) (now : Nat) : Attempts := attempts.insert key (attempts.bumped key now)

theorem getElem?_retain (attempts : Attempts) (limit now : Nat) (key : Text) :
    (attempts.retain limit now)[key]? = attempts[key]?.filter fun entry => decide (now - entry.2 < limit) := by
  grind [retain]

end Attempts

end TlsProxy.Control
