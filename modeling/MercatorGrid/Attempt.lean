import MercatorGrid.Checked
import MercatorGrid.Refusal

namespace MercatorGrid

inductive Failure where
  | refused (refusal : Refusal)
  | fault (fault : Fault)

abbrev Attempt := Except Failure

namespace Attempt

def refuse {α : Type} (refusal : Refusal) : Attempt α := .error (.refused refusal)

def ofChecked {α : Type} : Checked α → Attempt α
  | .ok a => .ok a
  | .error f => .error (.fault f)

def ofGuarded {α : Type} : Except Refusal α → Attempt α
  | .ok a => .ok a
  | .error e => refuse e

end Attempt

instance : MonadLift Checked Attempt := ⟨Attempt.ofChecked⟩

instance : MonadLift (Except Refusal) Attempt := ⟨Attempt.ofGuarded⟩

end MercatorGrid
