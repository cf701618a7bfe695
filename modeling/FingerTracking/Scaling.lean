import FingerTracking.Binary32
import FingerTracking.Fault

/-!
Scaling: from the units of the panel's axes to the pixels of the screen.

A factor for each axis, in single precision. A scaled coordinate loses its fraction, toward zero.
-/

namespace FingerTracking

structure Scaling where
  x : Binary32
  y : Binary32
deriving DecidableEq, Inhabited

namespace Scaling

/-- Leaves coordinates as they are, as far as single precision holds them. -/
def identity : Scaling := ⟨Binary32.one, Binary32.one⟩

/-- The scaling that maps the ends of the axes to the edges of the screen. -/
def ofScreen (width height xMax yMax : Int32) : Scaling :=
  { x := (Binary32.ofInt width.toInt).div (Binary32.ofInt xMax.toInt)
    y := (Binary32.ofInt height.toInt).div (Binary32.ofInt yMax.toInt) }

/-- The first thing wrong with a screen and its axes: both have to be positive. -/
def fault? (width height xMax yMax : Int32) : Option SettingsFault :=
  if width ≤ 0 ∨ height ≤ 0 then some (.screenNotPositive width height)
  else if xMax ≤ 0 ∨ yMax ≤ 0 then some (.axesNotPositive xMax yMax)
  else none

def new (width height xMax yMax : Int32) : Except Fault Scaling :=
  match fault? width height xMax yMax with
  | some f => .error (.settings f)
  | none => .ok (ofScreen width height xMax yMax)

/-- A coordinate times a factor. -/
def scale (factor : Binary32) (v : Int32) : Int32 :=
  ((Binary32.ofInt v.toInt).mul factor).toInt32

def scaleX (s : Scaling) (v : Int32) : Int32 :=
  scale s.x v

def scaleY (s : Scaling) (v : Int32) : Int32 :=
  scale s.y v

end Scaling

end FingerTracking
