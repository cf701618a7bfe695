import FingerTracking.Note
import FingerTracking.Scaling

/-!
Panels: from the raw records of a single-touch panel to frames of contacts.

The panel reports its axes and its button one by one and then closes the frame. `Panel.feed`
keeps the last position and the button, and gives a frame when one is complete: the contact while
the panel is touched, no contact once it is not. Letting go gives a frame with the contact as
well, so that the place and time of the lift are told before the empty frame that ends it.
-/

namespace FingerTracking

structure Panel where
  scaling : Scaling
  x : Int32
  y : Int32
  touching : Bool
deriving DecidableEq, Inhabited

namespace Panel

def new (scaling : Scaling) : Panel :=
  { scaling, x := 0, y := 0, touching := false }

/-- The panel cannot weigh a contact; each counts this much. -/
def contactWeight : Int32 := 1

def contact (p : Panel) : Contact :=
  { x := p.x, y := p.y, weight := contactWeight }

/-- A panel after a record, with the frame that the record completed. -/
structure Fed where
  panel : Panel
  frame : Option (List Contact)
  notes : List Note

def feed (p : Panel) (r : Record) : Fed :=
  match r.signal with
  | .x v => { panel := { p with x := p.scaling.scaleX v }, frame := none, notes := [] }
  | .y v => { panel := { p with y := p.scaling.scaleY v }, frame := none, notes := [] }
  | .touch v =>
    if v = 0 then { panel := { p with touching := false }, frame := some [p.contact], notes := [] }
    else { panel := { p with touching := true }, frame := none, notes := [] }
  | .report =>
    { panel := p, frame := some (if p.touching then [p.contact] else []), notes := [] }
  | .other => { panel := p, frame := none, notes := [.recordIgnored r] }

end Panel

end FingerTracking
