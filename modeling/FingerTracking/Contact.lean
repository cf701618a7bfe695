/-!
Contacts: what the panel measures in one frame, before any finger is known.

A position of (0, 0) stands for "no contact" (`isAbsent`), so a real touch there is lost, and a
contact that has been used up is marked by moving it there (`consumed`).
-/

namespace FingerTracking

structure Contact where
  x : Int32
  y : Int32
  weight : Int32
deriving DecidableEq, Inhabited

namespace Contact

def isAbsent (c : Contact) : Bool :=
  c.x == 0 && c.y == 0

/-- The contact taken off the panel; its weight stays. -/
def consumed (c : Contact) : Contact :=
  { c with x := 0, y := 0 }

/-- A contact that is taken off is absent from then on. -/
@[simp] theorem isAbsent_consumed (c : Contact) : c.consumed.isAbsent = true := rfl

end Contact

end FingerTracking
