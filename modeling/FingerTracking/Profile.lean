import FingerTracking.Layout

/-!
Device profiles: what is known about a device before any configuration.
-/

namespace FingerTracking

structure Profile where
  name : String
  /-- The form of the records that the device sends. -/
  layout : Layout
  screenWidth : Int32
  screenHeight : Int32
  xMax : Int32
  yMax : Int32
  device : String
deriving DecidableEq, Inhabited

namespace Profile

/-- An emulated tablet. The emulated screen reports a size of its own that is wrong, so the size
stands here; both axes of the tablet run from 0 to 32767. -/
def emulator : Profile :=
  { name := "emulator"
    layout := .native64
    screenWidth := 1024
    screenHeight := 768
    xMax := 32767
    yMax := 32767
    device := "/dev/input/touchscreen0" }

def all : List Profile := [emulator]

/-- The profile used when none is asked for. -/
def standard : Profile := emulator

def names : List String := all.map (·.name)

/-- Equality up to the case of ASCII letters. -/
def sameName (a b : String) : Bool :=
  a.toList.map Char.toLower == b.toList.map Char.toLower

def ofName? (name : String) : Option Profile :=
  all.find? fun p => sameName p.name name

end Profile

end FingerTracking
