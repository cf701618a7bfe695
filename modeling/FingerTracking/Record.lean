/-!
Raw input records: what a touch panel sends and what a consumer of kernel-style input reads.

A `Record` is a type, a code and a value. The numbers below are those of the Linux input
interface, with one type of our own for finger ids. `Record.signal` is what a record means to a
single-touch panel's reader.
-/

namespace FingerTracking

structure Record where
  type : UInt16
  code : UInt16
  value : Int32
deriving DecidableEq, Inhabited

namespace Record

/-! ## Types and codes -/

def typeSync : UInt16 := 0x00

def typeKey : UInt16 := 0x01

def typeAbsolute : UInt16 := 0x03

/-- Not a type of the kernel: it carries the id of a tracked finger. -/
def typeFinger : UInt16 := 0x07

def codeReport : UInt16 := 0

def codeX : UInt16 := 0x00

def codeY : UInt16 := 0x01

def codePressure : UInt16 := 0x18

def codeTouch : UInt16 := 0x14a

/-! ## Meaning -/

/-- What a record says about the one contact of a single-touch panel. -/
inductive Signal where
  | x (value : Int32)
  | y (value : Int32)
  | touch (value : Int32)
  | report
  | other
deriving DecidableEq

def signal (r : Record) : Signal :=
  if r.type = typeAbsolute ∧ r.code = codeX then .x r.value
  else if r.type = typeAbsolute ∧ r.code = codeY then .y r.value
  else if r.type = typeKey ∧ r.code = codeTouch then .touch r.value
  else if r.type = typeSync ∧ r.code = codeReport then .report
  else .other

/-- The name of a record's code in a listing of raw input. -/
def name (r : Record) : String :=
  if r.type = typeSync then
    if r.code = codeReport then "SYN_REPORT" else s!"SYN/{r.code}"
  else if r.type = typeKey then
    if r.code = codeTouch then "BTN_TOUCH" else s!"KEY/{r.code}"
  else if r.type = typeAbsolute then
    if r.code = codeX then s!"ABS_X({r.code})"
    else if r.code = codeY then s!"ABS_Y({r.code})"
    else if r.code = codePressure then s!"ABS_PRESSURE({r.code})"
    else s!"ABS_?({r.code})"
  else s!"type{r.type} code{r.code}"

end Record

end FingerTracking
