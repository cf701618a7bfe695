/-!
Handles: references to the slots of a finger pool.

A handle names a slot and the generation of the slot it was issued for. The slot's generation
moves on whenever the slot is taken or freed, so an old handle is recognised as stale.
-/

namespace FingerTracking

structure Handle where
  index : Nat
  generation : UInt32
deriving DecidableEq, Inhabited

def Handle.text (h : Handle) : String :=
  s!"FingerHandle \x7b index: {h.index}, generation: {h.generation} \x7d"

end FingerTracking
