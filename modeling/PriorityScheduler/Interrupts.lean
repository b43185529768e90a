namespace PriorityScheduler

structure Interrupts where
  enabled : Bool := true
  disableCount : Nat := 0
  deriving DecidableEq, Repr, Inhabited

namespace Interrupts

structure Guard where
  wasEnabled : Bool
  deriving DecidableEq, Repr, Inhabited

def disable (i : Interrupts) : Bool × Interrupts := (i.enabled, ⟨false, i.disableCount + 1⟩)

def restore (i : Interrupts) (wasEnabled : Bool) : Interrupts := { i with enabled := wasEnabled }

def guard (i : Interrupts) : Guard × Interrupts := (⟨i.disable.1⟩, i.disable.2)

def release (i : Interrupts) (g : Guard) : Interrupts := i.restore g.wasEnabled

end Interrupts

end PriorityScheduler
