import PriorityScheduler.Failure

/-!
# Clock ticks and counters

Ticks and the counts in the statistics and of idle dispatches are natural numbers below `2 ^ 64`. A sum that does
not fit is a fault; differences of times stop at zero. Numbers that are only given out one after the other, to
threads, queues, locks and places in line, are counted without that bound: a scheduler would have to make
`2 ^ 64` of a kind to reach it.
-/

namespace PriorityScheduler

abbrev Ticks := Nat

namespace Ticks

def bound : Nat := 18446744073709551616

def add (a b : Ticks) : Except Fault Ticks :=
  if a + b < bound then .ok (a + b) else .error .sumTooLarge

def elapsed (start now : Ticks) : Ticks := now - start

theorem add_eq_ok {a b c : Ticks} : add a b = .ok c ↔ a + b = c ∧ a + b < bound := by
  unfold add
  split
  · rename_i fits
    simp [fits]
  · rename_i large
    simp [large]

end Ticks

structure Clock where
  now : Ticks := 0
  deriving DecidableEq, Repr, Inhabited

namespace Clock

/-- The counter wraps around; a move past its end is reported after it happened. -/
def advance (clock : Clock) (delta : Ticks) : Except Fault Ticks × Clock :=
  (Ticks.add clock.now delta, ⟨(clock.now + delta) % Ticks.bound⟩)

def set (clock : Clock) (time : Ticks) : Clock := ⟨max clock.now time⟩

end Clock

end PriorityScheduler
