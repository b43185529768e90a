import PriorityScheduler.Event

namespace PriorityScheduler

structure Accounts where
  arrival : Option Ticks := none
  lastScheduled : Option Ticks := none
  lastEnqueued : Option Ticks := none
  run : Ticks := 0
  wait : Ticks := 0
  deriving DecidableEq, Repr, Inhabited

namespace Accounts

def ranSince (scheduled : Ticks) : Option Ticks → Bool
  | none => true
  | some enqueued => enqueued ≤ scheduled

def waitedSince (enqueued : Ticks) : Option Ticks → Bool
  | none => true
  | some scheduled => scheduled ≤ enqueued

/-- Admission to a queue. The first one is the arrival and starts the run account; a later one closes the run
that went before it. -/
def enqueued (a : Accounts) (now : Ticks) : Except Fault Accounts :=
  match a.arrival, a.lastScheduled with
  | none, _ => .ok { a with arrival := some now, lastScheduled := some now, lastEnqueued := some now }
  | some _, some scheduled =>
      if ranSince scheduled a.lastEnqueued then do
        let run ← Ticks.add a.run (Ticks.elapsed scheduled now)
        pure { a with run, lastEnqueued := some now }
      else .ok { a with lastEnqueued := some now }
  | some _, none => .ok { a with lastEnqueued := some now }

def scheduled (a : Accounts) (now : Ticks) : Except Fault Accounts :=
  match a.lastEnqueued with
  | some enqueued =>
      if waitedSince enqueued a.lastScheduled then do
        let wait ← Ticks.add a.wait (Ticks.elapsed enqueued now)
        pure { a with wait, lastScheduled := some now }
      else .ok { a with lastScheduled := some now }
  | none => .ok { a with lastScheduled := some now }

def close (a : Accounts) (arrival now : Ticks) : Except Fault Lifetime := do
  let run ← Ticks.add a.run (Ticks.elapsed (a.lastScheduled.getD arrival) now)
  pure { arrival, run, wait := a.wait, finish := now }

end Accounts

end PriorityScheduler
