import PriorityScheduler.Ticks

namespace PriorityScheduler

structure Report where
  finished : Nat := 0
  meanWait : Ticks := 0
  maxWait : Ticks := 0
  meanTurnaround : Ticks := 0
  deriving DecidableEq, Repr, Inhabited

def Report.line (r : Report) : String :=
  s!"System,{r.finished},{r.meanWait},{r.maxWait},{r.meanTurnaround}"

structure Statistics where
  finished : Nat := 0
  totalWait : Ticks := 0
  totalTurnaround : Ticks := 0
  maxWait : Ticks := 0
  deriving DecidableEq, Repr, Inhabited

namespace Statistics

def countUnarrived (s : Statistics) : Except Fault Statistics := do
  let finished ← Ticks.add s.finished 1
  pure { s with finished }

def countFinished (s : Statistics) (wait turnaround : Ticks) : Except Fault Statistics := do
  let finished ← Ticks.add s.finished 1
  let totalWait ← Ticks.add s.totalWait wait
  let totalTurnaround ← Ticks.add s.totalTurnaround turnaround
  pure { finished, totalWait, totalTurnaround, maxWait := max s.maxWait wait }

def average (total count : Nat) : Except Fault Nat :=
  if count = 0 then .ok 0
  else do
    let shifted ← Ticks.add total (count / 2)
    pure (shifted / count)

def meanWait (s : Statistics) : Except Fault Ticks := average s.totalWait s.finished

def meanTurnaround (s : Statistics) : Except Fault Ticks := average s.totalTurnaround s.finished

def report (s : Statistics) : Except Fault Report := do
  let meanWait ← s.meanWait
  let meanTurnaround ← s.meanTurnaround
  pure { finished := s.finished, meanWait, maxWait := s.maxWait, meanTurnaround }

end Statistics

end PriorityScheduler
