import PriorityScheduler.SortedMap
import PriorityScheduler.Thread

namespace PriorityScheduler

inductive RunState where
  | running
  | ready
  | blocked
  deriving DecidableEq, Repr, Inhabited

def RunState.name : RunState → String
  | .running => "running"
  | .ready => "ready"
  | .blocked => "blocked"

structure Processor where
  current : Thread
  states : SortedMap ThreadId RunState
  switches : List ThreadId := []

namespace Processor

def running (thread : Thread) : Processor :=
  { current := thread, states := (∅ : SortedMap ThreadId RunState).insert thread.id .running }

def boot : Processor := running .main

instance : Inhabited Processor := ⟨boot⟩

def state? (p : Processor) (id : ThreadId) : Option RunState := p.states.get? id

def setReady (p : Processor) (thread : Thread) : Processor :=
  { p with states := p.states.insert thread.id .ready }

def block (p : Processor) : Processor :=
  { p with states := p.states.insert p.current.id .blocked }

/-- Give the processor to a thread. A thread that is switched away from while running stays ready. -/
def switchTo (p : Processor) (next : Thread) : Processor :=
  let previous := p.current.id
  let states :=
    if previous ≠ next.id ∧ p.state? previous = some .running then p.states.insert previous .ready
    else p.states
  { current := next, states := states.insert next.id .running, switches := p.switches ++ [next.id] }

end Processor

end PriorityScheduler
