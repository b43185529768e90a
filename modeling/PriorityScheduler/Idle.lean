import PriorityScheduler.Notice

namespace PriorityScheduler

structure Idle where
  thread : Thread
  dispatches : Nat := 0
  deriving DecidableEq, Repr, Inhabited

namespace Idle

def new (thread : Thread) : Noted Idle := ⟨{ thread }, [.idleCreated]⟩

def isIdle (t : Idle) (id : ThreadId) : Bool := t.thread.id = id

def dispatch (t : Idle) : Except Fault (Noted (Thread × Idle)) := do
  let dispatches ← Ticks.add t.dispatches 1
  pure ⟨(t.thread, { t with dispatches }), if dispatches = 1 then [.enteringIdle] else []⟩

end Idle

end PriorityScheduler
