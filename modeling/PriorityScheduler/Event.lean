import PriorityScheduler.Statistics

namespace PriorityScheduler

structure Lifetime where
  arrival : Ticks
  run : Ticks
  wait : Ticks
  finish : Ticks
  deriving DecidableEq, Repr, Inhabited

inductive LockTransition where
  | wait
  | acquired
  | released
  deriving DecidableEq, Repr, Inhabited

def LockTransition.tag : LockTransition → String
  | .wait => "W"
  | .acquired => "A"
  | .released => "R"

inductive Event where
  | scheduled (time : Ticks) (thread : Thread) (priority : Priority)
  | enqueued (time : Ticks) (thread : Thread) (priority : Priority)
  | finished (thread : Thread) (record : Lifetime)
  | lock (action : LockTransition) (lock : LockId) (time : Ticks) (thread : ThreadId) (priority : Priority)
  | system (report : Report)
  deriving DecidableEq, Repr, Inhabited

def Event.line : Event → String
  | .scheduled time thread priority => s!"{time},{thread},{priority}"
  | .enqueued time thread priority => s!"Q,{time},{thread},{priority}"
  | .finished thread r => s!"{thread},{r.arrival},{r.run},{r.wait},{r.finish}"
  | .lock action id time thread priority => s!"{action.tag},{id},{time},{thread},{priority}"
  | .system report => report.line

end PriorityScheduler
