import PriorityScheduler.Scheduler.Queues

namespace PriorityScheduler.Action

def stateOf (thread : Thread) : Action ThreadState := do
  let (state, threads) ← noted (.ok ((← get).threads.ensure thread))
  modify fun s => { s with threads }
  pure state

def priorityOf (thread : Thread) : Action Priority := do
  assertMasked .readPriority
  return (← stateOf thread).base

def effectivePriorityOf (thread : Thread) : Action Priority := do
  assertMasked .readEffective
  return (← stateOf thread).effective

def adopt (w : Walk) : Action Unit := do
  modify fun s => { s with locks := w.locks, threads := w.threads }
  notices w.notices

def priorityChanged (id : ThreadId) (changed : Bool) : Action Unit := do
  if changed then
    let s ← get
    let w := s.locks.priorityChanged id s.threads
    adopt w
    reposition (w.changed ++ [id])

def setPriority (thread : Thread) (p : Priority) : Action Unit := do
  assertMasked .setPriority
  let state ← stateOf thread
  let change ← liftFault (state.setPriority (← get).config p)
  modify fun s => { s with threads := s.threads.put thread.id change.state }
  priorityChanged thread.id change.changed

def requestPriority (thread : Thread) (p : Priority) : Action Unit := do
  let config := (← get).config
  if config.inRange p then setPriority thread p
  else do
    let e := Error.invalidPriority p config.mostUrgent config.leastUrgent
    notice (.refused e)
    refuse e

def setNearestPriority (thread : Thread) (p : Priority) : Action Unit := do
  let p ← liftFault ((← get).config.clamp p)
  setPriority thread p

def promote (thread : Thread) : Action Bool := masked do
  let current := (← stateOf thread).base
  if current ≤ (← get).config.mostUrgent then pure false
  else do
    setPriority thread (current - 1)
    pure true

def demote (thread : Thread) : Action Bool := masked do
  let current := (← stateOf thread).base
  if (← get).config.leastUrgent ≤ current then pure false
  else do
    setPriority thread (current + 1)
    pure true

def ageOut (thread : Thread) : Action Unit := do
  let now ← now
  let update ← noted ((← get).threads.ageRunning thread.id now)
  modify fun s => { s with threads := update.threads }
  priorityChanged thread.id update.changed

end PriorityScheduler.Action
