import PriorityScheduler.Scheduler.Priorities

namespace PriorityScheduler.Action

def current : Action Thread := return (← get).processor.current

def onProcessor (f : Processor → Processor) : Action Unit :=
  modify fun s => { s with processor := f s.processor }

def wake (thread : Thread) : Action Unit := do
  assertMasked .wake
  if thread.isIdle then fault .idleMadeReady
  if ((← get).threads.get? thread.id).bind (·.queuedOn) = some .ready then
    notice (.alreadyReady thread)
  else do
    onProcessor (·.setReady thread)
    joinQueue .ready thread

def idleThread : Action Thread := do
  let (thread, idle) ← noted (← get).idle.dispatch
  modify fun s => { s with idle }
  pure thread

def account (thread : Thread) (now : Ticks) : Action Priority := do
  let s ← get
  match s.threads.get? thread.id with
  | none => pure s.config.initial
  | some state => do
      let state ← liftFault (state.scheduled now)
      modify fun s => { s with threads := s.threads.put thread.id state }
      pure state.effective

def choose (now : Ticks) : Action Thread := do
  match ← takeNext .ready now with
  | some thread => pure thread
  | none => idleThread

def launch (next : Thread) (now : Ticks) : Action Unit := do
  unless next.isIdle do
    let priority ← account next now
    emit (.scheduled now next priority)
  onProcessor (·.switchTo next)

def dispatch : Action Thread := do
  assertMasked .dispatch
  let now ← now
  let next ← choose now
  launch next now
  pure next

def giveWay : Action Unit := do
  let thread ← current
  unless thread.isIdle do
    ageOut thread
    wake thread

def yield : Action Thread := masked do
  giveWay
  dispatch

def suspend (thread : Thread) : Action Unit := do
  onProcessor (·.block)
  ageOut thread

def sleep : Action Thread := do
  assertMasked .sleep
  let thread ← current
  if thread.isIdle then fault .idleSlept
  suspend thread
  dispatch

def createLock : Action LockId := do
  let s ← get
  let (id, locks) := s.locks.create
  set { s with locks }
  pure id

def emitLock (action : LockTransition) (lock : LockId) (thread : ThreadId) (time : Ticks) : Action Unit := do
  emit (.lock action lock time thread ((← get).threads.effective thread))

def handOn (lock : LockId) (holder : Thread) (now : Ticks) : Action (Option ThreadId) := do
  let s ← get
  let priority := s.threads.effective holder.id
  let (next, w) ← lift (s.locks.release lock holder.id s.threads)
  adopt w
  emit (.lock .released lock now holder.id priority)
  reposition w.changed
  match next with
  | none => pure none
  | some id => do
      emitLock .acquired lock id now
      match (← get).thread? id with
      | some thread => wake thread
      | none => pure ()
      pure (some id)

def contend (lock : LockId) : Action LockOutcome := do
  let thread ← current
  let now ← now
  let _ ← stateOf thread
  let s ← get
  let (outcome, w) ← lift (s.locks.acquire lock thread.id s.threads)
  adopt w
  reposition w.changed
  match outcome with
  | .acquired => emitLock .acquired lock thread.id now
  | .blocked holder => do
      emitLock .wait lock thread.id now
      notice (.waits thread lock holder ((← get).threads.effective holder))
      suspend thread
  pure outcome

/-- Take a lock for the current thread, which blocks if the lock is held. A blocked thread owns the lock once it is
made ready again. -/
def acquire (lock : LockId) : Action LockOutcome := masked do
  let outcome ← contend lock
  match outcome with
  | .acquired => pure ()
  | .blocked _ => do
      let _ ← dispatch
  pure outcome

def release (lock : LockId) : Action (Option ThreadId) := masked do
  handOn lock (← current) (← now)

def leaveQueue (id : ThreadId) : Action Unit := modify fun s =>
  match (s.threads.get? id).bind (·.queuedOn) with
  | none => s
  | some queue =>
      match s.queues.get? queue with
      | none => s
      | some q =>
          let (_, q, threads) := q.remove id s.threads
          { s with queues := s.queues.insert queue q, threads }

def retire (thread : Thread) (now : Ticks) : Action Unit := do
  let s ← get
  match s.threads.get? thread.id with
  | some state => do
      set { s with threads := s.threads.remove thread.id }
      let (record, statistics) ← liftFault (state.finished now s.statistics)
      modify fun s => { s with statistics }
      match record with
      | some record => emit (.finished thread record)
      | none => pure ()
  | none =>
      if !thread.isExempt then
        let statistics ← liftFault s.statistics.countUnarrived
        modify fun s => { s with statistics }

def depart : Action Unit := do
  let thread ← current
  if thread.isIdle then fault .idleFinished
  let now ← now
  let s ← get
  let w := s.locks.withdraw thread.id s.threads
  adopt w
  reposition w.changed
  ((← get).locks.heldBy thread.id).forM fun lock => do
    notice (.finishedHolding thread lock)
    let _ ← handOn lock thread now
  leaveQueue thread.id
  retire thread now
  notice (.finished thread now)
  onProcessor (·.block)

def finish : Action Thread := masked do
  depart
  dispatch

/-- Draw up the report; the first time it is also told to the outside. -/
def shutdown : Action Report := masked do
  let s ← get
  let report ← liftFault s.statistics.report
  unless s.shutDown do
    emit (.system report)
    notice .shutDown
    modify fun s => { s with shutDown := true }
  pure report

def advanceClock (delta : Ticks) : Action Ticks := do
  let s ← get
  let (time, clock) := s.clock.advance delta
  set { s with clock }
  liftFault time

def setClock (time : Ticks) : Action Ticks := do
  modify fun s => { s with clock := s.clock.set time }
  now

end PriorityScheduler.Action
