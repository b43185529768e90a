import PriorityScheduler.Queue.Discipline

/-!
# Wait queues

Threads that wait for a resource, the processor for the ready queue. The main thread does not enter the
discipline: it has a slot of its own and is handed out only when nobody else waits. A queue that transfers
priority makes whomever it hands out its owner.
-/

namespace PriorityScheduler

structure WaitQueue where
  id : QueueId
  transfer : Bool
  discipline : Discipline
  owner : Option ThreadId := none
  mainWaiting : Bool := false
  deriving Inhabited

namespace WaitQueue

def new (id : QueueId) (transfer : Bool) (config : Config) : WaitQueue :=
  { id, transfer, discipline := .ofConfig config }

def policy (q : WaitQueue) : Policy := q.discipline.policy

def length (q : WaitQueue) : Nat := q.discipline.length + if q.mainWaiting then 1 else 0

def isEmpty (q : WaitQueue) : Bool := q.length = 0

def contains (q : WaitQueue) (id : ThreadId) : Bool :=
  if id = .main then q.mainWaiting else q.discipline.contains id

def waiters (q : WaitQueue) : List ThreadId :=
  q.discipline.waiters ++ if q.mainWaiting then [.main] else []

def enqueue (q : WaitQueue) (thread : Thread) (threads : ThreadRegistry) (now : Ticks) :
    Except Fault (Noted (WaitQueue × ThreadRegistry)) :=
  let config := threads.config
  let created := threads.ensure thread
  let (state, threads) := created.value
  if config.inRange state.base then do
    let state ← state.enqueued now
    let threads := threads.put thread.id { state with queuedOn := some q.id }
    let q :=
      if thread.isMain then { q with mainWaiting := true }
      else { q with discipline := q.discipline.enqueue thread.id threads }
    pure ⟨(q, threads), created.notices⟩
  else .error (.admittedOutside thread q.id state.base config.mostUrgent config.leastUrgent)

def unlink (threads : ThreadRegistry) (id : ThreadId) : ThreadRegistry :=
  threads.modify id fun s => { s with queuedOn := none }

def next (q : WaitQueue) (threads : ThreadRegistry) (now : Ticks) :
    Except Fault (Noted (Selection WaitQueue)) := do
  let selected ← q.discipline.select threads now
  let q := { q with discipline := selected.value.queue }
  let (next, q) :=
    match selected.value.next with
    | some id => (some id, q)
    | none => if q.mainWaiting then (some ThreadId.main, { q with mainWaiting := false }) else (none, q)
  let threads :=
    match next with
    | some id => unlink selected.value.threads id
    | none => selected.value.threads
  let q := if q.transfer then { q with owner := next } else q
  pure ⟨⟨next, q, threads⟩, selected.notices⟩

def acquire (q : WaitQueue) (id : ThreadId) : Except Fault WaitQueue :=
  if q.isEmpty then .ok { q with owner := some id }
  else .error (.queueOccupied q.id id q.length)

def reposition (q : WaitQueue) (id : ThreadId) (threads : ThreadRegistry) : WaitQueue :=
  if id = .main then q else { q with discipline := q.discipline.reposition id threads }

def remove (q : WaitQueue) (id : ThreadId) (threads : ThreadRegistry) : Bool × WaitQueue × ThreadRegistry :=
  let (found, q) :=
    if id = .main then (q.mainWaiting, { q with mainWaiting := false })
    else
      let (found, discipline) := q.discipline.remove id
      (found, { q with discipline })
  (found, q, if found then unlink threads id else threads)

def describe (q : WaitQueue) : String :=
  "PriorityWaitQueue \x7b id: " ++ toString q.id.val ++ ", kind: " ++ q.policy.title ++
    ", transfer_priority: " ++ toString q.transfer ++ ", owner: " ++ Fault.holderText q.owner ++
    ", waiters: [" ++ ", ".intercalate (q.waiters.map Fault.threadIdText) ++ "] \x7d"

end WaitQueue

end PriorityScheduler
