import PriorityScheduler.Scheduler.State

namespace PriorityScheduler.Action

def createQueue (transfer : Bool) : Action QueueId := do
  let s ← get
  let id : QueueId := ⟨s.nextQueue⟩
  set { s with
    nextQueue := s.nextQueue + 1
    queues := s.queues.insert id (.new id transfer s.config) }
  notice (.queueCreated id transfer)
  pure id

def queue (id : QueueId) : Action WaitQueue := do
  match (← get).queue? id with
  | .ok q => pure q
  | .error e => refuse e

def joinQueue (id : QueueId) (thread : Thread) : Action Unit := do
  assertMasked .joinQueue
  let now ← now
  let q ← queue id
  let (q, threads) ← noted (q.enqueue thread (← get).threads now)
  modify fun s => { s with queues := s.queues.insert id q, threads }
  emit (.enqueued now thread (threads.effective thread.id))

def takeNext (id : QueueId) (now : Ticks) : Action (Option Thread) := do
  let q ← queue id
  let selected ← noted (q.next (← get).threads now)
  modify fun s => { s with queues := s.queues.insert id selected.queue, threads := selected.threads }
  let s ← get
  pure (selected.next.bind s.thread?)

def serve (id : QueueId) : Action (Option Thread) := do
  assertMasked .serve
  takeNext id (← now)

def claimQueue (id : QueueId) (thread : Thread) : Action Unit := do
  assertMasked .claimQueue
  let q ← queue id
  let q ← liftFault (q.acquire thread.id)
  modify fun s => { s with queues := s.queues.insert id q }

def repositionOne (s : Scheduler) (id : ThreadId) : Scheduler :=
  match (s.threads.get? id).bind (·.queuedOn) with
  | none => s
  | some queue => { s with queues := s.queues.modify queue (·.reposition id s.threads) }

def reposition (ids : List ThreadId) : Action Unit := modify fun s => ids.foldl repositionOne s

end PriorityScheduler.Action
