import PriorityScheduler.Idle
import PriorityScheduler.Interrupts
import PriorityScheduler.Lock.Donation
import PriorityScheduler.Output
import PriorityScheduler.Processor
import PriorityScheduler.Queue.Wait

/-!
# The state of a scheduler

All registries of one processor: threads, wait queues, locks and statistics, with the clock, the interrupt flag
and the processor that they belong to. What the scheduler tells the outside, events for the statistics log and
notices for the kernel log, is kept in the order in which it was told. `nextQueue` has no bound, like the numbers
of locks; nobody makes `2 ^ 64` queues.

An `Action` is an operation on that state. A failed action keeps the state that it reached.
-/

namespace PriorityScheduler

structure Scheduler where
  interrupts : Interrupts := {}
  clock : Clock := {}
  processor : Processor := .boot
  threads : ThreadRegistry
  queues : SortedMap QueueId WaitQueue
  nextQueue : Nat := 1
  locks : LockRegistry
  statistics : Statistics := {}
  idle : Idle
  shutDown : Bool := false
  output : List Output := []

def Scheduler.config (s : Scheduler) : Config := s.threads.config

def Scheduler.boot (config : Config) (idle : Thread) (start : Ticks) : Noted (Except Error Scheduler) :=
  match config.validate with
  | .error e => ⟨.error e, [.refused e]⟩
  | .ok _ =>
      let idle := Idle.new idle
      ⟨.ok
        { clock := ⟨start⟩
          threads := { config }
          queues := (∅ : SortedMap QueueId WaitQueue).insert .ready (.new .ready false config)
          locks := { donation := config.donation }
          idle := idle.value },
        .started config :: idle.notices⟩

abbrev Action := EStateM Failure Scheduler

namespace Action

def fault {α : Type} (f : Fault) : Action α := throw (.fatal f)

def refuse {α : Type} (e : Error) : Action α := throw (.refused e)

def emit (e : Event) : Action Unit := modify fun s => { s with output := s.output ++ [.event e] }

def notice (n : Notice) : Action Unit := modify fun s => { s with output := s.output ++ [.notice n] }

def notices (ns : List Notice) : Action Unit :=
  modify fun s => { s with output := s.output ++ ns.map .notice }

def lift {α : Type} (result : Except Failure α) : Action α :=
  match result with
  | .ok a => pure a
  | .error f => throw f

def liftFault {α : Type} (result : Except Fault α) : Action α :=
  match result with
  | .ok a => pure a
  | .error f => fault f

def noted {α : Type} (result : Except Fault (Noted α)) : Action α := do
  let r ← liftFault result
  notices r.notices
  pure r.value

def assertMasked (operation : Operation) : Action Unit := do
  if (← get).interrupts.enabled then fault (.interruptsEnabled operation)

def masked {α : Type} (action : Action α) : Action α := fun s =>
  let (guard, interrupts) := s.interrupts.guard
  match action { s with interrupts } with
  | .ok a s => .ok a { s with interrupts := s.interrupts.release guard }
  | .error f s => .error f { s with interrupts := s.interrupts.release guard }

def now : Action Ticks := return (← get).clock.now

end Action

namespace Scheduler

/-- The thread with a number: main always, any other while it has a state. -/
def thread? (s : Scheduler) (id : ThreadId) : Option Thread :=
  match s.threads.get? id with
  | some state => some state.thread
  | none => if id = .main then some .main else none

def queue? (s : Scheduler) (id : QueueId) : Except Error WaitQueue :=
  match s.queues.get? id with
  | some q => .ok q
  | none => .error (.queueNotFound id)

def readyWaiters (s : Scheduler) : List ThreadId :=
  match s.queues.get? .ready with
  | some q => q.waiters
  | none => []

def queueOwner (s : Scheduler) (id : QueueId) : Except Error (Option ThreadId) :=
  (s.queue? id).map (·.owner)

def queueWaiters (s : Scheduler) (id : QueueId) : Except Error (List ThreadId) :=
  (s.queue? id).map (·.waiters)

def lockHolder (s : Scheduler) (id : LockId) : Except Error (Option ThreadId) :=
  (s.locks.lookup id).map (·.holder)

def lockDonated (s : Scheduler) (id : LockId) : Except Error (Option Priority) :=
  (s.locks.lookup id).map (·.donated)

def lockWaiters (s : Scheduler) (id : LockId) : Except Error (List ThreadId) :=
  (s.locks.lookup id).map (·.waiters)

def donationConsistent (s : Scheduler) : Bool := s.locks.isConsistent s.threads

end Scheduler

end PriorityScheduler
