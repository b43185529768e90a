import PriorityScheduler.Priority
import PriorityScheduler.Thread

namespace PriorityScheduler

inductive Error where
  | invalidPriority (value least greatest : Priority)
  | threadNotFound (thread : ThreadId)
  | queueNotFound (queue : QueueId)
  | lockNotFound (lock : LockId)
  | invalidConfig (reason : String)
  | internal (reason : String)
  deriving DecidableEq, Repr, Inhabited

namespace Error

def message : Error → String
  | .invalidPriority value least greatest => s!"Priority {value} outside [{least}, {greatest}]"
  | .threadNotFound thread => s!"Thread {thread} not found"
  | .queueNotFound queue => s!"Wait queue {queue.val} not found"
  | .lockNotFound lock => s!"Lock {lock.val} not found"
  | .invalidConfig reason => s!"Invalid scheduler config: {reason}"
  | .internal reason => s!"Internal scheduler error: {reason}"

def hint : Error → String
  | .invalidPriority .. => "Clamp the value or use set_clamped_priority"
  | .threadNotFound _ => "Thread may have already terminated"
  | .queueNotFound _ => "Queue ids are only valid for the scheduler that created them"
  | .lockNotFound _ => "Lock ids are only valid for the scheduler that created them"
  | .invalidConfig _ => "Check the scheduler.* keys of the kernel config"
  | .internal _ => "Report a scheduler bug"

def isRecoverable : Error → Bool
  | .internal _ => false
  | _ => true

/-- A missing thread is common during cleanup and is not logged. -/
def isLogged : Error → Bool
  | .threadNotFound _ => false
  | _ => true

/-- From 0, a notice, to 3, critical. -/
def severity : Error → Nat
  | .internal _ => 3
  | .invalidConfig _ => 2
  | .queueNotFound _ => 1
  | .lockNotFound _ => 1
  | _ => 0

end Error

inductive Operation where
  | joinQueue
  | serve
  | claimQueue
  | readPriority
  | readEffective
  | setPriority
  | wake
  | dispatch
  | sleep
  deriving DecidableEq, Repr, Inhabited

def Operation.name : Operation → String
  | .joinQueue => "wait_for_access"
  | .serve => "next_thread"
  | .claimQueue => "acquire_queue"
  | .readPriority => "get_priority"
  | .readEffective => "get_effective_priority"
  | .setPriority => "set_priority"
  | .wake => "make_ready"
  | .dispatch => "run_next"
  | .sleep => "sleep_current"

inductive Fault where
  | priorityOutside (value least greatest : Priority) (thread : Thread)
  | admittedOutside (thread : Thread) (queue : QueueId) (value least greatest : Priority)
  | queueOccupied (queue : QueueId) (thread : ThreadId) (waiters : Nat)
  | lockHeldAlready (thread : ThreadId) (lock : LockId)
  | lockNotHeld (thread : ThreadId) (lock : LockId) (holder : Option ThreadId)
  | interruptsEnabled (operation : Operation)
  | idleMadeReady
  | idleSlept
  | idleFinished
  | emptyRange (least greatest : Priority)
  | sumTooLarge
  | differenceNegative
  deriving DecidableEq, Repr, Inhabited

namespace Fault

def threadIdText (id : ThreadId) : String := s!"ThreadId({id})"

def holderText : Option ThreadId → String
  | none => "None"
  | some id => s!"Some({threadIdText id})"

def invariant? : Fault → Option String
  | .priorityOutside value least greatest thread =>
      some s!"priority {value} outside [{least}, {greatest}] for {thread}"
  | .admittedOutside thread queue value least greatest =>
      some s!"{thread} admitted to {queue} with priority {value} outside [{least}, {greatest}]"
  | .queueOccupied queue thread waiters =>
      some s!"acquire of {queue} by thread {thread} with {waiters} waiter(s)"
  | .lockHeldAlready thread lock => some s!"thread {thread} acquiring {lock} it already holds"
  | .lockNotHeld thread lock holder =>
      some s!"thread {thread} releasing {lock} held by {holderText holder}"
  | .interruptsEnabled operation => some s!"{operation.name} called with interrupts enabled"
  | .idleMadeReady => some "idle thread made ready"
  | .idleSlept => some "idle thread cannot sleep"
  | .idleFinished => some "idle thread cannot finish"
  | _ => none

def message (f : Fault) : String :=
  match f.invariant? with
  | some reason => s!"[SCHED CRITICAL] Invariant violated: {reason}"
  | none =>
      match f with
      | .emptyRange least greatest => s!"min > max. min = {least}, max = {greatest}"
      | .differenceNegative => "attempt to subtract with overflow"
      | _ => "attempt to add with overflow"

def isOverflow : Fault → Bool
  | .sumTooLarge => true
  | .differenceNegative => true
  | _ => false

end Fault

inductive Failure where
  | refused (error : Error)
  | fatal (fault : Fault)
  deriving DecidableEq, Repr, Inhabited

end PriorityScheduler
