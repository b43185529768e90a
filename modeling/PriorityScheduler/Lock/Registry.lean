import PriorityScheduler.Thread.Registry

/-!
# Lock registry

The locks by number: holder, waiters in hand-off order, the priority that the waiters donate, and the oldest
waiter with that priority. `isConsistent` says that donated and effective priorities agree everywhere. `nextId`
has no bound; nobody makes the `2 ^ 64` locks that the numbers of a machine last for.
-/

namespace PriorityScheduler

structure Lock where
  holder : Option ThreadId := none
  waiters : List ThreadId := []
  donated : Option Priority := none
  donor : Option ThreadId := none
  deriving DecidableEq, Repr, Inhabited

structure LockRegistry where
  donation : Bool
  locks : SortedMap LockId Lock := ∅
  nextId : Nat := 1

namespace LockRegistry

def get? (t : LockRegistry) (id : LockId) : Option Lock := t.locks.get? id

def lookup (t : LockRegistry) (id : LockId) : Except Error Lock :=
  match t.get? id with
  | some l => .ok l
  | none => .error (.lockNotFound id)

def put (t : LockRegistry) (id : LockId) (l : Lock) : LockRegistry := { t with locks := t.locks.insert id l }

def create (t : LockRegistry) : LockId × LockRegistry :=
  (⟨t.nextId⟩, { t with locks := t.locks.insert ⟨t.nextId⟩ {}, nextId := t.nextId + 1 })

def size (t : LockRegistry) : Nat := t.locks.size

def holder? (t : LockRegistry) (id : LockId) : Option ThreadId := (t.get? id).bind (·.holder)

def donated? (t : LockRegistry) (id : LockId) : Option Priority := (t.get? id).bind (·.donated)

def heldBy (t : LockRegistry) (thread : ThreadId) : List LockId :=
  (t.locks.entries.filter fun (_, l) => l.holder = some thread).map (·.1)

/-- The first waiter with the least effective priority, and that priority. -/
def bestWaiter (threads : ThreadRegistry) : List ThreadId → Option (Priority × ThreadId)
  | [] => none
  | id :: rest =>
      let priority := threads.effective id
      match bestWaiter threads rest with
      | some (later, donor) => if later < priority then some (later, donor) else some (priority, id)
      | none => some (priority, id)

def bestDonation (t : LockRegistry) : List LockId → Option Donation
  | [] => none
  | id :: rest =>
      match t.donated? id, bestDonation t rest with
      | none, later => later
      | some priority, none => some ⟨priority, id⟩
      | some priority, some later => if later.priority < priority then some later else some ⟨priority, id⟩

def refresh (t : LockRegistry) (id : LockId) (threads : ThreadRegistry) : LockRegistry :=
  match t.get? id with
  | none => t
  | some l =>
      let best := bestWaiter threads l.waiters
      t.put id { l with donated := best.map (·.1), donor := best.map (·.2) }

def refreshThread (t : LockRegistry) (thread : ThreadId) (threads : ThreadRegistry) : ThreadRegistry.Update :=
  match threads.get? thread with
  | none => ⟨threads, false⟩
  | some s =>
      let change := s.setDonation (t.bestDonation s.held)
      ⟨threads.put thread change.state, change.changed⟩

def least : List Priority → Option Priority
  | [] => none
  | p :: rest => some ((least rest).elim p (min p))

def lockConsistent (threads : ThreadRegistry) (l : Lock) : Bool :=
  least (l.waiters.map threads.effective) = l.donated

def stateConsistent (t : LockRegistry) (s : ThreadState) : Bool :=
  s.effective = ((least (s.held.filterMap t.donated?)).elim s.base (min s.base))

/-- Each lock donates the least effective priority of its waiters, and each thread runs at the least of its base
priority and what its locks donate. Without donation there is nothing to check. -/
def isConsistent (t : LockRegistry) (threads : ThreadRegistry) : Bool :=
  !t.donation || (t.locks.values.all (lockConsistent threads) && threads.states.values.all t.stateConsistent)

end LockRegistry

end PriorityScheduler
