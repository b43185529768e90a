import PriorityScheduler.Lock.Registry

/-!
# Priority donation

A holder runs at least at the priority of the best waiter of any lock that it holds. When a holder waits itself,
the change is carried to the next holder, and on along the chain until an effective priority stays as it is. The
walk makes at most as many hops as there are locks.
-/

namespace PriorityScheduler

structure Walk where
  locks : LockRegistry
  threads : ThreadRegistry
  changed : List ThreadId := []
  notices : List Notice := []

namespace Walk

def mark (w : Walk) (id : ThreadId) : Walk :=
  if id ∈ w.changed then w else { w with changed := w.changed ++ [id] }

def notice (w : Walk) (n : Notice) : Walk := { w with notices := w.notices ++ [n] }

def blockedOn? (w : Walk) (id : ThreadId) : Option LockId := (w.threads.get? id).bind (·.blockedOn)

def hop (start : LockId) : Nat → LockId → Walk → Walk
  | 0, _, w => w.notice (.waitCycle start)
  | hops + 1, lock, w =>
      let w := { w with locks := w.locks.refresh lock w.threads }
      match w.locks.holder? lock with
      | none => w
      | some holder =>
          let update := w.locks.refreshThread holder w.threads
          let w := { w with threads := update.threads }
          if update.changed then
            let w := (w.notice (.donated lock holder (w.threads.effective holder))).mark holder
            match w.blockedOn? holder with
            | some next => hop start hops next w
            | none => w
          else w

def propagate (w : Walk) (lock : LockId) : Walk := hop lock w.locks.size lock w

def settle (w : Walk) (id : ThreadId) : Walk :=
  let update := w.locks.refreshThread id w.threads
  let w := { w with threads := update.threads }
  if update.changed then
    let w := { w with changed := w.changed ++ [id] }
    match w.blockedOn? id with
    | some lock => w.propagate lock
    | none => w
  else w

end Walk

inductive LockOutcome where
  | acquired
  | blocked (holder : ThreadId)
  deriving DecidableEq, Repr, Inhabited

namespace LockRegistry

/-- Take a lock, or queue up behind its holder. Taking a lock twice is fatal. -/
def acquire (t : LockRegistry) (lock : LockId) (thread : ThreadId) (threads : ThreadRegistry) :
    Except Failure (LockOutcome × Walk) :=
  match t.get? lock with
  | none => .error (.refused (.lockNotFound lock))
  | some l =>
      match l.holder with
      | none =>
          let t := t.put lock { l with holder := some thread }
          if t.donation then
            let threads := threads.modify thread (·.addHeld lock)
            let update := t.refreshThread thread threads
            .ok (.acquired, ⟨t, update.threads, if update.changed then [thread] else [], []⟩)
          else .ok (.acquired, ⟨t, threads, [], []⟩)
      | some holder =>
          if holder = thread then .error (.fatal (.lockHeldAlready thread lock))
          else
            let t := t.put lock { l with waiters := l.waiters ++ [thread] }
            let threads := threads.modify thread fun s => { s with blockedOn := some lock }
            let w : Walk := ⟨t, threads, [], []⟩
            .ok (.blocked holder, if t.donation then w.propagate lock else w)

def release (t : LockRegistry) (lock : LockId) (thread : ThreadId) (threads : ThreadRegistry) :
    Except Failure (Option ThreadId × Walk) :=
  match t.get? lock with
  | none => .error (.refused (.lockNotFound lock))
  | some l =>
      if l.holder = some thread then
        let next := l.waiters.head?
        let t := t.put lock { l with holder := next, waiters := l.waiters.tail }
        let threads := threads.modify thread (·.removeHeld lock)
        let threads :=
          match next with
          | some id =>
              threads.modify id fun s =>
                let s := { s with blockedOn := none }
                if t.donation then s.addHeld lock else s
          | none => threads
        if t.donation then
          let w : Walk := ⟨t.refresh lock threads, threads, [], []⟩
          let w := w.settle thread
          .ok (next, match next with | some id => w.settle id | none => w)
        else .ok (next, ⟨t, threads, [], []⟩)
      else .error (.fatal (.lockNotHeld thread lock l.holder))

/-- Renew donations after the priority of a thread changed; this matters only while it waits on a lock. -/
def priorityChanged (t : LockRegistry) (thread : ThreadId) (threads : ThreadRegistry) : Walk :=
  let w : Walk := ⟨t, threads, [], []⟩
  if t.donation then
    match w.blockedOn? thread with
    | some lock => w.propagate lock
    | none => w
  else w

def withdraw (t : LockRegistry) (thread : ThreadId) (threads : ThreadRegistry) : Walk :=
  let w : Walk := ⟨t, threads, [], []⟩
  match w.blockedOn? thread with
  | none => w
  | some lock =>
      let t :=
        match t.get? lock with
        | some l => t.put lock { l with waiters := l.waiters.filter (· ≠ thread) }
        | none => t
      let threads := threads.modify thread fun s => { s with blockedOn := none }
      let w : Walk := ⟨t, threads, [], []⟩
      if t.donation then w.propagate lock else w

end LockRegistry

end PriorityScheduler
