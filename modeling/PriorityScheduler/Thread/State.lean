import PriorityScheduler.Config.Basic
import PriorityScheduler.Thread.Accounts

namespace PriorityScheduler

/-- Time that aging has seen but not yet turned into a step, and when it last looked. -/
structure Drift where
  carry : Ticks := 0
  mark : Option Ticks := none
  deriving DecidableEq, Repr, Inhabited

structure Donation where
  priority : Priority
  lock : LockId
  deriving DecidableEq, Repr, Inhabited

structure ThreadState where
  thread : Thread
  base : Priority
  effective : Priority
  donation : Option Donation := none
  accounts : Accounts := {}
  runDrift : Drift := {}
  waitDrift : Drift := {}
  held : List LockId := []
  blockedOn : Option LockId := none
  queuedOn : Option QueueId := none
  deriving DecidableEq, Repr, Inhabited

structure Change where
  state : ThreadState
  changed : Bool
  deriving DecidableEq, Repr, Inhabited

namespace ThreadState

def new (thread : Thread) (priority : Priority) : ThreadState :=
  { thread, base := priority, effective := priority }

def floor (s : ThreadState) : Priority :=
  match s.donation with
  | some d => min s.base d.priority
  | none => s.base

def refresh (s : ThreadState) : Change :=
  ⟨{ s with effective := s.floor }, s.floor != s.effective⟩

def setPriority (s : ThreadState) (config : Config) (p : Priority) : Except Fault Change :=
  if config.inRange p then .ok (refresh { s with base := p })
  else .error (.priorityOutside p config.mostUrgent config.leastUrgent s.thread)

def setNearestPriority (s : ThreadState) (config : Config) (p : Priority) : Except Fault Change := do
  let p ← config.clamp p
  s.setPriority config p

def setDonation (s : ThreadState) (donation : Option Donation) : Change := refresh { s with donation }

def donorLock (s : ThreadState) : Option LockId :=
  match s.donation with
  | some d => if d.priority < s.base then some d.lock else none
  | none => none

def enqueued (s : ThreadState) (now : Ticks) : Except Fault ThreadState := do
  let accounts ← s.accounts.enqueued now
  pure { s with accounts }

def scheduled (s : ThreadState) (now : Ticks) : Except Fault ThreadState := do
  let accounts ← s.accounts.scheduled now
  pure { s with accounts }

/-- Fold the accounts into the statistics. Only an ordinary thread that arrived on a queue leaves a record. -/
def finished (s : ThreadState) (now : Ticks) (stats : Statistics) :
    Except Fault (Option Lifetime × Statistics) :=
  if s.thread.isExempt then .ok (none, stats)
  else
    match s.accounts.arrival with
    | none => do
        let stats ← stats.countUnarrived
        pure (none, stats)
    | some arrival => do
        let stats ← stats.countFinished s.accounts.wait (Ticks.elapsed arrival now)
        let record ← s.accounts.close arrival now
        pure (some record, stats)

def addHeld (s : ThreadState) (lock : LockId) : ThreadState :=
  if lock ∈ s.held then s else { s with held := s.held ++ [lock] }

/-- Remove an element; the last one takes its place. -/
def swapRemove (lock : LockId) : List LockId → List LockId
  | [] => []
  | l :: rest =>
      if l = lock then
        match rest.getLast? with
        | some last => last :: rest.dropLast
        | none => []
      else l :: swapRemove lock rest

def removeHeld (s : ThreadState) (lock : LockId) : ThreadState :=
  { s with held := swapRemove lock s.held }

theorem changed_refresh (s : ThreadState) :
    s.refresh.changed = true ↔ s.refresh.state.effective ≠ s.effective := by
  simp [refresh]

end ThreadState

end PriorityScheduler
