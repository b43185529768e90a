import PriorityScheduler.Proofs.Locks.Hands
import PriorityScheduler.Proofs.Scheduler.Kept

namespace PriorityScheduler

namespace LockRegistry

/-- What an event makes of the hands that a lock is in, unless it may not come then: a lock in no hands goes to the first
in line, if there is a line, and a lock in the hands of another gets a line. Only a lock that was released just now has a
line and no holder. -/
def Hands.step (hands : Hands) : LockTransition × ThreadId → Option Hands
  | (.acquired, thread) =>
      if hands.1 = none ∧ ∀ first ∈ hands.2.head?, thread = first then some (some thread, hands.2.tail) else none
  | (.wait, thread) =>
      if hands.1.isSome ∧ hands.1 ≠ some thread ∧ thread ∉ hands.2 then some (hands.1, hands.2 ++ [thread]) else none
  | (.released, thread) => if hands.1 = some thread then some (none, hands.2) else none

def handsOf (t : LockRegistry) (lock : LockId) : Hands := (t.hands? lock).getD (none, [])

theorem handsOf_of_hands? {t : LockRegistry} {lock : LockId} {hands : Hands} (found : t.hands? lock = some hands) :
    t.handsOf lock = hands := by
  rw [handsOf, found, Option.getD_some]

end LockRegistry

open LockRegistry

def Output.happened? (lock : LockId) (o : Output) : Option (LockTransition × ThreadId) :=
  o.lockRecord?.bind fun (id, happening) => if id = lock then some happening else none

/-- The hands that a lock came into by its events, if each of them could come when it came. -/
def replay (lock : LockId) (out : List Output) : Option Hands :=
  (out.filterMap (·.happened? lock)).foldlM Hands.step (none, [])

variable {lock j : LockId} {out more : List Output}

theorem replay_append (lock : LockId) (out more : List Output) :
    replay lock (out ++ more) =
      (replay lock out).bind fun hands => (more.filterMap (·.happened? lock)).foldlM Hands.step hands := by
  rw [replay, List.filterMap_append, List.foldlM_append]
  rfl

theorem replay_silent (silent : ∀ o ∈ more, o.lockRecord? = none) : replay lock (out ++ more) = replay lock out := by
  have nothing : more.filterMap (·.happened? lock) = [] := by
    refine List.filterMap_eq_nil_iff.mpr fun o member => ?_
    rw [Output.happened?, silent o member, Option.bind_none]
  rw [replay_append, nothing]
  exact Option.bind_fun_some _

theorem replay_event (action : LockTransition) (time : Ticks) (thread : ThreadId) (p : Priority) :
    replay j (out ++ [.event (.lock action lock time thread p)]) =
      if j = lock then (replay j out).bind (·.step (action, thread)) else replay j out := by
  rw [replay_append]
  by_cases here : j = lock
  · have event : [Output.event (.lock action lock time thread p)].filterMap (·.happened? j) = [(action, thread)] := by
      simp [Output.happened?, Output.lockRecord?, here]
    rw [if_pos here, event]
    refine congrArg _ (funext fun hands => ?_)
    simp
  · have nothing : [Output.event (.lock action lock time thread p)].filterMap (·.happened? j) = [] := by
      simp [Output.happened?, Output.lockRecord?, Ne.symm here]
    rw [if_neg here, nothing]
    exact Option.bind_fun_some _

theorem replay_handOver {holder : ThreadId} {waiters : List ThreadId} (time : Ticks) (p p' : Priority)
    (before : replay lock out = some (some holder, waiters)) :
    replay j (out ++ Output.handOver lock time holder p waiters.head? p') =
      if j = lock then some (waiters.head?, waiters.tail) else replay j out := by
  have released : replay j (out ++ [.event (.lock .released lock time holder p)]) =
      if j = lock then some (none, waiters) else replay j out := by
    rw [replay_event]
    split
    · rename_i here
      rw [here, before, Option.bind_some]
      exact if_pos rfl
    · rfl
  cases waiters with
  | nil => exact released
  | cons heir rest =>
      rw [List.head?_cons, Output.handOver, List.append_cons]
      rw [replay_event, released]
      split
      · rw [Option.bind_some]
        exact if_pos ⟨rfl, fun first same => Option.some.inj same⟩
      · rfl

end PriorityScheduler
