import PriorityScheduler.Proofs.Locks.Effects
import PriorityScheduler.Scheduler.State

namespace PriorityScheduler.LockRegistry

variable {t u : LockRegistry} {a : ThreadRegistry} {lock : LockId} {l : Lock} {thread : ThreadId} {w : Walk}

abbrev Hands := Option ThreadId × List ThreadId

def hands? (t : LockRegistry) (lock : LockId) : Option Hands := (t.get? lock).map fun l => (l.holder, l.waiters)

theorem hands?_of_get? (found : t.get? lock = some l) : t.hands? lock = some (l.holder, l.waiters) := by
  rw [hands?, found, Option.map_some]

theorem holder?_eq_hands? (t : LockRegistry) (lock : LockId) : t.holder? lock = (t.hands? lock).bind Prod.fst := by
  rw [hands?, Option.bind_map]
  rfl

theorem waitersOf_eq_hands? (t : LockRegistry) (lock : LockId) :
    t.waitersOf lock = ((t.hands? lock).map Prod.snd).getD [] := by
  rw [hands?, Option.map_map]
  rfl

theorem holder?_of_hands? {holder : Option ThreadId} {waiters : List ThreadId}
    (hands : t.hands? lock = some (holder, waiters)) : t.holder? lock = holder ∧ t.waitersOf lock = waiters := by
  rw [holder?_eq_hands?, waitersOf_eq_hands?, hands]
  exact ⟨rfl, rfl⟩

theorem hands?_of_holder? {h : ThreadId} (holder : t.holder? lock = some h) :
    t.hands? lock = some (some h, t.waitersOf lock) := by
  obtain ⟨l, found, held⟩ := Option.bind_eq_some_iff.mp holder
  rw [hands?_of_get? found, held, waitersOf_of_get? found]

theorem lockHolder_of_hands? {s : Scheduler} {holder : Option ThreadId} {waiters : List ThreadId}
    (hands : s.locks.hands? lock = some (holder, waiters)) :
    s.lockHolder lock = .ok holder ∧ s.lockWaiters lock = .ok waiters := by
  obtain ⟨l, found, same⟩ := Option.map_eq_some_iff.mp hands
  cases same
  simp only [Scheduler.lockHolder, Scheduler.lockWaiters, LockRegistry.lookup, found]
  exact ⟨rfl, rfl⟩

theorem lockHolder_of_none {s : Scheduler} (absent : s.locks.hands? lock = none) :
    s.lockHolder lock = .error (.lockNotFound lock) := by
  rw [Scheduler.lockHolder, LockRegistry.lookup, Option.map_eq_none_iff.mp absent]
  rfl

theorem waitersOf_of_lockWaiters {s : Scheduler} {waiters : List ThreadId} (line : s.lockWaiters lock = .ok waiters) :
    s.locks.waitersOf lock = waiters := by
  cases hands : s.locks.hands? lock with
  | none =>
      rw [Scheduler.lockWaiters, LockRegistry.lookup, Option.map_eq_none_iff.mp hands] at line
      cases line
  | some both =>
      cases (lockHolder_of_hands? hands).2.symm.trans line
      exact (holder?_of_hands? hands).2

theorem hands?_put (t : LockRegistry) (id j : LockId) (l : Lock) :
    (t.put id l).hands? j = if j = id then some (l.holder, l.waiters) else t.hands? j := by
  simp only [hands?, get?_put]
  split <;> rfl

theorem Alike.hands? (alike : t.Alike u) (lock : LockId) : u.hands? lock = t.hands? lock := by
  have same := congrArg (Option.map fun l : Lock => (l.holder, l.waiters)) (alike.get? lock)
  simp only [Option.map_map, Function.comp_def, Lock.bare] at same
  exact same

theorem onward_acquired (on : Bool) (t : LockRegistry) (thread : ThreadId) (lock : LockId) (a : ThreadRegistry) :
    t.Alike (if on then t.taken thread (a.modify thread (·.addHeld lock)) else .start t a).locks := by
  split
  · exact (onward_taken t thread _).locks
  · exact .refl t

theorem acquire_hands {outcome : LockOutcome} (done : t.acquire lock thread a = .ok (outcome, w)) :
    ∃ holder waiters, t.hands? lock = some (holder, waiters) ∧ holder ≠ some thread ∧
      (holder = none ∧ outcome = .acquired ∨ ∃ h, holder = some h ∧ outcome = .blocked h) ∧
      ∀ j, w.locks.hands? j =
        if j = lock then some (if holder = none then (some thread, waiters) else (holder, waiters ++ [thread]))
        else t.hands? j := by
  obtain ⟨l, found, other⟩ := acquire_ok done
  refine ⟨l.holder, l.waiters, hands?_of_get? found, other, ?_⟩
  cases holder : l.holder with
  | none =>
      rw [acquire_vacant found holder] at done
      obtain ⟨rfl, rfl⟩ := Prod.mk.inj (Except.ok.inj done)
      refine ⟨.inl ⟨rfl, rfl⟩, fun j => ?_⟩
      rw [(onward_acquired _ _ _ _ _).hands?, hands?_put, if_pos rfl]
  | some h =>
      have others : h ≠ thread := fun same => other (same ▸ holder)
      rw [acquire_held found holder others] at done
      obtain ⟨rfl, rfl⟩ := Prod.mk.inj (Except.ok.inj done)
      refine ⟨.inr ⟨h, rfl, rfl⟩, fun j => ?_⟩
      simp only [(Walk.onward_propagated _ _ _).locks.hands?, Walk.start, hands?_put, holder, reduceCtorEq, if_false]

theorem release_hands {next : Option ThreadId} (done : t.release lock thread a = .ok (next, w)) :
    ∃ waiters, t.hands? lock = some (some thread, waiters) ∧ next = waiters.head? ∧
      ∀ j, w.locks.hands? j = if j = lock then some (next, waiters.tail) else t.hands? j := by
  obtain ⟨l, found, holder, onward⟩ := onward_release done
  rw [release_held found holder] at done
  obtain ⟨rfl, -⟩ := Prod.mk.inj (Except.ok.inj done)
  refine ⟨l.waiters, holder ▸ hands?_of_get? found, rfl, fun j => ?_⟩
  rw [onward.locks.hands?, Walk.start, hands?_put]

theorem hands?_withdraw (t : LockRegistry) (thread : ThreadId) (a : ThreadRegistry) (j : LockId) :
    (t.withdraw thread a).locks.hands? j =
      if a.blockedOn? thread = some j then (t.hands? j).map fun hands => (hands.1, hands.2.filter (· ≠ thread))
      else t.hands? j := by
  cases waits : a.blockedOn? thread with
  | none => rw [withdraw_awake waits, if_neg nofun, Walk.start]
  | some lock =>
      cases found : t.get? lock with
      | none =>
          rw [withdraw_missing found waits, (Walk.onward_propagated _ _ _).locks.hands?, Walk.start]
          split
          · rename_i same
            rw [← Option.some.inj same, hands?, found]
            rfl
          · rfl
      | some l =>
          rw [withdraw_waiting found waits, (Walk.onward_propagated _ _ _).locks.hands?, Walk.start, hands?_put]
          by_cases same : j = lock
          · rw [if_pos same, if_pos (congrArg some same.symm), same, hands?_of_get? found]
            rfl
          · rw [if_neg same, if_neg fun other => same (Option.some.inj other).symm]

theorem holder?_withdraw (t : LockRegistry) (thread : ThreadId) (a : ThreadRegistry) (j : LockId) :
    (t.withdraw thread a).locks.holder? j = t.holder? j := by
  rw [holder?_eq_hands?, holder?_eq_hands?, hands?_withdraw]
  split
  · rw [Option.bind_map]
    rfl
  · rfl

theorem hands?_reprice (t : LockRegistry) (thread : ThreadId) (c : Change) (a : ThreadRegistry) (j : LockId) :
    (t.reprice thread c a).locks.hands? j = t.hands? j :=
  (onward_reprice t thread c a).locks.hands? j

theorem hands?_create (t : LockRegistry) (j : LockId) :
    t.create.2.hands? j = if j = ⟨t.nextId⟩ then some (none, []) else t.hands? j := by
  have get? : t.create.2.get? j = if j = ⟨t.nextId⟩ then some {} else t.get? j := t.locks.get?_insert_eq ⟨t.nextId⟩ j {}
  simp only [hands?, get?]
  split <;> rfl

def InLine (t : LockRegistry) (id : ThreadId) : Prop := ∃ lock, id ∈ t.waitersOf lock

instance (t : LockRegistry) (id : ThreadId) : Decidable (t.InLine id) :=
  decidable_of_iff (∃ lock ∈ t.ids, id ∈ t.waitersOf lock) <| by
    constructor
    · rintro ⟨lock, -, waits⟩
      exact ⟨lock, waits⟩
    · rintro ⟨lock, waits⟩
      exact ⟨lock, mem_ids_of_mem_waitersOf waits, waits⟩

theorem not_inLine_iff (linked : Linked t a) {id : ThreadId} : ¬t.InLine id ↔ a.blockedOn? id = none := by
  constructor
  · intro apart
    cases waits : a.blockedOn? id with
    | none => rfl
    | some lock => exact absurd ⟨lock, (linked.waiting lock id).mpr waits⟩ apart
  · rintro awake ⟨lock, waits⟩
    exact linked.not_mem_waitersOf awake lock waits

end PriorityScheduler.LockRegistry
