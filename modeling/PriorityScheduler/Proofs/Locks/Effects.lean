import PriorityScheduler.Proofs.Locks.Operations

namespace PriorityScheduler

def ThreadState.unlocked (s : ThreadState) : ThreadState :=
  { s with effective := s.base, donation := none, held := [], blockedOn := none }

abbrev ThreadRegistry.Kin : ThreadRegistry → ThreadRegistry → Prop := Matches ThreadState.unlocked

theorem ThreadRegistry.Kin.of_alike {a b : ThreadRegistry} (alike : a.Alike b) : a.Kin b := alike.weaken fun _ => rfl

theorem ThreadState.unlocked_addHeld (s : ThreadState) (lock : LockId) : (s.addHeld lock).unlocked = s.unlocked := by
  unfold addHeld
  split <;> rfl

theorem ThreadState.unlocked_inherit (s : ThreadState) (donation : Bool) (lock : LockId) :
    (s.inherit donation lock).unlocked = s.unlocked := by
  cases donation with
  | false => rfl
  | true => exact unlocked_addHeld { s with blockedOn := none } lock

/-- What a walk through the locks leaves behind, seen from where the operation began. -/
structure Effect (t : LockRegistry) (a : ThreadRegistry) (w : Walk) : Prop where
  donation : w.locks.donation = t.donation
  kin : a.Kin w.threads
  marked : ∀ id, w.threads.effective id ≠ a.effective id → id ∈ w.changed

section Effect

variable {t u : LockRegistry} {a b : ThreadRegistry} {w : Walk} {lock : LockId} {thread : ThreadId}

theorem effect_of_onward (kin : a.Kin b) (effective : ∀ id, b.effective id = a.effective id)
    (donation : u.donation = t.donation) (onward : (Walk.start u b).Onward w) : Effect t a w where
  donation := onward.locks.donation.trans donation
  kin := kin.trans (ThreadRegistry.Kin.of_alike onward.threads)
  marked id moved := onward.marked id (effective id ▸ moved)

theorem effect_propagate (kin : a.Kin b) (effective : ∀ id, b.effective id = a.effective id)
    (donation : u.donation = t.donation) (on : Bool) (lock : LockId) :
    Effect t a (if on then (Walk.start u b).propagate lock else .start u b) :=
  effect_of_onward kin effective donation (Walk.onward_propagated on _ lock)

theorem onward_taken (t : LockRegistry) (thread : ThreadId) (a : ThreadRegistry) :
    (Walk.start t a).Onward (t.taken thread a) := by
  refine Walk.onward_visitThread rfl rfl (fun _ member => nomatch member) fun moves => ?_
  rw [LockRegistry.taken, if_pos moves]
  exact List.mem_singleton_self thread

theorem effect_acquire {outcome : LockOutcome} (done : t.acquire lock thread a = .ok (outcome, w)) : Effect t a w := by
  obtain ⟨l, found, other⟩ := LockRegistry.acquire_ok done
  cases holder : l.holder with
  | none =>
      rw [LockRegistry.acquire_vacant found holder] at done
      obtain ⟨-, rfl⟩ := Prod.mk.inj (Except.ok.inj done)
      by_cases on : t.donation = true
      · simp only [on, if_true]
        exact effect_of_onward (.modify a thread (ThreadState.unlocked_addHeld · lock))
          (a.effective_modify_of_effective thread (ThreadState.effective_addHeld · lock)) (by rfl)
          (onward_taken _ thread _)
      · simp only [on]
        exact effect_of_onward (.refl a) (fun _ => rfl) (by rfl) (.refl _)
  | some h =>
      have others : h ≠ thread := fun same => other (same ▸ holder)
      rw [LockRegistry.acquire_held found holder others] at done
      obtain ⟨-, rfl⟩ := Prod.mk.inj (Except.ok.inj done)
      exact effect_propagate (t := t) (u := t.put lock { l with waiters := l.waiters ++ [thread] })
        (.modify a thread (f := fun s => { s with blockedOn := some lock }) fun _ => rfl)
        (a.effective_modify_of_effective thread (f := fun s => { s with blockedOn := some lock }) fun _ => rfl)
        rfl t.donation lock

theorem kin_passOn (a : ThreadRegistry) (donation : Bool) (lock : LockId) (thread : ThreadId) (next : Option ThreadId) :
    a.Kin (a.passOn donation lock thread next) := by
  have first : a.Kin (a.modify thread (·.removeHeld lock)) := .modify a thread fun _ => rfl
  cases next with
  | none => exact first
  | some id => exact first.trans (.modify _ id (ThreadState.unlocked_inherit · donation lock))

theorem effective_passOn (a : ThreadRegistry) (donation : Bool) (lock : LockId) (thread : ThreadId)
    (next : Option ThreadId) (j : ThreadId) : (a.passOn donation lock thread next).effective j = a.effective j := by
  have first := a.effective_modify_of_effective thread (f := (·.removeHeld lock)) (fun _ => rfl) j
  cases next with
  | none => exact first
  | some id =>
      refine .trans ?_ first
      exact ThreadRegistry.effective_modify_of_effective _ id (ThreadState.effective_inherit · donation lock) j

theorem onward_release {next : Option ThreadId} (done : t.release lock thread a = .ok (next, w)) :
    ∃ l, t.get? lock = some l ∧ l.holder = some thread ∧
      (Walk.start (t.put lock { l with holder := l.waiters.head?, waiters := l.waiters.tail })
        (a.passOn t.donation lock thread l.waiters.head?)).Onward w := by
  obtain ⟨l, found, holder⟩ := LockRegistry.release_ok done
  rw [LockRegistry.release_held found holder] at done
  obtain ⟨-, rfl⟩ := Prod.mk.inj (Except.ok.inj done)
  refine ⟨l, found, holder, ?_⟩
  dsimp only
  split
  · exact ((Walk.Onward.visitLock _ lock).trans (Walk.onward_settle _ thread)).trans (onward_settleNext _ _)
  · exact .refl _

theorem effect_release {next : Option ThreadId} (done : t.release lock thread a = .ok (next, w)) : Effect t a w := by
  obtain ⟨l, -, -, onward⟩ := onward_release done
  exact effect_of_onward (kin_passOn a t.donation lock thread l.waiters.head?)
    (effective_passOn a t.donation lock thread l.waiters.head?) (by rfl) onward

theorem effect_withdraw (t : LockRegistry) (thread : ThreadId) (a : ThreadRegistry) :
    Effect t a (t.withdraw thread a) := by
  cases waits : a.blockedOn? thread with
  | none =>
      rw [LockRegistry.withdraw_awake waits]
      exact effect_of_onward (.refl a) (fun _ => rfl) rfl (.refl _)
  | some lock =>
      have kin : a.Kin (a.modify thread fun s => { s with blockedOn := none }) := .modify a thread fun _ => rfl
      have effective := a.effective_modify_of_effective thread (f := fun s => { s with blockedOn := none }) fun _ => rfl
      cases found : t.get? lock with
      | none =>
          rw [LockRegistry.withdraw_missing found waits]
          exact effect_propagate kin effective rfl t.donation lock
      | some l =>
          rw [LockRegistry.withdraw_waiting found waits]
          exact effect_propagate (t := t) (u := t.put lock { l with waiters := l.waiters.filter (· ≠ thread) }) kin
            effective rfl t.donation lock

theorem onward_priorityChanged (t : LockRegistry) (thread : ThreadId) (a : ThreadRegistry) :
    (Walk.start t a).Onward (t.priorityChanged thread a) := by
  rw [LockRegistry.priorityChanged_eq]
  split
  · cases a.blockedOn? thread with
    | none => exact .refl _
    | some lock => exact Walk.onward_propagate _ lock
  · exact .refl _

theorem onward_reprice (t : LockRegistry) (thread : ThreadId) (c : Change) (a : ThreadRegistry) :
    (Walk.start t (a.put thread c.state)).Onward (t.reprice thread c a) := by
  unfold LockRegistry.reprice
  split
  · exact onward_priorityChanged t thread _
  · exact .refl _

theorem effect_reprice (t : LockRegistry) (thread : ThreadId) (c : Change) (a : ThreadRegistry) :
    Effect t (a.put thread c.state) (t.reprice thread c a) :=
  effect_of_onward (.refl _) (fun _ => rfl) rfl (onward_reprice t thread c a)

namespace Linked

theorem acquire (linked : Linked t a) (known : (a.get? thread).isSome)
    (awake : t.holder? lock = none ∨ a.blockedOn? thread = none) {outcome : LockOutcome}
    (done : t.acquire lock thread a = .ok (outcome, w)) : Linked w.locks w.threads := by
  obtain ⟨l, found, other⟩ := LockRegistry.acquire_ok done
  cases holder : l.holder with
  | none =>
      rw [LockRegistry.acquire_vacant found holder] at done
      obtain ⟨-, rfl⟩ := Prod.mk.inj (Except.ok.inj done)
      have taken := linked.take found holder known
      by_cases on : t.donation = true
      · simp only [on, if_true] at taken ⊢
        exact (onward_taken _ thread _).linked taken
      · simp only [on] at taken ⊢
        exact taken
  | some h =>
      have others : h ≠ thread := fun same => other (same ▸ holder)
      have held : t.holder? lock = some h := (LockRegistry.holder?_of_get? found).trans holder
      rw [LockRegistry.acquire_held found holder others] at done
      obtain ⟨-, rfl⟩ := Prod.mk.inj (Except.ok.inj done)
      have queued := linked.queueUp found holder others known (awake.resolve_left (by simp [held]))
      exact (Walk.onward_propagated _ _ _).linked queued

theorem release (linked : Linked t a) {next : Option ThreadId} (done : t.release lock thread a = .ok (next, w)) :
    Linked w.locks w.threads := by
  obtain ⟨l, found, holder, onward⟩ := onward_release done
  exact onward.linked (linked_passedOn linked found holder)

theorem reprice (linked : Linked t a) {s : ThreadState} {config : Config} {c : Change} (found : a.get? thread = some s)
    (repriced : s.Repriced config c) : Linked (t.reprice thread c a).locks (t.reprice thread c a).threads :=
  (onward_reprice t thread c a).linked (linked_put linked found repriced)

end Linked

theorem awake_reprice {s : ThreadState} {config : Config} {c : Change} {id : ThreadId} (found : a.get? thread = some s)
    (repriced : s.Repriced config c) (awake : a.blockedOn? id = none) :
    (t.reprice thread c a).threads.blockedOn? id = none := by
  refine ((onward_reprice t thread c a).threads.blockedOn? id).trans ?_
  show ((a.put thread c.state).get? id).bind (·.blockedOn) = none
  rw [ThreadRegistry.get?_put]
  split
  · rename_i same
    rw [same, ThreadRegistry.blockedOn?_of_get? found] at awake
    rw [Option.bind_some, repriced.blockedOn, awake]
  · exact awake

theorem awake_acquire (done : t.acquire lock thread a = .ok (.acquired, w)) (awake : a.blockedOn? thread = none) :
    w.threads.blockedOn? thread = none := by
  obtain ⟨l, found, other⟩ := LockRegistry.acquire_ok done
  cases holder : l.holder with
  | none =>
      rw [LockRegistry.acquire_vacant found holder] at done
      obtain ⟨-, rfl⟩ := Prod.mk.inj (Except.ok.inj done)
      split
      · refine ((onward_taken _ thread _).threads.blockedOn? thread).trans ?_
        refine (ThreadRegistry.blockedOn?_modify a thread thread _).trans ?_
        simpa [ThreadRegistry.blockedOn?] using awake
      · exact awake
  | some h =>
      have others : h ≠ thread := fun same => other (same ▸ holder)
      rw [LockRegistry.acquire_held found holder others] at done
      cases (Prod.mk.inj (Except.ok.inj done)).1

theorem awake_release (linked : Linked t a) {id : ThreadId} {next : Option ThreadId}
    (done : t.release lock thread a = .ok (next, w)) (awake : a.blockedOn? id = none) :
    w.threads.blockedOn? id = none ∧ ∀ j, w.locks.holder? j = some id → j ≠ lock ∧ t.holder? j = some id := by
  obtain ⟨l, found, holder, onward⟩ := onward_release done
  have line := LockRegistry.waitersOf_of_get? found
  have apart : l.waiters.head? ≠ some id := by
    intro first
    have waits : id ∈ t.waitersOf lock := line ▸ List.mem_of_mem_head? first
    exact linked.not_mem_waitersOf awake lock waits
  refine ⟨(onward.threads.blockedOn? id).trans ?_, fun j held => ?_⟩
  · show (a.passOn t.donation lock thread l.waiters.head?).blockedOn? id = none
    have first : (a.modify thread (·.removeHeld lock)).blockedOn? id = none := by
      rw [ThreadRegistry.blockedOn?_modify]
      split
      · rename_i same
        rw [same, ThreadRegistry.blockedOn?] at awake
        exact awake
      · exact awake
    cases l.waiters.head? with
    | none => exact first
    | some heir =>
        rw [ThreadRegistry.passOn, ThreadRegistry.blockedOn?_modify]
        split
        · cases (a.modify thread (·.removeHeld lock)).get? heir with
          | none => rfl
          | some s => exact s.blockedOn_inherit t.donation lock
        · exact first
  · rw [onward.locks.holder?] at held
    simp only [Walk.start, LockRegistry.holder?_put] at held
    split at held
    · exact absurd held apart
    · rename_i other
      exact ⟨other, held⟩

theorem awake_withdraw (t : LockRegistry) (thread : ThreadId) (a : ThreadRegistry) :
    (t.withdraw thread a).threads.blockedOn? thread = none := by
  have awake : (a.modify thread fun s => { s with blockedOn := none }).blockedOn? thread = none := by
    rw [ThreadRegistry.blockedOn?_modify, if_pos rfl]
    cases a.get? thread <;> rfl
  have walked (u : LockRegistry) (on : Bool) (lock : LockId) :
      (if on then (Walk.start u (a.modify thread fun s => { s with blockedOn := none })).propagate lock
        else .start u (a.modify thread fun s => { s with blockedOn := none })).threads.blockedOn? thread = none :=
    ((Walk.onward_propagated on _ lock).threads.blockedOn? thread).trans awake
  cases waits : a.blockedOn? thread with
  | none =>
      rw [LockRegistry.withdraw_awake waits]
      exact waits
  | some lock =>
      cases found : t.get? lock with
      | none =>
          rw [LockRegistry.withdraw_missing found waits]
          exact walked t t.donation lock
      | some l =>
          rw [LockRegistry.withdraw_waiting found waits]
          exact walked _ t.donation lock

end Effect

end PriorityScheduler
