import PriorityScheduler.Proofs.Locks.Links

namespace PriorityScheduler

namespace Walk

structure Onward (w v : Walk) : Prop where
  locks : w.locks.Alike v.locks
  threads : w.threads.Alike v.threads
  kept : ∀ id ∈ w.changed, id ∈ v.changed
  marked : ∀ id, v.threads.effective id ≠ w.threads.effective id → id ∈ v.changed

namespace Onward

variable {u v w : Walk}

theorem refl (w : Walk) : w.Onward w := ⟨.refl _, .refl _, fun _ => id, fun _ moved => absurd rfl moved⟩

theorem trans (first : w.Onward v) (second : v.Onward u) : w.Onward u where
  locks := first.locks.trans second.locks
  threads := first.threads.trans second.threads
  kept id member := second.kept id (first.kept id member)
  marked id moved := by
    by_cases same : v.threads.effective id = w.threads.effective id
    · exact second.marked id (same ▸ moved)
    · exact second.kept id (first.marked id same)

theorem visitLock (w : Walk) (lock : LockId) : w.Onward (w.visitLock lock) :=
  ⟨.refresh _ _ _, .refl _, fun _ => id, fun _ moved => absurd rfl moved⟩

theorem linked (onward : w.Onward v) (linked : Linked w.locks w.threads) : Linked v.locks v.threads :=
  linked.of_alike onward.locks onward.threads

end Onward

theorem effective_visitThread_ne (w : Walk) {id j : ThreadId} (apart : j ≠ id) :
    (w.visitThread id).threads.effective j = w.threads.effective j :=
  LockRegistry.effective_refreshThread_ne w.locks w.threads apart

theorem moves_iff (w : Walk) (id : ThreadId) :
    w.moves id = true ↔ (w.visitThread id).threads.effective id ≠ w.threads.effective id :=
  LockRegistry.changed_refreshThread w.locks id w.threads

theorem onward_visitThread {w v : Walk} {id : ThreadId} (locks : v.locks = w.locks)
    (threads : v.threads = (w.visitThread id).threads) (kept : ∀ j ∈ w.changed, j ∈ v.changed)
    (marked : w.moves id = true → id ∈ v.changed) : w.Onward v where
  locks := locks ▸ .refl _
  threads := threads ▸ .refreshThread w.locks id w.threads
  kept := kept
  marked j moved := by
    rw [threads] at moved
    by_cases same : j = id
    · rw [same] at moved ⊢
      exact marked ((w.moves_iff id).mpr moved)
    · exact absurd (w.effective_visitThread_ne same) moved

theorem onward_still {w : Walk} {id : ThreadId} (still : w.moves id = false) : w.Onward (w.visitThread id) :=
  onward_visitThread rfl rfl (fun _ member => member) fun moves => absurd (still.symm.trans moves) Bool.noConfusion

theorem mem_changed_report (w : Walk) (lock : LockId) (h j : ThreadId) :
    j ∈ (w.report lock h).changed ↔ j = h ∨ j ∈ w.changed := by
  unfold report mark notice
  split
  · rename_i present
    exact ⟨.inr, fun either => either.elim (fun same => same ▸ present) id⟩
  · rw [List.mem_append, List.mem_singleton, or_comm]

theorem onward_report (w : Walk) (lock : LockId) (id : ThreadId) :
    w.Onward ((w.visitThread id).report lock id) :=
  onward_visitThread (locks_report _ _ _) (threads_report _ _ _)
    (fun _ member => (mem_changed_report _ _ _ _).mpr (.inr member)) fun _ => (mem_changed_report _ _ _ _).mpr (.inl rfl)

/-- What holds before a hop and is kept from hop to hop holds where the walk ends: at its bound, at a lock without a holder,
at a holder that does not move, or at one that waits for nothing. -/
theorem hop_rule {start : LockId} (inv : Nat → LockId → Walk → Prop) (post : Walk → Prop)
    (cut : ∀ {lock w}, inv 0 lock w → post (w.notice (.waitCycle start)))
    (free : ∀ {hops lock w}, inv (hops + 1) lock w → w.locks.holder? lock = none → post (w.visitLock lock))
    (still : ∀ {hops lock w h}, inv (hops + 1) lock w → w.locks.holder? lock = some h →
      (w.visitLock lock).moves h = false → post ((w.visitLock lock).visitThread h))
    (awake : ∀ {hops lock w h}, inv (hops + 1) lock w → w.locks.holder? lock = some h →
      (w.visitLock lock).moves h = true → w.threads.blockedOn? h = none →
      post (((w.visitLock lock).visitThread h).report lock h))
    (onward : ∀ {hops lock w h next}, inv (hops + 1) lock w → w.locks.holder? lock = some h →
      (w.visitLock lock).moves h = true → w.threads.blockedOn? h = some next →
      inv hops next (((w.visitLock lock).visitThread h).report lock h))
    {hops : Nat} {lock : LockId} {w : Walk} (before : inv hops lock w) : post (hop start hops lock w) := by
  induction hops generalizing w lock with
  | zero => exact cut before
  | succ hops ih =>
      have holder? : (w.visitLock lock).locks.holder? lock = w.locks.holder? lock :=
        (LockRegistry.Alike.refresh w.locks lock w.threads).holder? lock
      rw [hop_succ, holder?]
      cases holder : w.locks.holder? lock with
      | none => exact free before holder
      | some h =>
          have sameThreads := ThreadRegistry.Alike.refreshThread (w.visitLock lock).locks h w.threads
          have blockedOn? : ((w.visitLock lock).visitThread h).threads.blockedOn? h = w.threads.blockedOn? h :=
            sameThreads.blockedOn? h
          simp only
          cases moves : (w.visitLock lock).moves h with
          | false => exact still before holder moves
          | true =>
              rw [if_pos rfl, blockedOn?]
              cases waits : w.threads.blockedOn? h with
              | none => exact awake before holder moves waits
              | some next => exact ih (onward before holder moves waits)

theorem settle_rule (post : Walk → Prop) {w : Walk} {id : ThreadId}
    (still : w.moves id = false → post (w.visitThread id))
    (awake : w.moves id = true → w.threads.blockedOn? id = none →
      post { w.visitThread id with changed := w.changed ++ [id] })
    (onward : ∀ lock, w.moves id = true → w.threads.blockedOn? id = some lock →
      post (propagate { w.visitThread id with changed := w.changed ++ [id] } lock)) : post (w.settle id) := by
  have blockedOn? : (w.visitThread id).threads.blockedOn? id = w.threads.blockedOn? id :=
    (ThreadRegistry.Alike.refreshThread w.locks id w.threads).blockedOn? id
  rw [settle_eq, blockedOn?]
  cases moves : w.moves id with
  | false => exact still moves
  | true =>
      rw [if_pos rfl]
      cases waits : w.threads.blockedOn? id with
      | none => exact awake moves waits
      | some lock => exact onward lock moves waits

theorem onward_hop (start : LockId) (hops : Nat) (lock : LockId) (w : Walk) : w.Onward (hop start hops lock w) := by
  have visited {v : Walk} (onward : w.Onward v) (lock : LockId) : w.Onward (v.visitLock lock) :=
    onward.trans (.visitLock v lock)
  refine hop_rule (fun _ _ v => w.Onward v) _ (fun onward => ?_) (fun onward _ => visited onward _)
    (fun onward _ moves => (visited onward _).trans (onward_still moves)) (fun onward _ _ _ => ?_)
    (fun onward _ _ _ => ?_) (.refl w)
  · exact ⟨onward.locks, onward.threads, onward.kept, onward.marked⟩
  · exact (visited onward _).trans (onward_report _ _ _)
  · exact (visited onward _).trans (onward_report _ _ _)

theorem onward_propagate (w : Walk) (lock : LockId) : w.Onward (w.propagate lock) :=
  onward_hop lock w.locks.size lock w

theorem onward_propagated (on : Bool) (w : Walk) (lock : LockId) : w.Onward (if on then w.propagate lock else w) := by
  split
  · exact w.onward_propagate lock
  · exact .refl w

theorem onward_settle (w : Walk) (id : ThreadId) : w.Onward (w.settle id) := by
  have marked : w.Onward { w.visitThread id with changed := w.changed ++ [id] } :=
    onward_visitThread rfl rfl (fun _ member => List.mem_append_left _ member) fun _ => by simp
  exact settle_rule (w.Onward ·) onward_still (fun _ _ => marked) fun lock _ _ => marked.trans (onward_propagate _ lock)

end Walk

end PriorityScheduler
