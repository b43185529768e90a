import PriorityScheduler.Proofs.Locks.Hands

namespace PriorityScheduler.LockRegistry

variable {t u : LockRegistry} {a : ThreadRegistry} {lock : LockId} {id : ThreadId} {w : Walk} {busy : ThreadId → Prop}

def Shrinks (t u : LockRegistry) : Prop := ∀ lock, (u.waitersOf lock).Sublist (t.waitersOf lock)

theorem Shrinks.of_eq (same : u = t) : t.Shrinks u := fun _ => same ▸ List.Sublist.refl _

theorem Shrinks.of_hands? (hands : ∀ lock line, u.hands? lock = some line → line.2.Sublist (t.waitersOf lock)) :
    t.Shrinks u := by
  intro lock
  rw [waitersOf_eq_hands? u]
  cases found : u.hands? lock with
  | none => exact List.nil_sublist _
  | some line => exact hands lock line found

theorem Shrinks.inLine (shrinks : t.Shrinks u) (waits : u.InLine id) : t.InLine id :=
  waits.imp fun lock waits => (shrinks lock).subset waits

theorem sublist_waitersOf {line : Hands} (found : t.hands? lock = some line) : line.2.Sublist (t.waitersOf lock) := by
  rw [waitersOf_eq_hands?, found]
  exact List.Sublist.refl _

theorem shrinks_reprice (t : LockRegistry) (id : ThreadId) (c : Change) (a : ThreadRegistry) :
    t.Shrinks (t.reprice id c a).locks :=
  .of_hands? fun lock _ found => sublist_waitersOf ((hands?_reprice t id c a lock).symm.trans found)

theorem shrinks_create (t : LockRegistry) : t.Shrinks t.create.2 := by
  refine .of_hands? fun lock line found => ?_
  rw [hands?_create] at found
  split at found
  · cases found
    exact List.nil_sublist _
  · exact sublist_waitersOf found

theorem shrinks_release {next : Option ThreadId} (done : t.release lock id a = .ok (next, w)) : t.Shrinks w.locks := by
  obtain ⟨waiters, before, -, after⟩ := release_hands done
  refine .of_hands? fun j line found => ?_
  rw [after] at found
  split at found
  · rename_i here
    cases found
    rw [here, (holder?_of_hands? before).2]
    exact List.tail_sublist waiters
  · exact sublist_waitersOf found

theorem shrinks_withdraw (t : LockRegistry) (id : ThreadId) (a : ThreadRegistry) : t.Shrinks (t.withdraw id a).locks := by
  refine .of_hands? fun lock line found => ?_
  rw [hands?_withdraw] at found
  split at found
  · obtain ⟨hands, before, rfl⟩ := Option.map_eq_some_iff.mp found
    exact List.filter_sublist.trans (sublist_waitersOf before)
  · exact sublist_waitersOf found

theorem shrinks_acquire (done : t.acquire lock id a = .ok (.acquired, w)) : t.Shrinks w.locks := by
  obtain ⟨holder, waiters, before, -, ⟨rfl, -⟩ | ⟨h, -, blocked⟩, after⟩ := acquire_hands done
  · refine .of_hands? fun j line found => ?_
    rw [after] at found
    split at found
    · rename_i here
      cases found
      rw [here, (holder?_of_hands? before).2]
      exact List.Sublist.refl _
    · exact sublist_waitersOf found
  · cases blocked

theorem waitersOf_blocked {holder : ThreadId} (done : t.acquire lock id a = .ok (.blocked holder, w)) (j : LockId) :
    w.locks.waitersOf j = if j = lock then t.waitersOf lock ++ [id] else t.waitersOf j := by
  obtain ⟨holder, waiters, before, -, ⟨-, free⟩ | ⟨h, rfl, -⟩, after⟩ := acquire_hands done
  · cases free
  · rw [waitersOf_eq_hands? w.locks, after, (holder?_of_hands? before).2]
    split
    · rfl
    · rw [← waitersOf_eq_hands?]

theorem inLine_blocked {holder j : ThreadId} (done : t.acquire lock id a = .ok (.blocked holder, w))
    (waits : w.locks.InLine j) : t.InLine j ∨ j = id := by
  obtain ⟨k, waits⟩ := waits
  rw [waitersOf_blocked done] at waits
  split at waits
  · exact (List.mem_append.mp waits).imp (fun waits => ⟨lock, waits⟩) List.mem_singleton.mp
  · exact .inl ⟨k, waits⟩

/-- A busy thread is in one line at most, and only once. -/
structure Single (busy : ThreadId → Prop) (t : LockRegistry) : Prop where
  alone : ∀ id, busy id → ∀ j k, id ∈ t.waitersOf j → id ∈ t.waitersOf k → j = k
  once : ∀ id, busy id → ∀ lock, (t.waitersOf lock).count id ≤ 1

theorem Single.shrink (single : t.Single busy) (shrinks : t.Shrinks u) : u.Single busy where
  alone id busy j k waits waits' := single.alone id busy j k ((shrinks j).subset waits) ((shrinks k).subset waits')
  once id busy lock := Nat.le_trans ((shrinks lock).count_le id) (single.once id busy lock)

theorem Single.handed {heir : ThreadId} (single : t.Single busy) (isBusy : busy heir)
    (done : t.release lock id a = .ok (some heir, w)) : t.InLine heir ∧ ¬w.locks.InLine heir := by
  obtain ⟨waiters, before, first, after⟩ := release_hands done
  obtain ⟨rest, rfl⟩ := List.head?_eq_some_iff.mp first.symm
  have line : t.waitersOf lock = heir :: rest := (holder?_of_hands? before).2
  have waits : heir ∈ t.waitersOf lock := line ▸ List.mem_cons_self
  refine ⟨⟨lock, waits⟩, ?_⟩
  rintro ⟨j, still⟩
  have here : j = lock := single.alone heir isBusy j lock ((shrinks_release done j).subset still) waits
  have once := single.once heir isBusy lock
  rw [here, waitersOf_eq_hands?, after, if_pos rfl] at still
  rw [line, List.count_cons_self] at once
  have twice : 0 < rest.count heir := List.count_pos_iff.mpr still
  omega

theorem Single.blocked {holder : ThreadId} (single : t.Single busy) (apart : busy id → ¬t.InLine id)
    (done : t.acquire lock id a = .ok (.blocked holder, w)) : w.locks.Single busy := by
  have lines := waitersOf_blocked done
  have before {j : ThreadId} {k : LockId} (waits : j ∈ w.locks.waitersOf k) : j ∈ t.waitersOf k ∨ j = id ∧ k = lock := by
    rw [lines] at waits
    split at waits
    · rename_i here
      subst here
      exact (List.mem_append.mp waits).imp_right fun last => ⟨List.mem_singleton.mp last, rfl⟩
    · exact .inl waits
  refine ⟨fun j busy k l waits waits' => ?_, fun j busy k => ?_⟩
  · rcases before waits with waits | ⟨rfl, rfl⟩
    · rcases before waits' with waits' | ⟨rfl, rfl⟩
      · exact single.alone j busy k l waits waits'
      · exact absurd ⟨k, waits⟩ (apart busy)
    · rcases before waits' with waits' | ⟨-, rfl⟩
      · exact absurd ⟨l, waits'⟩ (apart busy)
      · rfl
  · rw [lines]
    split
    · rw [List.count_append, List.count_singleton]
      split
      · rename_i same
        cases beq_iff_eq.mp same
        exact Nat.le_of_eq (congrArg (· + 1) (List.count_eq_zero_of_not_mem fun waits => apart busy ⟨lock, waits⟩))
      · exact single.once j busy lock
    · exact single.once j busy k

end PriorityScheduler.LockRegistry
