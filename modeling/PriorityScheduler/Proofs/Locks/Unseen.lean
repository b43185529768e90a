import PriorityScheduler.Proofs.Locks.Operations

namespace PriorityScheduler

def ThreadState.staked (s : ThreadState) : ThreadState :=
  { ThreadState.new default s.base with
    effective := s.effective
    donation := s.donation
    held := s.held
    blockedOn := s.blockedOn }

abbrev ThreadRegistry.Unseen : ThreadRegistry → ThreadRegistry → Prop := Matches ThreadState.staked

section Unseen

variable {t : LockRegistry} {a b : ThreadRegistry} {id : ThreadId}

theorem balanced_staked (s : ThreadState) : t.Balanced s.staked ↔ t.Balanced s := Iff.rfl

theorem ThreadRegistry.Unseen.blockedOn? (unseen : a.Unseen b) (id : ThreadId) : b.blockedOn? id = a.blockedOn? id :=
  unseen.bind ThreadState.blockedOn (fun _ => rfl) id

theorem Linked.of_matches {view : ThreadState → ThreadState} (linked : Linked t a) (same : a.Matches view b)
    (blockedOn : ∀ s, (view s).blockedOn = s.blockedOn) (held : ∀ s, (view s).held = s.held) : Linked t b :=
  linked.congr (.refl t) (same.bind ThreadState.blockedOn blockedOn) (same.heldBy held) fun id known => by
    rwa [same.isSome]

theorem Linked.unseen (linked : Linked t a) (unseen : a.Unseen b) : Linked t b :=
  linked.of_matches unseen (fun _ => rfl) fun _ => rfl

theorem sound_unseen (sound : Sound t a) (unseen : a.Unseen b) : Sound t b := by
  refine ⟨sound.linked.unseen unseen, fun on => ?_⟩
  refine (sound.coherent on).regraph (fun _ => rfl) (fun _ _ => rfl) (fun _ _ v _ => unseen.effective (fun _ => rfl) v)
    (fun h s' _ found => ?_) (fun _ => id) fun _ => id
  obtain ⟨s, before, same⟩ := unseen.exists_view found
  refine ⟨s, before, fun balanced => ?_⟩
  rw [← balanced_staked, ← same]
  exact balanced

theorem isConsistent_unseen (t : LockRegistry) (unseen : a.Unseen b) : t.isConsistent b = t.isConsistent a := by
  have settled (lock : LockId) : t.Settled b lock ↔ t.Settled a lock := by
    rw [LockRegistry.Settled, LockRegistry.Settled, funext (unseen.effective fun _ => rfl)]
  have states : (∀ h s, b.get? h = some s → t.stateConsistent s = true) ↔
      ∀ h s, a.get? h = some s → t.stateConsistent s = true := by
    have stake (s : ThreadState) : t.stateConsistent s.staked = t.stateConsistent s := rfl
    apply forall_congr'
    intro h
    have same := unseen.map t.stateConsistent stake h
    cases before : a.get? h <;> cases after : b.get? h <;> simp_all
  rw [Bool.eq_iff_iff, isConsistent_iff, isConsistent_iff, forall_congr' settled, states]

theorem Linked.made (linked : Linked t a) {thread : Thread} (absent : a.get? thread.id = none) :
    Linked t (a.put thread.id (.new thread a.config.initial)) := by
  refine linked.congr (.refl t) (fun j => ?_) (fun j => ?_) fun j known => ?_
  · rw [ThreadRegistry.blockedOn?, ThreadRegistry.get?_put]
    split
    · rename_i here
      rw [here, ThreadRegistry.blockedOn?, absent]
      rfl
    · rfl
  · rw [ThreadRegistry.heldBy, ThreadRegistry.get?_put]
    split
    · rename_i here
      rw [here, ThreadRegistry.heldBy, absent]
      rfl
    · rfl
  · rw [ThreadRegistry.get?_put]
    split
    · rfl
    · exact known

theorem sound_made (sound : Sound t a) {thread : Thread} (absent : a.get? thread.id = none) :
    Sound t (a.put thread.id (.new thread a.config.initial)) := by
  let b := a.put thread.id (.new thread a.config.initial)
  have get? (j : ThreadId) : b.get? j = if j = thread.id then some (.new thread a.config.initial) else a.get? j :=
    a.get?_put thread.id j _
  have effective (j : ThreadId) : b.effective j = a.effective j := by
    by_cases here : j = thread.id
    · rw [ThreadRegistry.effective_of_get? ((get? j).trans (if_pos here)), here, ThreadRegistry.effective_of_none absent]
      rfl
    · exact ThreadRegistry.effective_congr rfl ((get? j).trans (if_neg here))
  refine ⟨sound.linked.made absent, fun on => ⟨fun lock _ => ?_, fun h s _ found => ?_⟩⟩
  · exact ((sound.coherent on).settled lock not_false).congr rfl rfl fun v _ => effective v
  · rw [get?] at found
    split at found
    · cases found
      exact ⟨rfl, rfl⟩
    · exact (sound.coherent on).balanced h s not_false found

theorem Linked.retired (linked : Linked t a) (awake : a.blockedOn? id = none) (empty : ∀ lock, t.holder? lock ≠ some id) :
    Linked t (a.remove id) := by
  have get? (j : ThreadId) : (a.remove id).get? j = if j = id then none else a.get? j := a.get?_remove id j
  have held : a.heldBy id = [] := by
    apply List.eq_nil_iff_forall_not_mem.mpr
    intro lock member
    exact empty lock ((linked.held id lock).mp member).2
  have blockedOn? (j : ThreadId) : (a.remove id).blockedOn? j = a.blockedOn? j := by
    by_cases here : j = id
    · rw [here, awake, ThreadRegistry.blockedOn?, get?, if_pos rfl, Option.bind_none]
    · rw [ThreadRegistry.blockedOn?, get?, if_neg here, ThreadRegistry.blockedOn?]
  have heldBy (j : ThreadId) : (a.remove id).heldBy j = a.heldBy j := by
    by_cases here : j = id
    · rw [here, held, ThreadRegistry.heldBy, get?, if_pos rfl, Option.map_none, Option.getD_none]
    · rw [ThreadRegistry.heldBy, get?, if_neg here, ThreadRegistry.heldBy]
  refine ⟨linked.free, fun lock w => ?_, linked.once, fun lock h holder => ?_, fun lock h holder => ?_, fun h lock => ?_,
    fun h => ?_, linked.numbered⟩
  · rw [blockedOn?]
    exact linked.waiting lock w
  · rw [blockedOn?]
    exact linked.apart lock h holder
  · have other : h ≠ id := by
      rintro rfl
      exact empty lock holder
    rw [get?, if_neg other]
    exact linked.known lock h holder
  · rw [heldBy]
    exact linked.held h lock
  · rw [heldBy]
    exact linked.heldOnce h

theorem sound_retired (sound : Sound t a) (awake : a.blockedOn? id = none) (empty : ∀ lock, t.holder? lock ≠ some id) :
    Sound t (a.remove id) := by
  have get? (j : ThreadId) : (a.remove id).get? j = if j = id then none else a.get? j := a.get?_remove id j
  refine ⟨sound.linked.retired awake empty, fun on => ⟨fun lock _ => ?_, fun h s _ found => ?_⟩⟩
  · apply ((sound.coherent on).settled lock not_false).congr rfl rfl
    intro v waits
    have other : v ≠ id := by
      rintro rfl
      exact sound.linked.not_mem_waitersOf awake lock waits
    exact ThreadRegistry.effective_congr rfl ((get? v).trans (if_neg other))
  · rw [get?] at found
    split at found
    · cases found
    · exact (sound.coherent on).balanced h s not_false found

end Unseen

end PriorityScheduler
