import PriorityScheduler.Proofs.Aging
import PriorityScheduler.Proofs.Locks.Operations

namespace PriorityScheduler

theorem Config.le_clamp {config : Config} {p q : Priority} (done : config.clamp q = .ok p) {b : Priority}
    (inside : config.inRange b = true) (below : q ≤ b) : p ≤ b := by
  unfold clamp at done
  split at done
  · cases done
  · cases done
    simp only [inRange, Bool.and_eq_true, decide_eq_true_eq] at inside
    exact Int.max_le.mpr ⟨inside.1, Int.le_trans (Int.min_le_right _ _) below⟩

theorem Priority.minus_le {p : Priority} {steps : Int} (lowest : lowest ≤ p) (some : 0 ≤ steps) : p.minus steps ≤ p := by
  have less : p - steps ≤ p := by grind
  exact Int.max_le.mpr ⟨lowest, Int.le_trans (Int.min_le_right _ _) less⟩

theorem Priority.ofCount_nonneg (n : Nat) : 0 ≤ ofCount n :=
  Int.le_min.mpr ⟨by decide, Int.natCast_nonneg n⟩

namespace ThreadState

variable {s : ThreadState} {config : Config}

theorem base_setPriority {p : Priority} {c : Change} (done : s.setPriority config p = .ok c) : c.state.base = p := by
  unfold setPriority at done
  split at done
  · cases done
    rfl
  · cases done

theorem base_ageWaiting_le {interval now : Ticks} {n : Noted Change} (lowest : Priority.lowest ≤ config.mostUrgent)
    (inside : config.inRange s.base = true) (done : s.ageWaiting interval config now = .ok n) :
    n.value.state.base ≤ s.base := by
  unfold ageWaiting at done
  split at done
  · cases done
    exact Int.le_refl _
  · split at done
    · cases done
      exact Int.le_refl _
    · obtain ⟨⟨steps, drift⟩, advanced, rest⟩ := bind_eq_ok.mp done
      obtain ⟨elapsed, -, made⟩ := bind_eq_ok.mp advanced
      cases made
      dsimp only at rest
      split at rest
      · cases rest
        exact Int.le_refl _
      · obtain ⟨p, clamped, rest⟩ := bind_eq_ok.mp rest
        obtain ⟨change, set, last⟩ := bind_eq_ok.mp rest
        cases last
        rw [base_setPriority set]
        refine Config.le_clamp clamped inside (Priority.minus_le ?_ (Priority.ofCount_nonneg _))
        simp only [Config.inRange, Bool.and_eq_true, decide_eq_true_eq] at inside
        exact Int.le_trans lowest inside.1

theorem Repriced.effective_le {c : Change} (repriced : s.Repriced config c) (floor : s.effective = s.floor)
    (base : c.state.base ≤ s.base) : c.state.effective ≤ s.effective := by
  obtain ⟨least, donated⟩ := (c.state.le_floor c.state.floor).mp (Int.le_refl _)
  rw [repriced.donation] at donated
  rw [repriced.floor floor, floor, ThreadState.le_floor]
  exact ⟨Int.le_trans least base, donated⟩

end ThreadState

structure Waited (t : LockRegistry) (a b : ThreadRegistry) : Prop where
  config : b.config = a.config
  linked : Linked t b
  balanced : ∀ h s, b.get? h = some s → t.Balanced s
  inRange : ∀ h s, b.get? h = some s → b.config.inRange s.base = true
  below : ∀ id, b.effective id ≤ a.effective id

section Waited

variable {t : LockRegistry} {a b : ThreadRegistry} {id : ThreadId} {now : Ticks} {n : Noted ThreadRegistry.Update}

theorem waited_ageWaiting (waited : Waited t a b) (lowest : Priority.lowest ≤ a.config.mostUrgent)
    (done : b.ageWaiting id now = .ok n) : Waited t a n.value.threads := by
  obtain ⟨-, same⟩ | ⟨s, m, found, aged, put⟩ := ThreadRegistry.ageWaiting_ok done
  · rw [same]
    exact waited
  · have repriced := ThreadState.repriced_ageWaiting aged
    have balanced := waited.balanced id s found
    rw [put]
    refine ⟨waited.config, linked_put waited.linked found repriced, fun h s' found' => ?_, fun h s' found' => ?_,
      fun j => ?_⟩
    · rw [ThreadRegistry.get?_put] at found'
      by_cases same : h = id
      · rw [if_pos same] at found'
        cases found'
        refine ⟨repriced.floor balanced.1, ?_⟩
        rw [repriced.donation, repriced.held]
        exact balanced.2
      · rw [if_neg same] at found'
        exact waited.balanced h s' found'
    · rw [ThreadRegistry.get?_put] at found'
      by_cases same : h = id
      · rw [if_pos same] at found'
        cases found'
        exact repriced.inRange (waited.inRange id s found)
      · rw [if_neg same] at found'
        exact waited.inRange h s' found'
    · by_cases same : j = id
      · rw [same]
        have here : (b.put id m.value.state).get? id = some m.value.state := by
          rw [ThreadRegistry.get?_put, if_pos rfl]
        have base := ThreadState.base_ageWaiting_le (waited.config ▸ lowest) (waited.inRange id s found) aged
        calc (b.put id m.value.state).effective id
          _ = m.value.state.effective := ThreadRegistry.effective_of_get? here
          _ ≤ s.effective := repriced.effective_le balanced.1 base
          _ = b.effective id := (ThreadRegistry.effective_of_get? found).symm
          _ ≤ a.effective id := waited.below id
      · have still : (b.put id m.value.state).effective j = b.effective j :=
          ThreadRegistry.effective_congr rfl (by rw [ThreadRegistry.get?_put, if_neg same])
        rw [still]
        exact waited.below j

theorem waited_ageAll {ids : List ThreadId} (waited : Waited t a b) (lowest : Priority.lowest ≤ a.config.mostUrgent)
    (done : ThreadRegistry.ageAll now ids b = .ok n) : Waited t a n.value.threads :=
  ThreadRegistry.ageAll_induction (motive := Waited t a) (fun waited one => waited_ageWaiting waited lowest one) waited done

theorem isConsistent_aged (coherent : Coherent t a) (on : t.donation = true) (waited : Waited t a b) :
    t.isConsistent b = true ↔
      ∀ lock p v, t.donated? lock = some p → v ∈ t.waitersOf lock → p ≤ b.effective v := by
  rw [isConsistent_iff, imp_iff_right on,
    and_iff_left fun h s found => (waited.balanced h s found).stateConsistent]
  refine ⟨fun settled lock p v donated waits => ?_, fun none lock => LockRegistry.settled_iff.mpr fun x => ?_⟩
  · refine (LockRegistry.settled_iff.mp (settled lock) p).mp ?_ v waits
    rw [donated]
    exact (below_some p p).mpr (Int.le_refl p)
  · have before := LockRegistry.settled_iff.mp (coherent.settled lock not_false)
    refine ⟨fun below v waits => ?_, fun all => (before x).mpr fun v waits => Int.le_trans (all v waits) (waited.below v)⟩
    cases donated : t.donated? lock with
    | none =>
        -- a lock that donates nothing has no waiters
        have more := (before (a.effective v + 1)).mp (by rw [donated]; exact below_none _) v waits
        exact absurd more (by grind)
    | some p =>
        rw [donated, below_some] at below
        exact Int.le_trans below (none lock p v donated waits)

end Waited

end PriorityScheduler
