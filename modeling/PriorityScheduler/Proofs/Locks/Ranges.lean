import PriorityScheduler.Proofs.Aging
import PriorityScheduler.Proofs.Locks.Operations

namespace PriorityScheduler

variable {config : Config}

namespace ThreadState

structure Within (config : Config) (s : ThreadState) : Prop where
  base : config.inRange s.base = true
  donation : ∀ d ∈ s.donation, config.inRange d.priority = true
  floor : s.effective = s.floor

def priced (s : ThreadState) : ThreadState :=
  { ThreadState.new .main s.base with effective := s.effective, donation := s.donation }

namespace Within

variable {s s' : ThreadState} {c : Change}

theorem effective_le (within : s.Within config) : s.effective ≤ s.base := by
  rw [within.floor, ThreadState.floor]
  split
  · exact Int.min_le_left _ _
  · exact Int.le_refl _

theorem effective (within : s.Within config) : config.inRange s.effective = true := by
  rw [within.floor, ThreadState.floor]
  split
  · rename_i d donation
    rcases Int.le_total s.base d.priority with below | below
    · rw [Int.min_eq_left below]
      exact within.base
    · rw [Int.min_eq_right below]
      exact within.donation d donation
  · exact within.base

theorem of_priced (within : s.Within config) (same : s.priced = s'.priced) : s'.Within config := by
  have base := congrArg ThreadState.base same
  have effective := congrArg ThreadState.effective same
  have donation := congrArg ThreadState.donation same
  have floor : s.priced.floor = s'.priced.floor := congrArg ThreadState.floor same
  change s.base = s'.base at base
  change s.effective = s'.effective at effective
  change s.donation = s'.donation at donation
  exact ⟨base ▸ within.base, donation ▸ within.donation, effective.symm.trans (within.floor.trans floor)⟩

theorem new {p : Priority} (inside : config.inRange p = true) (thread : Thread) :
    (ThreadState.new thread p).Within config := ⟨inside, nofun, rfl⟩

theorem setDonation (within : s.Within config) {donation : Option Donation}
    (inside : ∀ d ∈ donation, config.inRange d.priority = true) : (s.setDonation donation).state.Within config :=
  ⟨within.base, inside, rfl⟩

theorem repriced (within : s.Within config) (repriced : s.Repriced config c) : c.state.Within config :=
  ⟨repriced.inRange within.base, repriced.donation ▸ within.donation, repriced.floor within.floor⟩

end Within

end ThreadState

structure Within (config : Config) (t : LockRegistry) (a : ThreadRegistry) : Prop where
  configured : a.config = config
  states : ∀ id s, a.get? id = some s → s.Within config
  donated : ∀ lock p, t.donated? lock = some p → config.inRange p = true

def Walk.Within (config : Config) (w : Walk) : Prop := PriorityScheduler.Within config w.locks w.threads

section

variable {t u : LockRegistry} {a b : ThreadRegistry} {w : Walk} {lock : LockId} {thread : ThreadId}

namespace Within

theorem effective (within : Within config t a) (initial : config.inRange config.initial = true) (id : ThreadId) :
    config.inRange (a.effective id) = true := by
  cases found : a.get? id with
  | none =>
      rw [ThreadRegistry.effective_of_none found, within.configured]
      exact initial
  | some s =>
      rw [ThreadRegistry.effective_of_get? found]
      exact (within.states id s found).effective

theorem congr (within : Within config t a) (threads : a.Matches ThreadState.priced b)
    (donated : ∀ j, u.donated? j = t.donated? j) : Within config u b where
  configured := threads.config.trans within.configured
  states id s' found := by
    obtain ⟨s, before, same⟩ := threads.exists_view found
    exact (within.states id s before).of_priced same
  donated lock p gives := within.donated lock p ((donated lock).symm.trans gives)

theorem put (within : Within config t a) (id : ThreadId) {s : ThreadState} (inside : s.Within config) :
    Within config t (a.put id s) where
  configured := within.configured
  states j s' found := by
    rw [ThreadRegistry.get?_put] at found
    split at found
    · cases found
      exact inside
    · exact within.states j s' found
  donated := within.donated

theorem remove (within : Within config t a) (id : ThreadId) : Within config t (a.remove id) where
  configured := within.configured
  states j s found := by
    rw [ThreadRegistry.get?_remove] at found
    split at found
    · cases found
    · exact within.states j s found
  donated := within.donated

theorem create (within : Within config t a) : Within config t.create.2 a where
  configured := within.configured
  states := within.states
  donated lock p gives := by
    have made : t.create.2.get? lock = if lock = ⟨t.nextId⟩ then some {} else t.get? lock :=
      t.locks.get?_insert_eq ⟨t.nextId⟩ lock {}
    rw [LockRegistry.donated?, made] at gives
    split at gives
    · cases gives
    · exact within.donated lock p gives

end Within

theorem inRange_least {ps : List Priority} {p : Priority} (all : ∀ q ∈ ps, config.inRange q = true)
    (least : LockRegistry.least ps = some p) : config.inRange p = true :=
  all p (List.min?_mem (least_eq_min? ps ▸ least))

namespace Walk.Within

variable (initial : config.inRange config.initial = true)
include initial

theorem visitLock (within : w.Within config) (lock : LockId) : (w.visitLock lock).Within config := by
  refine ⟨within.configured, within.states, fun j p gives => ?_⟩
  rw [Walk.visitLock, LockRegistry.donated?_refresh] at gives
  split at gives
  · refine inRange_least (List.forall_mem_map.mpr fun v _ => ?_) gives
    exact PriorityScheduler.Within.effective within initial v
  · exact within.donated j p gives

omit initial in
theorem visitThread (within : w.Within config) (id : ThreadId) : (w.visitThread id).Within config := by
  refine ⟨(LockRegistry.config_refreshThread _ _ _).trans within.configured, fun j s found => ?_, within.donated⟩
  change (w.locks.refreshThread id w.threads).threads.get? j = some s at found
  rw [LockRegistry.get?_refreshThread] at found
  split at found
  · obtain ⟨s', before, rfl⟩ := Option.map_eq_some_iff.mp found
    refine (within.states id s' before).setDonation fun d best => ?_
    have least := LockRegistry.priority_bestDonation w.locks s'.held
    rw [best, Option.map_some, eq_comm] at least
    refine inRange_least (fun p member => ?_) least
    obtain ⟨lock, -, gives⟩ := List.mem_filterMap.mp member
    exact within.donated lock p gives
  · exact within.states j s found

omit initial in
theorem report (within : w.Within config) (lock : LockId) (h : ThreadId) : (w.report lock h).Within config := by
  rw [Walk.Within, locks_report, threads_report]
  exact within

theorem hop (start : LockId) {hops : Nat} (within : w.Within config) : (hop start hops lock w).Within config := by
  have renewed {v : Walk} (within : v.Within config) (lock : LockId) (h : ThreadId) :
      ((v.visitLock lock).visitThread h).Within config := (within.visitLock initial lock).visitThread h
  exact hop_rule (fun _ _ v => v.Within config) (·.Within config) (fun within => within)
    (fun within _ => within.visitLock initial _) (fun within _ _ => renewed within _ _)
    (fun within _ _ _ => (renewed within _ _).report _ _) (fun within _ _ _ => (renewed within _ _).report _ _) within

theorem propagated (within : w.Within config) (on : Bool) (lock : LockId) :
    (if on then w.propagate lock else w).Within config := by
  split
  · exact within.hop initial lock
  · exact within

theorem settle (within : w.Within config) (id : ThreadId) : (w.settle id).Within config := by
  have renewed := within.visitThread id
  exact settle_rule (·.Within config) (fun _ => renewed) (fun _ _ => renewed) fun lock _ _ =>
    Within.hop (w := { w.visitThread id with changed := w.changed ++ [id] }) initial lock renewed

theorem settleNext (within : w.Within config) (next : Option ThreadId) : (w.settleNext next).Within config := by
  cases next with
  | none => exact within
  | some id => exact within.settle initial id

end Walk.Within

theorem ThreadState.priced_addHeld (s : ThreadState) (lock : LockId) : (s.addHeld lock).priced = s.priced := by
  unfold addHeld
  split <;> rfl

theorem matches_passOn (a : ThreadRegistry) (donation : Bool) (lock : LockId) (thread : ThreadId) (next : Option ThreadId) :
    a.Matches ThreadState.priced (a.passOn donation lock thread next) := by
  have first : a.Matches ThreadState.priced (a.modify thread (·.removeHeld lock)) := .modify a thread fun _ => rfl
  cases next with
  | none => exact first
  | some id =>
      refine first.trans (.modify _ id fun s => ?_)
      cases donation with
      | false => rfl
      | true => exact ThreadState.priced_addHeld { s with blockedOn := none } lock

variable (initial : config.inRange config.initial = true)
include initial

theorem within_acquire (within : Within config t a) {outcome : LockOutcome}
    (done : t.acquire lock thread a = .ok (outcome, w)) : w.Within config := by
  obtain ⟨l, found, other⟩ := LockRegistry.acquire_ok done
  cases holder : l.holder with
  | none =>
      rw [LockRegistry.acquire_vacant found holder] at done
      obtain ⟨-, rfl⟩ := Prod.mk.inj (Except.ok.inj done)
      have donated := LockRegistry.donated?_put_of_donated found (m := { l with holder := some thread }) (by rfl)
      dsimp only
      split
      · have added := within.congr (.modify a thread (ThreadState.priced_addHeld · lock)) donated
        exact Walk.Within.visitThread (w := .start _ _) added thread
      · exact within.congr (.refl a) donated
  | some h =>
      have others : h ≠ thread := fun same => other (same ▸ holder)
      rw [LockRegistry.acquire_held found holder others] at done
      obtain ⟨-, rfl⟩ := Prod.mk.inj (Except.ok.inj done)
      have donated := LockRegistry.donated?_put_of_donated found (m := { l with waiters := l.waiters ++ [thread] }) (by rfl)
      have queued := within.congr (.modify a thread (f := fun s => { s with blockedOn := some lock }) fun _ => rfl) donated
      exact Walk.Within.propagated (w := .start _ _) initial queued t.donation lock

theorem within_release (within : Within config t a) {next : Option ThreadId}
    (done : t.release lock thread a = .ok (next, w)) : w.Within config := by
  obtain ⟨l, found, holder⟩ := LockRegistry.release_ok done
  rw [LockRegistry.release_held found holder] at done
  obtain ⟨-, rfl⟩ := Prod.mk.inj (Except.ok.inj done)
  have passed := within.congr (matches_passOn a t.donation lock thread l.waiters.head?)
    (LockRegistry.donated?_put_of_donated found
      (m := { l with holder := l.waiters.head?, waiters := l.waiters.tail }) (by rfl))
  dsimp only
  split
  · have visited := Walk.Within.visitLock (w := .start _ _) initial passed lock
    exact (visited.settle initial thread).settleNext initial _
  · exact passed

theorem within_withdraw (within : Within config t a) (thread : ThreadId) : (t.withdraw thread a).Within config := by
  cases waits : a.blockedOn? thread with
  | none =>
      rw [LockRegistry.withdraw_awake waits]
      exact within
  | some lock =>
      have awake : a.Matches ThreadState.priced (a.modify thread fun s => { s with blockedOn := none }) :=
        .modify a thread fun _ => rfl
      cases found : t.get? lock with
      | none =>
          rw [LockRegistry.withdraw_missing found waits]
          exact Walk.Within.propagated (w := .start _ _) initial (within.congr awake fun _ => rfl) t.donation lock
      | some l =>
          rw [LockRegistry.withdraw_waiting found waits]
          have donated := LockRegistry.donated?_put_of_donated found
            (m := { l with waiters := l.waiters.filter (· ≠ thread) }) (by rfl)
          exact Walk.Within.propagated (w := .start _ _) initial (within.congr awake donated) t.donation lock

theorem within_reprice (within : Within config t a) {s : ThreadState} {c : Change} (found : a.get? thread = some s)
    (repriced : s.Repriced config c) : (t.reprice thread c a).Within config := by
  have put := within.put thread ((within.states thread s found).repriced repriced)
  unfold LockRegistry.reprice
  split
  · rw [LockRegistry.priorityChanged_eq]
    split
    · split
      · rename_i lock _
        exact Walk.Within.hop (w := .start _ _) initial lock put
      · exact put
    · exact put
  · exact put

omit initial in
theorem within_aged (within : Within config t a) {ids : List ThreadId} {now : Ticks} {n : Noted ThreadRegistry.Update}
    (done : ThreadRegistry.ageAll now ids a = .ok n) : Within config t n.value.threads where
  configured := (ThreadRegistry.matches_ageAll done).config.trans within.configured
  states := ThreadRegistry.forall_ageAll (fun inside repriced => inside.repriced (within.configured ▸ repriced))
    within.states done
  donated := within.donated

end

end PriorityScheduler
