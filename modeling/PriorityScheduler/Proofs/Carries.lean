import PriorityScheduler.Proofs.Drifts
import PriorityScheduler.Proofs.Turns

namespace PriorityScheduler

/-- From a dispatch to the moment when the thread left the processor. -/
structure Spell where
  dispatched : Ticks
  left : Ticks
  deriving DecidableEq, Repr, Inhabited

namespace Spell

def total (spells : List Spell) : Ticks := (spells.map fun x => x.left - x.dispatched).sum

theorem total_concat (spells : List Spell) (x : Spell) : total (spells ++ [x]) = total spells + (x.left - x.dispatched) := by
  simp [total]

end Spell

namespace Life

/-- How long each dispatch came after the last admission before it, in all. -/
def waitedFrom : Option Ticks → Life → Ticks
  | _, [] => 0
  | _, .admitted time :: rest => waitedFrom (some time) rest
  | last, .dispatched time :: rest => (last.elim 0 fun admitted => time - admitted) + waitedFrom last rest
  | _, .finished _ :: rest => waitedFrom none rest

def waited (life : Life) : Ticks := waitedFrom none life

variable {life : Life} {time : Ticks}

theorem waitedFrom_turn (life : Life) (last : Option Ticks) (start time : Ticks) :
    waitedFrom last (life ++ [.admitted start] ++ [.dispatched time]) = waitedFrom last life + (time - start) := by
  rw [List.append_assoc]
  fun_induction waitedFrom last life with
  | case1 last => simp [waitedFrom]
  | case2 last time rest ih => exact ih
  | case3 last time rest ih =>
      rw [List.cons_append, waitedFrom, ih, Nat.add_assoc]
  | case4 last record rest ih => exact ih

theorem waited_turn (life : Life) (start time : Ticks) :
    waited (life ++ [.admitted start] ++ [.dispatched time]) = life.waited + (time - start) :=
  waitedFrom_turn life none start time

theorem InTurns.eq_turn (inTurns : InTurns (life ++ [.dispatched time])) :
    ∃ (before : Life) (start : Ticks), before.InTurns ∧ life = before ++ [.admitted start] := by
  obtain ⟨turns, same⟩ := inTurns
  cases turns using List.reverseRecOn with
  | nil => simp [ofTurns] at same
  | append_singleton rest x =>
      rw [ofTurns_concat] at same
      exact ⟨ofTurns rest, x.admitted, ⟨rest, rfl⟩, (List.append_inj' same rfl).1⟩

theorem not_inTurns_admitted : ¬InTurns (life ++ [.admitted time]) := by
  rintro ⟨turns, same⟩
  cases turns using List.reverseRecOn with
  | nil => simp [ofTurns] at same
  | append_singleton rest x =>
      rw [ofTurns_concat] at same
      cases (List.append_inj' same rfl).2

end Life

namespace ThreadState

/-- What a state carries over at some time is what the spells of its thread and the waits of its life leave of an interval.
While the thread waits, all time up to the last look at it counts. -/
structure Carries (s : ThreadState) (interval now : Ticks) (life : Life) (spells : List Spell) : Prop where
  ran : s.runDrift.carry = Spell.total spells % interval
  ranMarked : ∀ m ∈ s.runDrift.mark, m ≤ now
  below : s.waitDrift.carry < interval
  waited : life.InTurns → s.waitDrift.carry = life.waited % interval
  waits : ∀ (before : Life) (start : Ticks), life = before ++ [.admitted start] →
    s.accounts.lastEnqueued = some start ∧ start ≤ now ∧
      (before.InTurns → s.waitDrift.carry = (before.waited + (s.waitDrift.since start - start)) % interval)
  waitMarked : ∀ m ∈ s.waitDrift.mark, m ≤ now

variable {s s' : ThreadState} {config : Config} {interval now start : Ticks} {n : Noted Change} {life : Life}
  {spells : List Spell}

theorem carries_new (t : Thread) (p : Priority) (positive : 0 < interval) (now : Ticks) :
    (ThreadState.new t p).Carries interval now [] [] where
  ran := rfl
  ranMarked := nofun
  below := positive
  waited _ := rfl
  waits before start same := by simp at same
  waitMarked := nofun

namespace Carries

theorem congr (carries : s.Carries interval now life spells) (accounts : s'.accounts = s.accounts)
    (run : s'.runDrift = s.runDrift) (wait : s'.waitDrift = s.waitDrift) : s'.Carries interval now life spells := by
  obtain ⟨ran, ranMarked, below, waited, waits, waitMarked⟩ := carries
  refine ⟨run ▸ ran, run ▸ ranMarked, wait ▸ below, wait ▸ waited, ?_, wait ▸ waitMarked⟩
  rwa [accounts, wait]

theorem later {time : Ticks} (carries : s.Carries interval now life spells) (later : now ≤ time) :
    s.Carries interval time life spells where
  ran := carries.ran
  ranMarked m mark := Nat.le_trans (carries.ranMarked m mark) later
  below := carries.below
  waited := carries.waited
  waits before start same := (carries.waits before start same).imp_right (.imp_left fun early => Nat.le_trans early later)
  waitMarked m mark := Nat.le_trans (carries.waitMarked m mark) later

theorem admitted {accounts : Accounts} (carries : s.Carries interval now life spells)
    (done : s.accounts.enqueued now = .ok accounts) :
    ({ s with accounts } : ThreadState).Carries interval now (life ++ [.admitted now]) spells where
  ran := carries.ran
  ranMarked := carries.ranMarked
  below := carries.below
  waited inTurns := absurd inTurns Life.not_inTurns_admitted
  waits before start same := by
    obtain ⟨rfl, last⟩ := List.append_inj' same rfl
    cases last
    refine ⟨Accounts.lastEnqueued_enqueued done, Nat.le_refl _, fun inTurns => ?_⟩
    rw [Drift.since_eq_start carries.waitMarked, Nat.sub_self]
    exact carries.waited inTurns
  waitMarked := carries.waitMarked

theorem aged (carries : s.Carries interval now life spells) (ages : s.ages interval = true) (begun : life.Begun)
    (done : s.ageWaiting interval config now = .ok n) :
    n.value.state.Carries interval now life spells ∧ n.value.state.waitDrift.mark = some now := by
  obtain ⟨before, start, rfl⟩ := begun
  obtain ⟨enqueued, early, carried⟩ := carries.waits before start rfl
  obtain ⟨-, stepped⟩ := ageWaiting_eq_ok ages enqueued done
  have drift : n.value.state.waitDrift = s.waitDrift.looked interval start now := stepped.waitDrift
  have run : n.value.state.runDrift = s.runDrift := stepped.runDrift
  have accounts : n.value.state.accounts = s.accounts := stepped.accounts
  have positive : 0 < interval := Nat.zero_lt_of_lt carries.below
  refine ⟨⟨run ▸ carries.ran, run ▸ carries.ranMarked, ?_, fun inTurns => absurd inTurns Life.not_inTurns_admitted, ?_, ?_⟩,
    ?_⟩
  · rw [drift]
    exact Nat.mod_lt _ positive
  · intro before' start' same
    obtain ⟨rfl, last⟩ := List.append_inj' same rfl
    cases last
    refine ⟨accounts ▸ enqueued, early, fun inTurns => ?_⟩
    -- what was looked at before and what is looked at now make up the time since the admission
    have before := Drift.since_le carries.waitMarked early
    have after := s.waitDrift.le_since start
    have since : (s.waitDrift.looked interval start now).since start = now := Nat.max_eq_left early
    rw [drift, Drift.carry_looked (carried inTurns), since]
    congr 1
    grind
  · rw [drift]
    rintro m ⟨⟩
    exact Nat.le_refl _
  · rw [drift]
    rfl

theorem dispatched {accounts : Accounts} (carries : s.Carries interval now life spells)
    (looked : s.waitDrift.mark = some now) :
    ({ s with accounts } : ThreadState).Carries interval now (life.prolong (.dispatched now)) spells := by
  rw [Life.prolong]
  split
  · rename_i unborn
    subst unborn
    exact ⟨carries.ran, carries.ranMarked, carries.below, carries.waited, fun before start same => by simp at same,
      carries.waitMarked⟩
  · refine ⟨carries.ran, carries.ranMarked, carries.below, fun turned => ?_, fun before start same => ?_, carries.waitMarked⟩
    · obtain ⟨before, start, inTurns, rfl⟩ := turned.eq_turn
      obtain ⟨-, early, carried⟩ := carries.waits before start rfl
      have since : s.waitDrift.since start = now := by
        rw [Drift.since, looked]
        exact Nat.max_eq_left early
      rw [Life.waited_turn, carried inTurns, since]
    · cases (List.append_inj' same rfl).2

theorem left (carries : s.Carries interval now life spells) (ages : s.ages interval = true)
    (scheduled : s.accounts.lastScheduled = some start) (marked : ∀ m ∈ s.runDrift.mark, m ≤ start)
    (done : s.ageRunning interval config now = .ok n) :
    n.value.state.Carries interval now life (spells ++ [⟨start, now⟩]) := by
  obtain ⟨-, stepped⟩ := ageRunning_eq_ok ages scheduled done
  have drift : n.value.state.runDrift = s.runDrift.looked interval start now := stepped.runDrift
  have wait : n.value.state.waitDrift = s.waitDrift := stepped.waitDrift
  have accounts : n.value.state.accounts = s.accounts := stepped.accounts
  refine ⟨?_, ?_, wait ▸ carries.below, wait ▸ carries.waited, ?_, wait ▸ carries.waitMarked⟩
  · rw [drift, Drift.carry_looked carries.ran, Drift.since_eq_start marked, Spell.total_concat]
  · rw [drift]
    rintro m ⟨⟩
    exact Nat.le_refl _
  · rw [wait, accounts]
    exact carries.waits

end Carries

end ThreadState

end PriorityScheduler
