import PriorityScheduler.Proofs.Aging
import PriorityScheduler.Proofs.Locks.Ranges
import PriorityScheduler.Proofs.Queues.Settled
import PriorityScheduler.Proofs.Scheduler.Attainable

/-!
# Nobody starves under aging

A wait queue on its own, with the threads that it reads priorities off: threads are admitted, selected and removed, and
in between anybody may change priorities and donations, as long as the waiters concerned are brought to their new
positions. A waiter whose base priority nobody sets becomes as urgent as a thread can be once it has waited for as many
intervals as there are steps to the most urgent priority. From then on it is overtaken by none who came later.

Main statement: `served_of_waiting`.
-/

namespace PriorityScheduler

/-- Waiters age, and a count of steps reaches across the whole range. -/
structure Config.Lifts (config : Config) : Prop where
  policy : config.policy = .aging
  positive : 0 < config.agingInterval
  initial : config.inRange config.initial = true
  lowest : Priority.lowest ≤ config.mostUrgent
  highest : config.leastUrgent ≤ Priority.highest
  width : config.leastUrgent - config.mostUrgent ≤ Priority.highest

structure ThreadState.Sound (roster : Roster) (config : Config) (now : Ticks) (id : ThreadId) (s : ThreadState) : Prop
    extends ThreadState.Within config s where
  thread : s.thread = roster.thread id
  carry : s.waitDrift.carry < config.agingInterval
  backed : s.waitDrift.Backed now

def ThreadState.stay (s : ThreadState) : Priority × Option Ticks × Drift := (s.base, s.accounts.lastEnqueued, s.waitDrift)

namespace ThreadRegistry

structure Sound (roster : Roster) (config : Config) (now : Ticks) (t : ThreadRegistry) : Prop where
  configured : t.config = config
  states : ∀ id s, t.get? id = some s → s.Sound roster config now id

namespace Sound

variable {roster : Roster} {config : Config} {now now' : Ticks} {t : ThreadRegistry} {id : ThreadId}

theorem later (sound : t.Sound roster config now) (passed : now ≤ now') : t.Sound roster config now' where
  configured := sound.configured
  states id s found :=
    have before := sound.states id s found
    { before with backed := before.backed.later passed }

theorem put (sound : t.Sound roster config now) {s : ThreadState} (state : s.Sound roster config now id) :
    (t.put id s).Sound roster config now where
  configured := sound.configured
  states j s' found := by
    rw [get?_put] at found
    split at found
    · rename_i here
      cases found
      exact here ▸ state
    · exact sound.states j s' found

theorem unlink (sound : t.Sound roster config now) (id : ThreadId) : (WaitQueue.unlink t id).Sound roster config now where
  configured := sound.configured
  states j s' found := by
    rw [WaitQueue.unlink, get?_modify] at found
    split at found
    · obtain ⟨s, before, rfl⟩ := Option.map_eq_some_iff.mp found
      rename_i here
      have state := sound.states j s (here ▸ before)
      exact ⟨⟨state.base, state.donation, state.floor⟩, state.thread, state.carry, state.backed⟩
    · exact sound.states j s' found

theorem aged (sound : t.Sound roster config now) {n : Noted Update} (done : t.ageWaiting id now = .ok n) :
    n.value.threads.Sound roster config now := by
  obtain ⟨-, same⟩ | ⟨s, m, found, aged, put⟩ := ageWaiting_ok done
  · rw [same]
    exact sound
  · have before := sound.states id s found
    rw [sound.configured] at aged
    have repriced := ThreadState.repriced_ageWaiting aged
    rw [put]
    refine sound.put ⟨before.toWithin.repriced repriced, (repriced.congr (·.thread)).trans before.thread, ?_, ?_⟩
    all_goals rcases ThreadState.waitDrift_ageWaiting aged with same | ⟨positive, start, looked⟩
    · exact same ▸ before.carry
    · have interval : config.agingStep = config.agingInterval := by
        unfold Config.agingStep at positive
        split at positive
        · exact Config.agingStep_of_ages ‹_›
        · cases positive
      rw [looked, interval]
      exact Nat.mod_lt _ (interval ▸ positive)
    · exact same ▸ before.backed
    · rw [looked]
      exact before.backed.looked _ _

theorem ageAll (sound : t.Sound roster config now) {ids : List ThreadId} {n : Noted Update}
    (done : ThreadRegistry.ageAll now ids t = .ok n) : n.value.threads.Sound roster config now :=
  ageAll_induction (fun sound one => sound.aged one) sound done

theorem ensure (sound : t.Sound roster config now) (lifts : config.Lifts) {thread : Thread} (listed : roster.Lists thread) :
    (t.ensure thread).value.2.Sound roster config now := by
  unfold ThreadRegistry.ensure
  cases t.get? thread.id with
  | some s => exact sound
  | none =>
      rw [sound.configured]
      exact sound.put ⟨.new lifts.initial thread, listed.symm, lifts.positive, .new now⟩

theorem timely (sound : t.Sound roster config now) (lifts : config.Lifts) (early : now < Ticks.bound) : t.Timely now where
  range := by
    obtain ⟨most, least⟩ := Config.inRange_iff.mp lifts.initial
    exact sound.configured ▸ Int.le_trans most least
  clock := early
  carried id s found :=
    have backed := (sound.states id s found).backed
    ⟨backed.carried, Nat.lt_of_le_of_lt backed.marked early⟩

theorem effective (sound : t.Sound roster config now) (lifts : config.Lifts) (id : ThreadId) :
    config.inRange (t.effective id) = true := by
  cases found : t.get? id with
  | none =>
      rw [effective_of_none found, sound.configured]
      exact lifts.initial
  | some s =>
      rw [effective_of_get? found]
      exact (sound.states id s found).effective

end Sound

end ThreadRegistry

/-- A wait queue on its own, with the states of the threads that it reads and the time. -/
structure Lobby where
  queue : WaitQueue
  threads : ThreadRegistry
  now : Ticks

namespace Lobby

inductive Deed where
  | enqueue (thread : Thread)
  | select
  | remove (id : ThreadId)
  | occupy (id : ThreadId)
  | disturb (threads : ThreadRegistry) (ids : List ThreadId)
  | pass (time : Ticks)

def perform (l : Lobby) : Deed → Except Fault Lobby
  | .enqueue thread => do
      let n ← l.queue.enqueue thread l.threads l.now
      pure { l with queue := n.value.1, threads := n.value.2 }
  | .select => do
      let n ← l.queue.next l.threads l.now
      pure { l with queue := n.value.queue, threads := n.value.threads }
  | .remove id =>
      let removed := (l.queue.remove id l.threads).2
      .ok { l with queue := removed.1, threads := removed.2 }
  | .occupy id => do
      let queue ← l.queue.acquire id
      pure { l with queue }
  | .disturb threads ids => .ok { l with queue := l.queue.rearrange ids threads, threads }
  | .pass time => .ok { l with now := max l.now time }

/-- The roster lists who is admitted, and whoever got another priority is repositioned. -/
def Fits (roster : Roster) (config : Config) (l : Lobby) : Deed → Prop
  | .enqueue thread => roster.Lists thread
  | .disturb threads ids =>
      threads.Sound roster config l.now ∧ ∀ id, threads.effective id ≠ l.threads.effective id → id ∈ ids
  | _ => True

/-- The deed neither ends the stay of a waiter nor begins it anew, and sets no base priority for it. -/
def Leaves (w : ThreadId) (l : Lobby) : Deed → Prop
  | .enqueue thread => thread.id ≠ w
  | .select => ∀ n, l.queue.next l.threads l.now = .ok n → n.value.next ≠ some w
  | .remove id => id ≠ w
  | .disturb threads _ => (threads.get? w).map ThreadState.stay = (l.threads.get? w).map ThreadState.stay
  | _ => True

inductive Reachable (roster : Roster) (config : Config) : Lobby → Prop where
  | empty {id : QueueId} {transfer : Bool} {threads : ThreadRegistry} {now : Ticks}
      (sound : threads.Sound roster config now) : Reachable roster config ⟨.new id transfer config, threads, now⟩
  | perform {l l' : Lobby} {deed : Deed} (reachable : Reachable roster config l) (fits : l.Fits roster config deed)
      (done : l.perform deed = .ok l') : Reachable roster config l'

/-- A thread waits that was admitted at time `a` with base priority `b`, and the elders have been waiting for longer. -/
inductive Waiting (roster : Roster) (config : Config) (w : Thread) (a : Ticks) (b : Priority) :
    List ThreadId → Lobby → Prop where
  | admitted {l l' : Lobby} {s : ThreadState} (reachable : Reachable roster config l) (listed : roster.Lists w)
      (absent : w.id ∉ l.queue.waiters) (time : l.now = a) (done : l.perform (.enqueue w) = .ok l')
      (found : l'.threads.get? w.id = some s) (base : s.base = b) : Waiting roster config w a b l.queue.waiters l'
  | perform {l l' : Lobby} {elders : List ThreadId} {deed : Deed} (waiting : Waiting roster config w a b elders l)
      (fits : l.Fits roster config deed) (leaves : l.Leaves w.id deed) (done : l.perform deed = .ok l') :
      Waiting roster config w a b (elders.filter (· ∈ l'.queue.waiters)) l'

variable {roster : Roster} {config : Config} {l l' : Lobby} {deed : Deed}

structure InOrder (roster : Roster) (config : Config) (l : Lobby) : Prop where
  settled : l.queue.Settled config l.threads fun _ => False
  sound : l.threads.Sound roster config l.now

namespace InOrder

theorem admitted (lifts : config.Lifts) (inOrder : l.InOrder roster config) {thread : Thread}
    (listed : roster.Lists thread) {n : Noted (WaitQueue × ThreadRegistry)}
    (done : l.queue.enqueue thread l.threads l.now = .ok n) :
    (∃ accounts : Accounts, (l.threads.ensure thread).value.1.accounts.enqueued l.now = .ok accounts ∧
      n.value.2.get? thread.id =
        some { (l.threads.ensure thread).value.1 with accounts, queuedOn := some l.queue.id }) ∧
      (∀ id, id ≠ thread.id → n.value.2.get? id = l.threads.get? id) ∧
      n.value.1 = l.queue.joined thread n.value.2 ∧ l.queue.Settled config n.value.2 (fun _ => False) ∧
      n.value.2.Sound roster config l.now := by
  obtain ⟨accounts, enqueued, rfl⟩ := WaitQueue.enqueue_ok done
  obtain ⟨here, -, others⟩ := l.threads.get?_ensure thread
  have ensured := inOrder.sound.ensure lifts listed
  have state := ensured.states _ _ here
  refine ⟨⟨accounts, enqueued, (ThreadRegistry.get?_put _ _ _ _).trans (if_pos rfl)⟩, fun id other => ?_, rfl,
    inOrder.settled.congr fun id _ _ => ⟨not_false, ?_⟩, ensured.put ?_⟩
  · exact ((ThreadRegistry.get?_put _ _ _ _).trans (if_neg other)).trans (others id other)
  · refine (ThreadRegistry.effective_put_of_effective here ?_ id).trans (l.threads.effective_ensure thread id)
    rfl
  · exact ⟨⟨state.base, state.donation, state.floor⟩, state.thread, state.carry, state.backed⟩

theorem selected (inOrder : l.InOrder roster config) {n : Noted (Selection WaitQueue)}
    (done : l.queue.next l.threads l.now = .ok n) :
    InOrder roster config ⟨n.value.queue, n.value.threads, l.now⟩ := by
  refine ⟨(inOrder.settled.next done).1, ?_⟩
  obtain ⟨m, selected, picks⟩ := WaitQueue.next_ok done
  have aged : m.value.threads.Sound roster config l.now := by
    rw [Discipline.threads_select selected]
    exact l.queue.discipline.aged_cases inOrder.sound fun _ => inOrder.sound.ageAll
  show n.value.threads.Sound roster config l.now
  rw [picks.threads]
  cases n.value.next with
  | none => exact aged
  | some id => exact aged.unlink id

theorem displaced (inOrder : l.InOrder roster config) {threads : ThreadRegistry} {ids : List ThreadId}
    (moved : ∀ id, threads.effective id ≠ l.threads.effective id → id ∈ ids) :
    l.queue.Settled config threads (· ∈ ids) :=
  inOrder.settled.congr fun id _ out => ⟨not_false, Classical.byContradiction fun other => out (moved id other)⟩

theorem perform (lifts : config.Lifts) (inOrder : l.InOrder roster config) (fits : l.Fits roster config deed)
    (done : l.perform deed = .ok l') : l'.InOrder roster config := by
  cases deed with
  | enqueue thread =>
      obtain ⟨n, admission, made⟩ := bind_eq_ok.mp done
      cases made
      obtain ⟨-, -, queue, settled, sound⟩ := inOrder.admitted lifts fits admission
      refine ⟨?_, sound⟩
      show n.value.1.Settled config n.value.2 _
      rw [queue]
      exact settled.joined (Roster.Lists.isMain_iff fits)
  | select =>
      obtain ⟨n, selection, made⟩ := bind_eq_ok.mp done
      cases made
      exact inOrder.selected selection
  | remove id =>
      cases done
      obtain ⟨settled, threads, -, -⟩ := inOrder.settled.removed id
      have effective (j : ThreadId) : (l.queue.remove id l.threads).2.2.effective j = l.threads.effective j := by
        rcases threads with same | unlinked
        · rw [same]
        · rw [unlinked, WaitQueue.effective_unlink]
      refine ⟨settled.congr fun j _ _ => ⟨not_false, effective j⟩, ?_⟩
      show (l.queue.remove id l.threads).2.2.Sound roster config l.now
      rcases threads with same | unlinked
      · rw [same]
        exact inOrder.sound
      · rw [unlinked]
        exact inOrder.sound.unlink id
  | occupy id =>
      obtain ⟨queue, claimed, made⟩ := bind_eq_ok.mp done
      cases made
      unfold WaitQueue.acquire at claimed
      split at claimed
      · cases claimed
        exact ⟨⟨inOrder.settled.ordered, inOrder.settled.apart⟩, inOrder.sound⟩
      · cases claimed
  | disturb threads ids =>
      cases done
      obtain ⟨sound, moved⟩ := fits
      exact ⟨((inOrder.displaced moved).rearranged ids).2.congr fun id _ _ => ⟨fun both => both.2 both.1, rfl⟩, sound⟩
  | pass time =>
      cases done
      exact ⟨inOrder.settled, inOrder.sound.later (Nat.le_max_left _ _)⟩

end InOrder

theorem InOrder.fits_disturb (inOrder : l.InOrder roster config) {id : ThreadId} {s s' : ThreadState}
    (found : l.threads.get? id = some s) (within : s'.Within config) (thread : s'.thread = s.thread)
    (drift : s'.waitDrift = s.waitDrift) : l.Fits roster config (.disturb (l.threads.put id s') [id]) := by
  have sound := inOrder.sound.states id s found
  refine ⟨inOrder.sound.put ⟨within, thread.trans sound.thread, drift ▸ sound.carry, drift ▸ sound.backed⟩, fun j moved => ?_⟩
  apply Classical.byContradiction
  intro out
  refine moved (ThreadRegistry.effective_congr rfl ((ThreadRegistry.get?_put _ _ _ _).trans (if_neg fun here => out ?_)))
  exact List.mem_singleton.mpr here

theorem inOrder_empty {id : QueueId} {transfer : Bool} {threads : ThreadRegistry} {now : Ticks}
    (sound : threads.Sound roster config now) : InOrder roster config ⟨.new id transfer config, threads, now⟩ :=
  ⟨WaitQueue.settled_new id transfer config threads _, sound⟩

theorem Reachable.inOrder (lifts : config.Lifts) (reachable : Reachable roster config l) : l.InOrder roster config := by
  induction reachable with
  | empty sound => exact inOrder_empty sound
  | perform _ fits done ih => exact ih.perform lifts fits done

/-! ## A stay in the queue -/

/-- A waiter in its stay. Nobody stands before it but the elders. -/
structure Stay (config : Config) (w : ThreadId) (a : Ticks) (b : Priority) (elders : List ThreadId) (l : Lobby) : Prop where
  waits : w ∈ l.queue.discipline.waiters
  since : a ≤ l.now
  state : ∃ s, l.threads.get? w = some s ∧ s.accounts.lastEnqueued = some a ∧ s.Boosted config a b
  elders : ∀ j place place', l.queue.discipline.place? w = some place → l.queue.discipline.place? j = some place' →
    place' < place → j ∈ elders

variable {w : Thread} {a : Ticks} {b : Priority} {elders : List ThreadId}

theorem exists_of_map_stay {t t' : ThreadRegistry} {id : ThreadId}
    (same : (t'.get? id).map ThreadState.stay = (t.get? id).map ThreadState.stay)
    (state : ∃ s, t.get? id = some s ∧ s.accounts.lastEnqueued = some a ∧ s.Boosted config a b) :
    ∃ s, t'.get? id = some s ∧ s.accounts.lastEnqueued = some a ∧ s.Boosted config a b := by
  obtain ⟨s, found, admitted, boosted⟩ := state
  rw [found, Option.map_some, Option.map_eq_some_iff] at same
  obtain ⟨s', found', equal⟩ := same
  simp only [ThreadState.stay, Prod.mk.injEq] at equal
  obtain ⟨base, enqueued, drift⟩ := equal
  refine ⟨s', found', enqueued.trans admitted, ?_⟩
  unfold ThreadState.Boosted
  rw [base, drift]
  exact boosted

theorem map_stay_unlink (t : ThreadRegistry) (id j : ThreadId) :
    ((WaitQueue.unlink t id).get? j).map ThreadState.stay = (t.get? j).map ThreadState.stay := by
  rw [WaitQueue.unlink, ThreadRegistry.get?_modify]
  split
  · rename_i here
    rw [here, Option.map_map]
    rfl
  · rfl

theorem stay_admitted {s : ThreadState} (lifts : config.Lifts) (listed : roster.Lists w) (ordinary : w.role = .ordinary)
    (inOrder : l.InOrder roster config)
    (done : l.perform (.enqueue w) = .ok l') (found : l'.threads.get? w.id = some s) :
    Stay config w.id l.now s.base l.queue.waiters l' := by
  obtain ⟨n, admission, made⟩ := bind_eq_ok.mp done
  cases made
  obtain ⟨⟨accounts, enqueued, state⟩, -, queue, settled, sound⟩ := inOrder.admitted lifts listed admission
  cases found.symm.trans state
  have before := inOrder.sound.ensure lifts listed
  have drift := (before.states _ _ (l.threads.get?_ensure w).1).backed.mark_le
  have place {j : ThreadId} {place : Nat} (stands : n.value.1.discipline.place? j = some place) :=
    WaitQueue.place?_joined settled listed.isMain_iff (queue ▸ stands)
  refine ⟨?_, Nat.le_refl _, ⟨_, state, Accounts.lastEnqueued_enqueued enqueued, .inr ?_⟩, fun j p p' here there less => ?_⟩
  · have member := (WaitQueue.mem_joined settled listed.isMain_iff w.id).mpr (.inl rfl)
    rw [← queue, WaitQueue.mem_waiters] at member
    exact member.resolve_right fun both => listed.ne_main ordinary both.2
  · have since := Drift.since_eq_start drift
    show ((l.threads.ensure w).value.1.waitDrift.since l.now : Int) - l.now ≤ _
    rw [since]
    grind
  · rcases place there with before | ⟨rfl, -, -⟩
    · exact (l.queue.mem_waiters j).mpr (.inl (inOrder.settled.ordered.mem_of_place? before))
    · cases here.symm.trans there
      exact absurd less (Nat.lt_irrefl _)

theorem Stay.aged (lifts : config.Lifts) (listed : roster.Lists w) (ordinary : w.role = .ordinary)
    (inOrder : l.InOrder roster config) (stay : Stay config w.id a b elders l) {m : Noted (Selection Discipline)}
    (selected : l.queue.discipline.select l.threads l.now = .ok m) :
    ∃ s, m.value.threads.get? w.id = some s ∧ s.accounts.lastEnqueued = some a ∧ s.Boosted config a b ∧
      s.waitDrift.since a = l.now := by
  obtain ⟨s, found, admitted, boosted⟩ := stay.state
  have sound := inOrder.sound.states _ s found
  have ages : s.ages config.agingInterval = true := by
    rw [ThreadState.ages, Bool.and_eq_true, decide_eq_true_iff, sound.thread, listed, Thread.isExempt, Thread.isMain,
      Thread.isIdle, ordinary]
    exact ⟨lifts.positive, rfl⟩
  have aging : config.policy.ages = true := by
    rw [lifts.policy]
    rfl
  obtain ⟨k, look, after⟩ := inOrder.settled.ordered.look_select aging stay.waits found selected
  rw [inOrder.sound.configured, Config.agingStep_of_ages aging] at look
  have admitted' := (ThreadState.repriced_ageWaiting look).congr (·.accounts.lastEnqueued)
  obtain ⟨-, stepped⟩ := ThreadState.ageWaiting_eq_ok ages admitted look
  refine ⟨k.value.state, after, admitted'.trans admitted, ?_, ?_⟩
  · exact ThreadState.boosted_ageWaiting lifts.lowest lifts.highest lifts.width ages admitted sound.backed.mark_le stay.since
      sound.base boosted look
  · rw [stepped.waitDrift]
    exact Nat.max_eq_left stay.since

theorem Stay.moved (stay : Stay config w.id a b elders l) (inOrder : l'.InOrder roster config)
    (waits : w.id ∈ l'.queue.discipline.waiters) (passed : l.now ≤ l'.now)
    (state : ∃ s, l'.threads.get? w.id = some s ∧ s.accounts.lastEnqueued = some a ∧ s.Boosted config a b)
    (places : ∀ j place place', l'.queue.discipline.place? w.id = some place →
      l'.queue.discipline.place? j = some place' → place' < place →
        l.queue.discipline.place? w.id = some place ∧ l.queue.discipline.place? j = some place') :
    Stay config w.id a b (elders.filter (· ∈ l'.queue.waiters)) l' where
  waits := waits
  since := Nat.le_trans stay.since passed
  state := state
  elders j place place' here there less := by
    obtain ⟨before, before'⟩ := places j place place' here there less
    refine List.mem_filter.mpr ⟨stay.elders j place place' before before' less, decide_eq_true ?_⟩
    exact (l'.queue.mem_waiters j).mpr (.inl (inOrder.settled.ordered.mem_of_place? there))

theorem Stay.perform (lifts : config.Lifts) (listed : roster.Lists w) (ordinary : w.role = .ordinary)
    (inOrder : l.InOrder roster config) (stay : Stay config w.id a b elders l) (fits : l.Fits roster config deed)
    (leaves : l.Leaves w.id deed) (done : l.perform deed = .ok l') :
    Stay config w.id a b (elders.filter (· ∈ l'.queue.waiters)) l' := by
  have inOrder' := inOrder.perform lifts fits done
  have member : w.id ∈ l.queue.waiters := (l.queue.mem_waiters w.id).mpr (.inl stay.waits)
  -- a waiter that is not main waits in the discipline
  have inside {q : WaitQueue} (waits : w.id ∈ q.waiters) : w.id ∈ q.discipline.waiters :=
    ((q.mem_waiters w.id).mp waits).resolve_right fun both => listed.ne_main ordinary both.2
  cases deed with
  | enqueue thread =>
      obtain ⟨n, admission, made⟩ := bind_eq_ok.mp done
      cases made
      obtain ⟨-, others, queue, settled, -⟩ := inOrder.admitted lifts fits admission
      have main := Roster.Lists.isMain_iff fits
      have place {j : ThreadId} {place : Nat} (stands : n.value.1.discipline.place? j = some place) :=
        WaitQueue.place?_joined settled main (queue ▸ stands)
      have waits : w.id ∈ n.value.1.waiters := queue ▸ (WaitQueue.mem_joined settled main w.id).mpr (.inr member)
      have state := exists_of_map_stay (congrArg _ (others w.id (Ne.symm leaves))) stay.state
      refine stay.moved inOrder' (inside waits) (Nat.le_refl _) state fun j p p' here there less => ?_
      rcases place here with before | ⟨same, -, -⟩
      · rcases place there with before' | ⟨-, -, behind⟩
        · exact ⟨before, before'⟩
        · exact absurd (behind w.id p before) (Nat.lt_asymm less)
      · exact absurd same.symm leaves
  | select =>
      obtain ⟨n, selection, made⟩ := bind_eq_ok.mp done
      cases made
      obtain ⟨m, selected, picks⟩ := WaitQueue.next_ok selection
      obtain ⟨s, found, admitted, boosted, -⟩ := stay.aged lifts listed ordinary inOrder selected
      obtain ⟨-, serves⟩ := inOrder.settled.next selection
      have same : (n.value.threads.get? w.id).map ThreadState.stay = (m.value.threads.get? w.id).map ThreadState.stay := by
        rw [picks.threads]
        cases n.value.next with
        | none => rfl
        | some id => exact map_stay_unlink _ _ _
      have waits := (serves.mem w.id).mpr ⟨member, leaves n selection⟩
      refine stay.moved inOrder' (inside waits) (Nat.le_refl _) (exists_of_map_stay same ⟨s, found, admitted, boosted⟩) ?_
      exact fun j p p' here there _ => ⟨serves.places _ _ here, serves.places _ _ there⟩
  | remove id =>
      cases done
      obtain ⟨-, threads, mem, places⟩ := inOrder.settled.removed id
      have same : ((l.queue.remove id l.threads).2.2.get? w.id).map ThreadState.stay =
          (l.threads.get? w.id).map ThreadState.stay := by
        rcases threads with same | unlinked
        · rw [same]
        · rw [unlinked, map_stay_unlink]
      have waits := (mem w.id).mpr ⟨member, Ne.symm leaves⟩
      refine stay.moved inOrder' (inside waits) (Nat.le_refl _) (exists_of_map_stay same stay.state) ?_
      exact fun j p p' here there _ => ⟨places _ _ here, places _ _ there⟩
  | occupy id =>
      obtain ⟨queue, claimed, made⟩ := bind_eq_ok.mp done
      cases made
      unfold WaitQueue.acquire at claimed
      split at claimed
      · cases claimed
        exact stay.moved inOrder' stay.waits (Nat.le_refl _) stay.state fun _ _ _ here there _ => ⟨here, there⟩
      · cases claimed
  | disturb threads ids =>
      cases done
      have displaced := inOrder.displaced fits.2
      obtain ⟨rearranged, -⟩ := displaced.rearranged ids
      refine stay.moved inOrder' ((rearranged.mem w.id).mpr stay.waits) (Nat.le_refl _)
        (exists_of_map_stay leaves stay.state) fun j p p' here there _ => ?_
      exact ⟨(rearranged.place? w.id).symm.trans here, (rearranged.place? j).symm.trans there⟩
  | pass time =>
      cases done
      exact stay.moved inOrder' stay.waits (Nat.le_max_left _ _) stay.state fun _ _ _ here there _ => ⟨here, there⟩

theorem Waiting.stay (lifts : config.Lifts) (ordinary : w.role = .ordinary)
    (waiting : Waiting roster config w a b elders l) :
    roster.Lists w ∧ l.InOrder roster config ∧ Stay config w.id a b elders l := by
  induction waiting with
  | @admitted l _ _ reachable listed _ time done found base =>
      have inOrder := reachable.inOrder lifts
      have fits : l.Fits roster config (.enqueue w) := listed
      cases time
      cases base
      exact ⟨listed, inOrder.perform lifts fits done, stay_admitted lifts listed ordinary inOrder done found⟩
  | perform _ fits leaves done ih =>
      obtain ⟨listed, inOrder, stay⟩ := ih
      exact ⟨listed, inOrder.perform lifts fits done, stay.perform lifts listed ordinary inOrder fits leaves done⟩

/-! ## The selection after a long wait -/

theorem next_total (lifts : config.Lifts) (inOrder : l.InOrder roster config) (early : l.now < Ticks.bound) :
    ∃ n, l.queue.next l.threads l.now = .ok n := by
  have ordered := inOrder.settled.ordered
  have total : ∃ n, ThreadRegistry.ageAll l.now l.queue.discipline.waiters l.threads = .ok n := by
    rcases ThreadRegistry.ageAll_cases ordered.nodup_waiters l.threads l.now with ⟨n, done, -⟩ | ⟨f, -, stuck⟩
    · exact ⟨n, done⟩
    · exact absurd (inOrder.sound.timely lifts early) stuck.untimely
  unfold WaitQueue.next
  cases discipline : l.queue.discipline with
  | strict q =>
      rw [discipline] at ordered
      cases lifts.policy.symm.trans ordered.1
  | banded q =>
      rw [discipline] at ordered
      cases lifts.policy.symm.trans ordered.1
  | aging q =>
      obtain ⟨n, all⟩ := total
      rw [discipline] at all
      simp only [Discipline.waiters] at all
      simp only [Discipline.select, RankedQueue.selectAged, all]
      exact ⟨_, rfl⟩

theorem effective_of_boosted {t : ThreadRegistry} {now : Ticks} {s : ThreadState}
    (sound : t.Sound roster config now) (found : t.get? w.id = some s) (boosted : s.Boosted config a b)
    (looked : s.waitDrift.since a = now) (late : (a : Int) + (b - config.mostUrgent) * config.agingInterval ≤ now) :
    t.effective w.id = config.mostUrgent := by
  have state := sound.states _ s found
  have base : s.base = config.mostUrgent := by
    rcases boosted with top | slow
    · exact top
    · apply Classical.byContradiction
      intro below
      -- with a step still to go, the carry alone would have to be an interval
      have step : b - s.base + 1 ≤ b - config.mostUrgent := by
        have most := (Config.inRange_iff.mp state.base).1
        grind
      have intervals := Int.mul_le_mul_of_nonneg_right step (Int.natCast_nonneg config.agingInterval)
      have carry : (s.waitDrift.carry : Int) < config.agingInterval := mod_cast state.carry
      rw [Int.add_mul, Int.one_mul] at intervals
      rw [looked] at slow
      grind
  have most := (Config.inRange_iff.mp state.effective).1
  rw [ThreadRegistry.effective_of_get? found]
  exact Int.le_antisymm (base ▸ state.effective_le) most

/-- Once a waiter has waited for an interval per step to the most urgent priority, each selection hands out the waiter
itself or one of those who have been waiting for longer. -/
theorem served_of_waiting (lifts : config.Lifts) (ordinary : w.role = .ordinary)
    (waiting : Waiting roster config w a b elders l) (early : l.now < Ticks.bound)
    (late : (a : Int) + (b - config.mostUrgent) * config.agingInterval ≤ l.now) :
    ∃ n id, l.queue.next l.threads l.now = .ok n ∧ n.value.next = some id ∧ (id = w.id ∨ id ∈ elders) := by
  obtain ⟨listed, inOrder, stay⟩ := waiting.stay lifts ordinary
  obtain ⟨n, selection⟩ := next_total lifts inOrder early
  obtain ⟨m, selected, picks⟩ := WaitQueue.next_ok selection
  obtain ⟨s, found, -, boosted, looked⟩ := stay.aged lifts listed ordinary inOrder selected
  have sound : m.value.threads.Sound roster config l.now := by
    rw [Discipline.threads_select selected]
    exact l.queue.discipline.aged_cases inOrder.sound fun _ => inOrder.sound.ageAll
  have top := effective_of_boosted sound found boosted looked late
  have ranked : config.policy ≠ .multilevel := by
    rw [lifts.policy]
    decide
  obtain ⟨id, next, first⟩ := inOrder.settled.ordered.first_select ranked selected stay.waits
  refine ⟨n, id, selection, picks.next.trans (by rw [next, Option.some_or]), ?_⟩
  rcases first with same | less | ⟨-, place, place', stands, stands', before⟩
  · exact .inl same
  · rw [top] at less
    exact absurd (Config.inRange_iff.mp (sound.effective lifts id)).1 (Int.not_le.mpr less)
  · exact .inr (stay.elders id place' place stands' stands before)

def lifting : Config := { policy := .aging, agingInterval := 10, initial := 5 }

def deserted : Lobby :=
  ⟨.new .ready false lifting, ({ config := lifting } : ThreadRegistry).put ⟨4⟩ (.new ⟨⟨4⟩, "worker", .ordinary⟩ 1), 0⟩

theorem sound_deserted : deserted.threads.Sound .workers lifting 0 := by
  have empty : ({ config := lifting } : ThreadRegistry).Sound .workers lifting 0 := ⟨rfl, fun id s found => nomatch found⟩
  exact empty.put ⟨.new (by decide) _, by decide, by decide, .new 0⟩

/-- A worker waits behind another one, which is given a donation in between, and the urgent thread that comes last stands
behind both when they have waited for as long as it takes to become as urgent. -/
theorem served_of_waiting_urgent : ∃ elders l, Waiting .workers lifting ⟨⟨3⟩, "worker", .ordinary⟩ 3 5 elders l ∧
    l.now < Ticks.bound ∧ (3 : Int) + (5 - lifting.mostUrgent) * lifting.agingInterval ≤ l.now ∧
    (⟨4⟩ : ThreadId) ∉ elders ∧
    ∃ n id, l.queue.next l.threads l.now = .ok n ∧ n.value.next = some id ∧ (id = ⟨3⟩ ∨ id ∈ elders) := by
  have lifts : lifting.Lifts := ⟨rfl, by decide, by decide, by decide, by decide, by decide⟩
  have empty : Reachable .workers lifting deserted := .empty sound_deserted
  have elder := empty.perform (show Fits _ _ _ (.enqueue ⟨⟨2⟩, "worker", .ordinary⟩) from rfl) rfl
  have later := elder.perform (show Fits _ _ _ (.pass 3) from trivial) rfl
  have waiting : Waiting .workers lifting ⟨⟨3⟩, "worker", .ordinary⟩ 3 5 _ _ :=
    .admitted later rfl (by decide +kernel) rfl rfl rfl rfl
  have urgent := waiting.perform (show Fits _ _ _ (.enqueue ⟨⟨4⟩, "worker", .ordinary⟩) from rfl) (nofun : _ → False) rfl
  obtain ⟨-, inOrder, -⟩ := urgent.stay lifts rfl
  have sound := inOrder.sound.states ⟨2⟩ _ rfl
  have inside : ∀ d ∈ some (⟨2, ⟨1⟩⟩ : Donation), lifting.inRange d.priority = true := by decide
  have fits := @InOrder.fits_disturb _ _ _ inOrder ⟨2⟩ _ _ rfl (sound.toWithin.setDonation inside) rfl rfl
  have donated := urgent.perform fits rfl rfl
  have waited := donated.perform (show Fits _ _ _ (.pass 43) from trivial) trivial rfl
  have early : (43 : Ticks) < Ticks.bound := by decide
  have late : (3 : Int) + (5 - lifting.mostUrgent) * lifting.agingInterval ≤ (43 : Ticks) := by decide
  exact ⟨_, _, waited, early, late, by decide +kernel, served_of_waiting lifts rfl waited early late⟩

end Lobby

end PriorityScheduler
