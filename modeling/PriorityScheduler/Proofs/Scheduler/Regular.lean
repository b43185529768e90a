import PriorityScheduler.Proofs.Scheduler.Attainable

namespace PriorityScheduler

open PriorityScheduler.Action PriorityScheduler.Scheduler

namespace Accounts

variable {a a' : Accounts} {now : Ticks}

/-- The time that a thread ran had passed when it was last admitted or dispatched. -/
structure Timely (a : Accounts) (now : Ticks) : Prop where
  run : a.run ≤ max (a.lastScheduled.getD 0) (a.lastEnqueued.getD 0)
  scheduled : a.lastScheduled.getD 0 ≤ now
  enqueued : a.lastEnqueued.getD 0 ≤ now

theorem Timely.later (timely : a.Timely now) {time : Ticks} (later : now ≤ time) : a.Timely time :=
  ⟨timely.run, Nat.le_trans timely.scheduled later, Nat.le_trans timely.enqueued later⟩

theorem timely_new (now : Ticks) : Timely {} now := ⟨Nat.zero_le _, Nat.zero_le _, Nat.zero_le _⟩

theorem Timely.run_le (timely : a.Timely now) : a.run ≤ now :=
  Nat.le_trans timely.run (Nat.max_le.mpr ⟨timely.scheduled, timely.enqueued⟩)

theorem ranSince_iff {scheduled : Ticks} {enqueued : Option Ticks} :
    ranSince scheduled enqueued = true ↔ enqueued.getD 0 ≤ scheduled := by
  cases enqueued <;> simp [ranSince]

theorem enqueued_of_timely (timely : a.Timely now) (early : now < Ticks.bound) :
    ∃ a', a.enqueued now = .ok a' ∧ a'.Timely now := by
  have upTo (a' : Accounts) (run : a'.run ≤ now) (scheduled : a'.lastScheduled.getD 0 ≤ now)
      (enqueued : a'.lastEnqueued = some now) : a'.Timely now := by
    refine ⟨?_, scheduled, ?_⟩ <;> rw [enqueued]
    · exact Nat.le_trans run (Nat.le_max_right _ _)
    · exact Nat.le_refl now
  unfold Accounts.enqueued
  cases a.arrival with
  | none => exact ⟨_, rfl, upTo _ timely.run_le (Nat.le_refl now) rfl⟩
  | some arrival =>
      cases dispatched : a.lastScheduled with
      | none => exact ⟨_, rfl, upTo _ timely.run_le (by simp) rfl⟩
      | some scheduled =>
          have before : scheduled ≤ now := by simpa [dispatched] using timely.scheduled
          simp only
          split
          · rename_i ran
            -- the run began after all that was accounted so far
            have run : a.run ≤ scheduled := by
              simpa [dispatched, Nat.max_eq_left (ranSince_iff.mp ran)] using timely.run
            have sum : a.run + Ticks.elapsed scheduled now ≤ now :=
              calc a.run + (now - scheduled)
                _ ≤ scheduled + (now - scheduled) := Nat.add_le_add_right run _
                _ = now := Nat.add_sub_cancel' before
            rw [Ticks.add, if_pos (Nat.lt_of_le_of_lt sum early)]
            exact ⟨_, rfl, upTo _ sum (by simpa [dispatched] using before) rfl⟩
          · exact ⟨_, rfl, upTo _ timely.run_le (by simpa [dispatched] using before) rfl⟩

theorem Timely.enqueue (timely : a.Timely now) (early : now < Ticks.bound) (done : a.enqueued now = .ok a') :
    a'.Timely now := by
  obtain ⟨b, done', timely⟩ := enqueued_of_timely timely early
  cases done.symm.trans done'
  exact timely

theorem Timely.dispatch (timely : a.Timely now) (done : a.scheduled now = .ok a') : a'.Timely now := by
  have upTo (a' : Accounts) (run : a'.run = a.run) (scheduled : a'.lastScheduled = some now)
      (enqueued : a'.lastEnqueued = a.lastEnqueued) : a'.Timely now := by
    refine ⟨?_, ?_, ?_⟩
    · rw [run, scheduled]
      exact Nat.le_trans timely.run_le (Nat.le_max_left _ _)
    · simp [scheduled]
    · rw [enqueued]
      exact timely.enqueued
  unfold Accounts.scheduled at done
  split at done
  · split at done
    · obtain ⟨wait, -, made⟩ := bind_eq_ok.mp done
      cases made
      exact upTo _ rfl rfl rfl
    · cases done
      exact upTo _ rfl rfl rfl
  · cases done
    exact upTo _ rfl rfl rfl

end Accounts

def ThreadState.booked (s : ThreadState) : ThreadState := { ThreadState.new .main s.base with accounts := s.accounts }

namespace Scheduler

variable {roster : Roster} {config : Config} {s s' : Scheduler}

structure Regular (config : Config) (s : Scheduler) : Prop where
  configured : s.threads.config = config
  states : ∀ id state, s.threads.get? id = some state →
    config.inRange state.base = true ∧ state.accounts.Timely s.clock.now
  early : s.clock.now < Ticks.bound

namespace Regular

theorem congr (regular : s.Regular config) (threads : s.threads.Matches ThreadState.booked s'.threads)
    (clock : s'.clock = s.clock) : s'.Regular config where
  configured := threads.config.trans regular.configured
  states id state found := by
    obtain ⟨state', before, same⟩ := threads.exists_view found
    have base := congrArg ThreadState.base same
    have accounts := congrArg ThreadState.accounts same
    change state'.base = state.base at base
    change state'.accounts = state.accounts at accounts
    rw [← base, ← accounts, clock]
    exact regular.states id state' before
  early := clock ▸ regular.early

theorem put (regular : s.Regular config) (id : ThreadId) {state : ThreadState} (base : config.inRange state.base = true)
    (timely : state.accounts.Timely s.clock.now) :
    ({ s with threads := s.threads.put id state } : Scheduler).Regular config where
  configured := regular.configured
  states j state' found := by
    rw [ThreadRegistry.get?_put] at found
    split at found
    · cases found
      exact ⟨base, timely⟩
    · exact regular.states j state' found
  early := regular.early

theorem retired (regular : s.Regular config) (id : ThreadId) :
    ({ s with threads := s.threads.remove id } : Scheduler).Regular config where
  configured := regular.configured
  states j state found := by
    rw [ThreadRegistry.get?_remove] at found
    split at found
    · cases found
    · exact regular.states j state found
  early := regular.early

theorem left (regular : s.Regular config) (id : ThreadId) : (s.left id).Regular config := by
  obtain ⟨queues, threads, left, same⟩ := s.exists_left id
  rw [left]
  exact regular.congr (same.weaken fun _ => rfl) rfl

theorem selected (regular : s.Regular config) {queue : QueueId} {q : WaitQueue} {n : Noted (Selection WaitQueue)}
    (taken : q.next s.threads s.clock.now = .ok n) : (s.selected queue n).Regular config := by
  let grown : ThreadRegistry := q.discipline.aged s.threads s.clock.now
  have aged : ({ s with threads := grown } : Scheduler).Regular config := by
    refine q.discipline.aged_cases (P := fun grown => ({ s with threads := grown } : Scheduler).Regular config) regular ?_
    intro k all
    have matching := ThreadRegistry.matches_ageAll all
    refine ⟨matching.config.trans regular.configured, fun id state found => ⟨?_, ?_⟩, regular.early⟩
    · refine ThreadRegistry.forall_ageAll (P := fun state => config.inRange state.base = true) ?_ ?_ all id state found
      · exact fun inside repriced => regular.configured ▸ repriced.inRange (regular.configured ▸ inside)
      · exact fun id state found => (regular.states id state found).1
    · obtain ⟨state', before, same⟩ := matching.exists_view found
      have accounts := congrArg ThreadState.accounts same
      change state'.accounts = state.accounts at accounts
      exact accounts ▸ (regular.states id state' before).2
  exact aged.congr ((WaitQueue.unqueued_next taken).weaken fun _ => rfl) rfl

end Regular

theorem bookkept_regular (config : Config) : Bookkept (Regular config) where
  quiet same regular := regular.congr (by rw [same.threads]; exact .refl _) same.clock
  told _ regular := regular.congr (.refl _) rfl

theorem kept_regular (initial : config.inRange config.initial = true) (target : QueueId) :
    Kept (fun _ => True) target (Regular config) where
  toBookkept := bookkept_regular config
  known _ _ := trivial
  ensured {s thread} _ _ regular := by
    refine regular.put thread.id ?_ (Accounts.timely_new _)
    rw [regular.configured]
    exact initial
  joined {s q thread state accounts} p _ found _ accounted regular := by
    obtain ⟨base, timely⟩ := regular.states thread.id state found
    let state' : ThreadState := { state with accounts, queuedOn := some q.id }
    have put : ({ s with threads := s.threads.put thread.id state' } : Scheduler).Regular config :=
      regular.put thread.id base (timely.enqueue regular.early accounted)
    exact put.congr (.refl _) rfl
  running _ _ := trivial
  interrupted _ regular := regular.congr (.refl _) rfl
  repriced {s id state c} found repriced regular := by
    obtain ⟨base, timely⟩ := regular.states id state found
    have accounts : c.state.accounts = state.accounts := repriced.congr (·.accounts)
    have inRange := regular.configured ▸ repriced.inRange (regular.configured ▸ base)
    have put := regular.put id inRange (accounts ▸ timely)
    exact put.congr ((effect_reprice s.locks id c s.threads).kin.weaken fun _ => rfl) rfl
  claimed _ regular := regular.congr (.refl _) rfl
  queueMade regular := regular.congr (.refl _) rfl
  lockMade regular := regular.congr (.refl _) rfl
  emitted regular := regular.congr (.refl _) rfl
  released done regular := regular.congr ((effect_release done).kin.weaken fun _ => rfl) rfl

theorem dispatched_regular (config : Config) : Dispatched (Regular config) where
  toBookkept := bookkept_regular config
  dispatched {s s' t} p _ _ charged regular := by
    refine Regular.congr (s := s') ?_ (.refl _) rfl
    cases charged with
    | @known state accounts found scheduled =>
        obtain ⟨base, timely⟩ := regular.states t.id state found
        let state' : ThreadState := { state with accounts }
        have timely' : state'.accounts.Timely s.clock.now := timely.dispatch scheduled
        exact regular.put t.id base timely'
    | unknown _ => exact regular
  interrupted _ regular := regular.congr (.refl _) rfl
  switched _ regular := regular.congr (.refl _) rfl

theorem ends_contend_regular (initial : config.inRange config.initial = true) (regular : s.Regular config) (lock : LockId) :
    Ends (contend lock) s (fun _ => Regular config) (Regular config) :=
  (kept_regular initial .ready).contend trivial regular fun _ _ _ done after =>
    after.congr ((effect_acquire done).kin.weaken fun _ => rfl) rfl

theorem ends_depart_regular (initial : config.inRange config.initial = true) (regular : s.Regular config) :
    Ends depart s (fun _ => Regular config) (Regular config) := by
  have kept := kept_regular initial .ready
  have withdraws := effect_withdraw s.locks s.processor.current.id s.threads
  refine kept.ends_depart kept.toBookkept id (regular.congr (withdraws.kin.weaken fun _ => rfl) rfl)
    (fun after => after.left _) fun after => ?_
  exact ends_retire kept.toBookkept _ (fun regular => regular.congr (.refl _) rfl) (fun _ => after) (after.retired _)

theorem ends_regular {call : Call} (initial : config.inRange config.initial = true) (regular : s.Regular config) :
    Ends call.action s (fun _ => Regular config) (Regular config) := by
  refine ends_call (fun _ _ => trivial) (kept_regular initial call.target) id (dispatched_regular config) ?_
    (fun _ => trivial) ?_ (fun _ after _ => after) (fun _ after _ taken => after.selected taken) regular
  · intro lock s' outcome w _ _ _ _ done after
    exact after.congr ((effect_acquire done).kin.weaken fun _ => rfl) rfl
  · rintro rfl
    exact ends_depart_regular (s := s.masked) initial (regular.congr (.refl _) rfl)

theorem Attainable.initial (attainable : s.Attainable roster config) : config.inRange config.initial = true := by
  induction attainable with
  | boot booted _ _ => exact booted.valid
  | feed _ _ _ ih => exact ih

theorem regular_of_attainable (attainable : s.Attainable roster config) : s.Regular config := by
  have initial := attainable.initial
  induction attainable with
  | boot booted _ early =>
      obtain ⟨idle, start, -, rfl⟩ := booted.eq
      refine ⟨rfl, fun id state found => ?_, early⟩
      cases (SortedMap.get?_empty id).symm.trans found
  | @feed s s' input _ fits fed ih =>
      cases input with
      | call call => exact of_perform (ends_regular initial ih) fed
      | clock time =>
          cases fed
          refine ⟨ih.configured, fun id state found => ?_, Nat.max_lt.mpr ⟨ih.early, fits⟩⟩
          obtain ⟨base, timely⟩ := ih.states id state found
          exact ⟨base, timely.later (Nat.le_max_left _ _)⟩
      | interrupts interrupts =>
          cases fed
          exact ih.congr (.refl _) rfl
      | processor processor =>
          cases fed
          exact ih.congr (.refl _) rfl

end Scheduler

end PriorityScheduler
