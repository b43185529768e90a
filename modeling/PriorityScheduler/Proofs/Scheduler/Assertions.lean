import PriorityScheduler.Proofs.Overflow
import PriorityScheduler.Proofs.Scheduler.Regular
import PriorityScheduler.Proofs.Scheduler.Wakeful

namespace PriorityScheduler

open PriorityScheduler.Action PriorityScheduler.Scheduler PriorityScheduler.LockRegistry

namespace Scheduler

variable {roster : Roster} {config : Config} {s s' : Scheduler} {names : ThreadId → Option Thread} {t u : LockRegistry}
  {lock : LockId} {thread : Thread}

def Primed (roster : Roster) (config : Config) (s : Scheduler) : Prop :=
  (Dwelling roster.Lists config (fun _ _ => True) s ∧ s.Regular config) ∧ s.interrupts.enabled = false

theorem admitting_primed (roster : Roster) (initial : config.inRange config.initial = true) :
    Admitting roster.Lists .ready (Primed roster config) := by
  have dwelling : Admitting roster.Lists .ready (Dwelling roster.Lists config fun _ _ => True) :=
    admitting_placement (fun _ => id) (joinable_true roster .ready)
  have regular : Admitting roster.Lists .ready (Regular config) :=
    (kept_regular initial .ready).toAdmitting.mono fun _ _ => trivial
  exact (dwelling.and regular).and
    { quiet := fun same masked => same.interrupts ▸ masked
      told := fun _ masked => masked
      ensured := fun _ _ masked => masked
      joined := fun _ _ _ _ _ masked => masked }

theorem admitting_fixed (names : ThreadId → Option Thread) (t : LockRegistry) :
    Admitting (fun thread => names thread.id = some thread) .ready fun s => s.thread? = names ∧ s.locks = t := by
  have same {s s' : Scheduler} (threads : s.threads.Matches ThreadState.named s'.threads) (locks : s'.locks = s.locks)
      (fixed : s.thread? = names ∧ s.locks = t) : s'.thread? = names ∧ s'.locks = t :=
    ⟨(thread?_of_matches threads).trans fixed.1, locks.trans fixed.2⟩
  refine
    { quiet := fun still => same (still.threads ▸ .refl _) still.locks
      told := fun _ => same (.refl _) rfl
      ensured := fun {s thread} named absent fixed => ⟨.trans ?_ fixed.1, fixed.2⟩
      joined := fun _ _ found _ _ => same (.put found rfl) rfl }
  funext id
  by_cases here : id = thread.id
  · have known : s.thread? id = some thread := by rw [fixed.1, here, named]
    rw [known]
    simp only [Scheduler.thread?, ThreadRegistry.get?_put, if_pos here]
    rfl
  · simp only [Scheduler.thread?, ThreadRegistry.get?_put, if_neg here]

theorem exists_enqueue (regular : s.Regular config) (initial : config.inRange config.initial = true) (q : WaitQueue)
    (thread : Thread) : ∃ n, q.enqueue thread s.threads s.clock.now = .ok n := by
  have admitted {state : ThreadState} {threads : ThreadRegistry} {ns : List Notice}
      (ensured : s.threads.ensure thread = ⟨(state, threads), ns⟩) (base : config.inRange state.base = true)
      (timely : state.accounts.Timely s.clock.now) : ∃ n, q.enqueue thread s.threads s.clock.now = .ok n := by
    obtain ⟨accounts, accounted, -⟩ := Accounts.enqueued_of_timely timely regular.early
    have enqueued : state.enqueued s.clock.now = .ok { state with accounts } := by
      rw [ThreadState.enqueued, accounted]
      rfl
    simp only [WaitQueue.enqueue, ensured, regular.configured, base, if_true, enqueued]
    exact ⟨_, rfl⟩
  cases found : s.threads.get? thread.id with
  | some state =>
      obtain ⟨base, timely⟩ := regular.states thread.id state found
      exact admitted (by rw [ThreadRegistry.ensure, found]) base timely
  | none =>
      refine admitted (by rw [ThreadRegistry.ensure, found]) ?_ (Accounts.timely_new _)
      rw [regular.configured]
      exact initial

theorem settles_wake (initial : config.inRange config.initial = true) (primed : s.Primed roster config) (thread : Thread) :
    Settles (wake thread) s (fun _ _ => thread.isIdle = false)
      fun f _ => f = .fatal .idleMadeReady ∧ thread.isIdle = true := by
  obtain ⟨⟨dwelling, regular⟩, masked⟩ := primed
  rw [wake, settles_bind]
  apply settles_assertMasked _ masked
  cases idle : thread.isIdle with
  | true => exact ⟨rfl, rfl⟩
  | false =>
      simp only [Bool.false_eq_true, if_false]
      rw [settles_bind, settles_get]
      split
      · exact trivial
      · obtain ⟨q, found⟩ := Option.isSome_iff_exists.mp dwelling.1.ready
        obtain ⟨n, queued⟩ := exists_enqueue regular initial q thread
        rw [settles_bind, Action.onProcessor, settles_modify, joinQueue, settles_bind]
        refine settles_assertMasked _ (by exact masked) ?_
        rw [now, settles_bind, settles_bind, settles_get, settles_pure, settles_bind, queue, settles_bind, settles_get,
          Scheduler.queue?, found]
        simp only [settles_pure]
        rw [settles_bind, settles_get, settles_bind]
        refine settles_noted (fun _ _ => trivial) fun f failed => ?_
        cases queued.symm.trans failed

theorem settles_handOn_iff (initial : config.inRange config.initial = true) (time : Ticks)
    (primed : s.Primed roster config) (fixed : s.thread? = names ∧ s.locks = t)
    (held : t.holder? lock = some thread.id) :
    Settles (handOn lock thread time) s
      (fun _ s' => (s'.Primed roster config ∧ s'.thread? = names ∧ ∀ j, j ≠ lock → s'.locks.hands? j = t.hands? j) ∧
        t.Grantable names lock)
      fun f _ => f = .fatal .idleMadeReady ∧ ¬t.Grantable names lock := by
  obtain ⟨rfl, rfl⟩ := fixed
  let Told (next : Option ThreadId) (s' : Scheduler) : Prop :=
    (s'.Primed roster config ∧ s'.thread? = s.thread? ∧ ∀ j, j ≠ lock → s'.locks.hands? j = s.locks.hands? j) ∧
      next = (s.locks.waitersOf lock).head?
  refine settles_handOn Told time (fun f failed => ?_) (fun next w p done => ?_)
    (fun next s' told unknown => ?_) fun heir named s' told known => ?_
  · obtain ⟨l, found, holder⟩ := Option.bind_eq_some_iff.mp held
    rw [release_held found holder] at failed
    cases failed
  · obtain ⟨waiters, before, next, after⟩ := release_hands done
    have kin := (effect_release done).kin
    refine ⟨⟨⟨⟨?_, ?_⟩, primed.2⟩, ?_, fun j other => ?_⟩, ?_⟩
    · exact ⟨((primed.1.1.1.walked (effect_release done)).1.told _).1, trivial⟩
    · exact primed.1.2.congr (kin.weaken fun _ => rfl) rfl
    · exact thread?_of_matches (s := s) (kin.weaken fun _ => rfl)
    · exact (after j).trans (if_neg other)
    · rw [next, (holder?_of_hands? before).2]
  · obtain ⟨told, next⟩ := told
    refine ⟨told, fun heir named first known => ?_⟩
    -- an heir that nobody knows is not made ready
    rw [next, first, Option.bind_some, told.2.1, known] at unknown
    cases unknown
  · obtain ⟨⟨primed, names, others⟩, next⟩ := told
    rw [names] at known
    obtain ⟨same, listed⟩ := primed.1.1.1.registered.thread? roster.lists_main (names ▸ known)
    have admits := ((admitting_primed roster initial).mono fun _ => And.left).and
      ((admitting_fixed s.thread? s'.locks).mono fun _ => And.right)
    have ends := admits.wake ⟨listed, same ▸ known⟩ s' ⟨primed, names, rfl⟩
    refine ((settles_wake initial primed named).and ends).imp ?_ ?_
    · rintro _ s₁ ⟨busy, primed, names, locks⟩
      refine ⟨⟨primed, names, fun j other => locks ▸ others j other⟩, fun heir' named' first known' => ?_⟩
      rw [← next] at first
      cases first
      cases known.symm.trans known'
      exact busy
    · rintro f s₁ ⟨failed, idle⟩
      refine ⟨failed, fun grantable => ?_⟩
      have busy := grantable heir named next.symm known
      rw [idle] at busy
      cases busy

theorem settles_handOnAll (initial : config.inRange config.initial = true) (time : Ticks) {locks : List LockId}
    (once : locks.Nodup) (primed : s.Primed roster config) (fixed : s.thread? = names)
    (hands : ∀ lock ∈ locks, s.locks.hands? lock = t.hands? lock)
    (held : ∀ lock ∈ locks, t.holder? lock = some thread.id) :
    Settles (locks.forM fun lock => do
        notice (.finishedHolding thread lock)
        let _ ← handOn lock thread time) s
      (fun _ s' => s'.Primed roster config ∧ ∀ lock ∈ locks, t.Grantable names lock)
      fun f _ => f = .fatal .idleMadeReady ∧ ∃ lock ∈ locks, ¬t.Grantable names lock := by
  induction locks generalizing s with
  | nil => exact ⟨primed, nofun⟩
  | cons lock rest ih =>
      obtain ⟨out, once⟩ := List.nodup_cons.mp once
      have here := List.mem_cons_self (a := lock) (l := rest)
      have same := hands lock here
      have before : s.locks.holder? lock = some thread.id := by
        rw [holder?_eq_hands?, same, ← holder?_eq_hands?]
        exact held lock here
      have grantable : s.locks.Grantable names lock ↔ t.Grantable names lock := by
        rw [Grantable, Grantable, waitersOf_eq_hands?, same, ← waitersOf_eq_hands?]
      simp only [List.forM_eq_forM, List.forM_cons]
      rw [settles_bind, settles_bind, notice, settles_modify, settles_bind]
      have told : (s.tell [.notice (.finishedHolding thread lock)]).Primed roster config :=
        (admitting_primed roster initial).told (Bookkept.silent_notices [_]) primed
      have step := settles_handOn_iff (s := s.tell [.notice (.finishedHolding thread lock)]) initial time told ⟨fixed, rfl⟩
        before
      refine step.imp ?_ fun f _ failed => ⟨failed.1, lock, here, fun all => failed.2 (grantable.mpr all)⟩
      rintro next s₁ ⟨⟨primed, fixed, others⟩, granted⟩
      rw [settles_pure]
      -- the other locks are in the same hands as before
      have rest := ih once primed fixed (fun j member => ?_) fun j member => held j (List.mem_cons_of_mem lock member)
      · refine rest.imp (fun _ s₂ after => ⟨after.1, List.forall_mem_cons.mpr ⟨grantable.mp granted, after.2⟩⟩) ?_
        rintro f s₂ ⟨failed, j, member, stuck⟩
        exact ⟨failed, j, List.mem_cons_of_mem lock member, stuck⟩
      · have other : j ≠ lock := fun same => out (same ▸ member)
        exact (others j other).trans (hands j (List.mem_cons_of_mem lock member))

theorem settles_retire (primed : s.Primed roster config) (initial : config.inRange config.initial = true) (thread : Thread)
    (time : Ticks) :
    Settles (retire thread time) s (fun _ s' => s'.Primed roster config) fun f _ => f = .fatal .sumTooLarge := by
  have books := (admitting_primed roster initial).toBookkept
  rw [retire, settles_bind, settles_get]
  cases found : s.threads.get? thread.id with
  | none =>
      simp only
      split
      · rw [settles_bind]
        refine settles_liftFault (fun statistics _ => ?_) fun f failed => ?_
        · exact books.quiet (s := s) ⟨rfl, rfl, rfl, rfl, rfl, rfl, rfl, rfl, rfl⟩ primed
        · exact congrArg Failure.fatal (s.statistics.overflows_countUnarrived f failed)
      · exact primed
  | some state =>
      obtain ⟨⟨dwelling, regular⟩, masked⟩ := primed
      simp only
      rw [settles_bind, settles_set, settles_bind]
      refine settles_liftFault (fun counted _ => ?_) fun f failed => ?_
      · obtain ⟨record, statistics⟩ := counted
        simp only
        rw [settles_bind, settles_modify]
        have retired : Primed roster config { s with threads := s.threads.remove thread.id, statistics } := by
          refine books.quiet (s := { s with threads := s.threads.remove thread.id })
            ⟨rfl, rfl, rfl, rfl, rfl, rfl, rfl, rfl, rfl⟩ ⟨⟨⟨(dwelling.1.retired thread.id).1, trivial⟩, ?_⟩, masked⟩
          exact regular.retired thread.id
        cases record with
        | none => exact retired
        | some record => exact ⟨⟨retired.1.1.told rfl, retired.1.2.congr (.refl _) rfl⟩, retired.2⟩
      · exact congrArg Failure.fatal (state.overflows_finished time s.statistics f failed)

theorem settles_launch (s : Scheduler) (next : Thread) (time : Ticks) :
    Settles (launch next time) s (fun _ _ => True) fun f _ => f = .fatal .sumTooLarge := by
  rw [launch]
  cases next.isIdle with
  | true => exact trivial
  | false =>
      simp only [Bool.false_eq_true, if_false]
      rw [settles_bind, account, settles_bind, settles_get]
      split
      · exact trivial
      · rename_i state _
        rw [settles_bind]
        refine settles_liftFault (fun _ _ => trivial) fun f failed => ?_
        exact congrArg Failure.fatal (state.overflows_scheduled time f failed)

theorem settles_choose (primed : s.Primed roster config) (nonempty : config.mostUrgent ≤ config.leastUrgent) :
    Settles (choose s.clock.now) s (fun _ _ => True) fun f _ => f = .fatal .sumTooLarge := by
  obtain ⟨⟨dwelling, regular⟩, -⟩ := primed
  obtain ⟨q, found⟩ := Option.isSome_iff_exists.mp dwelling.1.ready
  rw [← regular.configured] at nonempty
  rw [choose, settles_bind, takeNext, settles_bind, queue, settles_bind, settles_get, Scheduler.queue?, found]
  simp only [settles_pure]
  rw [settles_bind, settles_get, settles_bind]
  refine settles_noted (fun n _ => ?_) fun f failed => congrArg Failure.fatal (q.overflows_next nonempty _ f failed)
  rw [settles_bind, settles_modify, settles_bind, settles_get, settles_pure]
  split
  · exact trivial
  · rw [idleThread, settles_bind, settles_get, settles_bind]
    exact settles_noted (fun _ _ => trivial) fun f failed => congrArg Failure.fatal (s.idle.overflows_dispatch f failed)

theorem settles_dispatch (primed : s.Primed roster config) (nonempty : config.mostUrgent ≤ config.leastUrgent) :
    Settles dispatch s (fun _ _ => True) fun f _ => f = .fatal .sumTooLarge := by
  rw [dispatch, settles_bind]
  apply settles_assertMasked _ primed.2
  rw [now, settles_bind, settles_bind, settles_get, settles_pure, settles_bind]
  refine (settles_choose primed nonempty).imp (fun next s' _ => ?_) fun _ _ => id
  rw [settles_bind]
  exact (settles_launch s' next s.clock.now).imp (fun _ _ _ => trivial) fun _ _ => id

/-- A thread that departs hands on each of its locks, unless an idle thread is next in line for one. -/
theorem settles_depart (initial : config.inRange config.initial = true) (primed : s.Primed roster config)
    (busy : s.processor.current.isIdle = false) :
    let id := s.processor.current.id
    let t := (s.locks.withdraw id s.threads).locks
    let Granted := ∀ lock, s.locks.holder? lock = some id → t.Grantable s.thread? lock
    Settles depart s (fun _ s' => s'.Primed roster config ∧ Granted)
      fun f _ => f = .fatal .idleMadeReady ∧ ¬Granted ∨ f = .fatal .sumTooLarge ∧ Granted := by
  intro id t Granted
  have books := (admitting_primed roster initial).toBookkept
  have effect := effect_withdraw s.locks id s.threads
  let w := s.locks.withdraw id s.threads
  let s₁ := (s.follow w w.changed).tell (w.notices.map .notice)
  have primed₁ : s₁.Primed roster config := by
    obtain ⟨⟨dwelling, regular⟩, masked⟩ := primed
    exact books.told (Bookkept.silent_notices w.notices)
      ⟨⟨dwelling.walked effect, regular.congr (effect.kin.weaken fun _ => rfl) rfl⟩, masked⟩
  have names : s₁.thread? = s.thread? := thread?_of_matches (effect.kin.weaken fun _ => rfl)
  -- a wait that is withdrawn gives no lock to anybody
  have holding (lock : LockId) : lock ∈ t.heldBy id ↔ s.locks.holder? lock = some id := by
    rw [LockRegistry.mem_heldBy, holder?_withdraw]
  rw [depart, current, settles_bind, settles_bind, settles_get, settles_pure, busy]
  simp only [Bool.false_eq_true, if_false]
  rw [now, settles_bind, settles_bind, settles_get, settles_pure, settles_bind, settles_get, settles_adopt, settles_bind,
    settles_get, settles_bind]
  have handed := settles_handOnAll (s := s₁) (t := t) initial s.clock.now (t.nodup_heldBy id) primed₁ names
    (fun _ _ => rfl) fun lock => (LockRegistry.mem_heldBy t id lock).mp
  refine handed.imp (fun _ s₂ after => ?_) fun f s₂ failed => ?_
  · obtain ⟨⟨⟨dwelling, regular⟩, masked⟩, granted⟩ := after
    have granted : Granted := fun lock holds => granted lock ((holding lock).mpr holds)
    rw [settles_bind, leaveQueue, settles_modify, settles_bind]
    have left : (s₂.left id).Primed roster config := by
      refine ⟨⟨⟨(dwelling.1.left id).1, trivial⟩, regular.left id⟩, ?_⟩
      obtain ⟨queues, threads, left, -⟩ := s₂.exists_left id
      rw [left]
      exact masked
    refine (settles_retire left initial s.processor.current s.clock.now).imp (fun _ s₃ retired => ?_)
      fun f _ failed => .inr ⟨failed, granted⟩
    rw [settles_bind, notice, settles_modify]
    refine ⟨?_, granted⟩
    have told := books.told (Bookkept.silent_notices [.finished s.processor.current s.clock.now]) retired
    exact books.quiet (s := s₃.tell [.notice (.finished s.processor.current s.clock.now)])
      ⟨rfl, rfl, rfl, rfl, rfl, rfl, rfl, rfl, rfl⟩ told
  · obtain ⟨failed, lock, holds, stuck⟩ := failed
    exact .inl ⟨failed, fun granted => stuck (granted lock ((holding lock).mp holds))⟩

theorem nonempty_of_initial (initial : config.inRange config.initial = true) : config.mostUrgent ≤ config.leastUrgent := by
  simp only [Config.inRange, Bool.and_eq_true, decide_eq_true_eq] at initial
  exact Int.le_trans initial.1 initial.2

theorem primed_of_attainable (attainable : s.Attainable roster config) : s.masked.Primed roster config := by
  have staffed := (kept_staffed roster config .ready).interrupted s.interrupts.guard.2 (staffed_of_attainable attainable)
  exact ⟨⟨staffed.1, (regular_of_attainable attainable).congr (.refl _) rfl⟩, rfl⟩

theorem release_iff (attainable : s.Attainable roster config) (held : s.locks.holder? lock = some s.processor.current.id) :
    (∃ next s', Action.release lock s = .ok next s') ↔ s.locks.Grantable s.thread? lock := by
  have settles : Settles (Action.release lock) s (fun _ _ => s.locks.Grantable s.thread? lock)
      fun f _ => f = .fatal .idleMadeReady ∧ ¬s.locks.Grantable s.thread? lock := by
    rw [Action.release, settles_masked, current, settles_bind, settles_bind, settles_get, settles_pure, now, settles_bind,
      settles_bind, settles_get, settles_pure]
    exact (settles_handOn_iff (s := s.masked) attainable.initial s.clock.now (primed_of_attainable attainable) ⟨rfl, rfl⟩
      held).imp (fun _ _ after => after.2) fun _ _ failed => failed
  constructor
  · rintro ⟨next, s', released⟩
    exact settles.of_ok released
  · intro grantable
    cases run : Action.release lock s with
    | ok next s' => exact ⟨next, s', rfl⟩
    | error f s' => exact absurd grantable (settles.of_error run).2

theorem finish_iff (attainable : s.Attainable roster config) (busy : s.processor.current.isIdle = false) :
    let id := s.processor.current.id
    (∀ f s', finish s = .error f s' → f = .fatal .sumTooLarge) ↔
      ∀ lock, s.locks.holder? lock = some id → (s.locks.withdraw id s.threads).locks.Grantable s.thread? lock := by
  intro id
  let Granted := ∀ lock, s.locks.holder? lock = some id → (s.locks.withdraw id s.threads).locks.Grantable s.thread? lock
  have settles : Settles finish s (fun _ _ => Granted)
      fun f _ => f = .fatal .idleMadeReady ∧ ¬Granted ∨ f = .fatal .sumTooLarge ∧ Granted := by
    rw [finish, settles_masked, settles_bind]
    refine (settles_depart (s := s.masked) attainable.initial (primed_of_attainable attainable) busy).imp
      (fun _ s₁ after => ?_) fun _ _ failed => failed
    exact (settles_dispatch after.1 (nonempty_of_initial attainable.initial)).imp (fun _ _ _ => after.2)
      fun f _ failed => .inr ⟨failed, after.2⟩
  refine ⟨fun safe => ?_, fun granted f s' failed => ?_⟩
  · cases run : finish s with
    | ok next s' => exact settles.of_ok run
    | error f s' =>
        rcases settles.of_error run with ⟨failed, -⟩ | ⟨-, granted⟩
        · cases failed.symm.trans (safe f s' run)
        · exact granted
  · exact (settles.of_error failed).elim (fun stuck => absurd granted stuck.2) And.left

/-- A release by the holder goes through, and the end of a thread runs into no assertion, exactly if no idle thread is next
in line for a lock that is handed on. That is so in any run in which idle threads take free locks only. -/
theorem hands_on_iff (attainable : s.Attainable roster config) :
    let id := s.processor.current.id
    (∀ lock, s.locks.holder? lock = some id →
      ((∃ next s', Action.release lock s = .ok next s') ↔ s.locks.Grantable s.thread? lock)) ∧
    (s.processor.current.isIdle = false →
      ((∀ f s', finish s = .error f s' → f = .fatal .sumTooLarge) ↔
        ∀ lock, s.locks.holder? lock = some id → (s.locks.withdraw id s.threads).locks.Grantable s.thread? lock)) ∧
    (s.Obeying Alert roster config →
      (∀ lock, s.locks.holder? lock = some id → ∃ next s', Action.release lock s = .ok next s') ∧
        (s.processor.current.isIdle = false → ∀ f s', finish s = .error f s' → f = .fatal .sumTooLarge)) := by
  intro id
  refine ⟨fun lock held => release_iff attainable held, finish_iff attainable, fun obeying => ?_⟩
  have registered := (staffed_of_attainable attainable).1.1.registered
  have wakeful := wakeful_of_alert obeying
  have withdrawn := (lasting_wakeful roster).withdrawn id s.threads wakeful
  exact ⟨fun lock held => (release_iff attainable held).mpr (wakeful.grantable registered lock),
    fun busy => (finish_iff attainable busy).mpr fun lock _ => withdrawn.grantable registered lock⟩

def contested : Option Scheduler :=
  openedUnder Alert [.interrupts ⟨false, 1⟩, .call .createLock, .call (.acquire ⟨1⟩),
    .call (.wake ⟨⟨2⟩, "worker", .ordinary⟩), .call .yield, .call (.acquire ⟨1⟩)]

theorem hands_on_iff_contested :
    ∃ s, contested = some s ∧ s.processor.current = .main ∧ s.lockHolder ⟨1⟩ = .ok (some .main) ∧
      s.lockWaiters ⟨1⟩ = .ok [⟨2⟩] ∧ s.locks.Grantable s.thread? ⟨1⟩ ∧ (∃ next s', Action.release ⟨1⟩ s = .ok next s') ∧
      ∀ f s', finish s = .error f s' → f = .fatal .sumTooLarge := by
  let s := contested.get (by decide)
  have reached : contested = some s := (Option.some_get _).symm
  have runs : s.processor.current = .main := by decide
  have held : s.locks.holder? ⟨1⟩ = some s.processor.current.id := by decide
  have obeying := obeying_openedUnder reached
  obtain ⟨release, -, safe⟩ := hands_on_iff obeying.attainable
  obtain ⟨releases, ends⟩ := safe obeying
  have released := releases ⟨1⟩ held
  exact ⟨s, reached, runs, by decide, by decide, (release ⟨1⟩ held).mp released, released, ends (runs ▸ rfl)⟩

def besieged : Option Scheduler :=
  opened [.interrupts ⟨false, 1⟩, .call .createLock, .call (.acquire ⟨1⟩), .call .sleep, .call (.acquire ⟨1⟩),
    .call (.wake .main), .call .dispatch]

/-- A thread that holds a lock can neither release it nor finish while an idle thread is next in line. -/
theorem exists_not_handed_on :
    ∃ s released ended, s.Attainable .workers {} ∧ s.processor.current = .main ∧ s.locks.holder? ⟨1⟩ = some .main ∧
      Action.release ⟨1⟩ s = .error (.fatal .idleMadeReady) released ∧
      finish s = .error (.fatal .idleMadeReady) ended := by
  have reached : besieged = some (besieged.get (by decide)) := (Option.some_get _).symm
  have release : (besieged.get (by decide)).failure? (Action.release ⟨1⟩) = some (.fatal .idleMadeReady) := by decide +kernel
  have finish : (besieged.get (by decide)).failure? finish = some (.fatal .idleMadeReady) := by decide +kernel
  obtain ⟨released, release⟩ := exists_of_failure? release
  obtain ⟨ended, finish⟩ := exists_of_failure? finish
  exact ⟨_, released, ended, attainable_opened reached, by decide, by decide, release, finish⟩

end Scheduler

end PriorityScheduler
