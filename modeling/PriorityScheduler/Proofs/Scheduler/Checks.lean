import PriorityScheduler.Proofs.Scheduler.Assertions
import PriorityScheduler.Proofs.Scheduler.Ranges

namespace PriorityScheduler

open PriorityScheduler.Action PriorityScheduler.Scheduler

def Failure.outOfRange : Failure → Bool
  | .fatal (.admittedOutside ..) => true
  | .fatal (.emptyRange ..) => true
  | _ => false

theorem outOfRange_of_overflows {α : Type} {x : Except Fault α} (overflows : Overflows x) {f : Fault}
    (failed : x = .error f) : (Failure.fatal f).outOfRange = false := by
  rw [overflows f failed]
  rfl

namespace Action

variable {α β : Type} {m : Action α} {s : Scheduler}

def Ranges (m : Action α) (s : Scheduler) : Prop := Settles m s (fun _ _ => True) fun f _ => f.outOfRange = false

theorem Ranges.bind {f : α → Action β} {done : α → Scheduler → Prop} {refused : Scheduler → Prop} (first : Ranges m s)
    (ends : Ends m s done refused) (next : ∀ a s', done a s' → Ranges (f a) s') : Ranges (m >>= f) s := by
  rw [Ranges, settles_bind]
  exact (first.and ends).imp (fun a s' after => next a s' after.2) fun _ _ => id

theorem ranges_pure (a : α) (s : Scheduler) : Ranges (pure a) s := trivial

theorem Ranges.unit (ranges : Ranges m s) : Ranges (do let _ ← m) s :=
  ranges.bind (ends_true m s) fun _ _ _ => ranges_pure _ _

theorem ranges_masked (ranges : Ranges m s.masked) : Ranges (Action.masked m) s :=
  settles_masked.mpr ranges

theorem ranges_assertMasked (operation : Operation) (s : Scheduler) : Ranges (assertMasked operation) s := by
  rw [Ranges, assertMasked, settles_bind, settles_get]
  split
  · rfl
  · trivial

theorem ranges_asserted {operation : Operation} {next : Action α} (ranges : Ranges next s) :
    Ranges (assertMasked operation >>= fun _ => next) s := by
  have still : Ends (assertMasked operation) s (fun _ s' => s' = s) fun _ => True := by
    rw [assertMasked, ends_bind, ends_get]
    split
    · trivial
    · rfl
  refine (ranges_assertMasked operation s).bind still ?_
  rintro _ _ rfl
  exact ranges

theorem ranges_stateOf (thread : Thread) (s : Scheduler) : Ranges (stateOf thread) s := by
  rw [Ranges, stateOf, settles_bind, settles_get, settles_bind]
  refine settles_noted (fun _ _ => trivial) fun f failed => ?_
  cases failed

theorem ranges_priorityChanged (id : ThreadId) (changed : Bool) (s : Scheduler) : Ranges (priorityChanged id changed) s := by
  cases changed with
  | false => trivial
  | true => trivial

section Parts

variable {config : Config} (initial : config.inRange config.initial = true) (regular : s.Regular config)
include initial regular

omit initial regular in
theorem ranges_setPriority (thread : Thread) (p : Priority) (s : Scheduler) : Ranges (setPriority thread p) s := by
  refine ranges_asserted ((ranges_stateOf thread s).bind (ends_true _ _) fun state s' _ => ?_)
  rw [Ranges, settles_bind, settles_get, settles_bind]
  refine settles_liftFault (fun c _ => ?_) fun f failed => ?_
  · rw [settles_bind, settles_modify]
    exact ranges_priorityChanged thread.id c.changed _
  · unfold ThreadState.setPriority at failed
    split at failed
    · cases failed
    · cases failed
      rfl

theorem ranges_setNearestPriority (thread : Thread) (p : Priority) : Ranges (setNearestPriority thread p) s := by
  obtain ⟨q, clamped, -⟩ := Config.exists_clamp (regular.configured ▸ nonempty_of_initial initial) p
  rw [Ranges, setNearestPriority, settles_bind, settles_get, settles_bind, Scheduler.config, clamped]
  exact ranges_setPriority thread q s

theorem ranges_ageOut (thread : Thread) : Ranges (ageOut thread) s := by
  have nonempty := regular.configured ▸ nonempty_of_initial initial
  rw [Ranges, ageOut, now, settles_bind, settles_bind, settles_get, settles_pure, settles_bind, settles_get, settles_bind]
  refine settles_noted (fun n _ => ?_) fun f => ?_
  · rw [settles_bind, settles_modify]
    exact ranges_priorityChanged thread.id n.value.changed _
  · exact outOfRange_of_overflows (ThreadRegistry.overflows_ageRunning nonempty thread.id _)

theorem ranges_joinQueue (queue : QueueId) (thread : Thread) : Ranges (joinQueue queue thread) s := by
  refine ranges_asserted ?_
  rw [Ranges, now, settles_bind, settles_bind, settles_get, settles_pure, settles_bind, Action.queue, settles_bind,
    settles_get, Scheduler.queue?]
  cases found : s.queues.get? queue with
  | none => rfl
  | some q =>
      obtain ⟨n, queued⟩ := exists_enqueue regular initial q thread
      simp only [settles_pure]
      rw [settles_bind, settles_get, settles_bind]
      refine settles_noted (fun _ _ => trivial) fun f failed => ?_
      cases queued.symm.trans failed

theorem ranges_wake (thread : Thread) : Ranges (wake thread) s := by
  refine ranges_asserted ?_
  cases thread.isIdle with
  | true => rfl
  | false =>
      simp only [Bool.false_eq_true, if_false]
      rw [Ranges, settles_bind, settles_get]
      split
      · trivial
      · have readied : ({ s with processor := s.processor.setReady thread } : Scheduler).Regular config :=
          regular.congr (.refl _) rfl
        rw [settles_bind, onProcessor, settles_modify]
        exact ranges_joinQueue initial readied .ready thread

theorem ranges_takeNext (queue : QueueId) (time : Ticks) : Ranges (takeNext queue time) s := by
  have nonempty := regular.configured ▸ nonempty_of_initial initial
  rw [Ranges, takeNext, settles_bind, Action.queue, settles_bind, settles_get, Scheduler.queue?]
  cases found : s.queues.get? queue with
  | none => rfl
  | some q =>
      simp only [settles_pure]
      rw [settles_bind, settles_get, settles_bind]
      exact settles_noted (fun _ _ => trivial) fun f => outOfRange_of_overflows (q.overflows_next nonempty time)

omit initial regular in
theorem ranges_idleThread (s : Scheduler) : Ranges idleThread s := by
  rw [Ranges, idleThread, settles_bind, settles_get, settles_bind]
  exact settles_noted (fun _ _ => trivial) fun f => outOfRange_of_overflows s.idle.overflows_dispatch

omit initial regular in
theorem ranges_launch (next : Thread) (time : Ticks) (s : Scheduler) : Ranges (launch next time) s := by
  refine (settles_launch s next time).imp (fun _ _ => id) ?_
  rintro f _ rfl
  rfl

theorem ranges_dispatch : Ranges dispatch s := by
  refine ranges_asserted ?_
  rw [Ranges, now, settles_bind, settles_bind, settles_get, settles_pure]
  refine Ranges.bind ?_ (ends_true _ s) fun next s' _ =>
    (ranges_launch next _ s').bind (ends_true _ s') fun _ _ _ => trivial
  refine (ranges_takeNext initial regular .ready s.clock.now).bind (ends_true _ s) fun next s' _ => ?_
  cases next with
  | none => exact ranges_idleThread s'
  | some thread => trivial

theorem ranges_giveWay : Ranges giveWay s := by
  rw [Ranges, giveWay, current, settles_bind, settles_bind, settles_get, settles_pure]
  cases s.processor.current.isIdle with
  | true => trivial
  | false =>
      simp only [Bool.false_eq_true, if_false]
      have ages : Ends (ageOut s.processor.current) s (fun _ => Regular config) fun _ => True :=
        (kept_regular initial .ready).ageOut s.processor.current regular
      exact (ranges_ageOut initial regular s.processor.current).bind ages
        fun _ s' after => ranges_wake initial after s.processor.current

theorem ranges_suspend (thread : Thread) : Ranges (suspend thread) s := by
  have blocked : ({ s with processor := s.processor.block } : Scheduler).Regular config := regular.congr (.refl _) rfl
  rw [Ranges, suspend, settles_bind, onProcessor, settles_modify]
  exact ranges_ageOut initial blocked thread

theorem ranges_handOn (lock : LockId) (holder : Thread) (time : Ticks) : Ranges (handOn lock holder time) s := by
  refine settles_handOn (fun _ => Regular config) time (fun f failed => ?_) (fun next w p done => ?_)
    (fun _ _ _ _ => trivial) fun heir thread s' regular _ =>
      (ranges_wake initial regular thread).imp (fun _ _ => id) fun _ _ => id
  · rcases LockRegistry.release_error failed with rfl | ⟨holder, rfl⟩
    · rfl
    · rfl
  · exact regular.congr ((effect_release done).kin.weaken fun _ => rfl) rfl

theorem ranges_contend (lock : LockId) : Ranges (contend lock) s := by
  rw [Ranges, contend, current, settles_bind, settles_bind, settles_get, settles_pure, now, settles_bind, settles_bind,
    settles_get, settles_pure]
  refine (ranges_stateOf s.processor.current s).bind ((kept_regular initial .ready).stateOf trivial regular) ?_
  rintro state s' ⟨regular, -⟩
  rw [Ranges, settles_bind, settles_get, settles_bind]
  refine settles_lift ?_ fun f failed => ?_
  · rintro ⟨outcome, w⟩ done
    simp only
    rw [settles_adopt]
    have followed : ((s'.follow w w.changed).tell (w.notices.map .notice)).Regular config :=
      regular.congr ((effect_acquire done).kin.weaken fun _ => rfl) rfl
    cases outcome with
    | acquired => trivial
    | blocked holder =>
        simp only
        rw [settles_bind, emitLock, settles_bind, settles_get, emit, settles_modify, settles_bind, settles_get, settles_bind,
          notice, settles_modify]
        refine Ranges.bind (ranges_suspend initial ?_ s.processor.current) (ends_true _ _) fun _ _ _ => ?_
        · exact followed.congr (.refl _) rfl
        · trivial
  · rcases LockRegistry.acquire_error failed with rfl | rfl
    · rfl
    · rfl

omit initial regular in
theorem ranges_retire (thread : Thread) (time : Ticks) (s : Scheduler) : Ranges (retire thread time) s := by
  rw [Ranges, retire, settles_bind, settles_get]
  cases found : s.threads.get? thread.id with
  | none =>
      simp only
      split
      · rw [settles_bind]
        exact settles_liftFault (fun _ _ => trivial) fun f => outOfRange_of_overflows s.statistics.overflows_countUnarrived
      · trivial
  | some state =>
      simp only
      rw [settles_bind, settles_set, settles_bind]
      refine settles_liftFault ?_ fun f => outOfRange_of_overflows (state.overflows_finished time s.statistics)
      rintro ⟨record, statistics⟩ -
      simp only
      rw [settles_bind, settles_modify]
      cases record <;> trivial

theorem ranges_handOnAll (holder : Thread) (time : Ticks) (locks : List LockId) :
    Ranges (locks.forM fun lock => do
      notice (.finishedHolding holder lock)
      let _ ← handOn lock holder time) s := by
  induction locks generalizing s with
  | nil => trivial
  | cons lock rest ih =>
      have told : (s.tell [.notice (.finishedHolding holder lock)]).Regular config := regular.congr (.refl _) rfl
      simp only [List.forM_eq_forM, List.forM_cons]
      rw [Ranges, settles_bind, settles_bind, notice, settles_modify, settles_bind]
      have handed := ranges_handOn initial told lock holder time
      refine (handed.and ((kept_regular initial .ready).handOn lock holder time _ told)).imp (fun _ s' after => ?_)
        fun _ _ => id
      exact ih after.2

theorem ranges_depart : Ranges depart s := by
  rw [Ranges, depart, current, settles_bind, settles_bind, settles_get, settles_pure]
  cases s.processor.current.isIdle with
  | true => rfl
  | false =>
      have effect := effect_withdraw s.locks s.processor.current.id s.threads
      simp only [Bool.false_eq_true, if_false]
      let w := s.locks.withdraw s.processor.current.id s.threads
      have withdrawn : ((s.follow w w.changed).tell (w.notices.map .notice)).Regular config :=
        regular.congr (effect.kin.weaken fun _ => rfl) rfl
      rw [now, settles_bind, settles_bind, settles_get, settles_pure, settles_bind, settles_get, settles_adopt, settles_bind,
        settles_get]
      refine (ranges_handOnAll initial withdrawn s.processor.current s.clock.now _).bind (ends_true _ _) fun _ s' _ => ?_
      rw [Ranges, settles_bind, leaveQueue, settles_modify]
      exact (ranges_retire _ _ _).bind (ends_true _ _) fun _ _ _ => trivial

theorem ranges_serve (queue : QueueId) : Ranges (serve queue) s := by
  refine ranges_asserted ?_
  rw [Ranges, now, settles_bind, settles_bind, settles_get, settles_pure]
  exact ranges_takeNext initial regular queue s.clock.now

omit initial regular in
theorem ranges_claimQueue (queue : QueueId) (thread : Thread) (s : Scheduler) : Ranges (claimQueue queue thread) s := by
  refine ranges_asserted ?_
  rw [Ranges, Action.queue, settles_bind, settles_bind, settles_get, Scheduler.queue?]
  cases s.queues.get? queue with
  | none => rfl
  | some q =>
      simp only [settles_pure]
      rw [settles_bind]
      refine settles_liftFault (fun _ _ => trivial) fun f failed => ?_
      unfold WaitQueue.acquire at failed
      split at failed
      · cases failed
      · cases failed
        rfl

omit initial regular in
theorem ranges_requestPriority (thread : Thread) (p : Priority) (s : Scheduler) : Ranges (requestPriority thread p) s := by
  rw [Ranges, requestPriority, settles_bind, settles_get]
  dsimp only
  split
  · exact ranges_setPriority thread p s
  · rfl

omit initial regular in
theorem ranges_promote (thread : Thread) (s : Scheduler) : Ranges (promote thread) s := by
  refine ranges_masked ((ranges_stateOf thread _).bind (ends_true _ _) fun state s' _ => ?_)
  rw [Ranges, settles_bind, settles_get]
  split
  · trivial
  · exact (ranges_setPriority thread _ s').bind (ends_true _ _) fun _ _ _ => ranges_pure _ _

omit initial regular in
theorem ranges_demote (thread : Thread) (s : Scheduler) : Ranges (demote thread) s := by
  refine ranges_masked ((ranges_stateOf thread _).bind (ends_true _ _) fun state s' _ => ?_)
  rw [Ranges, settles_bind, settles_get]
  split
  · trivial
  · exact (ranges_setPriority thread _ s').bind (ends_true _ _) fun _ _ _ => ranges_pure _ _

theorem ranges_yield : Ranges yield s := by
  have masked : s.masked.Regular config := regular.congr (.refl _) rfl
  exact ranges_masked ((ranges_giveWay initial masked).bind ((kept_regular initial .ready).giveWay _ masked)
    fun _ _ after => ranges_dispatch initial after)

theorem ranges_sleep : Ranges sleep s := by
  refine ranges_asserted ?_
  rw [Ranges, current, settles_bind, settles_bind, settles_get, settles_pure]
  split
  · rfl
  · have suspends : Ends (suspend s.processor.current) s (fun _ => Regular config) fun _ => True :=
      (kept_regular initial .ready).suspend s.processor.current regular
    exact (ranges_suspend initial regular s.processor.current).bind suspends fun _ _ after => ranges_dispatch initial after

theorem ranges_acquire (lock : LockId) : Ranges (acquire lock) s := by
  have masked : s.masked.Regular config := regular.congr (.refl _) rfl
  refine ranges_masked ((ranges_contend initial masked lock).bind (ends_contend_regular initial masked lock)
    fun outcome s' after => ?_)
  cases outcome with
  | acquired => trivial
  | blocked holder => exact (ranges_dispatch initial after).bind (ends_true _ _) fun _ _ _ => ranges_pure _ _

theorem ranges_release (lock : LockId) : Ranges (release lock) s := by
  have masked : s.masked.Regular config := regular.congr (.refl _) rfl
  refine ranges_masked ?_
  rw [Ranges, current, settles_bind, settles_bind, settles_get, settles_pure, now, settles_bind, settles_bind, settles_get,
    settles_pure]
  exact ranges_handOn initial masked lock s.processor.current s.clock.now

theorem ranges_finish : Ranges finish s := by
  have masked : s.masked.Regular config := regular.congr (.refl _) rfl
  exact ranges_masked ((ranges_depart initial masked).bind (ends_depart_regular initial masked)
    fun _ _ after => ranges_dispatch initial after)

omit initial regular in
theorem ranges_shutdown (s : Scheduler) : Ranges shutdown s := by
  refine ranges_masked ?_
  rw [Ranges, settles_bind, settles_get, settles_bind]
  refine settles_liftFault (fun report _ => ?_) fun f => outOfRange_of_overflows s.statistics.overflows_report
  split
  · trivial
  · trivial

theorem ranges_call (call : Call) : Ranges call.action s := by
  have read {f : ThreadState → Priority} {operation : Operation} (thread : Thread) :
      Ranges (assertMasked operation >>= fun _ => stateOf thread >>= fun state => pure (f state)) s :=
    ranges_asserted ((ranges_stateOf thread s).bind (ends_true _ _) fun _ _ _ => ranges_pure _ _)
  cases call with
  | createQueue transfer => trivial
  | join queue thread => exact ranges_joinQueue initial regular queue thread
  | serve queue => exact (ranges_serve initial regular queue).unit
  | claim queue thread => exact ranges_claimQueue queue thread s
  | readPriority thread => exact (read thread).unit
  | readEffective thread => exact (read thread).unit
  | setPriority thread p => exact ranges_setPriority thread p s
  | requestPriority thread p => exact ranges_requestPriority thread p s
  | setNearestPriority thread p => exact ranges_setNearestPriority initial regular thread p
  | promote thread => exact (ranges_promote thread s).unit
  | demote thread => exact (ranges_demote thread s).unit
  | wake thread => exact ranges_wake initial regular thread
  | dispatch => exact (ranges_dispatch initial regular).unit
  | yield => exact (ranges_yield initial regular).unit
  | sleep => exact (ranges_sleep initial regular).unit
  | finish => exact (ranges_finish initial regular).unit
  | createLock => trivial
  | acquire lock => exact (ranges_acquire initial regular lock).unit
  | release lock => exact (ranges_release initial regular lock).unit
  | shutdown => exact (ranges_shutdown s).unit

end Parts

end Action

namespace Scheduler

/-- Base and effective priorities of all threads and what locks donate stay in range, and no thread runs at less than its
base priority. So no call finds a thread out of range that it admits to a queue, or an empty range to clamp into. -/
theorem inRange_of_attainable {roster : Roster} {config : Config} {s : Scheduler} (attainable : s.Attainable roster config) :
    (∀ id state, s.threads.get? id = some state →
      config.inRange state.base = true ∧ config.inRange state.effective = true ∧ state.effective ≤ state.base) ∧
    (∀ id, config.inRange (s.threads.effective id) = true) ∧
    (∀ lock p, s.locks.donated? lock = some p → config.inRange p = true) ∧
    ∀ call : Call, ∀ f ∈ s.failure? call.action, f.outOfRange = false := by
  have initial := attainable.initial
  have ranged := ranged_of_attainable attainable
  refine ⟨fun id state found => ?_, Within.effective ranged initial, ranged.donated, fun call f failed => ?_⟩
  · have within := ranged.states id state found
    exact ⟨within.base, within.effective, within.effective_le⟩
  · obtain ⟨s', run⟩ := exists_of_failure? failed
    exact (ranges_call initial (regular_of_attainable attainable) call).of_error run

def lifted : Option Scheduler :=
  opened [.interrupts ⟨false, 1⟩, .call .createLock, .call (.setPriority ⟨⟨2⟩, "worker", .ordinary⟩ 30),
    .call (.setPriority ⟨⟨3⟩, "worker", .ordinary⟩ 5), .call (.wake ⟨⟨2⟩, "worker", .ordinary⟩), .call .sleep,
    .call (.acquire ⟨1⟩), .call (.wake ⟨⟨3⟩, "worker", .ordinary⟩), .call .yield, .call (.acquire ⟨1⟩)]

theorem inRange_of_attainable_lifted :
    ∃ s state, lifted = some s ∧ s.threads.get? ⟨2⟩ = some state ∧ state.base = 30 ∧ state.effective = 5 ∧
      state.effective ≤ state.base ∧ s.locks.donated? ⟨1⟩ = some 5 ∧ ({} : Config).inRange 5 = true ∧
      ∀ f ∈ s.failure? (Action.setNearestPriority ⟨⟨2⟩, "worker", .ordinary⟩ 50), f.outOfRange = false := by
  have reached : lifted = some (lifted.get (by decide)) := (Option.some_get _).symm
  obtain ⟨threads, -, locks, calls⟩ := inRange_of_attainable (attainable_opened reached)
  let state := ((lifted.get (by decide)).threads.get? ⟨2⟩).get (by decide)
  have found : (lifted.get (by decide)).threads.get? ⟨2⟩ = some state := (Option.some_get _).symm
  have gives : (lifted.get (by decide)).locks.donated? ⟨1⟩ = some 5 := by decide
  exact ⟨_, state, reached, found, by decide, by decide, (threads ⟨2⟩ state found).2.2, gives, locks ⟨1⟩ 5 gives,
    calls (.setNearestPriority ⟨⟨2⟩, "worker", .ordinary⟩ 50)⟩

end Scheduler

end PriorityScheduler
