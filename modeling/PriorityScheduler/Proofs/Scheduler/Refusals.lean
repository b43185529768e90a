import PriorityScheduler.Proofs.Scheduler.Assertions

namespace PriorityScheduler

open PriorityScheduler.Action PriorityScheduler.Scheduler

def Scheduler.HasReady (s : Scheduler) : Prop := (s.queues.get? .ready).isSome

theorem Scheduler.HasReady.insert {s : Scheduler} (ready : s.HasReady) (id : QueueId) (q : WaitQueue) :
    ((s.queues.insert id q).get? .ready).isSome := by
  rw [SortedMap.get?_insert_eq]
  split
  · rfl
  · exact ready

theorem Scheduler.HasReady.follow {s : Scheduler} (ready : s.HasReady) (w : Walk) (ids : List ThreadId) :
    (s.follow w ids).HasReady := by
  show ((repositioned w.threads ids s.queues).get? .ready).isSome
  rw [get?_repositioned, Option.isSome_map]
  exact ready

theorem Failure.fatal_ne_refused (f : Fault) (e : Error) : Failure.fatal f ≠ .refused e := by
  intro same
  cases same

namespace Action

variable {α β : Type} {m : Action α} {s : Scheduler}

/-- Where there is a ready queue, nothing is refused, and there still is a ready queue. -/
def Accepts (m : Action α) : Prop :=
  ∀ s : Scheduler, s.HasReady → Settles m s (fun _ s' => s'.HasReady) fun f _ => ∀ e, f ≠ .refused e

/-! ## Actions that refuse nothing -/

theorem Accepts.bind {f : α → Action β} (first : Accepts m) (next : ∀ a, Accepts (f a)) : Accepts (m >>= f) := by
  intro s ready
  rw [settles_bind]
  exact (first s ready).imp (fun a s' ready => next a s' ready) fun _ _ => id

theorem Accepts.settles {failed : Failure → Scheduler → Prop} (accepts : Accepts m) (ready : s.HasReady)
    (other : ∀ f s', (∀ e, f ≠ .refused e) → failed f s') : Settles m s (fun _ s' => s'.HasReady) failed :=
  (accepts s ready).imp (fun _ _ => id) other

theorem accepts_pure (a : α) : Accepts (pure a) := fun _ => id

theorem accepts_get : Accepts get := fun _ => id

theorem accepts_fault (f : Fault) : Accepts (fault f : Action α) := fun _ _ => Failure.fatal_ne_refused f

theorem accepts_faulted (f : Fault) (next : α → Action β) : Accepts (fault f >>= next) :=
  fun _ _ => Failure.fatal_ne_refused f

theorem accepts_modify {f : Scheduler → Scheduler} (keeps : ∀ s, s.HasReady → (f s).HasReady) : Accepts (modify f) := keeps

theorem accepts_liftFault (result : Except Fault α) : Accepts (liftFault result) := by
  cases result with
  | ok a => exact accepts_pure a
  | error f => exact accepts_fault f

theorem accepts_noted (result : Except Fault (Noted α)) : Accepts (noted result) := by
  refine .bind (accepts_liftFault result) fun n => ?_
  refine .bind (accepts_modify fun _ => id) fun _ => ?_
  exact accepts_pure n.value

theorem accepts_assertMasked (operation : Operation) : Accepts (assertMasked operation) := by
  refine .bind accepts_get fun s => ?_
  split
  · exact accepts_fault _
  · exact accepts_pure _

theorem accepts_now : Accepts now := .bind accepts_get fun s => accepts_pure s.clock.now

theorem accepts_current : Accepts current := .bind accepts_get fun s => accepts_pure s.processor.current

theorem accepts_masked (accepts : Accepts m) : Accepts (masked m) :=
  fun s ready => settles_masked.mpr (accepts s.masked ready)

theorem accepts_stateOf (thread : Thread) : Accepts (stateOf thread) := by
  refine .bind accepts_get fun s => ?_
  refine .bind (accepts_noted _) fun r => ?_
  refine .bind (accepts_modify fun _ => id) fun _ => ?_
  exact accepts_pure r.1

theorem accepts_adopt {next : Action α} (w : Walk) (ids : List ThreadId) (accepts : Accepts next) :
    Accepts (adopt w >>= fun _ => reposition ids >>= fun _ => next) := by
  intro s ready
  rw [settles_adopt]
  exact accepts _ (HasReady.follow ready w ids)

theorem accepts_priorityChanged (id : ThreadId) (changed : Bool) : Accepts (priorityChanged id changed) := by
  cases changed with
  | false => exact accepts_pure _
  | true =>
      refine .bind accepts_get fun s => ?_
      exact accepts_adopt (s.locks.priorityChanged id s.threads) _ (accepts_pure PUnit.unit)

theorem accepts_setPriority (thread : Thread) (p : Priority) : Accepts (setPriority thread p) := by
  refine .bind (accepts_assertMasked _) fun _ => ?_
  refine .bind (accepts_stateOf thread) fun state => ?_
  refine .bind accepts_get fun s => ?_
  refine .bind (accepts_liftFault _) fun change => ?_
  refine .bind (accepts_modify fun _ => id) fun _ => ?_
  exact accepts_priorityChanged thread.id change.changed

theorem accepts_ageOut (thread : Thread) : Accepts (ageOut thread) := by
  refine .bind accepts_now fun time => ?_
  refine .bind accepts_get fun s => ?_
  refine .bind (accepts_noted _) fun update => ?_
  refine .bind (accepts_modify fun _ => id) fun _ => ?_
  exact accepts_priorityChanged thread.id update.changed

theorem accepts_queue : Accepts (queue .ready) := by
  intro s ready
  obtain ⟨q, found⟩ := Option.isSome_iff_exists.mp ready
  rw [queue, settles_bind, settles_get, Scheduler.queue?, found]
  exact ready

theorem accepts_joinQueue (thread : Thread) : Accepts (joinQueue .ready thread) := by
  refine .bind (accepts_assertMasked _) fun _ => ?_
  refine .bind accepts_now fun time => ?_
  refine .bind accepts_queue fun q => ?_
  refine .bind accepts_get fun s => ?_
  refine .bind (accepts_noted _) fun r => ?_
  refine .bind (accepts_modify fun s ready => ready.insert .ready r.1) fun _ => ?_
  exact accepts_modify fun _ => id

theorem accepts_wake (thread : Thread) : Accepts (wake thread) := by
  refine .bind (accepts_assertMasked _) fun _ => ?_
  split
  · exact accepts_faulted _ _
  · refine .bind accepts_get fun s => ?_
    split
    · exact accepts_modify fun _ => id
    · refine .bind (accepts_modify fun _ => id) fun _ => ?_
      exact accepts_joinQueue thread

theorem accepts_takeNext (time : Ticks) : Accepts (takeNext .ready time) := by
  refine .bind accepts_queue fun q => ?_
  refine .bind accepts_get fun s => ?_
  refine .bind (accepts_noted _) fun selected => ?_
  refine .bind (accepts_modify fun s ready => ready.insert .ready selected.queue) fun _ => ?_
  refine .bind accepts_get fun s => ?_
  exact accepts_pure _

theorem accepts_idleThread : Accepts idleThread := by
  refine .bind accepts_get fun s => ?_
  refine .bind (accepts_noted _) fun r => ?_
  refine .bind (accepts_modify fun _ => id) fun _ => ?_
  exact accepts_pure r.1

theorem accepts_account (thread : Thread) (time : Ticks) : Accepts (account thread time) := by
  refine .bind accepts_get fun s => ?_
  split
  · exact accepts_pure _
  · refine .bind (accepts_liftFault _) fun state => ?_
    refine .bind (accepts_modify fun _ => id) fun _ => ?_
    exact accepts_pure state.effective

theorem accepts_launch (next : Thread) (time : Ticks) : Accepts (launch next time) := by
  have switches : Accepts (onProcessor (·.switchTo next)) := accepts_modify fun _ => id
  rw [launch]
  split
  · exact switches
  · refine .bind (accepts_account next time) fun p => ?_
    exact .bind (accepts_modify fun _ => id) fun _ => switches

theorem accepts_dispatch : Accepts dispatch := by
  refine .bind (accepts_assertMasked _) fun _ => ?_
  refine .bind accepts_now fun time => ?_
  refine .bind (.bind (accepts_takeNext time) fun taken => ?_) fun next => ?_
  · cases taken with
    | none => exact accepts_idleThread
    | some thread => exact accepts_pure thread
  · exact .bind (accepts_launch next time) fun _ => accepts_pure next

theorem accepts_giveWay : Accepts giveWay := by
  refine .bind accepts_current fun thread => ?_
  split
  · exact accepts_pure _
  · exact .bind (accepts_ageOut thread) fun _ => accepts_wake thread

theorem accepts_suspend (thread : Thread) : Accepts (suspend thread) :=
  .bind (accepts_modify fun _ => id) fun _ => accepts_ageOut thread

theorem accepts_emitLock (action : LockTransition) (lock : LockId) (thread : ThreadId) (time : Ticks) :
    Accepts (emitLock action lock thread time) :=
  .bind accepts_get fun _ => accepts_modify fun _ => id

theorem accepts_sleep : Accepts sleep := by
  refine .bind (accepts_assertMasked _) fun _ => ?_
  refine .bind accepts_current fun thread => ?_
  split
  · exact accepts_faulted _ _
  · exact .bind (accepts_suspend thread) fun _ => accepts_dispatch

theorem accepts_setNearestPriority (thread : Thread) (p : Priority) : Accepts (setNearestPriority thread p) :=
  .bind accepts_get fun _ => .bind (accepts_liftFault _) fun nearest => accepts_setPriority thread nearest

theorem accepts_promote (thread : Thread) : Accepts (promote thread) := by
  refine accepts_masked (.bind (accepts_stateOf thread) fun state => .bind accepts_get fun s => ?_)
  split
  · exact accepts_pure _
  · exact .bind (accepts_setPriority thread _) fun _ => accepts_pure _

theorem accepts_demote (thread : Thread) : Accepts (demote thread) := by
  refine accepts_masked (.bind (accepts_stateOf thread) fun state => .bind accepts_get fun s => ?_)
  split
  · exact accepts_pure _
  · exact .bind (accepts_setPriority thread _) fun _ => accepts_pure _

theorem accepts_shutdown : Accepts shutdown := by
  refine accepts_masked (.bind accepts_get fun s => .bind (accepts_liftFault _) fun report => ?_)
  split
  · exact accepts_pure _
  · refine .bind (accepts_modify fun _ => id) fun _ => ?_
    refine .bind (accepts_modify fun _ => id) fun _ => ?_
    exact .bind (accepts_modify fun _ => id) fun _ => accepts_pure _

/-! ## Actions that check first -/

def Refuses (m : Action α) (s : Scheduler) (no : Error → Scheduler → Prop) : Prop :=
  Settles m s (fun _ _ => True) fun f s' => ∀ e, f = .refused e → no e s'

section Refuses

variable {no : Error → Scheduler → Prop}

theorem Accepts.refuses (accepts : Accepts m) (ready : s.HasReady) : Refuses m s no :=
  (accepts s ready).imp (fun _ _ _ => trivial) fun _ _ never e same => absurd same (never e)

theorem Refuses.unit (refuses : Refuses m s no) : Refuses (do let _ ← m) s no := by
  rw [Refuses, settles_bind]
  exact refuses

theorem refuses_asserted {operation : Operation} (refuses : Refuses m s no) :
    Refuses (assertMasked operation >>= fun _ => m) s no := by
  rw [Refuses, assertMasked, settles_bind, settles_bind, settles_get]
  split
  · exact fun e same => absurd same (Failure.fatal_ne_refused _ e)
  · exact refuses

def Unknown (s : Scheduler) (id : QueueId) (e : Error) (s' : Scheduler) : Prop :=
  s' = s ∧ s.queues.get? id = none ∧ e = .queueNotFound id

theorem refuses_queue {f : WaitQueue → Action β} {id : QueueId}
    (rest : ∀ q, s.queues.get? id = some q → Refuses (f q) s (Unknown s id)) :
    Refuses (queue id >>= f) s (Unknown s id) := by
  rw [Refuses, queue, settles_bind, settles_bind, settles_get, Scheduler.queue?]
  cases found : s.queues.get? id with
  | none =>
      rintro e ⟨⟩
      exact ⟨rfl, found, rfl⟩
  | some q => exact rest q found

theorem refuses_joinQueue (id : QueueId) (thread : Thread) (s : Scheduler) :
    Refuses (joinQueue id thread) s (Unknown s id) := by
  refine refuses_asserted ?_
  rw [Refuses, now, settles_bind, settles_bind, settles_get, settles_pure]
  refine refuses_queue fun q _ => ?_
  rw [Refuses, settles_bind, settles_get, settles_bind]
  exact settles_noted (fun _ _ => trivial) fun f _ e same => absurd same (Failure.fatal_ne_refused f e)

theorem refuses_serve (id : QueueId) (s : Scheduler) : Refuses (serve id) s (Unknown s id) := by
  refine refuses_asserted ?_
  rw [Refuses, now, settles_bind, settles_bind, settles_get, settles_pure, takeNext]
  refine refuses_queue fun q _ => ?_
  rw [Refuses, settles_bind, settles_get, settles_bind]
  exact settles_noted (fun _ _ => trivial) fun f _ e same => absurd same (Failure.fatal_ne_refused f e)

theorem refuses_claimQueue (id : QueueId) (thread : Thread) (s : Scheduler) :
    Refuses (claimQueue id thread) s (Unknown s id) := by
  refine refuses_asserted (refuses_queue fun q _ => ?_)
  rw [Refuses, settles_bind]
  exact settles_liftFault (fun _ _ => trivial) fun f _ e same => absurd same (Failure.fatal_ne_refused f e)

theorem refuses_requestPriority (thread : Thread) (p : Priority) (ready : s.HasReady) :
    Refuses (requestPriority thread p) s fun e s' =>
      s' = s.tell [.notice (.refused e)] ∧ s.config.inRange p = false ∧
        e = .invalidPriority p s.config.mostUrgent s.config.leastUrgent := by
  rw [Refuses, requestPriority, settles_bind, settles_get]
  dsimp only
  split
  · exact (accepts_setPriority thread p).refuses ready
  · rename_i outside
    rintro e ⟨⟩
    exact ⟨rfl, Bool.eq_false_iff.mpr outside, rfl⟩

theorem release_refused {t : LockRegistry} {lock : LockId} {thread : ThreadId} {a : ThreadRegistry} {e : Error}
    (failed : t.release lock thread a = .error (.refused e)) : t.get? lock = none ∧ e = .lockNotFound lock := by
  cases found : t.get? lock with
  | none =>
      simp only [LockRegistry.release, found, Except.error.injEq, Failure.refused.injEq] at failed
      exact ⟨rfl, failed.symm⟩
  | some l =>
      by_cases holder : l.holder = some thread
      · rw [LockRegistry.release_held found holder] at failed
        cases failed
      · simp [LockRegistry.release, found, holder] at failed

theorem acquire_refused {t : LockRegistry} {lock : LockId} {thread : ThreadId} {a : ThreadRegistry} {e : Error}
    (failed : t.acquire lock thread a = .error (.refused e)) : t.get? lock = none ∧ e = .lockNotFound lock := by
  refine ⟨?_, ?_⟩
  · by_contra known
    obtain ⟨l, found⟩ := Option.ne_none_iff_exists'.mp known
    cases holder : l.holder with
    | none =>
        rw [LockRegistry.acquire_vacant found holder] at failed
        cases failed
    | some h =>
        by_cases same : h = thread
        · simp [LockRegistry.acquire, found, holder, same] at failed
        · rw [LockRegistry.acquire_held found holder same] at failed
          cases failed
  · rcases LockRegistry.acquire_error failed with refused | fatal
    · cases refused
      rfl
    · cases fatal

theorem refuses_handOn (lock : LockId) (thread : Thread) (time : Ticks) (ready : s.HasReady) :
    Refuses (handOn lock thread time) s fun e s' => s' = s ∧ s.locks.get? lock = none ∧ e = .lockNotFound lock := by
  refine settles_handOn (fun _ s' => s'.HasReady) time (fun f failed => ?_) (fun _ w _ _ => ?_) (fun _ _ _ _ => trivial)
    fun heir thread s' ready _ => (accepts_wake thread).refuses ready
  · rintro e rfl
    exact ⟨rfl, release_refused failed⟩
  · exact HasReady.follow ready w w.changed

theorem settles_contend (lock : LockId) (ready : s.HasReady) :
    Settles (contend lock) s (fun _ s' => s'.HasReady) fun f s' => ∀ e, f = .refused e →
      s' = ({ s with threads := (s.threads.ensure s.processor.current).value.2 } : Scheduler).tell
        ((s.threads.ensure s.processor.current).notices.map .notice) ∧
      s.locks.get? lock = none ∧ e = .lockNotFound lock := by
  rw [contend, current, settles_bind, settles_bind, settles_get, settles_pure, now, settles_bind, settles_bind,
    settles_get, settles_pure, settles_bind, stateOf, settles_bind, settles_get, settles_bind]
  refine settles_noted (fun r ensured => ?_) fun f _ e same => absurd same (Failure.fatal_ne_refused f e)
  cases ensured
  rw [settles_bind, settles_modify, settles_pure, settles_bind, settles_get, settles_bind]
  refine settles_lift ?_ fun f failed => ?_
  · rintro ⟨outcome, w⟩ -
    simp only
    rw [settles_adopt]
    refine Accepts.settles ?_ (HasReady.follow ready w w.changed) fun _ _ never e same => absurd same (never e)
    cases outcome with
    | acquired => exact .bind (accepts_emitLock _ _ _ _) fun _ => accepts_pure _
    | blocked holder =>
        refine .bind (accepts_emitLock _ _ _ _) fun _ => ?_
        refine .bind accepts_get fun _ => ?_
        refine .bind (accepts_modify fun _ => id) fun _ => ?_
        exact .bind (accepts_suspend _) fun _ => accepts_pure _
  · rintro e rfl
    exact ⟨rfl, acquire_refused failed⟩

end Refuses

end Action

namespace Scheduler

variable {roster : Roster} {config : Config} {s s' : Scheduler}

def Refusal (s : Scheduler) : Call → Error → Prop
  | .join queue _, e | .serve queue, e | .claim queue _, e => s.queues.get? queue = none ∧ e = .queueNotFound queue
  | .requestPriority _ p, e =>
      s.config.inRange p = false ∧ e = .invalidPriority p s.config.mostUrgent s.config.leastUrgent
  | .acquire lock, e | .release lock, e => s.locks.get? lock = none ∧ e = .lockNotFound lock
  | _, _ => False

/-- All is as before but for lines in the kernel log and the count of how often interrupts were masked. -/
structure Unmoved (s s' : Scheduler) : Prop where
  same : { s' with interrupts := s.interrupts, output := s.output } = s
  enabled : s'.interrupts.enabled = s.interrupts.enabled
  told : ∃ notices : List Notice, s'.output = s.output ++ notices.map .notice

theorem Unmoved.threads (unmoved : s.Unmoved s') : s'.threads = s.threads := by
  have same : ({ s' with interrupts := s.interrupts, output := s.output } : Scheduler).threads = s.threads := by
    rw [unmoved.same]
  exact same

theorem unmoved_tell (s : Scheduler) (notices : List Notice) : s.Unmoved (s.tell (notices.map .notice)) :=
  ⟨rfl, rfl, notices, rfl⟩

theorem unmoved_released (s : Scheduler) (notices : List Notice) (threads : ThreadRegistry) :
    let s₁ := ({ s.masked with threads } : Scheduler).tell (notices.map .notice)
    ({ s with threads } : Scheduler).Unmoved { s₁ with interrupts := s₁.interrupts.release s.interrupts.guard.1 } :=
  ⟨rfl, rfl, notices, rfl⟩

/-- What a refused call leaves: at most, a thread that asked for a lock got a state. -/
def checked (s : Scheduler) (call : Call) : Scheduler :=
  if call.takesLock then { s with threads := (s.threads.ensure s.processor.current).value.2 } else s

theorem refuses_finish (attainable : s.Attainable roster config) {no : Error → Scheduler → Prop} : Refuses finish s no := by
  rw [Refuses, finish, settles_masked, settles_bind]
  have primed := primed_of_attainable attainable
  cases idle : s.processor.current.isIdle with
  | true =>
      rw [depart, current, settles_bind, settles_bind, settles_get, settles_pure, idle, if_pos rfl, settles_bind]
      exact fun e same => absurd same (Failure.fatal_ne_refused _ e)
  | false =>
      refine (settles_depart attainable.initial primed idle).imp (fun _ s₁ after => ?_) fun f _ failed e same => ?_
      · refine (settles_dispatch after.1 (nonempty_of_initial attainable.initial)).imp (fun _ _ _ => trivial) ?_
        rintro f _ rfl e ⟨⟩
      · rcases failed with ⟨rfl, -⟩ | ⟨rfl, -⟩ <;> cases same

theorem refuses_acquire (lock : LockId) (ready : s.HasReady) :
    Refuses (acquire lock) s fun e s' =>
      (s.locks.get? lock = none ∧ e = .lockNotFound lock) ∧ (s.checked (.acquire lock)).Unmoved s' := by
  rw [Refuses, acquire, settles_masked, settles_bind]
  refine (settles_contend (s := s.masked) lock ready).imp (fun outcome s₁ ready => ?_) ?_
  · refine (Accepts.refuses ?_ ready : Refuses _ s₁ fun _ _ => False).imp (fun _ _ => id) fun _ _ never e same =>
      (never e same).elim
    cases outcome with
    | acquired => exact accepts_pure _
    | blocked holder => exact .bind accepts_dispatch fun _ => accepts_pure _
  · rintro f s' listed e same
    obtain ⟨rfl, reason⟩ := listed e same
    exact ⟨reason, s.unmoved_released (s.threads.ensure s.processor.current).notices _⟩

theorem refuses_release (lock : LockId) (ready : s.HasReady) :
    Refuses (release lock) s fun e s' => (s.locks.get? lock = none ∧ e = .lockNotFound lock) ∧ s.Unmoved s' := by
  rw [Refuses, release, settles_masked, current, settles_bind, settles_bind, settles_get, settles_pure, now, settles_bind,
    settles_bind, settles_get, settles_pure]
  refine (refuses_handOn (s := s.masked) lock _ _ ready).imp (fun _ _ => id) fun f s' listed e same => ?_
  obtain ⟨rfl, reason⟩ := listed e same
  exact ⟨reason, rfl, rfl, [], (List.append_nil _).symm⟩

theorem refuses_call (attainable : s.Attainable roster config) (call : Call) :
    Refuses call.action s fun e s' => s.Refusal call e ∧ (s.checked call).Unmoved s' := by
  have ready : s.HasReady := (staffed_of_attainable attainable).1.1.ready
  have unknown {queue : QueueId} {m : Action Unit} (refuses : Refuses m s (Unknown s queue)) :
      Refuses m s fun e s' => (s.queues.get? queue = none ∧ e = .queueNotFound queue) ∧ s.Unmoved s' := by
    refine refuses.imp (fun _ _ => id) fun _ s' listed e same => ?_
    obtain ⟨rfl, reason⟩ := listed e same
    exact ⟨reason, rfl, rfl, [], (List.append_nil _).symm⟩
  cases call with
  | createQueue transfer => trivial
  | join queue thread => exact unknown (refuses_joinQueue queue thread s)
  | serve queue => exact unknown (refuses_serve queue s).unit
  | claim queue thread => exact unknown (refuses_claimQueue queue thread s)
  | readPriority thread =>
      exact (Accepts.refuses (.bind (accepts_assertMasked _) fun _ => .bind (accepts_stateOf thread) fun _ => accepts_pure _)
        ready).unit
  | readEffective thread =>
      exact (Accepts.refuses (.bind (accepts_assertMasked _) fun _ => .bind (accepts_stateOf thread) fun _ => accepts_pure _)
        ready).unit
  | setPriority thread p => exact (accepts_setPriority thread p).refuses ready
  | requestPriority thread p =>
      refine (refuses_requestPriority thread p ready).imp (fun _ _ => id) fun _ s' listed e same => ?_
      obtain ⟨rfl, reason⟩ := listed e same
      exact ⟨reason, s.unmoved_tell [_]⟩
  | setNearestPriority thread p => exact (accepts_setNearestPriority thread p).refuses ready
  | promote thread => exact ((accepts_promote thread).refuses ready).unit
  | demote thread => exact ((accepts_demote thread).refuses ready).unit
  | wake thread => exact (accepts_wake thread).refuses ready
  | dispatch => exact (accepts_dispatch.refuses ready).unit
  | yield =>
      exact ((accepts_masked (.bind accepts_giveWay fun _ => accepts_dispatch)).refuses ready).unit
  | sleep => exact (accepts_sleep.refuses ready).unit
  | finish => exact (refuses_finish attainable).unit
  | createLock => trivial
  | acquire lock => exact (refuses_acquire lock ready).unit
  | release lock => exact (refuses_release lock ready).unit
  | shutdown => exact (accepts_shutdown.refuses ready).unit

theorem unmoved_checked_iff (call : Call) (unmoved : (s.checked call).Unmoved s') :
    s.Unmoved s' ↔ (call.takesLock = true → (s.threads.get? s.processor.current.id).isSome) := by
  constructor
  · intro same takesLock
    rw [checked, if_pos takesLock] at unmoved
    rw [← same.threads, unmoved.threads, (s.threads.get?_ensure s.processor.current).1]
    rfl
  · intro known
    suffices same : s.checked call = s by rwa [same] at unmoved
    rw [checked]
    split
    · rename_i takesLock
      obtain ⟨state, found⟩ := Option.isSome_iff_exists.mp (known takesLock)
      rw [ThreadRegistry.ensure, found]
    · rfl

/-- A refused call moves nothing, except that a thread without a state that asks for an unknown lock gets one. -/
theorem unmoved_iff_of_refused (attainable : s.Attainable roster config) {call : Call} {e : Error}
    (refused : call.action s = .error (.refused e) s') :
    s.Refusal call e ∧ (s.checked call).Unmoved s' ∧
      (s.Unmoved s' ↔ (call.takesLock = true → (s.threads.get? s.processor.current.id).isSome)) := by
  obtain ⟨reason, unmoved⟩ := Settles.of_error (refuses_call attainable call) refused e rfl
  exact ⟨reason, unmoved, unmoved_checked_iff call unmoved⟩

def fresh : Option Scheduler := opened []

theorem unmoved_iff_of_refused_contested :
    ∃ s s', s.Attainable .workers {} ∧ s.processor.current = .main ∧ s.lockWaiters ⟨1⟩ = .ok [⟨2⟩] ∧
      (Call.acquire ⟨7⟩).action s = .error (.refused (.lockNotFound ⟨7⟩)) s' ∧ s.Unmoved s' := by
  let s := contested.get (by decide)
  have attainable : s.Attainable .workers {} := (obeying_openedUnder (Option.some_get _).symm).attainable
  have refused : s.failure? (Call.acquire ⟨7⟩).action = some (.refused (.lockNotFound ⟨7⟩)) := by decide +kernel
  obtain ⟨s', refused⟩ := exists_of_failure? refused
  obtain ⟨-, -, unmoved⟩ := unmoved_iff_of_refused attainable refused
  exact ⟨s, s', attainable, by decide, by decide, refused, unmoved.mpr fun _ => by decide⟩

/-- A thread that asks for an unknown lock is refused, and has a state that it did not have before. -/
theorem exists_moved :
    ∃ s s', s.Attainable .workers {} ∧ s.processor.current = .main ∧
      (Call.acquire ⟨7⟩).action s = .error (.refused (.lockNotFound ⟨7⟩)) s' ∧ s.threads.get? .main = none ∧
      s'.threads.get? .main = some (.new .main 1) ∧ ¬s.Unmoved s' := by
  let s := fresh.get (by decide)
  have attainable : s.Attainable .workers {} := attainable_opened (Option.some_get _).symm
  have refused : s.failure? (Call.acquire ⟨7⟩).action = some (.refused (.lockNotFound ⟨7⟩)) := by decide +kernel
  obtain ⟨s', refused⟩ := exists_of_failure? refused
  have unknown : s.threads.get? .main = none := by decide
  obtain ⟨-, unmoved⟩ := Settles.of_error (refuses_call attainable (.acquire ⟨7⟩)) refused _ rfl
  refine ⟨s, s', attainable, by decide, refused, unknown, ?_, fun same => ?_⟩
  · rw [unmoved.threads]
    decide
  · have known := (unmoved_checked_iff _ unmoved).mp same rfl
    rw [show s.processor.current.id = .main by decide, unknown] at known
    cases known

end Scheduler

end PriorityScheduler
