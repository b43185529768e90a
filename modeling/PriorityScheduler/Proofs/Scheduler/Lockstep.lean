import PriorityScheduler.Proofs.Scheduler.Calls
import PriorityScheduler.Proofs.Timeless

namespace PriorityScheduler

open PriorityScheduler.Action PriorityScheduler.Scheduler

def Event.timeless : Event → Event
  | .scheduled _ thread p => .scheduled 0 thread p
  | .enqueued _ thread p => .enqueued 0 thread p
  | .finished thread _ => .finished thread ⟨0, 0, 0, 0⟩
  | .lock action id _ thread p => .lock action id 0 thread p
  | .system report => .system { finished := report.finished }

def Notice.timeless : Notice → Notice
  | .finished thread _ => .finished thread 0
  | notice => notice

def Output.timeless : Output → Output
  | .event e => .event e.timeless
  | .notice n => .notice n.timeless

structure Scheduler.InStep (s v : Scheduler) : Prop where
  threads : s.threads.InStep v.threads
  processor : v.processor = s.processor
  queues : v.queues = s.queues
  nextQueue : v.nextQueue = s.nextQueue
  locks : v.locks = s.locks
  idle : v.idle = s.idle
  interrupts : v.interrupts = s.interrupts
  shutDown : v.shutDown = s.shutDown
  finished : v.statistics.finished = s.statistics.finished
  output : v.output.map Output.timeless = s.output.map Output.timeless

namespace Scheduler.InStep

variable {s v : Scheduler}

theorem told (inStep : s.InStep v) {out out' : List Output} (same : out'.map Output.timeless = out.map Output.timeless) :
    (s.tell out).InStep (v.tell out') :=
  { inStep with output := by rw [tell, tell, List.map_append, List.map_append, inStep.output, same] }

theorem config (inStep : s.InStep v) : ∃ interval, v.config = { s.config with agingInterval := interval } :=
  inStep.threads.exists_interval

theorem thread? (inStep : s.InStep v) (id : ThreadId) : v.thread? id = s.thread? id := by
  unfold Scheduler.thread?
  cases found : s.threads.get? id with
  | none => rw [inStep.threads.missing found]
  | some state =>
      obtain ⟨state', found', same⟩ := inStep.threads.exists_timeless found
      rw [found']
      simpa only [ThreadState.timeless] using congrArg (fun state : ThreadState => some state.thread) same

theorem effective (inStep : s.InStep v) : v.threads.effective = s.threads.effective := inStep.threads.effective

end Scheduler.InStep

/-- What came of two actions: related results and schedulers in step, or the same failure. Where a sum did not fit, nothing
is compared. -/
inductive OutcomeInStep {α β : Type} (related : α → β → Prop) :
    EStateM.Result Failure Scheduler α → EStateM.Result Failure Scheduler β → Prop where
  | ok {a : α} {b : β} {s v : Scheduler} (same : related a b) (inStep : s.InStep v) :
      OutcomeInStep related (.ok a s) (.ok b v)
  | error (f : Failure) {s v : Scheduler} (inStep : s.InStep v) : OutcomeInStep related (.error f s) (.error f v)
  | left (s : Scheduler) (y : EStateM.Result Failure Scheduler β) :
      OutcomeInStep related (.error (.fatal .sumTooLarge) s) y
  | right (x : EStateM.Result Failure Scheduler α) (v : Scheduler) :
      OutcomeInStep related x (.error (.fatal .sumTooLarge) v)

def Lockstep {α β : Type} (related : α → β → Prop) (m : Action α) (m' : Action β) : Prop :=
  ∀ s v : Scheduler, s.InStep v → OutcomeInStep related (m s) (m' v)

namespace Lockstep

variable {α β α' β' : Type} {related : α → β → Prop} {related' : α' → β' → Prop}

theorem pure {a : α} {b : β} (same : related a b) : Lockstep related (Pure.pure a) (Pure.pure b) :=
  fun _ _ inStep => .ok same inStep

theorem get : Lockstep InStep MonadState.get MonadState.get := fun _ _ inStep => .ok inStep inStep

theorem modify {f g : Scheduler → Scheduler} (keeps : ∀ s v, s.InStep v → (f s).InStep (g v)) :
    Lockstep Eq (modify f : Action PUnit) (modify g) :=
  fun s v inStep => .ok rfl (keeps s v inStep)

theorem set {s v : Scheduler} (inStep : s.InStep v) : Lockstep Eq (MonadStateOf.set s : Action PUnit) (MonadStateOf.set v) :=
  fun _ _ _ => .ok rfl inStep

theorem failed (f : Failure) : Lockstep related (throw f : Action α) (throw f) := fun _ _ inStep => .error f inStep

theorem faulted {γ γ' : Type} (f : Fault) (next : γ → Action α) (next' : γ' → Action β) :
    Lockstep related (fault f >>= next) (fault f >>= next') :=
  fun _ _ inStep => .error (.fatal f) inStep

theorem bind {m : Action α} {m' : Action β} {f : α → Action α'} {f' : β → Action β'} (first : Lockstep related m m')
    (next : ∀ a b, related a b → Lockstep related' (f a) (f' b)) : Lockstep related' (m >>= f) (m' >>= f') := by
  intro s v inStep
  show OutcomeInStep related' (EStateM.bind m f s) (EStateM.bind m' f' v)
  have both := first s v inStep
  unfold EStateM.bind
  generalize m s = x, m' v = y at both
  cases both with
  | ok same inStep => exact next _ _ same _ _ inStep
  | error f inStep => exact .error f inStep
  | left s y => exact .left s _
  | right x v => exact .right _ v

theorem bindSame {m m' : Action α} {f : α → Action α'} {f' : α → Action β'} (first : Lockstep Eq m m')
    (next : ∀ a, Lockstep related' (f a) (f' a)) : Lockstep related' (m >>= f) (m' >>= f') := by
  refine first.bind fun a b same => ?_
  cases same
  exact next a

theorem forM {γ : Type} (items : List γ) {f f' : γ → Action PUnit} (each : ∀ item, Lockstep Eq (f item) (f' item)) :
    Lockstep Eq (items.forM f) (items.forM f') := by
  induction items with
  | nil => exact pure rfl
  | cons item rest ih =>
      show Lockstep Eq (f item >>= fun _ => rest.forM f) (f' item >>= fun _ => rest.forM f')
      exact bindSame (each item) fun _ => ih

theorem lift {x : Except Failure α} {y : Except Failure β} (abreast : Abreast (· = .fatal .sumTooLarge) related x y) :
    Lockstep related (Action.lift x) (Action.lift y) := by
  intro s v inStep
  cases abreast with
  | ok same => exact .ok same inStep
  | error f => exact .error f inStep
  | left excuse =>
      cases excuse
      exact .left _ _
  | right excuse =>
      cases excuse
      exact .right _ _

theorem liftFault {x : Except Fault α} {y : Except Fault β} (abreast : Abreast (· = .sumTooLarge) related x y) :
    Lockstep related (Action.liftFault x) (Action.liftFault y) := by
  intro s v inStep
  cases abreast with
  | ok same => exact .ok same inStep
  | error f => exact .error (.fatal f) inStep
  | left excuse =>
      cases excuse
      exact .left _ _
  | right excuse =>
      cases excuse
      exact .right _ _

theorem emit {e e' : Event} (same : e'.timeless = e.timeless) : Lockstep Eq (Action.emit e) (Action.emit e') :=
  .modify fun _ _ inStep => inStep.told (congrArg (fun e => [Output.event e]) same)

theorem notice {n n' : Notice} (same : n'.timeless = n.timeless) : Lockstep Eq (Action.notice n) (Action.notice n') :=
  .modify fun _ _ inStep => inStep.told (congrArg (fun n => [Output.notice n]) same)

theorem noted {x : Except Fault (Noted α)} {y : Except Fault (Noted β)}
    (abreast : Abreast (· = .sumTooLarge) (fun n m => related n.value m.value ∧ m.notices = n.notices) x y) :
    Lockstep related (Action.noted x) (Action.noted y) := by
  refine (liftFault abreast).bind fun n m same => ?_
  have told : Lockstep Eq (notices n.notices) (notices m.notices) :=
    .modify fun _ _ inStep => inStep.told (by rw [same.2])
  exact told.bindSame fun _ => .pure same.1

theorem masked {m : Action α} {m' : Action β} (lockstep : Lockstep related m m') :
    Lockstep related (Action.masked m) (Action.masked m') := by
  intro s v inStep
  have both := lockstep s.masked v.masked { inStep with interrupts := congrArg (·.guard.2) inStep.interrupts }
  have released {s' v' : Scheduler} (inStep' : s'.InStep v') :
      ({ s' with interrupts := s'.interrupts.release s.interrupts.guard.1 } : Scheduler).InStep
        { v' with interrupts := v'.interrupts.release v.interrupts.guard.1 } :=
    { inStep' with interrupts := by rw [inStep.interrupts, inStep'.interrupts] }
  unfold Action.masked
  unfold Scheduler.masked at both
  dsimp only [Interrupts.guard] at both ⊢
  generalize m _ = x, m' _ = y at both ⊢
  cases both with
  | ok same inStep' => exact .ok same (released inStep')
  | error f inStep' => exact .error f (released inStep')
  | left s y => exact .left _ _
  | right x v => exact .right _ _

theorem assertMasked (operation : Operation) : Lockstep Eq (assertMasked operation) (assertMasked operation) := by
  refine bind get fun s v inStep => ?_
  rw [inStep.interrupts]
  split
  · exact failed _
  · exact pure rfl

theorem now : Lockstep (fun _ _ => True) now now := bind get fun _ _ _ => pure trivial

theorem current : Lockstep Eq current current := by
  refine bind get fun s v inStep => ?_
  rw [inStep.processor]
  exact pure rfl

theorem onProcessor (f : Processor → Processor) : Lockstep Eq (onProcessor f) (onProcessor f) :=
  modify fun _ _ inStep => { inStep with processor := congrArg f inStep.processor }

/-! ## Priorities -/

theorem stateOf (thread : Thread) :
    Lockstep (fun state state' => state'.timeless = state.timeless) (stateOf thread) (stateOf thread) := by
  refine bind get fun s v inStep => ?_
  obtain ⟨state, threads, notices⟩ := inStep.threads.ensure thread
  have ensured : Lockstep (fun r r' => r'.1.timeless = r.1.timeless ∧ r.2.InStep r'.2)
      (Action.noted (.ok (s.threads.ensure thread))) (Action.noted (.ok (v.threads.ensure thread))) :=
    noted (.ok ⟨⟨state, threads⟩, notices⟩)
  refine ensured.bind fun r r' same => ?_
  refine bindSame (modify fun _ _ inStep => { inStep with threads := same.2 }) fun _ => ?_
  exact pure same.1

theorem priorityOf (thread : Thread) : Lockstep Eq (priorityOf thread) (priorityOf thread) := by
  refine (assertMasked _).bindSame fun _ => ?_
  refine (stateOf thread).bind fun state state' same => ?_
  exact pure (ThreadState.base_of_timeless same).symm

theorem effectivePriorityOf (thread : Thread) : Lockstep Eq (effectivePriorityOf thread) (effectivePriorityOf thread) := by
  refine bindSame (assertMasked _) fun _ => ?_
  refine bind (stateOf thread) fun state state' same => ?_
  exact pure (ThreadState.congr_timeless ThreadState.effective (fun _ => rfl) same).symm

theorem reposition (ids : List ThreadId) : Lockstep Eq (reposition ids) (reposition ids) := by
  refine modify fun s v inStep => ?_
  induction ids generalizing s v with
  | nil => exact inStep
  | cons id rest ih =>
      refine ih _ _ ?_
      have queued := inStep.threads.bind ThreadState.queuedOn (fun _ => rfl) id
      unfold repositionOne
      rw [queued]
      cases (s.threads.get? id).bind ThreadState.queuedOn with
      | none => exact inStep
      | some queue =>
          have moved : (·.reposition id v.threads : WaitQueue → WaitQueue) = (·.reposition id s.threads) :=
            funext fun q => inStep.threads.reposition q id
          exact { inStep with queues := by rw [inStep.queues, moved] }

theorem adopt {w u : Walk} (walks : w.InStep u) : Lockstep Eq (adopt w) (adopt u) := by
  refine bindSame (modify fun _ _ inStep => { inStep with locks := walks.locks, threads := walks.threads }) fun _ => ?_
  exact modify fun _ _ inStep => inStep.told (by rw [walks.notices])

theorem priorityChanged (id : ThreadId) (changed : Bool) :
    Lockstep Eq (priorityChanged id changed) (priorityChanged id changed) := by
  cases changed with
  | false => exact pure rfl
  | true =>
      refine bind get fun s v inStep => ?_
      have walks : (s.locks.priorityChanged id s.threads).InStep (v.locks.priorityChanged id v.threads) := by
        rw [inStep.locks]
        exact inStep.threads.priorityChanged s.locks id
      refine bindSame (adopt walks) fun _ => ?_
      rw [walks.changed]
      exact reposition _

theorem setPriority (thread : Thread) (p : Priority) : Lockstep Eq (setPriority thread p) (setPriority thread p) := by
  refine bindSame (assertMasked _) fun _ => ?_
  refine bind (stateOf thread) fun state state' same => ?_
  refine bind get fun s v inStep => ?_
  have set : Lockstep (fun c c' : Change => c'.timeless = c.timeless) (Action.liftFault (state.setPriority s.config p))
      (Action.liftFault (state'.setPriority v.config p)) := by
    refine liftFault (.of_map ?_ fun _ _ _ _ => id)
    rw [← state.setPriority_timeless, ← state'.setPriority_timeless, same]
    exact congrArg (ThreadState.setPriority _ · p) inStep.threads.config
  refine bind set fun c c' same => ?_
  obtain ⟨repriced, changed⟩ := Change.mk.inj same
  refine bindSame (modify fun _ _ inStep => { inStep with threads := inStep.threads.put thread.id repriced }) fun _ => ?_
  rw [changed]
  exact priorityChanged thread.id c.changed

theorem requestPriority (thread : Thread) (p : Priority) :
    Lockstep Eq (requestPriority thread p) (requestPriority thread p) := by
  refine bind get fun s v inStep => ?_
  obtain ⟨interval, config⟩ := inStep.config
  have inside : v.config.inRange p = s.config.inRange p := by
    rw [config]
    rfl
  simp only [inside]
  split
  · exact setPriority thread p
  · rw [config]
    exact bindSame (notice rfl) fun _ => failed _

theorem setNearestPriority (thread : Thread) (p : Priority) :
    Lockstep Eq (setNearestPriority thread p) (setNearestPriority thread p) := by
  refine bind get fun s v inStep => ?_
  obtain ⟨interval, config⟩ := inStep.config
  rw [config]
  exact bindSame (liftFault (.of_eq rfl)) fun nearest => setPriority thread nearest

theorem promote (thread : Thread) : Lockstep Eq (promote thread) (promote thread) := by
  refine masked (bind (stateOf thread) fun state state' same => bind get fun s v inStep => ?_)
  obtain ⟨interval, config⟩ := inStep.config
  rw [config, ThreadState.base_of_timeless same]
  split
  · exact pure rfl
  · exact bindSame (setPriority thread _) fun _ => pure rfl

theorem demote (thread : Thread) : Lockstep Eq (demote thread) (demote thread) := by
  refine masked (bind (stateOf thread) fun state state' same => bind get fun s v inStep => ?_)
  obtain ⟨interval, config⟩ := inStep.config
  rw [config, ThreadState.base_of_timeless same]
  split
  · exact pure rfl
  · exact bindSame (setPriority thread _) fun _ => pure rfl

theorem ageOut (thread : Thread) : Lockstep Eq (ageOut thread) (ageOut thread) := by
  refine bind now fun time time' _ => ?_
  refine bind get fun s v inStep => ?_
  have aged : Lockstep (fun u u' : ThreadRegistry.Update => u.threads.InStep u'.threads ∧ u'.changed = u.changed)
      (Action.noted (s.threads.ageRunning thread.id time)) (Action.noted (v.threads.ageRunning thread.id time')) := by
    -- nobody ages, so neither look at the time changes anything
    rw [ThreadRegistry.ageRunning_still inStep.threads.still.1, ThreadRegistry.ageRunning_still inStep.threads.still.2]
    exact noted (.ok ⟨⟨inStep.threads, rfl⟩, rfl⟩)
  refine bind aged fun u u' same => ?_
  refine bindSame (modify fun _ _ inStep => { inStep with threads := same.1 }) fun _ => ?_
  rw [same.2]
  exact priorityChanged thread.id u.changed

/-! ## Queues -/

theorem createQueue (transfer : Bool) : Lockstep Eq (createQueue transfer) (createQueue transfer) := by
  refine bind get fun s v inStep => ?_
  obtain ⟨interval, config⟩ := inStep.config
  have made (id : QueueId) : WaitQueue.new id transfer v.config = .new id transfer s.config := by
    rw [config]
    rfl
  rw [inStep.nextQueue]
  refine bindSame (set { inStep with nextQueue := rfl, queues := ?_ }) fun _ => ?_
  · rw [inStep.queues, made]
  · exact bindSame (notice rfl) fun _ => pure rfl

theorem queue (id : QueueId) : Lockstep Eq (queue id) (queue id) := by
  refine bind get fun s v inStep => ?_
  have same : v.queue? id = s.queue? id := by
    rw [Scheduler.queue?, inStep.queues]
    rfl
  rw [same]
  split
  · exact pure rfl
  · exact failed _

theorem joinQueue (id : QueueId) (thread : Thread) : Lockstep Eq (joinQueue id thread) (joinQueue id thread) := by
  refine bindSame (assertMasked _) fun _ => ?_
  refine bind now fun time time' _ => ?_
  refine bindSame (queue id) fun q => ?_
  refine bind get fun s v inStep => ?_
  have joined : Lockstep (fun r r' : WaitQueue × ThreadRegistry => r'.1 = r.1 ∧ r.2.InStep r'.2)
      (Action.noted (q.enqueue thread s.threads time)) (Action.noted (q.enqueue thread v.threads time')) :=
    noted ((inStep.threads.enqueue q thread time time').imp fun _ _ same => ⟨⟨same.1, same.2.1⟩, same.2.2⟩)
  refine bind joined fun r r' same => ?_
  refine bindSame (modify fun _ _ inStep => { inStep with queues := ?_, threads := same.2 }) fun _ => ?_
  · rw [inStep.queues, same.1]
  · exact emit (by rw [same.2.effective]; rfl)

theorem takeNext (id : QueueId) (time time' : Ticks) : Lockstep Eq (takeNext id time) (takeNext id time') := by
  refine bindSame (queue id) fun q => ?_
  refine bind get fun s v inStep => ?_
  have taken : Lockstep
      (fun n n' : Selection WaitQueue => n'.next = n.next ∧ n'.queue = n.queue ∧ n.threads.InStep n'.threads)
      (Action.noted (q.next s.threads time)) (Action.noted (q.next v.threads time')) :=
    noted ((inStep.threads.next q time time').imp fun _ _ same => ⟨⟨same.1, same.2.1, same.2.2.1⟩, same.2.2.2⟩)
  refine bind taken fun n n' same => ?_
  refine bindSame (modify fun _ _ inStep => { inStep with queues := ?_, threads := same.2.2 }) fun _ => ?_
  · rw [inStep.queues, same.2.1]
  · refine bind get fun s v inStep => pure ?_
    rw [same.1, funext inStep.thread?]

theorem serve (id : QueueId) : Lockstep Eq (serve id) (serve id) := by
  refine bindSame (assertMasked _) fun _ => ?_
  exact bind now fun time time' _ => takeNext id time time'

theorem claimQueue (id : QueueId) (thread : Thread) : Lockstep Eq (claimQueue id thread) (claimQueue id thread) := by
  refine bindSame (assertMasked _) fun _ => ?_
  refine bindSame (queue id) fun q => ?_
  refine bindSame (liftFault (.of_eq rfl)) fun q' => ?_
  exact modify fun _ _ inStep => { inStep with queues := congrArg (·.insert id q') inStep.queues }

/-! ## Dispatch -/

theorem wake (thread : Thread) : Lockstep Eq (wake thread) (wake thread) := by
  refine bindSame (assertMasked _) fun _ => ?_
  split
  · exact faulted _ _ _
  · refine bind get fun s v inStep => ?_
    rw [inStep.threads.bind ThreadState.queuedOn (fun _ => rfl) thread.id]
    split
    · exact notice rfl
    · exact bindSame (onProcessor _) fun _ => joinQueue .ready thread

theorem idleThread : Lockstep Eq idleThread idleThread := by
  refine bind get fun s v inStep => ?_
  rw [inStep.idle]
  have dispatched : Lockstep Eq (Action.noted s.idle.dispatch) (Action.noted s.idle.dispatch) :=
    noted ((Abreast.of_eq rfl).imp fun _ _ same => by rw [same]; exact ⟨rfl, rfl⟩)
  refine bindSame dispatched fun r => ?_
  exact bindSame (modify fun _ _ inStep => { inStep with idle := rfl }) fun _ => pure rfl

theorem account (thread : Thread) (time time' : Ticks) : Lockstep Eq (account thread time) (account thread time') := by
  refine bind get fun s v inStep => ?_
  cases found : s.threads.get? thread.id with
  | none =>
      obtain ⟨interval, config⟩ := inStep.config
      rw [inStep.threads.missing found, config]
      exact pure rfl
  | some state =>
      obtain ⟨state', found', same⟩ := inStep.threads.exists_timeless found
      rw [found']
      have accounted : Lockstep (fun state state' : ThreadState => state'.timeless = state.timeless)
          (Action.liftFault (state.scheduled time)) (Action.liftFault (state'.scheduled time')) := by
        refine liftFault (.of_overflows (state.overflows_scheduled time) (state'.overflows_scheduled time')
          fun _ _ done done' => ?_)
        rw [ThreadState.timeless_scheduled done, ThreadState.timeless_scheduled done', same]
      refine bind accounted fun state state' same => ?_
      refine bindSame (modify fun _ _ inStep => { inStep with threads := inStep.threads.put thread.id same }) fun _ => ?_
      exact pure (ThreadState.congr_timeless ThreadState.effective (fun _ => rfl) same).symm

theorem choose (time time' : Ticks) : Lockstep Eq (choose time) (choose time') := by
  refine bindSame (takeNext .ready time time') fun taken => ?_
  cases taken with
  | none => exact idleThread
  | some thread => exact pure rfl

theorem launch (next : Thread) (time time' : Ticks) : Lockstep Eq (launch next time) (launch next time') := by
  rw [Action.launch, Action.launch]
  split
  · exact onProcessor _
  · refine bindSame (account next time time') fun p => ?_
    exact bindSame (emit rfl) fun _ => onProcessor _

theorem dispatch : Lockstep Eq dispatch dispatch := by
  refine bindSame (assertMasked _) fun _ => ?_
  refine bind now fun time time' _ => ?_
  refine bindSame (choose time time') fun next => ?_
  exact bindSame (launch next time time') fun _ => pure rfl

theorem giveWay : Lockstep Eq giveWay giveWay := by
  refine bindSame current fun thread => ?_
  split
  · exact pure rfl
  · exact bindSame (ageOut thread) fun _ => wake thread

theorem suspend (thread : Thread) : Lockstep Eq (suspend thread) (suspend thread) :=
  bindSame (onProcessor _) fun _ => ageOut thread

theorem sleep : Lockstep Eq sleep sleep := by
  refine bindSame (assertMasked _) fun _ => ?_
  refine bindSame current fun thread => ?_
  split
  · exact faulted _ _ _
  · exact bindSame (suspend thread) fun _ => dispatch

/-! ## Locks -/

theorem createLock : Lockstep Eq createLock createLock := by
  refine bind get fun s v inStep => ?_
  rw [inStep.locks]
  exact bindSame (set { inStep with locks := rfl }) fun _ => pure rfl

theorem emitLock (action : LockTransition) (lock : LockId) (thread : ThreadId) (time time' : Ticks) :
    Lockstep Eq (emitLock action lock thread time) (emitLock action lock thread time') := by
  refine bind get fun s v inStep => ?_
  rw [inStep.effective]
  exact emit rfl

theorem handOn (lock : LockId) (holder : Thread) (time time' : Ticks) :
    Lockstep Eq (handOn lock holder time) (handOn lock holder time') := by
  refine bind get fun s v inStep => ?_
  rw [inStep.locks, inStep.effective]
  refine bind (lift (inStep.threads.release s.locks lock holder.id)) fun r r' same => ?_
  obtain ⟨next, w⟩ := r
  obtain ⟨next', u⟩ := r'
  obtain ⟨rfl, walks⟩ := same
  refine bindSame (adopt walks) fun _ => ?_
  refine bindSame (emit rfl) fun _ => ?_
  dsimp only
  rw [walks.changed]
  refine bindSame (reposition w.changed) fun _ => ?_
  cases next' with
  | none => exact pure rfl
  | some id =>
      refine bindSame (emitLock _ lock id time time') fun _ => ?_
      refine bind get fun s v inStep => ?_
      rw [inStep.thread?]
      cases s.thread? id with
      | none => exact pure rfl
      | some thread => exact bindSame (wake thread) fun _ => pure rfl

theorem contend (lock : LockId) : Lockstep Eq (contend lock) (contend lock) := by
  refine bindSame current fun thread => ?_
  refine bind now fun time time' _ => ?_
  refine bind (stateOf thread) fun _ _ _ => ?_
  refine bind get fun s v inStep => ?_
  rw [inStep.locks]
  refine bind (lift (inStep.threads.acquire s.locks lock thread.id)) fun r r' same => ?_
  obtain ⟨outcome, w⟩ := r
  obtain ⟨outcome', u⟩ := r'
  obtain ⟨rfl, walks⟩ := same
  refine bindSame (adopt walks) fun _ => ?_
  dsimp only
  rw [walks.changed]
  refine bindSame (reposition w.changed) fun _ => ?_
  cases outcome' with
  | acquired => exact bindSame (emitLock _ lock thread.id time time') fun _ => pure rfl
  | blocked holder =>
      refine bindSame (emitLock _ lock thread.id time time') fun _ => ?_
      refine bind get fun s v inStep => ?_
      rw [inStep.effective]
      refine bindSame (notice rfl) fun _ => ?_
      exact bindSame (suspend thread) fun _ => pure rfl

theorem acquire (lock : LockId) : Lockstep Eq (acquire lock) (acquire lock) := by
  refine masked (bindSame (contend lock) fun outcome => ?_)
  cases outcome with
  | acquired => exact pure rfl
  | blocked holder => exact bindSame dispatch fun _ => pure rfl

theorem release (lock : LockId) : Lockstep Eq (release lock) (release lock) := by
  refine masked (bindSame current fun thread => ?_)
  exact bind now fun time time' _ => handOn lock thread time time'

/-! ## The end of threads -/

theorem leaveQueue (id : ThreadId) : Lockstep Eq (leaveQueue id) (leaveQueue id) := by
  refine modify fun s v inStep => ?_
  rw [inStep.threads.bind ThreadState.queuedOn (fun _ => rfl) id, inStep.queues]
  cases (s.threads.get? id).bind ThreadState.queuedOn with
  | none => exact inStep
  | some queue =>
      dsimp only
      cases s.queues.get? queue with
      | none => exact inStep
      | some q =>
          obtain ⟨left, threads⟩ := inStep.threads.leave q id
          exact { inStep with threads := threads, queues := congrArg (s.queues.insert queue) left }

theorem retire (thread : Thread) (time time' : Ticks) : Lockstep Eq (retire thread time) (retire thread time') := by
  refine bind get fun s v inStep => ?_
  cases found : s.threads.get? thread.id with
  | none =>
      rw [inStep.threads.missing found]
      dsimp only
      split
      · have counted : Lockstep (fun stats stats' : Statistics => stats'.finished = stats.finished)
            (Action.liftFault s.statistics.countUnarrived) (Action.liftFault v.statistics.countUnarrived) := by
          refine liftFault (.of_overflows s.statistics.overflows_countUnarrived v.statistics.overflows_countUnarrived
            fun _ _ counts counts' => ?_)
          rw [Statistics.finished_countUnarrived counts, Statistics.finished_countUnarrived counts', inStep.finished]
        refine bind counted fun stats stats' same => ?_
        exact modify fun _ _ inStep => { inStep with finished := same }
      · exact pure rfl
  | some state =>
      obtain ⟨state', found', same⟩ := inStep.threads.exists_timeless found
      rw [found']
      refine bindSame (set { inStep with threads := inStep.threads.remove thread.id }) fun _ => ?_
      have finished : Lockstep
          (fun r r' : Option Lifetime × Statistics => r'.1.isSome = r.1.isSome ∧ r'.2.finished = r.2.finished)
          (Action.liftFault (state.finished time s.statistics)) (Action.liftFault (state'.finished time' v.statistics)) := by
        -- the two records differ, but both threads leave one or neither does
        refine liftFault (.of_overflows (state.overflows_finished _ _) (state'.overflows_finished _ _)
          fun r r' done done' => ?_)
        obtain ⟨recorded, counted⟩ := ThreadState.finished_timeless done
        obtain ⟨recorded', counted'⟩ := ThreadState.finished_timeless done'
        have exempt : state'.thread.isExempt = state.thread.isExempt :=
          ThreadState.congr_timeless (·.thread.isExempt) (fun _ => rfl) same
        have arrived : state'.accounts.arrival.isSome = state.accounts.arrival.isSome :=
          ThreadState.congr_timeless (·.accounts.arrival.isSome) (fun _ => Option.isSome_map) same
        rw [recorded, recorded', counted, counted', exempt, arrived, inStep.finished]
        exact ⟨rfl, rfl⟩
      refine bind finished fun r r' same => ?_
      obtain ⟨record, stats⟩ := r
      obtain ⟨record', stats'⟩ := r'
      obtain ⟨recorded, counted⟩ := same
      refine bindSame (modify fun _ _ inStep => { inStep with finished := counted }) fun _ => ?_
      cases record <;> cases record' <;> cases recorded
      · exact pure rfl
      · exact emit rfl

theorem depart : Lockstep Eq depart depart := by
  refine bindSame current fun thread => ?_
  split
  · exact faulted _ _ _
  · refine bind now fun time time' _ => ?_
    refine bind get fun s v inStep => ?_
    have walks : (s.locks.withdraw thread.id s.threads).InStep (v.locks.withdraw thread.id v.threads) := by
      rw [inStep.locks]
      exact inStep.threads.withdraw s.locks thread.id
    refine bindSame (adopt walks) fun _ => ?_
    rw [walks.changed]
    refine bindSame (reposition _) fun _ => ?_
    refine bind get fun s v inStep => ?_
    rw [inStep.locks]
    refine bindSame (forM _ fun lock => ?_) fun _ => ?_
    · exact bindSame (notice rfl) fun _ => bindSame (handOn lock thread time time') fun _ => pure rfl
    · refine bindSame (leaveQueue thread.id) fun _ => ?_
      refine bindSame (retire thread time time') fun _ => ?_
      exact bindSame (notice rfl) fun _ => onProcessor _

theorem finish : Lockstep Eq finish finish := masked (bindSame depart fun _ => dispatch)

theorem shutdown : Lockstep (fun r r' => r'.finished = r.finished) shutdown shutdown := by
  refine masked (bind get fun s v inStep => ?_)
  have reported : Lockstep (fun r r' : Report => r'.finished = r.finished) (Action.liftFault s.statistics.report)
      (Action.liftFault v.statistics.report) := by
    refine liftFault (.of_overflows s.statistics.overflows_report v.statistics.overflows_report fun _ _ done done' => ?_)
    rw [Statistics.finished_report done, Statistics.finished_report done', inStep.finished]
  refine bind reported fun r r' same => ?_
  rw [inStep.shutDown]
  split
  · exact pure same
  · refine bindSame (emit ?_) fun _ => ?_
    · rw [Event.timeless, Event.timeless, same]
    · refine bindSame (notice rfl) fun _ => ?_
      exact bindSame (modify fun _ _ inStep => { inStep with shutDown := rfl }) fun _ => pure same

theorem unit {m : Action α} {m' : Action β} (lockstep : Lockstep related m m') :
    Lockstep Eq (do let _ ← m) (do let _ ← m') :=
  bind lockstep fun _ _ _ => pure rfl

theorem call (call : Call) : Lockstep Eq call.action call.action := by
  cases call with
  | createQueue transfer => exact unit (createQueue transfer)
  | join queue thread => exact joinQueue queue thread
  | serve queue => exact unit (serve queue)
  | claim queue thread => exact claimQueue queue thread
  | readPriority thread => exact unit (priorityOf thread)
  | readEffective thread => exact unit (effectivePriorityOf thread)
  | setPriority thread p => exact setPriority thread p
  | requestPriority thread p => exact requestPriority thread p
  | setNearestPriority thread p => exact setNearestPriority thread p
  | promote thread => exact unit (promote thread)
  | demote thread => exact unit (demote thread)
  | wake thread => exact wake thread
  | dispatch => exact unit dispatch
  | yield => exact unit (masked (bindSame giveWay fun _ => dispatch))
  | sleep => exact unit sleep
  | finish => exact unit finish
  | createLock => exact unit createLock
  | acquire lock => exact unit (acquire lock)
  | release lock => exact unit (release lock)
  | shutdown => exact unit shutdown

end Lockstep

/-! ## Runs -/

namespace Scheduler

variable {config : Config} {interval : Ticks} {s v s' v' : Scheduler} {input input' : Input}

/-- Two inputs that differ at most in the time to which they set the clock. -/
def Input.Retimed : Input → Input → Prop
  | .clock _, .clock _ => True
  | input, input' => input' = input

theorem InStep.boot (strict : config.policy = .strict) (booted : s.Booted config)
    (booted' : v.Booted { config with agingInterval := interval }) (idle : v.idle = s.idle) : s.InStep v := by
  obtain ⟨first, start, -, rfl⟩ := booted.eq
  obtain ⟨second, start', -, rfl⟩ := booted'.eq
  exact
    { threads := ⟨strict, rfl⟩
      processor := rfl
      queues := rfl
      nextQueue := rfl
      locks := rfl
      idle := idle
      interrupts := rfl
      shutDown := rfl
      finished := rfl
      output := rfl }

theorem InStep.perform (inStep : s.InStep v) {call : Call} (done : s.perform call = some s')
    (done' : v.perform call = some v') : s'.InStep v' := by
  have both := Lockstep.call call s v inStep
  unfold Scheduler.perform at done done'
  generalize call.action s = x, call.action v = y at both done done'
  cases both with
  | ok _ inStep' =>
      cases done
      cases done'
      exact inStep'
  | error f inStep' =>
      cases f with
      | refused e =>
          cases done
          cases done'
          exact inStep'
      | fatal f => cases done
  | left => cases done
  | right => cases done'

theorem InStep.feed (inStep : s.InStep v) (retimed : input.Retimed input') (fed : s.feed input = some s')
    (fed' : v.feed input' = some v') : s'.InStep v' := by
  cases input with
  | call call =>
      cases retimed
      exact inStep.perform fed fed'
  | clock time =>
      cases input' with
      | clock time' =>
          cases fed
          cases fed'
          exact { inStep with }
      | _ => cases retimed
  | interrupts interrupts =>
      cases retimed
      cases fed
      cases fed'
      exact { inStep with interrupts := rfl }
  | processor processor =>
      cases retimed
      cases fed
      cases fed'
      exact { inStep with processor := rfl }

theorem InStep.run {inputs inputs' : List Input} (inStep : s.InStep v)
    (retimed : List.Forall₂ Input.Retimed inputs inputs') (ran : inputs.foldlM Scheduler.feed s = some s')
    (ran' : inputs'.foldlM Scheduler.feed v = some v') : s'.InStep v' := by
  induction retimed generalizing s v with
  | nil =>
      cases ran
      cases ran'
      exact inStep
  | cons head _ ih =>
      rw [List.foldlM_cons] at ran ran'
      obtain ⟨s₁, fed, ran⟩ := Option.bind_eq_some_iff.mp ran
      obtain ⟨v₁, fed', ran'⟩ := Option.bind_eq_some_iff.mp ran'
      exact ih (inStep.feed head fed fed') ran ran'

structure Agrees (s v : Scheduler) : Prop where
  dispatched : v.processor = s.processor
  base : ∀ id, (v.threads.get? id).map (·.base) = (s.threads.get? id).map (·.base)
  effective : ∀ id, (v.threads.get? id).map (·.effective) = (s.threads.get? id).map (·.effective)
  queueWaiters : ∀ queue, v.queueWaiters queue = s.queueWaiters queue
  queueOwner : ∀ queue, v.queueOwner queue = s.queueOwner queue
  lockHolder : ∀ lock, v.lockHolder lock = s.lockHolder lock
  lockWaiters : ∀ lock, v.lockWaiters lock = s.lockWaiters lock
  lockDonated : ∀ lock, v.lockDonated lock = s.lockDonated lock

theorem InStep.agrees (inStep : s.InStep v) : s.Agrees v where
  dispatched := inStep.processor
  base := inStep.threads.map ThreadState.base fun _ => rfl
  effective := inStep.threads.map ThreadState.effective fun _ => rfl
  queueWaiters queue := by rw [queueWaiters, queueWaiters, queue?, queue?, inStep.queues]
  queueOwner queue := by rw [queueOwner, queueOwner, queue?, queue?, inStep.queues]
  lockHolder lock := by rw [lockHolder, lockHolder, inStep.locks]
  lockWaiters lock := by rw [lockWaiters, lockWaiters, inStep.locks]
  lockDonated lock := by rw [lockDonated, lockDonated, inStep.locks]

/-- Under the strict policy neither the clock nor the aging interval has a part in any decision. Two runs of the same calls
differ in nothing but times and sums of times, and the next call does the same in both. -/
theorem agrees_of_retimed (strict : config.policy = .strict) (booted : s.Booted config)
    (booted' : v.Booted { config with agingInterval := interval }) (idle : v.idle = s.idle) {inputs inputs' : List Input}
    (retimed : List.Forall₂ Input.Retimed inputs inputs') (ran : inputs.foldlM feed s = some s')
    (ran' : inputs'.foldlM feed v = some v') :
    s'.InStep v' ∧ s'.Agrees v' ∧ ∀ call : Call, OutcomeInStep Eq (call.action s') (call.action v') := by
  have inStep := (InStep.boot strict booted booted' idle).run retimed ran ran'
  exact ⟨inStep, inStep.agrees, fun call => Lockstep.call call s' v' inStep⟩

def queueing (admitted dispatched : Ticks) : List Input :=
  [.interrupts ⟨false, 1⟩, .call .createLock, .call (.acquire ⟨1⟩), .clock admitted,
    .call (.wake ⟨⟨2⟩, "worker", .ordinary⟩), .clock dispatched, .call .yield, .call (.acquire ⟨1⟩)]

def queued (interval admitted dispatched : Ticks) : Option Scheduler :=
  (boot { agingInterval := interval } ⟨⟨1⟩, "idle", .idle⟩ admitted).value.toOption.bind
    ((queueing admitted dispatched).foldlM feed)

theorem agrees_of_retimed_queueing :
    ∃ s v, queued 0 3 8 = some s ∧ queued 7 100 5000 = some v ∧ s.Agrees v ∧ s.lockWaiters ⟨1⟩ = .ok [⟨2⟩] ∧
      (s.threads.get? ⟨2⟩).map (·.accounts.wait) = some 5 ∧ (v.threads.get? ⟨2⟩).map (·.accounts.wait) = some 4900 := by
  have reached : queued 0 3 8 = some ((queued 0 3 8).get (by decide)) := (Option.some_get _).symm
  have reached' : queued 7 100 5000 = some ((queued 7 100 5000).get (by decide)) := (Option.some_get _).symm
  obtain ⟨s, made, ran⟩ := Option.bind_eq_some_iff.mp reached
  obtain ⟨v, made', ran'⟩ := Option.bind_eq_some_iff.mp reached'
  have booted : s.Booted {} := ⟨by decide, by decide, _, _, rfl, eq_ok_of_toOption made⟩
  have booted' : v.Booted { agingInterval := 7 } := ⟨by decide, by decide, _, _, rfl, eq_ok_of_toOption made'⟩
  have idle : v.idle = s.idle := by
    cases made
    cases made'
    rfl
  have retimed : List.Forall₂ Input.Retimed (queueing 3 8) (queueing 100 5000) := by
    repeat' constructor
  obtain ⟨-, agrees, -⟩ := agrees_of_retimed rfl booted booted' idle retimed ran ran'
  exact ⟨_, _, reached, reached', agrees, by decide, by decide, by decide⟩

end Scheduler

end PriorityScheduler
