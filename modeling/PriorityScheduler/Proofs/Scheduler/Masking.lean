import PriorityScheduler.Proofs.Scheduler.Refusals

namespace PriorityScheduler

open PriorityScheduler.Action PriorityScheduler.Scheduler

/-! ## Nested guards -/

inductive GuardMove where
  | take
  | drop
  deriving DecidableEq, Repr, Inhabited

namespace Interrupts

def guardStep (i : Interrupts) : List Guard → GuardMove → Option (Interrupts × List Guard)
  | living, .take => some (i.guard.2, i.guard.1 :: living)
  | [], .drop => none
  | youngest :: older, .drop => some (i.release youngest, older)

def guardAll : List GuardMove → Interrupts → List Guard → Option (Interrupts × List Guard)
  | [], i, living => some (i, living)
  | move :: rest, i, living => (i.guardStep living move).bind fun (i, living) => guardAll rest i living

/-- While a guard lives interrupts are masked, and dropping the guards one by one leads back to the flag before them. -/
def Nested (before : Bool) : Bool → List Guard → Prop
  | enabled, [] => enabled = before
  | enabled, youngest :: older => enabled = false ∧ Nested before youngest.wasEnabled older

theorem Nested.step {before : Bool} {i i' : Interrupts} {living living' : List Guard} {move : GuardMove}
    (nested : Nested before i.enabled living) (moved : i.guardStep living move = some (i', living')) :
    Nested before i'.enabled living' ∧
      i'.disableCount = i.disableCount + [move].count .take := by
  cases move with
  | take =>
      cases moved
      exact ⟨⟨rfl, nested⟩, rfl⟩
  | drop =>
      cases living with
      | nil => cases moved
      | cons youngest older =>
          cases moved
          exact ⟨nested.2, rfl⟩

theorem nested_of_guardAll {before : Bool} {i i' : Interrupts} {living living' : List Guard} {moves : List GuardMove}
    (nested : Nested before i.enabled living) (moved : guardAll moves i living = some (i', living')) :
    Nested before i'.enabled living' ∧ i'.disableCount = i.disableCount + moves.count .take := by
  induction moves generalizing i living with
  | nil =>
      cases moved
      exact ⟨nested, rfl⟩
  | cons move rest ih =>
      obtain ⟨⟨i₁, living₁⟩, first, later⟩ := Option.bind_eq_some_iff.mp moved
      obtain ⟨nested₁, counted⟩ := nested.step first
      obtain ⟨nested', counted'⟩ := ih nested₁ later
      refine ⟨nested', ?_⟩
      rw [counted', counted, Nat.add_assoc, ← List.count_append, List.singleton_append]

end Interrupts

/-! ## What goes wrong with interrupts masked -/

def Fault.isUnmasked : Fault → Bool
  | .interruptsEnabled _ => true
  | _ => false

def Failure.isUnmasked : Failure → Bool
  | .fatal f => f.isUnmasked
  | .refused _ => false

variable {α β : Type}

def Unalarmed (x : Except Fault α) : Prop := ∀ f, x = .error f → f.isUnmasked = false

section Unalarmed

variable {x : Except Fault α} {config : Config}

theorem unalarmed_ok (a : α) : Unalarmed (.ok a) := nofun

theorem Unalarmed.bind {f : α → Except Fault β} (first : Unalarmed x) (next : ∀ a, Unalarmed (f a)) :
    Unalarmed (x >>= f) := by
  cases x with
  | ok a => exact next a
  | error e =>
      intro e' failed
      cases failed
      exact first e rfl

theorem Unalarmed.map (first : Unalarmed x) (f : α → β) : Unalarmed (x.map f) := by
  cases x with
  | ok a => exact unalarmed_ok (f a)
  | error e =>
      intro e' failed
      cases failed
      exact first e rfl

theorem Overflows.unalarmed (overflows : Overflows x) : Unalarmed x := by
  intro f failed
  rw [overflows f failed]
  rfl

theorem Config.unalarmed_clamp (config : Config) (p : Priority) : Unalarmed (config.clamp p) := by
  unfold clamp
  split
  · rintro f ⟨⟩
    rfl
  · exact unalarmed_ok _

theorem ThreadState.unalarmed_setPriority (s : ThreadState) (config : Config) (p : Priority) :
    Unalarmed (s.setPriority config p) := by
  unfold setPriority
  split
  · exact unalarmed_ok _
  · rintro f ⟨⟩
    rfl

theorem ThreadState.unalarmed_ageRunning (s : ThreadState) (interval : Ticks) (config : Config) (now : Ticks) :
    Unalarmed (s.ageRunning interval config now) := by
  unfold ageRunning
  split
  · exact unalarmed_ok _
  · split
    · exact unalarmed_ok _
    · refine (Drift.overflows_advance _ _ _ _).unalarmed.bind fun ⟨steps, drift⟩ => ?_
      dsimp only
      split
      · exact unalarmed_ok _
      · exact (config.unalarmed_clamp _).bind fun p => (unalarmed_setPriority _ config p).bind fun _ => unalarmed_ok _

theorem ThreadState.unalarmed_ageWaiting (s : ThreadState) (interval : Ticks) (config : Config) (now : Ticks) :
    Unalarmed (s.ageWaiting interval config now) := by
  unfold ageWaiting
  split
  · exact unalarmed_ok _
  · split
    · exact unalarmed_ok _
    · refine (Drift.overflows_advance _ _ _ _).unalarmed.bind fun ⟨steps, drift⟩ => ?_
      dsimp only
      split
      · exact unalarmed_ok _
      · exact (config.unalarmed_clamp _).bind fun p => (unalarmed_setPriority _ config p).bind fun _ => unalarmed_ok _

theorem ThreadRegistry.unalarmed_ageRunning (t : ThreadRegistry) (id : ThreadId) (now : Ticks) :
    Unalarmed (t.ageRunning id now) := by
  unfold ageRunning
  split
  · exact unalarmed_ok _
  · exact (ThreadState.unalarmed_ageRunning _ _ _ now).bind fun _ => unalarmed_ok _

theorem ThreadRegistry.unalarmed_ageAll (t : ThreadRegistry) (now : Ticks) (ids : List ThreadId) :
    Unalarmed (ageAll now ids t) := by
  induction ids generalizing t with
  | nil => exact unalarmed_ok _
  | cons id rest ih =>
      have one : Unalarmed (t.ageWaiting id now) := by
        unfold ageWaiting
        split
        · exact unalarmed_ok _
        · exact (ThreadState.unalarmed_ageWaiting _ _ _ now).bind fun _ => unalarmed_ok _
      exact one.bind fun first => (ih first.value.threads).bind fun _ => unalarmed_ok _

theorem WaitQueue.unalarmed_next (q : WaitQueue) (t : ThreadRegistry) (now : Ticks) : Unalarmed (q.next t now) := by
  have aged (ids : List ThreadId) := t.unalarmed_ageAll now ids
  have selected : Unalarmed (q.discipline.select t now) := by
    cases q.discipline with
    | strict queue => exact unalarmed_ok _
    | aging queue => exact ((aged queue.waiters).bind fun _ => unalarmed_ok _).map _
    | banded queue => exact ((aged queue.waiters).bind fun _ => unalarmed_ok _).map _
  exact selected.bind fun _ => unalarmed_ok _

theorem WaitQueue.unalarmed_enqueue (q : WaitQueue) (thread : Thread) (t : ThreadRegistry) (now : Ticks) :
    Unalarmed (q.enqueue thread t now) := by
  unfold enqueue
  dsimp only
  split
  · exact (ThreadState.overflows_enqueued _ now).unalarmed.bind fun _ => unalarmed_ok _
  · rintro f ⟨⟩
    rfl

end Unalarmed

/-! ## Actions under a guard -/

namespace Action

variable {m : Action α} {s : Scheduler}

/-- With interrupts masked, the action leaves the flag alone and does not complain about it. -/
def Shielded (m : Action α) : Prop :=
  ∀ s : Scheduler, s.interrupts.enabled = false →
    Settles m s (fun _ s' => s'.interrupts = s.interrupts) fun f s' =>
      s'.interrupts = s.interrupts ∧ f.isUnmasked = false

theorem Shielded.bind {f : α → Action β} (first : Shielded m) (next : ∀ a, Shielded (f a)) : Shielded (m >>= f) := by
  intro s masked
  rw [settles_bind]
  refine (first s masked).imp (fun a s' same => ?_) fun _ _ => id
  rw [← same]
  exact next a s' (same ▸ masked)

theorem shielded_pure (a : α) : Shielded (pure a) := fun _ _ => rfl

theorem shielded_get : Shielded get := fun _ _ => rfl

theorem shielded_set {f : Scheduler → Scheduler} (keeps : ∀ s, (f s).interrupts = s.interrupts) : Shielded (modify f) :=
  fun s _ => keeps s

theorem shielded_failed {f : Failure} (other : f.isUnmasked = false) : Shielded (throw f : Action α) :=
  fun _ _ => ⟨rfl, other⟩

theorem shielded_fault {f : Fault} (other : f.isUnmasked = false) : Shielded (fault f : Action α) := shielded_failed other

theorem shielded_faulted {f : Fault} (other : f.isUnmasked = false) (next : α → Action β) : Shielded (fault f >>= next) :=
  fun _ _ => ⟨rfl, other⟩

theorem shielded_refuse (e : Error) : Shielded (refuse e : Action α) := shielded_failed rfl

theorem shielded_liftFault {result : Except Fault α} (unalarmed : Unalarmed result) : Shielded (liftFault result) := by
  cases result with
  | ok a => exact shielded_pure a
  | error f => exact shielded_fault (unalarmed f rfl)

theorem shielded_lift {result : Except Failure α} (other : ∀ f, result = .error f → f.isUnmasked = false) :
    Shielded (lift result) := by
  cases result with
  | ok a => exact shielded_pure a
  | error f => exact shielded_failed (other f rfl)

theorem shielded_noted {result : Except Fault (Noted α)} (unalarmed : Unalarmed result) : Shielded (noted result) := by
  refine .bind (shielded_liftFault unalarmed) fun n => ?_
  refine .bind (shielded_set fun _ => rfl) fun _ => ?_
  exact shielded_pure n.value

theorem shielded_assertMasked (operation : Operation) : Shielded (assertMasked operation) :=
  fun _ masked => settles_assertMasked operation masked rfl

theorem shielded_now : Shielded now := shielded_get.bind fun s => shielded_pure s.clock.now

theorem shielded_current : Shielded current := shielded_get.bind fun s => shielded_pure s.processor.current

theorem shielded_emit (e : Event) : Shielded (emit e) := shielded_set fun _ => rfl

theorem shielded_notice (n : Notice) : Shielded (notice n) := shielded_set fun _ => rfl

theorem shielded_onProcessor (f : Processor → Processor) : Shielded (onProcessor f) := shielded_set fun _ => rfl

/-! ## Priorities -/

theorem shielded_stateOf (thread : Thread) : Shielded (stateOf thread) := by
  refine shielded_get.bind fun s => ?_
  refine (shielded_noted (unalarmed_ok _)).bind fun r => ?_
  refine .bind (shielded_set fun _ => rfl) fun _ => ?_
  exact shielded_pure r.1

theorem shielded_adopt (w : Walk) : Shielded (adopt w) :=
  .bind (shielded_set fun _ => rfl) fun _ => shielded_set fun _ => rfl

theorem shielded_reposition (ids : List ThreadId) : Shielded (reposition ids) := by
  refine shielded_set fun s => ?_
  induction ids generalizing s with
  | nil => rfl
  | cons id rest ih =>
      refine (ih (repositionOne s id)).trans ?_
      unfold repositionOne
      split <;> rfl

theorem shielded_priorityChanged (id : ThreadId) (changed : Bool) : Shielded (priorityChanged id changed) := by
  cases changed with
  | false => exact shielded_pure _
  | true =>
      refine shielded_get.bind fun s => ?_
      exact (shielded_adopt _).bind fun _ => shielded_reposition _

theorem shielded_setPriority (thread : Thread) (p : Priority) : Shielded (setPriority thread p) := by
  refine (shielded_assertMasked _).bind fun _ => ?_
  refine (shielded_stateOf thread).bind fun state => ?_
  refine shielded_get.bind fun s => ?_
  refine (shielded_liftFault (state.unalarmed_setPriority _ p)).bind fun change => ?_
  refine .bind (shielded_set fun _ => rfl) fun _ => ?_
  exact shielded_priorityChanged thread.id change.changed

theorem shielded_ageOut (thread : Thread) : Shielded (ageOut thread) := by
  refine shielded_now.bind fun time => ?_
  refine shielded_get.bind fun s => ?_
  refine (shielded_noted (s.threads.unalarmed_ageRunning thread.id time)).bind fun update => ?_
  refine .bind (shielded_set fun _ => rfl) fun _ => ?_
  exact shielded_priorityChanged thread.id update.changed

/-! ## Dispatch -/

theorem shielded_queue (id : QueueId) : Shielded (queue id) := by
  refine shielded_get.bind fun s => ?_
  split
  · exact shielded_pure _
  · exact shielded_refuse _

theorem shielded_joinQueue (id : QueueId) (thread : Thread) : Shielded (joinQueue id thread) := by
  refine (shielded_assertMasked _).bind fun _ => ?_
  refine shielded_now.bind fun time => ?_
  refine (shielded_queue id).bind fun q => ?_
  refine shielded_get.bind fun s => ?_
  refine .bind (shielded_noted (q.unalarmed_enqueue thread s.threads time)) fun (q, threads) => ?_
  refine .bind (shielded_set fun _ => rfl) fun _ => ?_
  exact shielded_emit _

theorem shielded_wake (thread : Thread) : Shielded (wake thread) := by
  refine (shielded_assertMasked _).bind fun _ => ?_
  split
  · exact shielded_faulted rfl _
  · refine .bind shielded_get fun s => ?_
    split
    · exact shielded_notice _
    · exact (shielded_onProcessor _).bind fun _ => shielded_joinQueue .ready thread

theorem shielded_takeNext (id : QueueId) (time : Ticks) : Shielded (takeNext id time) := by
  refine (shielded_queue id).bind fun q => ?_
  refine shielded_get.bind fun s => ?_
  refine (shielded_noted (q.unalarmed_next s.threads time)).bind fun selected => ?_
  refine .bind (shielded_set fun _ => rfl) fun _ => ?_
  exact .bind shielded_get fun s => shielded_pure _

theorem shielded_choose (time : Ticks) : Shielded (choose time) := by
  refine (shielded_takeNext .ready time).bind fun taken => ?_
  cases taken with
  | some thread => exact shielded_pure thread
  | none =>
      refine shielded_get.bind fun s => ?_
      refine .bind (shielded_noted s.idle.overflows_dispatch.unalarmed) fun r => ?_
      refine .bind (shielded_set fun _ => rfl) fun _ => ?_
      exact shielded_pure r.1

theorem shielded_launch (next : Thread) (time : Ticks) : Shielded (launch next time) := by
  have accounted : Shielded (account next time) := by
    refine shielded_get.bind fun s => ?_
    split
    · exact shielded_pure _
    · rename_i state _
      refine (shielded_liftFault (state.overflows_scheduled time).unalarmed).bind fun state => ?_
      refine .bind (shielded_set fun _ => rfl) fun _ => ?_
      exact shielded_pure state.effective
  rw [launch]
  split
  · exact shielded_onProcessor _
  · exact accounted.bind fun p => (shielded_emit _).bind fun _ => shielded_onProcessor _

theorem shielded_dispatch : Shielded dispatch := by
  refine (shielded_assertMasked _).bind fun _ => ?_
  refine shielded_now.bind fun time => ?_
  refine (shielded_choose time).bind fun next => ?_
  exact (shielded_launch next time).bind fun _ => shielded_pure next

theorem shielded_giveWay : Shielded giveWay := by
  refine shielded_current.bind fun thread => ?_
  split
  · exact shielded_pure _
  · exact (shielded_ageOut thread).bind fun _ => shielded_wake thread

theorem shielded_suspend (thread : Thread) : Shielded (suspend thread) :=
  (shielded_onProcessor _).bind fun _ => shielded_ageOut thread

/-! ## Locks and the end of a thread -/

theorem shielded_emitLock (action : LockTransition) (lock : LockId) (thread : ThreadId) (time : Ticks) :
    Shielded (emitLock action lock thread time) :=
  shielded_get.bind fun _ => shielded_emit _

theorem shielded_handOn (lock : LockId) (holder : Thread) (time : Ticks) : Shielded (handOn lock holder time) := by
  refine shielded_get.bind fun s => ?_
  refine (shielded_lift fun f failed => ?_).bind fun (next, w) => ?_
  · rcases LockRegistry.release_error failed with rfl | ⟨other, rfl⟩ <;> rfl
  · refine (shielded_adopt w).bind fun _ => ?_
    refine (shielded_emit _).bind fun _ => ?_
    refine (shielded_reposition w.changed).bind fun _ => ?_
    cases next with
    | none => exact shielded_pure none
    | some heir =>
        refine (shielded_emitLock _ _ _ _).bind fun _ => shielded_get.bind fun s => ?_
        split
        · exact (shielded_wake _).bind fun _ => shielded_pure _
        · exact (shielded_pure _).bind fun _ => shielded_pure _

theorem shielded_contend (lock : LockId) : Shielded (contend lock) := by
  refine shielded_current.bind fun thread => ?_
  refine shielded_now.bind fun time => ?_
  refine (shielded_stateOf thread).bind fun _ => shielded_get.bind fun s => ?_
  refine (shielded_lift fun f failed => ?_).bind fun (outcome, w) => ?_
  · rcases LockRegistry.acquire_error failed with rfl | rfl <;> rfl
  · refine (shielded_adopt w).bind fun _ => (shielded_reposition w.changed).bind fun _ => ?_
    cases outcome with
    | acquired => exact (shielded_emitLock _ _ _ _).bind fun _ => shielded_pure _
    | blocked holder =>
        refine (shielded_emitLock _ _ _ _).bind fun _ => shielded_get.bind fun _ => ?_
        refine (shielded_notice _).bind fun _ => ?_
        exact (shielded_suspend thread).bind fun _ => shielded_pure _

theorem shielded_leaveQueue (id : ThreadId) : Shielded (leaveQueue id) := by
  refine shielded_set fun s => ?_
  split
  · rfl
  · split <;> rfl

theorem shielded_retire (thread : Thread) (time : Ticks) : Shielded (retire thread time) := by
  intro s masked
  rw [retire, settles_bind, settles_get]
  cases found : s.threads.get? thread.id with
  | none =>
      simp only
      split
      · refine Shielded.bind (shielded_liftFault s.statistics.overflows_countUnarrived.unalarmed) (fun _ => ?_) s masked
        exact shielded_set fun _ => rfl
      · exact rfl
  | some state =>
      simp only
      rw [settles_bind, settles_set]
      refine Shielded.bind (shielded_liftFault (state.overflows_finished time s.statistics).unalarmed) (fun r => ?_)
        ({ s with threads := s.threads.remove thread.id } : Scheduler) masked
      refine .bind (shielded_set fun _ => rfl) fun _ => ?_
      split
      · exact shielded_emit _
      · exact shielded_pure _

theorem shielded_forM {ids : List β} {f : β → Action Unit} (each : ∀ b, Shielded (f b)) : Shielded (ids.forM f) := by
  induction ids with
  | nil => exact shielded_pure _
  | cons b rest ih => exact (each b).bind fun _ => ih

theorem shielded_depart : Shielded depart := by
  refine shielded_current.bind fun thread => ?_
  split
  · exact shielded_faulted rfl _
  · refine shielded_now.bind fun time => shielded_get.bind fun s => ?_
    refine (shielded_adopt _).bind fun _ => (shielded_reposition _).bind fun _ => shielded_get.bind fun s => ?_
    refine (shielded_forM fun lock => ?_).bind fun _ => ?_
    · exact (shielded_notice _).bind fun _ => (shielded_handOn lock thread time).bind fun _ => shielded_pure _
    · refine (shielded_leaveQueue thread.id).bind fun _ => (shielded_retire thread time).bind fun _ => ?_
      exact (shielded_notice _).bind fun _ => shielded_onProcessor _

/-! ## Calls that mask interrupts -/

/-- However the action ends, the flag is as before, and nothing complained about it. -/
def Restores (m : Action α) : Prop :=
  ∀ s : Scheduler, Settles m s (fun _ s' => s'.interrupts = ⟨s.interrupts.enabled, s.interrupts.disableCount + 1⟩)
    fun f s' => s'.interrupts = ⟨s.interrupts.enabled, s.interrupts.disableCount + 1⟩ ∧ f.isUnmasked = false

theorem Shielded.restores (shielded : Shielded m) : Restores (masked m) := by
  intro s
  rw [settles_masked]
  refine (shielded s.masked rfl).imp (fun _ s' same => ?_) fun _ s' both => ⟨?_, both.2⟩
  · rw [Interrupts.release, Interrupts.restore, same]
    rfl
  · rw [Interrupts.release, Interrupts.restore, both.1]
    rfl

theorem Restores.unit (restores : Restores m) : Restores (do let _ ← m) := by
  intro s
  rw [settles_bind]
  exact restores s

theorem restores_promote (thread : Thread) : Restores (promote thread) := by
  refine Shielded.restores (.bind (shielded_stateOf thread) fun state => .bind shielded_get fun s => ?_)
  split
  · exact shielded_pure _
  · exact .bind (shielded_setPriority thread _) fun _ => shielded_pure _

theorem restores_demote (thread : Thread) : Restores (demote thread) := by
  refine Shielded.restores (.bind (shielded_stateOf thread) fun state => .bind shielded_get fun s => ?_)
  split
  · exact shielded_pure _
  · exact .bind (shielded_setPriority thread _) fun _ => shielded_pure _

theorem restores_yield : Restores yield := (shielded_giveWay.bind fun _ => shielded_dispatch).restores

theorem restores_acquire (lock : LockId) : Restores (acquire lock) := by
  refine Shielded.restores (.bind (shielded_contend lock) fun outcome => ?_)
  cases outcome with
  | acquired => exact shielded_pure _
  | blocked holder => exact .bind shielded_dispatch fun _ => shielded_pure _

theorem restores_release (lock : LockId) : Restores (release lock) :=
  (shielded_current.bind fun thread => shielded_now.bind fun time => shielded_handOn lock thread time).restores

theorem restores_finish : Restores finish := (shielded_depart.bind fun _ => shielded_dispatch).restores

theorem restores_shutdown : Restores shutdown := by
  refine Shielded.restores (.bind shielded_get fun s => ?_)
  refine .bind (shielded_liftFault s.statistics.overflows_report.unalarmed) fun report => ?_
  split
  · exact shielded_pure _
  · refine .bind (shielded_emit _) fun _ => .bind (shielded_notice _) fun _ => ?_
    refine .bind (shielded_set fun _ => rfl) fun _ => ?_
    exact shielded_pure _

end Action

def Call.masks : Call → Bool
  | .promote _ | .demote _ | .yield | .finish | .acquire _ | .release _ | .shutdown => true
  | _ => false

theorem restores_call {call : Call} (masks : call.masks = true) : Restores call.action := by
  cases call with
  | promote thread => exact (restores_promote thread).unit
  | demote thread => exact (restores_demote thread).unit
  | yield => exact restores_yield.unit
  | finish => exact restores_finish.unit
  | acquire lock => exact (restores_acquire lock).unit
  | release lock => exact (restores_release lock).unit
  | shutdown => exact restores_shutdown.unit
  | _ => cases masks

theorem Failure.ne_interruptsEnabled {f : Failure} (other : f.isUnmasked = false) (operation : Operation) :
    f ≠ .fatal (.interruptsEnabled operation) := by
  rintro rfl
  cases other

/-- A call that masks interrupts for itself goes through, is refused or fails with the flag as before, and never because
interrupts are enabled. Guards that are dropped in the reverse order of their making keep interrupts masked, and leave the
flag as it was before the first. -/
theorem guards_restore :
    (∀ (call : Call) (s : Scheduler), call.masks = true →
      Settles call.action s (fun _ s' => s'.interrupts = ⟨s.interrupts.enabled, s.interrupts.disableCount + 1⟩)
        fun f s' => s'.interrupts = ⟨s.interrupts.enabled, s.interrupts.disableCount + 1⟩ ∧
          ∀ operation, f ≠ .fatal (.interruptsEnabled operation)) ∧
    ∀ (moves : List GuardMove) (i i' : Interrupts) (living : List Interrupts.Guard),
      Interrupts.guardAll moves i [] = some (i', living) →
        (living ≠ [] → i'.enabled = false) ∧
          (living = [] → i' = ⟨i.enabled, i.disableCount + moves.count .take⟩) := by
  refine ⟨fun call s masks => ?_, fun moves i i' living moved => ?_⟩
  · exact (restores_call masks s).imp (fun _ _ => id) fun f _ both => ⟨both.1, f.ne_interruptsEnabled both.2⟩
  · have started : Interrupts.Nested i.enabled i.enabled [] := rfl
    obtain ⟨nested, counted⟩ := Interrupts.nested_of_guardAll started moved
    cases living with
    | nil => exact ⟨fun some => absurd rfl some, fun _ => congrArg₂ Interrupts.mk nested counted⟩
    | cons youngest older => exact ⟨fun _ => nested.1, nofun⟩

/-- A thread cannot finish while an idle thread waits for its lock; the flag survives. Of two guards one is dropped. -/
theorem guards_restore_besieged :
    (∃ s f s', besieged = some s ∧ Call.finish.action s = .error f s' ∧ f = .fatal .idleMadeReady ∧
      s'.interrupts = ⟨s.interrupts.enabled, s.interrupts.disableCount + 1⟩) ∧
    (∃ i' living, Interrupts.guardAll [.take, .take, .drop] {} [] = some (i', living) ∧ i'.enabled = false) ∧
    ∃ i', Interrupts.guardAll [.take, .take, .drop, .drop] {} [] = some (i', []) ∧ i' = ⟨true, 2⟩ := by
  refine ⟨?_, ?_, ?_⟩
  · have reached : besieged = some (besieged.get (by decide)) := (Option.some_get _).symm
    have failed : (besieged.get (by decide)).failure? Call.finish.action = some (.fatal .idleMadeReady) := by
      decide +kernel
    obtain ⟨s', failed⟩ := exists_of_failure? failed
    exact ⟨_, _, s', reached, failed, rfl, (Settles.of_error (guards_restore.1 .finish _ rfl) failed).1⟩
  · have moved : Interrupts.guardAll [.take, .take, .drop] {} [] = some (⟨false, 2⟩, [⟨true⟩]) := by decide
    exact ⟨_, _, moved, (guards_restore.2 _ _ _ _ moved).1 (by decide)⟩
  · have moved : Interrupts.guardAll [.take, .take, .drop, .drop] {} [] = some (⟨true, 2⟩, []) := by decide
    exact ⟨_, moved, (guards_restore.2 _ _ _ _ moved).2 rfl⟩

end PriorityScheduler
