import PriorityScheduler.Proofs.Scheduler.Calls
import PriorityScheduler.Proofs.Scheduler.Selection

namespace PriorityScheduler

open PriorityScheduler.Action PriorityScheduler.Scheduler

variable {named : Thread → Prop} {inv mid post refused : Scheduler → Prop} {s : Scheduler}

def Scheduler.left (s : Scheduler) (id : ThreadId) : Scheduler :=
  match (s.threads.get? id).bind (·.queuedOn) with
  | none => s
  | some queue =>
      match s.queues.get? queue with
      | none => s
      | some q =>
          let (_, q, threads) := q.remove id s.threads
          { s with queues := s.queues.insert queue q, threads }

theorem Scheduler.exists_left (s : Scheduler) (id : ThreadId) :
    ∃ queues threads, s.left id = { s with queues, threads } ∧ s.threads.Matches ThreadState.unqueued threads := by
  have still : ∃ queues threads, s = { s with queues, threads } ∧ s.threads.Matches ThreadState.unqueued threads :=
    ⟨s.queues, s.threads, rfl, .refl s.threads⟩
  unfold Scheduler.left
  split
  · exact still
  · split
    · exact still
    · rename_i queue _ q _
      refine ⟨_, _, rfl, ?_⟩
      show s.threads.Matches _ (if (q.remove id s.threads).1 = true then _ else _)
      split
      · exact .modify s.threads id fun _ => rfl
      · exact .refl s.threads

theorem Scheduler.locks_left (s : Scheduler) (id : ThreadId) : (s.left id).locks = s.locks := by
  obtain ⟨queues, threads, left, -⟩ := s.exists_left id
  rw [left]

/-- What holds on the way while a thread ends: after its wait was withdrawn, while it still has `locks` to hand on, and
after it left its queue. What it leaves behind is `mid`. -/
structure Departs (inv mid refused : Scheduler → Prop) (thread : Thread) (time : Ticks)
    (holding : List LockId → Scheduler → Prop) (gone : Scheduler → Prop) : Prop where
  books : ∀ locks, Recorded (holding locks)
  weaken : ∀ {locks s}, holding locks s → refused s
  withdrawn : ∀ {s : Scheduler}, inv s →
    let w := s.locks.withdraw thread.id s.threads
    holding (w.locks.heldBy thread.id) (s.follow w w.changed)
  handed : ∀ {lock locks s}, holding (lock :: locks) s →
    Ends (handOn lock thread time) s (fun _ => holding locks) refused
  left : ∀ {s : Scheduler}, holding [] s → gone (s.left thread.id)
  retires : ∀ {s : Scheduler}, gone s → Ends (retire thread time) s (fun _ => mid) refused

theorem Departs.ends_handOn {thread : Thread} {time : Ticks} {holding : List LockId → Scheduler → Prop}
    {gone : Scheduler → Prop} (departs : Departs inv mid refused thread time holding gone) {locks : List LockId}
    (holds : holding locks s) :
    Ends (locks.forM fun lock => do
      notice (.finishedHolding thread lock)
      let _ ← handOn lock thread time) s (fun _ => holding []) refused := by
  induction locks generalizing s with
  | nil => exact holds
  | cons lock rest ih =>
      simp only [List.forM_eq_forM, List.forM_cons]
      rw [ends_bind, ends_bind]
      refine ((departs.books (lock :: rest)).notice _ s holds).imp (fun _ s' holds' => ?_) fun _ => departs.weaken
      rw [ends_bind]
      refine (departs.handed holds').imp (fun _ s₁ handed => ?_) fun _ => id
      rw [ends_pure]
      exact ih handed

theorem ends_retire_record {thread : Thread} (books : Recorded mid) (time : Ticks)
    (stays : s.threads.get? thread.id = none → mid s)
    (retired : ∀ state record statistics, s.threads.get? thread.id = some state →
      state.finished time s.statistics = .ok (record, statistics) →
      mid (({ s with threads := s.threads.remove thread.id } : Scheduler).tell
        (record.toList.map fun r => .event (.finished thread r)))) :
    Ends (retire thread time) s (fun _ => mid) refused := by
  rw [retire, ends_bind, ends_get]
  cases found : s.threads.get? thread.id with
  | none =>
      simp only
      split
      · rw [ends_bind]
        apply ends_liftFault
        intro statistics _
        exact books.still (s := s) ⟨rfl, rfl, rfl, rfl, rfl, rfl, rfl, rfl, rfl⟩ rfl (stays found)
      · exact stays found
  | some state =>
      simp only
      rw [ends_bind, ends_set, ends_bind]
      refine ends_liftFault fun ⟨record, statistics⟩ drawn => ?_
      have told := retired state record statistics found drawn
      simp only
      rw [ends_bind, ends_modify]
      let s₁ : Scheduler := { s with threads := s.threads.remove thread.id, statistics }
      have counted : mid (s₁.tell (record.toList.map fun r => .event (.finished thread r))) := by
        refine books.still ?_ ?_ told
        · exact ⟨rfl, rfl, rfl, rfl, rfl, rfl, rfl, rfl, rfl⟩
        · rfl
      cases record with
      | none => simpa [Scheduler.tell, s₁] using counted
      | some record => exact counted

theorem ends_retire {thread : Thread} (books : Bookkept mid) (time : Ticks)
    (finished : ∀ {s record}, mid s → mid (s.tell [.event (.finished thread record)]))
    (stays : s.threads.get? thread.id = none → mid s)
    (retired : mid { s with threads := s.threads.remove thread.id }) :
    Ends (retire thread time) s (fun _ => mid) refused := by
  refine ends_retire_record books.toRecorded time stays fun state record _ _ _ => ?_
  cases record with
  | none => exact books.told nofun retired
  | some record => exact finished retired

theorem ends_depart_block {holding : List LockId → Scheduler → Prop} {gone : Scheduler → Prop} (books : Recorded mid)
    (blocked : s.processor.current.isIdle = false → ∀ s', mid s' → post { s' with processor := s'.processor.block })
    (departs : s.processor.current.isIdle = false →
      Departs inv mid refused s.processor.current s.clock.now holding gone)
    (holds : inv s) : Ends depart s (fun _ => post) refused := by
  rw [depart, current, ends_bind, ends_bind, ends_get, ends_pure]
  cases idle : s.processor.current.isIdle with
  | true => trivial
  | false =>
      replace departs := departs idle
      simp only [Bool.false_eq_true, if_false]
      rw [now, ends_bind, ends_bind, ends_get, ends_pure, ends_bind, ends_get, ends_adopt, ends_bind, ends_get, ends_bind]
      let w := s.locks.withdraw s.processor.current.id s.threads
      have withdrawn := (departs.books _).told (Bookkept.silent_notices w.notices) (departs.withdrawn holds)
      refine (departs.ends_handOn withdrawn).imp (fun _ s₁ handed => ?_) fun _ => id
      rw [ends_bind, leaveQueue, ends_modify, ends_bind]
      refine (departs.retires (departs.left handed)).imp (fun _ s₂ retired => ?_) fun _ => id
      rw [ends_bind, Action.notice, ends_modify]
      exact blocked idle _ (books.told (Bookkept.silent_notices [_]) retired)

theorem ends_depart {holding : List LockId → Scheduler → Prop} {gone : Scheduler → Prop} (books : Bookkept mid)
    (departs : s.processor.current.isIdle = false →
      Departs inv mid refused s.processor.current s.clock.now holding gone)
    (holds : inv s) : Ends depart s (fun _ => mid) refused :=
  ends_depart_block books.toRecorded
    (fun _ s' => books.quiet (s := s') ⟨rfl, rfl, rfl, rfl, rfl, rfl, rfl, rfl, rfl⟩) departs holds

theorem Kept.ends_depart {gone : Scheduler → Prop} (kept : Kept named .ready inv) (books : Bookkept mid)
    (weaken : ∀ {s'}, inv s' → mid s')
    (withdrawn :
      let w := s.locks.withdraw s.processor.current.id s.threads
      inv (s.follow w w.changed))
    (left : ∀ {s' : Scheduler}, inv s' → gone (s'.left s.processor.current.id))
    (retires : ∀ {s' : Scheduler}, gone s' → Ends (retire s.processor.current s.clock.now) s' (fun _ => mid) mid) :
    Ends depart s (fun _ => mid) mid := by
  have departs : Departs (· = s) mid mid s.processor.current s.clock.now (fun _ => inv) gone := by
    refine ⟨fun _ => kept.toRecorded, weaken, fun {s'} same => ?_, fun {lock _ s'} holds => ?_, left, retires⟩
    · rw [same]
      exact withdrawn
    · exact (kept.handOn lock s.processor.current s.clock.now s' holds).imp (fun _ _ => id) fun _ => weaken
  exact PriorityScheduler.ends_depart books (fun _ => departs) rfl

theorem ends_parts {call : Call} (mild : Mild named inv) (listed : ∀ t ∈ call.thread?, named t)
    (later : ∀ {s'}, s.selection call = none ∨ call = .dispatch → inv s' → mid s')
    (interrupted : ∀ {s' : Scheduler} i, post s' → post { s' with interrupts := i })
    (settled : ∀ s', mid s' → s.selection call = none → post s')
    (joins : ∀ queue thread, call = .join queue thread → Ends (joinQueue queue thread) s (fun _ => mid) mid)
    (wakes : ∀ thread, call = .wake thread → Ends (wake thread) s (fun _ => mid) mid)
    (givesWay : call = .yield → Ends giveWay s.masked (fun _ => mid) mid)
    (suspends : call = .sleep → s.processor.current.isIdle = false →
      Ends (suspend s.processor.current) s (fun _ => mid) mid)
    (served : ∀ queue, call = .serve queue → Ends (serve queue) s (fun _ => post) post)
    (dispatched : ∀ s₁, s.selection call = some (.ready, s₁) → mid s₁ → Ends dispatch s₁ (fun _ => post) post)
    (contended : ∀ lock, call = .acquire lock → Ends (contend lock) s.masked (fun _ => mid) mid)
    (handed : ∀ lock, call = .release lock →
      Ends (handOn lock s.processor.current s.clock.now) s.masked (fun _ => mid) mid)
    (departed : call = .finish → Ends depart s.masked (fun _ => mid) mid)
    (holds : inv s) : Ends call.action s (fun _ => post) post := by
  have settles {α : Type} {m : Action α} (none : s.selection call = none) (ends : Ends m s (fun _ => mid) mid) :
      Ends m s (fun _ => post) post :=
    ends.imp (fun _ s' after => settled s' after none) fun s' after => settled s' after none
  have plain {α : Type} {m : Action α} (none : s.selection call = none) (keeps : Keeps inv m) :
      Ends m s (fun _ => post) post :=
    settles none ((keeps s holds).imp (fun _ _ => later (.inl none)) fun _ => later (.inl none))
  have released {α : Type} {m : Action α} (ends : Ends m s.masked (fun _ => post) post) :
      Ends (masked m) s (fun _ => post) post := by
    rw [ends_masked]
    exact ends.imp (fun _ _ => interrupted _) fun _ => interrupted _
  cases call with
  | createQueue transfer => exact ends_unit (plain rfl (mild.createQueue transfer))
  | join queue thread => exact settles rfl (joins queue thread rfl)
  | serve queue => exact ends_unit (served queue rfl)
  | claim queue thread => exact plain rfl (mild.claimQueue queue thread)
  | readPriority thread => exact ends_unit (plain rfl (mild.readPriority (listed thread rfl)))
  | readEffective thread => exact ends_unit (plain rfl (mild.readEffective (listed thread rfl)))
  | setPriority thread p => exact plain rfl (mild.setPriority (listed thread rfl) p)
  | requestPriority thread p => exact plain rfl (mild.requestPriority (listed thread rfl) p)
  | setNearestPriority thread p => exact plain rfl (mild.setNearestPriority (listed thread rfl) p)
  | promote thread => exact ends_unit (plain rfl (mild.promote (listed thread rfl)))
  | demote thread => exact ends_unit (plain rfl (mild.demote (listed thread rfl)))
  | wake thread => exact settles rfl (wakes thread rfl)
  | dispatch => exact ends_unit (dispatched s rfl (later (.inr rfl) holds))
  | yield =>
      refine ends_unit (released ?_)
      rw [ends_bind]
      refine (givesWay rfl).run.imp (fun _ s₁ both => ?_) fun s₁ both => ?_
      · exact dispatched s₁ (by simp [Scheduler.selection, both.2]) both.1
      · exact settled s₁ both.1 (by simp [Scheduler.selection, both.2])
  | sleep =>
      apply ends_unit
      rw [sleep, ends_bind, Action.assertMasked, ends_bind, ends_get]
      split
      · trivial
      · rw [ends_pure, current, ends_bind, ends_bind, ends_get, ends_pure]
        split
        · trivial
        · rename_i busy
          rw [ends_bind]
          refine (suspends rfl (Bool.eq_false_iff.mpr busy)).run.imp (fun _ s₁ both => ?_) fun s₁ both => ?_
          · exact dispatched s₁ (by simp [Scheduler.selection, both.2]) both.1
          · exact settled s₁ both.1 (by simp [Scheduler.selection, both.2])
  | finish =>
      refine ends_unit (released ?_)
      rw [ends_bind]
      refine (departed rfl).run.imp (fun _ s₁ both => ?_) fun s₁ both => ?_
      · exact dispatched s₁ (by simp [Scheduler.selection, both.2]) both.1
      · exact settled s₁ both.1 (by simp [Scheduler.selection, both.2])
  | createLock => exact ends_unit (plain rfl mild.createLock)
  | acquire lock =>
      refine ends_unit (released ?_)
      rw [ends_bind]
      refine (contended lock rfl).run.imp (fun outcome s₁ both => ?_) fun s₁ both => ?_
      · cases outcome with
        | acquired => exact settled s₁ both.1 (by simp [Scheduler.selection, both.2])
        | blocked holder =>
            rw [ends_bind]
            exact (dispatched s₁ (by simp [Scheduler.selection, both.2]) both.1).imp (fun _ _ => id) fun _ => id
      · exact settled s₁ both.1 (by simp [Scheduler.selection, both.2])
  | release lock =>
      have settled (s' : Scheduler) (after : mid s') : post s' := settled s' after rfl
      exact ends_unit (released ((handed lock rfl).imp (fun _ => settled) settled))
  | shutdown => exact ends_unit (plain rfl mild.shutdown)

theorem Lockless.ends_parts {call : Call} (kept : Lockless named call.target inv) (listed : ∀ t ∈ call.thread?, named t)
    (later : ∀ {s'}, inv s' → mid s') (interrupted : ∀ {s' : Scheduler} i, post s' → post { s' with interrupts := i })
    (settled : ∀ s', mid s' → s.selection call = none → post s')
    (served : ∀ queue, call = .serve queue → Ends (serve queue) s (fun _ => post) post)
    (dispatched : ∀ s₁, s.selection call = some (.ready, s₁) → mid s₁ → Ends dispatch s₁ (fun _ => post) post)
    (contended : ∀ lock, call = .acquire lock → Ends (contend lock) s.masked (fun _ => inv) inv)
    (handed : ∀ lock, call = .release lock →
      Ends (Action.handOn lock s.processor.current s.clock.now) s.masked (fun _ => inv) inv)
    (departed : call = .finish → Ends depart s.masked (fun _ => mid) mid)
    (holds : inv s) : Ends call.action s (fun _ => post) post := by
  have soon {α : Type} {m : Action α} {s : Scheduler} (ends : Ends m s (fun _ => inv) inv) : Ends m s (fun _ => mid) mid :=
    ends.imp (fun _ _ => later) fun _ => later
  refine PriorityScheduler.ends_parts kept.mild listed (fun _ => later) interrupted settled ?_ ?_ ?_ ?_ served dispatched
    (fun lock same => soon (contended lock same)) (fun lock same => soon (handed lock same)) departed holds
  · rintro queue thread rfl
    exact soon (kept.joinQueue (listed thread rfl) s holds)
  · rintro thread rfl
    exact soon (kept.wake (listed thread rfl) s holds)
  · rintro rfl
    exact soon (kept.giveWay s.masked (kept.interrupted _ holds))
  · intro _ _
    exact soon (kept.suspend s.processor.current holds)

/-- A property that all parts keep, and what is left of it before the selection: what a call establishes is that at once if
the call selects no thread, and else what follows from it after the selection. -/
theorem ends_selecting {call : Call} (kept : Lockless named call.target inv) (listed : ∀ t ∈ call.thread?, named t)
    (later : ∀ {s'}, inv s' → mid s') (survives : Dispatched post)
    (contended : ∀ lock, call = .acquire lock → Ends (contend lock) s.masked (fun _ => inv) inv)
    (handed : ∀ lock, call = .release lock →
      Ends (handOn lock s.processor.current s.clock.now) s.masked (fun _ => inv) inv)
    (departed : call = .finish → Ends depart s.masked (fun _ => mid) mid)
    (unselected : ∀ s', mid s' → (∀ id s₁, s.selection call = some (id, s₁) → s₁.queues.get? id = none) → post s')
    (selected : ∀ {id : QueueId} {s₁ : Scheduler} {q : WaitQueue} {n : Noted (Selection WaitQueue)},
      s.selection call = some (id, s₁) → mid s₁ → s₁.queues.get? id = some q →
      q.next s₁.threads s₁.clock.now = .ok n → post (s₁.selected id n))
    (holds : inv s) : Ends call.action s (fun _ => post) post := by
  refine kept.ends_parts listed later survives.interrupted (fun s' after none => ?_) ?_ ?_ contended handed departed holds
  · exact unselected s' after (by simp [none])
  · rintro queue rfl
    refine ends_serve (fun absent => unselected s (later holds) ?_) fun q n found taken => ?_
    · rintro id s₁ ⟨⟩
      exact absent
    · exact survives.told (Bookkept.silent_notices n.notices) (selected rfl (later holds) found taken)
  · intro s₁ chosen before
    refine (survives.ends_dispatch (fun absent => unselected s₁ before ?_) fun q n => selected chosen before).imp
      (fun _ _ both => both.1) fun _ => id
    intro id s₂ other
    obtain ⟨rfl, rfl⟩ := Prod.mk.inj (Option.some.inj (chosen.symm.trans other))
    exact absent

theorem ends_call {call : Call} (listed : ∀ t ∈ call.thread?, named t) (kept : Kept named call.target inv)
    (later : ∀ {s'}, inv s' → mid s') (survives : Dispatched post)
    (acquired : ∀ {lock : LockId} {s' : Scheduler} {outcome : LockOutcome} {w : Walk}, call = .acquire lock →
      s'.locks = s.locks → (∀ j, s'.threads.blockedOn? j = s.threads.blockedOn? j) →
      (s'.threads.get? s.processor.current.id).isSome →
      s'.locks.acquire lock s.processor.current.id s'.threads = .ok (outcome, w) → inv s' →
      inv (s'.follow w w.changed))
    (taker : call.takesLock = true → named s.processor.current)
    (departed : call = .finish → Ends depart s.masked (fun _ => mid) mid)
    (unselected : ∀ s', mid s' → (∀ id s₁, s.selection call = some (id, s₁) → s₁.queues.get? id = none) → post s')
    (selected : ∀ {id : QueueId} {s₁ : Scheduler} {q : WaitQueue} {n : Noted (Selection WaitQueue)},
      s.selection call = some (id, s₁) → mid s₁ → s₁.queues.get? id = some q →
      q.next s₁.threads s₁.clock.now = .ok n → post (s₁.selected id n))
    (holds : inv s) : Ends call.action s (fun _ => post) post := by
  have holds' : inv s.masked := kept.interrupted _ holds
  refine ends_selecting kept.toLockless listed later survives ?_ ?_ departed unselected selected holds
  · rintro lock rfl
    exact kept.contend (s := s.masked) (taker rfl) holds' (acquired rfl)
  · rintro lock rfl
    exact kept.handOn lock s.processor.current s.clock.now s.masked holds'

end PriorityScheduler
