import PriorityScheduler.Proofs.Accounts
import PriorityScheduler.Proofs.Locks.Operations
import PriorityScheduler.Proofs.Queues.Waiting
import PriorityScheduler.Proofs.Scheduler.Actions

/-!
# Properties that the parts of an action keep

The state of a scheduler changes in a handful of ways: a thread gets a state or a new priority, joins a queue, gets
a lock or hands one on, and so on. `Kept` says that a property survives each of them; whatever is put together from
them then keeps it too. `Bookkept`, `Filing`, `Admitting`, `Neutral` and `Lockless` ask for less and cover fewer actions;
`Recorded`, `Listing`, `Plain` and `Mild` leave out the changes of the processor as well. Dispatches and the ends of threads
are not among these changes.

Main statements: `Filing.ends_wake`, `Neutral.ageOut`, `Neutral.setPriority`, `Neutral.ends_contend`, `ends_handOn` and
`Kept.handOn`.
-/

namespace PriorityScheduler

def Thread.IsUser (t : Thread) : Prop := t = .main ∨ t.role = .ordinary ∧ t.id ≠ .main

def ThreadState.named (s : ThreadState) : ThreadState := .new s.thread 0

namespace Scheduler

theorem thread?_of_matches {s s' : Scheduler} (same : s.threads.Matches ThreadState.named s'.threads) :
    s'.thread? = s.thread? := by
  funext id
  have threads : (s'.threads.get? id).map (·.thread) = (s.threads.get? id).map (·.thread) :=
    same.map ThreadState.thread (fun _ => rfl) id
  unfold Scheduler.thread?
  cases before : s.threads.get? id <;> cases after : s'.threads.get? id <;> simp_all

def repositioned (threads : ThreadRegistry) (ids : List ThreadId) (queues : SortedMap QueueId WaitQueue) :
    SortedMap QueueId WaitQueue :=
  ids.foldl (fun queues id =>
    match (threads.get? id).bind (·.queuedOn) with
    | none => queues
    | some queue => queues.modify queue (·.reposition id threads)) queues

def follow (s : Scheduler) (w : Walk) (ids : List ThreadId) : Scheduler :=
  { s with locks := w.locks, threads := w.threads, queues := repositioned w.threads ids s.queues }

def tell (s : Scheduler) (out : List Output) : Scheduler := { s with output := s.output ++ out }

def enrol (s : Scheduler) (id : QueueId) (q : WaitQueue) (thread : Thread) (state : ThreadState) : Scheduler :=
  let threads := s.threads.put thread.id { state with queuedOn := some q.id }
  { s with queues := s.queues.insert id (q.joined thread threads), threads }

structure Same (s s' : Scheduler) : Prop where
  interrupts : s'.interrupts = s.interrupts
  clock : s'.clock = s.clock
  threads : s'.threads = s.threads
  queues : s'.queues = s.queues
  nextQueue : s'.nextQueue = s.nextQueue
  locks : s'.locks = s.locks
  output : s'.output = s.output
  current : s'.processor.current = s.processor.current
  idle : s'.idle.thread = s.idle.thread

theorem foldl_repositionOne (s : Scheduler) (ids : List ThreadId) :
    ids.foldl Action.repositionOne s = { s with queues := repositioned s.threads ids s.queues } := by
  induction ids generalizing s with
  | nil => rfl
  | cons id rest ih =>
      rw [List.foldl_cons, ih, repositioned, repositioned, List.foldl_cons]
      cases found : (s.threads.get? id).bind (·.queuedOn) with
      | none => simp only [Action.repositionOne, found]
      | some queue => simp only [Action.repositionOne, found]

theorem tell_tell (s : Scheduler) (first second : List Output) : (s.tell first).tell second = s.tell (first ++ second) := by
  simp only [tell, List.append_assoc]

end Scheduler

def Output.admitted? : Output → Option ThreadId
  | .event (.enqueued _ thread _) => some thread.id
  | _ => none

def Output.lockRecord? : Output → Option (LockId × LockTransition × ThreadId)
  | .event (.lock action lock _ thread _) => some (lock, action, thread)
  | _ => none

def Output.milestone? : Output → Option (ThreadId × Milestone)
  | .event (.enqueued time thread _) => some (thread.id, .admitted time)
  | .event (.scheduled time thread _) => some (thread.id, .dispatched time)
  | .event (.finished thread record) => some (thread.id, .finished record)
  | _ => none

/-- Nobody was admitted to a queue, dispatched or finished, and nothing happened to a lock. -/
structure Output.Silent (o : Output) : Prop where
  milestone? : o.milestone? = none
  lockRecord? : o.lockRecord? = none

theorem Output.Silent.admitted? {o : Output} (silent : o.Silent) : o.admitted? = none := by
  have nothing := silent.milestone?
  cases o with
  | notice n => rfl
  | event e =>
      cases e with
      | enqueued time thread p => cases nothing
      | _ => rfl

def LockOutcome.transition : LockOutcome → LockTransition
  | .acquired => .acquired
  | .blocked _ => .wait

def Output.handOver (lock : LockId) (time : Ticks) (holder : ThreadId) (p : Priority) (heir : Option ThreadId)
    (p' : Priority) : List Output :=
  .event (.lock .released lock time holder p) ::
    match heir with
    | none => []
    | some id => [.event (.lock .acquired lock time id p')]

/-- What is only recorded survives: statistics, the count of the idle thread, and what is told apart from events of threads
and locks. -/
structure Recorded (inv : Scheduler → Prop) : Prop where
  still : ∀ {s s' : Scheduler}, s.Same s' → s'.processor = s.processor → inv s → inv s'
  told : ∀ {s : Scheduler} {out : List Output}, (∀ o ∈ out, o.Silent) → inv s → inv (s.tell out)

structure Listing (named : Thread → Prop) (inv : Scheduler → Prop) : Prop extends Recorded inv where
  ensured : ∀ {s : Scheduler} {thread : Thread}, named thread → s.threads.get? thread.id = none → inv s →
    inv { s with threads := s.threads.put thread.id (.new thread s.threads.config.initial) }

structure Plain (named : Thread → Prop) (inv : Scheduler → Prop) : Prop extends Listing named inv where
  interrupted : ∀ {s : Scheduler} (interrupts : Interrupts), inv s → inv { s with interrupts }
  claimed : ∀ {s : Scheduler} {id : QueueId} {q : WaitQueue} {owner : Option ThreadId}, s.queues.get? id = some q →
    inv s → inv { s with queues := s.queues.insert id { q with owner } }
  queueMade : ∀ {s : Scheduler} {transfer : Bool}, inv s →
    inv { s with
      nextQueue := s.nextQueue + 1
      queues := s.queues.insert ⟨s.nextQueue⟩ (.new ⟨s.nextQueue⟩ transfer s.config) }
  lockMade : ∀ {s : Scheduler}, inv s → inv { s with locks := s.locks.create.2 }

structure Mild (named : Thread → Prop) (inv : Scheduler → Prop) : Prop extends Plain named inv where
  rebased : ∀ {s : Scheduler} {id : ThreadId} {state : ThreadState} {p : Priority},
    s.threads.get? id = some state → s.threads.config.inRange p = true → inv s →
    let c := ThreadState.refresh { state with base := p }
    let w := s.locks.reprice id c s.threads
    inv (s.follow w (if c.changed then w.changed ++ [id] else []))

structure Bookkept (inv : Scheduler → Prop) : Prop extends Recorded inv where
  quiet : ∀ {s s' : Scheduler}, s.Same s' → inv s → inv s'
  still same _ holds := quiet same holds

structure Filing (named : Thread → Prop) (inv : Scheduler → Prop) : Prop extends Bookkept inv, Listing named inv

/-- Admissions survive as well: a named thread joins the queue `target`. -/
structure Admitting (named : Thread → Prop) (target : QueueId) (inv : Scheduler → Prop) : Prop
    extends Filing named inv where
  joined : ∀ {s : Scheduler} {q : WaitQueue} {thread : Thread} {state : ThreadState} {accounts : Accounts}
    (p : Priority), named thread → s.threads.get? thread.id = some state → s.queues.get? target = some q →
    state.accounts.enqueued s.clock.now = .ok accounts → inv s →
    inv ((s.enrol target q thread { state with accounts }).tell [.event (.enqueued s.clock.now thread p)])

/-- What leaves each thread in its place and each lock in its hands survives, and the scheduler deals with named threads
only. -/
structure Neutral (named : Thread → Prop) (inv : Scheduler → Prop) : Prop extends Filing named inv, Plain named inv where
  known : ∀ {s : Scheduler} {id : ThreadId} {t : Thread}, s.thread? id = some t → inv s → named t
  running : ∀ {s : Scheduler}, s.processor.current.isIdle = false → inv s → named s.processor.current
  repriced : ∀ {s : Scheduler} {id : ThreadId} {state : ThreadState} {c : Change},
    s.threads.get? id = some state → state.Repriced s.threads.config c → inv s →
    let w := s.locks.reprice id c s.threads
    inv (s.follow w (if c.changed then w.changed ++ [id] else []))

/-- All but what happens to the hands that locks are in survives. -/
structure Lockless (named : Thread → Prop) (target : QueueId) (inv : Scheduler → Prop) : Prop
    extends Admitting named target inv, Neutral named inv

/-- Each change of the scheduler keeps a property; threads join no queue but `target`. -/
structure Kept (named : Thread → Prop) (target : QueueId) (inv : Scheduler → Prop) : Prop
    extends Lockless named target inv where
  emitted : ∀ {s : Scheduler} {action : LockTransition} {lock : LockId} {time : Ticks} {thread : ThreadId}
    {p : Priority}, inv s → inv (s.tell [.event (.lock action lock time thread p)])
  released : ∀ {s : Scheduler} {lock : LockId} {holder : ThreadId} {next : Option ThreadId} {w : Walk},
    s.locks.release lock holder s.threads = .ok (next, w) → inv s → inv (s.follow w w.changed)

open PriorityScheduler.Action PriorityScheduler.Scheduler

variable {named : Thread → Prop} {target : QueueId} {inv post refused : Scheduler → Prop}

namespace Bookkept

theorem and {inv' : Scheduler → Prop} (books : Bookkept inv) (books' : Bookkept inv') :
    Bookkept fun s => inv s ∧ inv' s where
  quiet same holds := ⟨books.quiet same holds.1, books'.quiet same holds.2⟩
  told silent holds := ⟨books.told silent holds.1, books'.told silent holds.2⟩

theorem assertMasked (inv : Scheduler → Prop) (operation : Operation) : Keeps inv (assertMasked operation) := by
  intro s holds
  rw [Action.assertMasked, ends_bind, ends_get]
  split
  · trivial
  · exact holds

theorem silent_notices (ns : List Notice) : ∀ o ∈ ns.map Output.notice, o.Silent := by
  intro o member
  obtain ⟨n, -, rfl⟩ := List.mem_map.mp member
  exact ⟨rfl, rfl⟩

theorem silent_event {e : Event} (milestone? : (Output.event e).milestone? = none)
    (lockRecord? : (Output.event e).lockRecord? = none) : ∀ o ∈ [Output.event e], o.Silent := by
  intro o member
  rw [List.mem_singleton.mp member]
  exact ⟨milestone?, lockRecord?⟩

end Bookkept

namespace Recorded

open Bookkept (silent_notices)

theorem and {inv' : Scheduler → Prop} (books : Recorded inv) (books' : Recorded inv') :
    Recorded fun s => inv s ∧ inv' s where
  still same processor holds := ⟨books.still same processor holds.1, books'.still same processor holds.2⟩
  told silent holds := ⟨books.told silent holds.1, books'.told silent holds.2⟩

variable (books : Recorded inv)
include books

theorem notice (n : Notice) : Keeps inv (notice n) := fun _ holds => books.told (silent_notices [n]) holds

theorem adopt {s : Scheduler} {refused : Scheduler → Prop} {w : Walk} {ids : List ThreadId}
    (holds : inv (s.follow w ids)) : Ends (adopt w >>= fun _ => reposition ids) s (fun _ => inv) refused := by
  rw [Action.adopt, ends_bind, ends_bind, ends_modify, Action.notices, ends_modify, reposition, ends_modify,
    foldl_repositionOne]
  exact books.told (silent_notices w.notices) holds

theorem idleThread {s : Scheduler} {refused : Scheduler → Prop} (holds : inv s) :
    Ends idleThread s (fun t s' => inv s' ∧ t = s.idle.thread ∧ s'.idle.thread = s.idle.thread ∧ s'.clock = s.clock)
      refused := by
  rw [Action.idleThread, ends_bind, ends_get, ends_bind]
  apply ends_noted
  intro n dispatched
  obtain ⟨count, -, made⟩ := bind_eq_ok.mp dispatched
  cases made
  rw [ends_bind, ends_modify, ends_pure]
  refine ⟨?_, rfl, rfl, rfl⟩
  exact books.still (s := s.tell _) ⟨rfl, rfl, rfl, rfl, rfl, rfl, rfl, rfl, rfl⟩ rfl (books.told (silent_notices _) holds)

theorem priorityChanged {s : Scheduler} {refused : Scheduler → Prop} {id : ThreadId} {c : Change}
    (moved :
      let w := s.locks.reprice id c s.threads
      inv (s.follow w (if c.changed then w.changed ++ [id] else []))) :
    Ends (priorityChanged id c.changed) { s with threads := s.threads.put id c.state } (fun _ => inv) refused := by
  rw [Action.priorityChanged]
  unfold LockRegistry.reprice at moved
  cases changed : c.changed with
  | false =>
      rw [changed] at moved
      exact moved
  | true =>
      rw [changed] at moved
      rw [if_pos rfl, ends_bind, ends_get]
      exact books.adopt moved

theorem ends_ageOut {s : Scheduler} {refused : Scheduler → Prop} {thread : Thread}
    (absent : s.threads.get? thread.id = none → inv s)
    (aged : ∀ state n, s.threads.get? thread.id = some state →
      state.ageRunning s.threads.config.agingStep s.threads.config s.clock.now = .ok n →
      let w := s.locks.reprice thread.id n.value s.threads
      inv (s.follow w (if n.value.changed then w.changed ++ [thread.id] else []))) :
    Ends (ageOut thread) s (fun _ => inv) refused := by
  rw [Action.ageOut, now, ends_bind, ends_bind, ends_get, ends_pure, ends_bind, ends_get, ends_bind]
  apply ends_noted
  intro n done
  rw [ends_bind, ends_modify]
  cases found : s.threads.get? thread.id with
  | none =>
      simp only [ThreadRegistry.ageRunning, found] at done
      cases done
      exact books.told (silent_notices []) (absent found)
  | some state =>
      simp only [ThreadRegistry.ageRunning, found] at done
      obtain ⟨m, grown, made⟩ := bind_eq_ok.mp done
      cases made
      exact books.priorityChanged (s := s.tell (m.notices.map .notice))
        (books.told (silent_notices m.notices) (aged state m found grown))

end Recorded

section Adopt

variable {α : Type} {done : α → Scheduler → Prop} {s : Scheduler} {w : Walk} {ids : List ThreadId} {next : Action α}

theorem settles_adopt {failed : Failure → Scheduler → Prop} :
    Settles (adopt w >>= fun _ => reposition ids >>= fun _ => next) s done failed ↔
      Settles next ((s.follow w ids).tell (w.notices.map .notice)) done failed := by
  rw [settles_bind, Action.adopt, settles_bind, settles_modify, Action.notices, settles_modify, settles_bind, reposition,
    settles_modify, foldl_repositionOne]
  rfl

theorem ends_adopt :
    Ends (adopt w >>= fun _ => reposition ids >>= fun _ => next) s done refused ↔
      Ends next ((s.follow w ids).tell (w.notices.map .notice)) done refused := by
  rw [ends_iff_settles, settles_adopt, ends_iff_settles]

end Adopt

theorem settles_handOn (told : Option ThreadId → Scheduler → Prop) {done : Option ThreadId → Scheduler → Prop}
    {failed : Failure → Scheduler → Prop} {s : Scheduler} {lock : LockId} {holder : Thread} (time : Ticks)
    (rest : ∀ f, s.locks.release lock holder.id s.threads = .error f → failed f s)
    (released : ∀ next w p, s.locks.release lock holder.id s.threads = .ok (next, w) →
      told next ((s.follow w w.changed).tell
        (w.notices.map .notice ++ Output.handOver lock time holder.id (s.threads.effective holder.id) next p)))
    (unwoken : ∀ next s', told next s' → next.bind s'.thread? = none → done next s')
    (woken : ∀ heir thread s', told (some heir) s' → s'.thread? heir = some thread →
      Settles (wake thread) s' (fun _ => done (some heir)) failed) : Settles (handOn lock holder time) s done failed := by
  rw [handOn, settles_bind, settles_get, settles_bind]
  refine settles_lift (fun ⟨next, w⟩ ok => ?_) rest
  simp only
  rw [settles_bind, Action.adopt, settles_bind, settles_modify, Action.notices, settles_modify, settles_bind, emit,
    settles_modify, settles_bind, reposition, settles_modify, foldl_repositionOne]
  cases next with
  | none =>
      have after := released none w 0 ok
      simp only [Output.handOver, Scheduler.tell, ← List.append_assoc] at after
      exact unwoken none _ after rfl
  | some heir =>
      have after := released (some heir) w (w.threads.effective heir) ok
      simp only [Output.handOver, Scheduler.tell, List.append_cons _ _ [_], ← List.append_assoc] at after
      simp only
      rw [settles_bind, emitLock, settles_bind, settles_get, emit, settles_modify, settles_bind, settles_get]
      split
      · rename_i thread known
        rw [settles_bind]
        exact (woken heir thread _ after known).imp (fun _ _ => id) fun _ _ => id
      · rename_i unknown
        exact unwoken (some heir) _ after unknown

theorem ends_handOn (told : Option ThreadId → Scheduler → Prop) {done : Option ThreadId → Scheduler → Prop} {s : Scheduler}
    {lock : LockId} {holder : Thread} (time : Ticks) (rest : refused s)
    (released : ∀ next w p, s.locks.release lock holder.id s.threads = .ok (next, w) →
      told next ((s.follow w w.changed).tell
        (w.notices.map .notice ++ Output.handOver lock time holder.id (s.threads.effective holder.id) next p)))
    (unwoken : ∀ next s', told next s' → next.bind s'.thread? = none → done next s')
    (woken : ∀ heir thread s', told (some heir) s' → s'.thread? heir = some thread →
      Ends (wake thread) s' (fun _ => done (some heir)) refused) : Ends (handOn lock holder time) s done refused :=
  ends_iff_settles.mpr (settles_handOn told time (fun _ _ _ _ => rest) released unwoken fun heir thread s' holds known =>
    ends_iff_settles.mp (woken heir thread s' holds known))

/-! ## Admissions -/

namespace Listing

open Bookkept (assertMasked silent_notices)

theorem and {inv' : Scheduler → Prop} (lists : Listing named inv) (lists' : Listing named inv') :
    Listing named fun s => inv s ∧ inv' s where
  toRecorded := lists.toRecorded.and lists'.toRecorded
  ensured listed absent holds := ⟨lists.ensured listed absent holds.1, lists'.ensured listed absent holds.2⟩

theorem unready (named : Thread → Prop) (id : ThreadId) :
    Listing named fun s => (s.threads.get? id).bind (·.queuedOn) ≠ some .ready where
  still same _ holds := same.threads ▸ holds
  told _ holds := holds
  ensured {s thread} _ _ holds := by
    rw [ThreadRegistry.get?_put]
    split
    · exact nofun
    · exact holds

variable (lists : Listing named inv)
include lists

theorem stateOf {s : Scheduler} {thread : Thread} (listed : named thread) (holds : inv s) :
    Ends (stateOf thread) s (fun state s' => inv s' ∧ s'.threads.get? thread.id = some state ∧ s'.locks = s.locks ∧
      s'.processor = s.processor ∧ ∀ j, s'.threads.blockedOn? j = s.threads.blockedOn? j) inv := by
  rw [Action.stateOf, ends_bind, ends_get, ends_bind]
  apply ends_noted
  intro n ensured
  cases ensured
  rw [ends_bind, ends_modify, ends_pure]
  cases found : s.threads.get? thread.id with
  | some state =>
      simp only [ThreadRegistry.ensure, found]
      exact ⟨lists.told (silent_notices []) holds, trivial, trivial, trivial, fun _ => trivial⟩
  | none =>
      simp only [ThreadRegistry.ensure, found]
      refine ⟨lists.told (silent_notices _) (lists.ensured listed found holds), ?_, trivial, trivial, fun j => ?_⟩
      · rw [ThreadRegistry.get?_put, if_pos rfl]
      · rw [ThreadRegistry.blockedOn?, ThreadRegistry.get?_put]
        split
        · rename_i same
          rw [same, ThreadRegistry.blockedOn?, found]
          rfl
        · rfl

theorem ends_joinQueue {thread : Thread} {s : Scheduler} (listed : named thread) (holds : inv s)
    (joined : ∀ {s : Scheduler} {q : WaitQueue} {state : ThreadState} {accounts : Accounts} (p : Priority),
      s.threads.get? thread.id = some state → s.queues.get? target = some q →
      state.accounts.enqueued s.clock.now = .ok accounts → inv s →
      post ((s.enrol target q thread { state with accounts }).tell [.event (.enqueued s.clock.now thread p)]))
    (absent : ∀ s', s'.queues.get? target = none → inv s' → refused s') :
    Ends (joinQueue target thread) s (fun _ => post) refused := by
  rw [Action.joinQueue, ends_bind]
  rw [Action.assertMasked, ends_bind, ends_get]
  split
  · trivial
  rw [ends_pure, now, ends_bind, ends_bind, ends_get, ends_pure, ends_bind, queue, ends_bind, ends_get, Scheduler.queue?]
  cases found : s.queues.get? target with
  | none => exact absent s found holds
  | some q =>
      simp only [ends_pure]
      rw [ends_bind, ends_get, ends_bind]
      apply ends_noted
      intro n queued
      rw [ends_bind, ends_modify, emit, ends_modify]
      obtain ⟨accounts, accounted, rfl⟩ := WaitQueue.enqueue_ok queued
      dsimp only at accounted ⊢
      cases present : s.threads.get? thread.id with
      | some state =>
          simp only [ThreadRegistry.ensure, present] at accounted ⊢
          have told := lists.told (silent_notices []) holds
          exact joined (s := s.tell (List.map .notice [])) _ present found accounted told
      | none =>
          simp only [ThreadRegistry.ensure, present, ThreadRegistry.put_put] at accounted ⊢
          -- the thread gets its state first and then joins with it
          let made := ({ s with threads := s.threads.put thread.id (.new thread s.threads.config.initial) } : Scheduler).tell
            (List.map .notice [.stateCreated thread])
          have present' : made.threads.get? thread.id = some (.new thread s.threads.config.initial) := by
            simp only [made, Scheduler.tell, ThreadRegistry.get?_put, if_true]
          have told : inv made := lists.told (silent_notices _) (lists.ensured listed present holds)
          have joined (p : Priority) := joined p present' found accounted told
          simp only [Scheduler.enrol, made, Scheduler.tell, ThreadRegistry.put_put] at joined
          exact joined _

theorem ends_wake {thread : Thread} {s : Scheduler} (listed : named thread)
    (ready : thread.isIdle = false → (s.threads.get? thread.id).bind (·.queuedOn) = some .ready →
      post (s.tell [.notice (.alreadyReady thread)]))
    (readied : thread.isIdle = false → (s.threads.get? thread.id).bind (·.queuedOn) ≠ some .ready →
      inv { s with processor := s.processor.setReady thread })
    (joined : ∀ {s : Scheduler} {q : WaitQueue} {state : ThreadState} {accounts : Accounts} (p : Priority),
      thread.isIdle = false → state.queuedOn ≠ some .ready → s.threads.get? thread.id = some state →
      s.queues.get? .ready = some q → state.accounts.enqueued s.clock.now = .ok accounts → inv s →
      post ((s.enrol .ready q thread { state with accounts }).tell [.event (.enqueued s.clock.now thread p)]))
    (absent : ∀ s', s'.queues.get? .ready = none → inv s' → refused s') : Ends (wake thread) s (fun _ => post) refused := by
  rw [Action.wake, ends_bind, Action.assertMasked, ends_bind, ends_get]
  split
  · trivial
  · rw [ends_pure]
    cases idle : thread.isIdle with
    | true => trivial
    | false =>
        simp only [Bool.false_eq_true, if_false]
        rw [ends_bind, ends_get]
        split
        · rename_i here
          exact ready idle here
        · rename_i unready
          rw [ends_bind, Action.onProcessor, ends_modify]
          refine (lists.and (.unready named thread.id)).ends_joinQueue listed ⟨readied idle unready, unready⟩ ?_
            fun s' none both => absent s' none both.1
          intro s q state accounts p found queue accounted both
          have elsewhere : state.queuedOn ≠ some .ready := by simpa [found] using both.2
          exact joined p idle elsewhere found queue accounted both.1

end Listing

namespace Filing

open Bookkept (silent_notices)

theorem mono {named' : Thread → Prop} (files : Filing named inv) (listed : ∀ t, named' t → named t) :
    Filing named' inv where
  toBookkept := files.toBookkept
  ensured named absent holds := files.ensured (listed _ named) absent holds

theorem and {inv' : Scheduler → Prop} (files : Filing named inv) (files' : Filing named inv') :
    Filing named fun s => inv s ∧ inv' s where
  toBookkept := files.toBookkept.and files'.toBookkept
  ensured listed absent holds := ⟨files.ensured listed absent holds.1, files'.ensured listed absent holds.2⟩

theorem ends_wake (files : Filing named inv) {thread : Thread} {s : Scheduler} (listed : named thread) (holds : inv s)
    (still : ∀ {s}, (s.threads.get? thread.id).bind (·.queuedOn) = some .ready → inv s → post s)
    (joined : ∀ {s : Scheduler} {q : WaitQueue} {state : ThreadState} {accounts : Accounts} (p : Priority),
      thread.isIdle = false → state.queuedOn ≠ some .ready → s.threads.get? thread.id = some state →
      s.queues.get? .ready = some q → state.accounts.enqueued s.clock.now = .ok accounts → inv s →
      post ((s.enrol .ready q thread { state with accounts }).tell [.event (.enqueued s.clock.now thread p)])) :
    Ends (wake thread) s (fun _ => post) inv :=
  files.toListing.ends_wake listed
    (fun _ ready => still (s := s.tell [.notice (.alreadyReady thread)]) ready (files.told (silent_notices [_]) holds))
    (fun _ _ => files.quiet (s := s) ⟨rfl, rfl, rfl, rfl, rfl, rfl, rfl, rfl, rfl⟩ holds) joined fun _ _ => id

end Filing

namespace Admitting

theorem mono {named' : Thread → Prop} (admits : Admitting named target inv) (listed : ∀ t, named' t → named t) :
    Admitting named' target inv where
  toFiling := admits.toFiling.mono listed
  joined p named found queue accounted holds := admits.joined p (listed _ named) found queue accounted holds

theorem and {inv' : Scheduler → Prop} (admits : Admitting named target inv) (admits' : Admitting named target inv') :
    Admitting named target fun s => inv s ∧ inv' s where
  toFiling := admits.toFiling.and admits'.toFiling
  joined p listed found queue accounted holds :=
    ⟨admits.joined p listed found queue accounted holds.1, admits'.joined p listed found queue accounted holds.2⟩

theorem joinQueue (admits : Admitting named target inv) {thread : Thread} (listed : named thread) :
    Keeps inv (joinQueue target thread) :=
  fun _ holds => admits.ends_joinQueue listed holds (fun p => admits.joined p listed) fun _ _ => id

theorem wake (admits : Admitting named .ready inv) {thread : Thread} (listed : named thread) : Keeps inv (wake thread) :=
  fun _ holds => admits.ends_wake listed holds (fun _ => id) fun p _ _ => admits.joined p listed

end Admitting

/-! ## Priorities, queues and locks -/

namespace Mild

open Bookkept (assertMasked silent_notices silent_event)

variable (mild : Mild named inv)
include mild

theorem and {inv' : Scheduler → Prop} (mild' : Mild named inv') : Mild named fun s => inv s ∧ inv' s where
  toListing := mild.toListing.and mild'.toListing
  interrupted interrupts holds := ⟨mild.interrupted interrupts holds.1, mild'.interrupted interrupts holds.2⟩
  claimed queue holds := ⟨mild.claimed queue holds.1, mild'.claimed queue holds.2⟩
  queueMade holds := ⟨mild.queueMade holds.1, mild'.queueMade holds.2⟩
  lockMade holds := ⟨mild.lockMade holds.1, mild'.lockMade holds.2⟩
  rebased found inside holds := ⟨mild.rebased found inside holds.1, mild'.rebased found inside holds.2⟩

theorem masked {α : Type} {m : Action α} (keeps : Keeps inv m) : Keeps inv (masked m) := by
  intro s holds
  rw [ends_masked]
  exact (keeps _ (mild.interrupted _ holds)).imp (fun _ _ => mild.interrupted _) fun _ => mild.interrupted _

theorem setPriority {thread : Thread} (listed : named thread) (p : Priority) : Keeps inv (setPriority thread p) := by
  apply (assertMasked inv .setPriority).bind
  intro _ s holds
  rw [ends_bind]
  refine (mild.stateOf listed holds).imp ?_ fun _ => id
  rintro state s' ⟨holds, found, -⟩
  rw [ends_bind, ends_get, ends_bind]
  apply ends_liftFault
  intro c set
  rw [ends_bind, ends_modify]
  obtain ⟨inside, rfl⟩ := ThreadState.setPriority_ok set
  exact mild.toRecorded.priorityChanged (mild.rebased found inside holds)

theorem claimQueue (id : QueueId) (thread : Thread) : Keeps inv (claimQueue id thread) := by
  intro s holds
  rw [Action.claimQueue, ends_bind]
  refine (assertMasked inv .claimQueue s holds).imp ?_ fun _ holds => holds
  intro _ s holds
  rw [ends_bind, queue, ends_bind, ends_get, Scheduler.queue?]
  cases found : s.queues.get? id with
  | none => exact holds
  | some q =>
      simp only [ends_pure]
      rw [ends_bind]
      apply ends_liftFault
      intro q' claimed
      unfold WaitQueue.acquire at claimed
      split at claimed
      · cases claimed
        exact mild.claimed found holds
      · cases claimed

theorem createQueue (transfer : Bool) : Keeps inv (createQueue transfer) := by
  intro s holds
  rw [Action.createQueue, ends_bind, ends_get, ends_bind, ends_set, ends_bind]
  exact (mild.notice _ _ (mild.queueMade holds)).imp (fun _ _ => id) fun _ => id

theorem createLock : Keeps inv createLock := by
  intro s holds
  exact mild.lockMade holds

theorem readPriority {thread : Thread} (listed : named thread) : Keeps inv (priorityOf thread) := by
  apply (assertMasked inv .readPriority).bind
  intro _ s holds
  rw [ends_bind]
  exact (mild.stateOf listed holds).imp (fun _ _ both => both.1) fun _ => id

theorem readEffective {thread : Thread} (listed : named thread) : Keeps inv (effectivePriorityOf thread) := by
  apply (assertMasked inv .readEffective).bind
  intro _ s holds
  rw [ends_bind]
  exact (mild.stateOf listed holds).imp (fun _ _ both => both.1) fun _ => id

theorem requestPriority {thread : Thread} (listed : named thread) (p : Priority) :
    Keeps inv (requestPriority thread p) := by
  intro s holds
  rw [Action.requestPriority, ends_bind, ends_get]
  dsimp only
  split
  · exact mild.setPriority listed p s holds
  · rw [ends_bind]
    exact (mild.notice _ s holds).imp (fun _ _ => id) fun _ => id

theorem setNearestPriority {thread : Thread} (listed : named thread) (p : Priority) :
    Keeps inv (setNearestPriority thread p) := by
  intro s holds
  rw [Action.setNearestPriority, ends_bind, ends_get, ends_bind]
  exact ends_liftFault fun q _ => mild.setPriority listed q s holds

theorem promote {thread : Thread} (listed : named thread) : Keeps inv (promote thread) := by
  apply mild.masked
  intro s holds
  rw [ends_bind]
  refine (mild.stateOf listed holds).imp ?_ fun _ => id
  rintro state s' ⟨holds, -⟩
  rw [ends_bind, ends_get]
  split
  · exact holds
  · rw [ends_bind]
    exact (mild.setPriority listed _ s' holds).imp (fun _ _ => id) fun _ => id

theorem demote {thread : Thread} (listed : named thread) : Keeps inv (demote thread) := by
  apply mild.masked
  intro s holds
  rw [ends_bind]
  refine (mild.stateOf listed holds).imp ?_ fun _ => id
  rintro state s' ⟨holds, -⟩
  rw [ends_bind, ends_get]
  split
  · exact holds
  · rw [ends_bind]
    exact (mild.setPriority listed _ s' holds).imp (fun _ _ => id) fun _ => id

theorem shutdown : Keeps inv shutdown := by
  apply mild.masked
  intro s holds
  rw [ends_bind, ends_get, ends_bind]
  apply ends_liftFault
  intro report _
  cases s.shutDown with
  | true => exact holds
  | false =>
      have event : inv (s.tell [.event (.system report)]) := mild.told (silent_event rfl rfl) holds
      have told : inv ((s.tell [.event (.system report)]).tell [.notice .shutDown]) :=
        mild.told (silent_notices [.shutDown]) event
      exact mild.still (s := (s.tell [.event (.system report)]).tell [.notice .shutDown])
        ⟨rfl, rfl, rfl, rfl, rfl, rfl, rfl, rfl, rfl⟩ rfl told

end Mild

theorem Listing.ends_contend {won : LockOutcome → Scheduler → Prop} {done : LockOutcome → Scheduler → Prop}
    {s : Scheduler} {lock : LockId} (lists : Listing named inv) (listed : named s.processor.current) (holds : inv s)
    (books : ∀ outcome, Recorded (won outcome))
    (acquired : ∀ {s' : Scheduler} {outcome : LockOutcome} {w : Walk} (p : Priority), s'.locks = s.locks →
      (∀ j, s'.threads.blockedOn? j = s.threads.blockedOn? j) →
      (s'.threads.get? s.processor.current.id).isSome →
      s'.locks.acquire lock s.processor.current.id s'.threads = .ok (outcome, w) → inv s' →
      won outcome ((s'.follow w w.changed).tell
        (w.notices.map .notice ++ [.event (.lock outcome.transition lock s.clock.now s.processor.current.id p)])))
    (goes : ∀ s', won .acquired s' → done .acquired s')
    (suspends : ∀ holder s', won (.blocked holder) s' →
      Ends (suspend s.processor.current) s' (fun _ => done (.blocked holder)) inv) :
    Ends (contend lock) s done inv := by
  rw [Action.contend, current, ends_bind, ends_bind, ends_get, ends_pure, now, ends_bind, ends_bind, ends_get, ends_pure,
    ends_bind]
  refine (lists.stateOf listed holds).imp ?_ fun _ => id
  rintro state s' ⟨holds, found, locks, -, blockedOn?⟩
  rw [ends_bind, ends_get, ends_bind]
  refine ends_lift (fun ⟨outcome, w⟩ acquires => ?_) holds
  have told := acquired (w.threads.effective s.processor.current.id) locks blockedOn? (by simp [found]) acquires holds
  simp only [Scheduler.tell, ← List.append_assoc] at told
  simp only
  rw [ends_adopt]
  cases outcome with
  | acquired =>
      simp only
      rw [ends_bind, emitLock, ends_bind, ends_get, emit, ends_modify]
      exact goes _ told
  | blocked holder =>
      simp only
      rw [ends_bind, emitLock, ends_bind, ends_get, emit, ends_modify, ends_bind, ends_get, ends_bind, Action.notice,
        ends_modify, ends_bind]
      refine (suspends holder _ ?_).imp (fun _ _ => id) fun _ => id
      exact (books (.blocked holder)).told (Bookkept.silent_notices [_]) told

namespace Neutral

open Bookkept (silent_notices)

theorem and {inv' : Scheduler → Prop} (neutral : Neutral named inv) (neutral' : Neutral (fun _ => True) inv') :
    Neutral named fun s => inv s ∧ inv' s where
  toFiling := neutral.toFiling.and (neutral'.toFiling.mono fun _ _ => trivial)
  known thread holds := neutral.known thread holds.1
  running busy holds := neutral.running busy holds.1
  interrupted interrupts holds := ⟨neutral.interrupted interrupts holds.1, neutral'.interrupted interrupts holds.2⟩
  repriced found repriced holds := ⟨neutral.repriced found repriced holds.1, neutral'.repriced found repriced holds.2⟩
  claimed queue holds := ⟨neutral.claimed queue holds.1, neutral'.claimed queue holds.2⟩
  queueMade holds := ⟨neutral.queueMade holds.1, neutral'.queueMade holds.2⟩
  lockMade holds := ⟨neutral.lockMade holds.1, neutral'.lockMade holds.2⟩

theorem when (neutral : Neutral (fun _ => True) inv) (p : Prop) : Neutral (fun _ => True) fun s => p → inv s where
  quiet same holds yes := neutral.quiet same (holds yes)
  told silent holds yes := neutral.told silent (holds yes)
  ensured listed absent holds yes := neutral.ensured listed absent (holds yes)
  known _ _ := trivial
  running _ _ := trivial
  interrupted interrupts holds yes := neutral.interrupted interrupts (holds yes)
  repriced found repriced holds yes := neutral.repriced found repriced (holds yes)
  claimed queue holds yes := neutral.claimed queue (holds yes)
  queueMade holds yes := neutral.queueMade (holds yes)
  lockMade holds yes := neutral.lockMade (holds yes)

theorem beside (neutral : Neutral named inv) (crew : Thread → Thread → Clock → Prop) :
    Neutral named fun s => inv s ∧ crew s.processor.current s.idle.thread s.clock where
  quiet same holds := ⟨neutral.quiet same holds.1, same.current ▸ same.idle ▸ same.clock ▸ holds.2⟩
  told silent holds := ⟨neutral.told silent holds.1, holds.2⟩
  ensured listed absent holds := ⟨neutral.ensured listed absent holds.1, holds.2⟩
  known thread holds := neutral.known thread holds.1
  running busy holds := neutral.running busy holds.1
  interrupted interrupts holds := ⟨neutral.interrupted interrupts holds.1, holds.2⟩
  repriced found repriced holds := ⟨neutral.repriced found repriced holds.1, holds.2⟩
  claimed queue holds := ⟨neutral.claimed queue holds.1, holds.2⟩
  queueMade holds := ⟨neutral.queueMade holds.1, holds.2⟩
  lockMade holds := ⟨neutral.lockMade holds.1, holds.2⟩

variable (neutral : Neutral named inv)
include neutral

theorem mild : Mild named inv where
  toPlain := neutral.toPlain
  rebased found inside holds := neutral.repriced found (.setBase _ inside) holds

theorem ageOut {s : Scheduler} {refused : Scheduler → Prop} (thread : Thread) (holds : inv s) :
    Ends (ageOut thread) s (fun _ => inv) refused :=
  neutral.toRecorded.ends_ageOut (fun _ => holds) fun _ _ found aged =>
    neutral.repriced found (ThreadState.repriced_ageRunning aged) holds

theorem suspend {s : Scheduler} {refused : Scheduler → Prop} (thread : Thread) (holds : inv s) :
    Ends (suspend thread) s (fun _ => inv) refused := by
  rw [Action.suspend, ends_bind, Action.onProcessor, ends_modify]
  exact neutral.ageOut thread (neutral.quiet (s := s) ⟨rfl, rfl, rfl, rfl, rfl, rfl, rfl, rfl, rfl⟩ holds)

theorem ends_contend {won : LockOutcome → Scheduler → Prop} {s : Scheduler} {lock : LockId}
    (listed : named s.processor.current) (holds : inv s) (onward : ∀ outcome, Neutral named (won outcome))
    (acquired : ∀ {s' : Scheduler} {outcome : LockOutcome} {w : Walk} (p : Priority), s'.locks = s.locks →
      (∀ j, s'.threads.blockedOn? j = s.threads.blockedOn? j) →
      (s'.threads.get? s.processor.current.id).isSome →
      s'.locks.acquire lock s.processor.current.id s'.threads = .ok (outcome, w) → inv s' →
      won outcome ((s'.follow w w.changed).tell
        (w.notices.map .notice ++ [.event (.lock outcome.transition lock s.clock.now s.processor.current.id p)]))) :
    Ends (contend lock) s won inv :=
  neutral.toListing.ends_contend listed holds (fun outcome => (onward outcome).toRecorded) acquired (fun _ => id)
    fun holder _ => (onward (.blocked holder)).suspend _

end Neutral

namespace Lockless

theorem and {inv' : Scheduler → Prop} (kept : Lockless named target inv) (kept' : Lockless (fun _ => True) target inv') :
    Lockless named target fun s => inv s ∧ inv' s where
  __ := kept.toAdmitting.and (kept'.toAdmitting.mono fun _ _ => trivial)
  __ := kept.toNeutral.and kept'.toNeutral

theorem when (kept : Lockless (fun _ => True) target inv) (p : Prop) :
    Lockless (fun _ => True) target fun s => p → inv s where
  __ := kept.toNeutral.when p
  joined p listed found queue accounted holds yes := kept.joined p listed found queue accounted (holds yes)

theorem beside (kept : Lockless named target inv) (crew : Thread → Thread → Clock → Prop) :
    Lockless named target fun s => inv s ∧ crew s.processor.current s.idle.thread s.clock where
  __ := kept.toNeutral.beside crew
  joined p listed found queue accounted holds := ⟨kept.joined p listed found queue accounted holds.1, holds.2⟩

theorem onCurrent (kept : Lockless named target inv) (t : Thread) :
    Lockless named target fun s => inv s ∧ s.processor.current = t := kept.beside fun current _ _ => current = t

theorem handOn (kept : Lockless named .ready inv) {s : Scheduler} {lock : LockId} {holder : Thread} (time : Ticks)
    (rest : refused s)
    (released : ∀ next w p, s.locks.release lock holder.id s.threads = .ok (next, w) →
      inv ((s.follow w w.changed).tell
        (w.notices.map .notice ++ Output.handOver lock time holder.id (s.threads.effective holder.id) next p)))
    (late : ∀ s', inv s' → refused s') : Ends (handOn lock holder time) s (fun _ => inv) refused :=
  ends_handOn (fun _ => inv) time rest released (fun _ _ told _ => told) fun _ _ _ told known =>
    (kept.wake (kept.known known told) _ told).imp (fun _ _ => id) late

theorem giveWay (kept : Lockless named .ready inv) : Keeps inv giveWay := by
  intro s holds
  rw [Action.giveWay, current, ends_bind, ends_bind, ends_get, ends_pure]
  cases idle : s.processor.current.isIdle with
  | true => exact holds
  | false =>
      simp only [Bool.false_eq_true, if_false]
      rw [ends_bind]
      refine ((kept.onCurrent s.processor.current).ageOut s.processor.current ⟨holds, rfl⟩).imp (fun _ s' both => ?_) fun _ => id
      exact kept.wake (kept.running idle holds) s' both.1

end Lockless

/-! ## Locks -/

namespace Kept

theorem beside (kept : Kept named target inv) (crew : Thread → Thread → Clock → Prop) :
    Kept named target fun s => inv s ∧ crew s.processor.current s.idle.thread s.clock where
  toLockless := kept.toLockless.beside crew
  emitted holds := ⟨kept.emitted holds.1, holds.2⟩
  released done holds := ⟨kept.released done holds.1, holds.2⟩

theorem contend (kept : Kept named target inv) {s : Scheduler} {lock : LockId} (listed : named s.processor.current)
    (holds : inv s)
    (acquired : ∀ {s' : Scheduler} {outcome : LockOutcome} {w : Walk}, s'.locks = s.locks →
      (∀ j, s'.threads.blockedOn? j = s.threads.blockedOn? j) →
      (s'.threads.get? s.processor.current.id).isSome →
      s'.locks.acquire lock s.processor.current.id s'.threads = .ok (outcome, w) → inv s' →
      inv (s'.follow w w.changed)) : Ends (contend lock) s (fun _ => inv) inv := by
  refine kept.ends_contend listed holds (fun _ => kept.toNeutral) ?_
  intro s' outcome w p locks blockedOn? known done before
  have told := kept.told (Bookkept.silent_notices w.notices) (acquired locks blockedOn? known done before)
  rw [← tell_tell]
  exact kept.emitted told

theorem handedOver (kept : Kept named target inv) {s : Scheduler} {lock : LockId} {time : Ticks} {holder : ThreadId}
    {p p' : Priority} {next : Option ThreadId} (ns : List Notice) (holds : inv s) :
    inv (s.tell (ns.map .notice ++ Output.handOver lock time holder p next p')) := by
  rw [← tell_tell]
  have told := kept.told (Bookkept.silent_notices ns) holds
  cases next with
  | none => exact kept.emitted told
  | some heir =>
      rw [Output.handOver, ← List.singleton_append, ← tell_tell]
      exact kept.emitted (kept.emitted told)

theorem handOn (kept : Kept named .ready inv) (lock : LockId) (holder : Thread) (time : Ticks) :
    Keeps inv (handOn lock holder time) :=
  fun _ holds => kept.toLockless.handOn time holds
    (fun _ w _ done => kept.handedOver w.notices (kept.released done holds)) fun _ => id

end Kept

end PriorityScheduler
