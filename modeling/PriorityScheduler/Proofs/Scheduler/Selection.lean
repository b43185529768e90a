import PriorityScheduler.Proofs.Scheduler.Kept

namespace PriorityScheduler

open PriorityScheduler.Action PriorityScheduler.Scheduler

variable {post refused : Scheduler → Prop} {s : Scheduler}

def ThreadState.unaccounted (s : ThreadState) : ThreadState := { s with accounts := {} }

namespace Scheduler

def Knows (s : Scheduler) (t : Thread) : Prop := (∃ id, s.thread? id = some t) ∨ t = s.idle.thread

inductive Charged (s : Scheduler) (t : Thread) : Scheduler → Prop where
  | known {state : ThreadState} {accounts : Accounts} (found : s.threads.get? t.id = some state)
      (scheduled : state.accounts.scheduled s.clock.now = .ok accounts) :
      Charged s t { s with threads := s.threads.put t.id { state with accounts } }
  | unknown (absent : s.threads.get? t.id = none) : Charged s t s

variable {s' : Scheduler} {t : Thread}

theorem Charged.exists_threads (charged : s.Charged t s') :
    ∃ threads, s' = { s with threads } ∧ s.threads.Matches ThreadState.unaccounted threads := by
  cases charged with
  | known found _ => exact ⟨_, rfl, .put found rfl⟩
  | unknown _ => exact ⟨_, rfl, .refl _⟩

theorem Knows.charged (known : s.Knows t) (charged : s.Charged t s') : s'.Knows t := by
  obtain ⟨threads, rfl, same⟩ := charged.exists_threads
  have names : ({ s with threads } : Scheduler).thread? = s.thread? := thread?_of_matches (same.weaken fun _ => rfl)
  rw [Knows, names]
  exact known

end Scheduler

structure Accounted (inv : Scheduler → Prop) : Prop extends Bookkept inv where
  dispatched : ∀ {s s' : Scheduler} {t : Thread} (p : Priority), t.isIdle = false → s.Knows t → s.Charged t s' → inv s →
    inv (s'.tell [.event (.scheduled s.clock.now t p)])

/-- A dispatch survives, and so do interrupts and the switch to a thread that the scheduler knows. -/
structure Dispatched (post : Scheduler → Prop) : Prop extends Accounted post where
  interrupted : ∀ {s : Scheduler} (interrupts : Interrupts), post s → post { s with interrupts }
  switched : ∀ {s : Scheduler} {next : Thread}, s.Knows next → post s →
    post { s with processor := s.processor.switchTo next }

theorem Accounted.and {inv inv' : Scheduler → Prop} (books : Accounted inv) (books' : Accounted inv') :
    Accounted fun s => inv s ∧ inv' s where
  toBookkept := books.toBookkept.and books'.toBookkept
  dispatched p busy known charged holds :=
    ⟨books.dispatched p busy known charged holds.1, books'.dispatched p busy known charged holds.2⟩

theorem Dispatched.and {post' : Scheduler → Prop} (survives : Dispatched post) (survives' : Dispatched post') :
    Dispatched fun s => post s ∧ post' s where
  toAccounted := survives.toAccounted.and survives'.toAccounted
  interrupted interrupts holds := ⟨survives.interrupted interrupts holds.1, survives'.interrupted interrupts holds.2⟩
  switched known holds := ⟨survives.switched known holds.1, survives'.switched known holds.2⟩

def Scheduler.selected (s : Scheduler) (id : QueueId) (n : Noted (Selection WaitQueue)) : Scheduler :=
  { s with queues := s.queues.insert id n.value.queue, threads := n.value.threads }

theorem ends_takeNext {id : QueueId} {time : Ticks} {done : Option Thread → Scheduler → Prop}
    (absent : s.queues.get? id = none → refused s)
    (selected : ∀ q n, s.queues.get? id = some q → q.next s.threads time = .ok n →
      let s' := (s.selected id n).tell (n.notices.map .notice)
      done (n.value.next.bind s'.thread?) s') : Ends (takeNext id time) s done refused := by
  rw [takeNext, ends_bind, queue, ends_bind, ends_get, Scheduler.queue?]
  cases found : s.queues.get? id with
  | none => exact absent found
  | some q =>
      simp only [ends_pure]
      rw [ends_bind, ends_get, ends_bind]
      apply ends_noted
      intro n taken
      rw [ends_bind, ends_modify, ends_bind, ends_get, ends_pure]
      exact selected q n found taken

theorem ends_serve {id : QueueId} {done : Option Thread → Scheduler → Prop}
    (absent : s.queues.get? id = none → refused s)
    (selected : ∀ q n, s.queues.get? id = some q → q.next s.threads s.clock.now = .ok n →
      let s' := (s.selected id n).tell (n.notices.map .notice)
      done (n.value.next.bind s'.thread?) s') : Ends (serve id) s done refused := by
  rw [serve, ends_bind, Action.assertMasked, ends_bind, ends_get]
  split
  · trivial
  · rw [ends_pure, now, ends_bind, ends_bind, ends_get, ends_pure]
    exact ends_takeNext absent selected

def Scheduler.RunsNext (s : Scheduler) (n : Noted (Selection WaitQueue)) (t : Thread) : Prop :=
  n.value.next.bind (s.selected .ready n).thread? = some t ∨
    n.value.next.bind (s.selected .ready n).thread? = none ∧ t = s.idle.thread

theorem ends_choose {mid : Noted (Selection WaitQueue) → Scheduler → Prop} (books : ∀ n, Recorded (mid n))
    (rest : s.queues.get? .ready = none → refused s)
    (selected : ∀ q n, s.queues.get? .ready = some q → q.next s.threads s.clock.now = .ok n →
      mid n (s.selected .ready n)) :
    Ends (choose s.clock.now) s (fun t s' => s'.clock = s.clock ∧ s'.Knows t ∧ ∃ q n, s.queues.get? .ready = some q ∧
      q.next s.threads s.clock.now = .ok n ∧ s.RunsNext n t ∧ mid n s') refused := by
  rw [choose, ends_bind]
  apply ends_takeNext rest
  intro q n found taken
  have told : mid n ((s.selected .ready n).tell (n.notices.map .notice)) :=
    (books n).told (Bookkept.silent_notices _) (selected q n found taken)
  cases who : n.value.next.bind (s.selected .ready n).thread? with
  | none =>
      have none : n.value.next.bind ((s.selected .ready n).tell (n.notices.map .notice)).thread? = none := who
      simp only [none]
      refine ((books n).idleThread told).imp (fun t s' after => ?_) fun _ => id
      obtain ⟨holds, rfl, idle, clock⟩ := after
      exact ⟨clock, .inr idle.symm, q, n, found, taken, .inr ⟨who, rfl⟩, holds⟩
  | some thread =>
      have some : n.value.next.bind ((s.selected .ready n).tell (n.notices.map .notice)).thread? = some thread := who
      simp only [some]
      obtain ⟨id, -, known⟩ := Option.bind_eq_some_iff.mp some
      exact ⟨rfl, .inl ⟨id, known⟩, q, n, found, taken, .inl who, told⟩

theorem ends_launch {next : Thread} (idles : next.isIdle = true → post { s with processor := s.processor.switchTo next })
    (launched : ∀ p s', next.isIdle = false → s.Charged next s' →
      let s₁ := s'.tell [.event (.scheduled s.clock.now next p)]
      post { s₁ with processor := s₁.processor.switchTo next }) :
    Ends (launch next s.clock.now) s (fun _ => post) refused := by
  rw [launch]
  cases busy : next.isIdle with
  | true => exact idles busy
  | false =>
      simp only [Bool.false_eq_true, if_false]
      rw [ends_bind, account, ends_bind, ends_get]
      cases found : s.threads.get? next.id with
      | none => exact launched s.config.initial s busy (.unknown found)
      | some state =>
          simp only
          rw [ends_bind]
          apply ends_liftFault
          intro state' scheduled
          obtain ⟨accounts, accounted, made⟩ := bind_eq_ok.mp scheduled
          cases made
          exact launched state.effective _ busy (.known found accounted)

theorem ends_dispatch_choice {mid : Noted (Selection WaitQueue) → Scheduler → Prop} (books : ∀ n, Recorded (mid n))
    (rest : s.queues.get? .ready = none → refused s)
    (selected : ∀ q n, s.queues.get? .ready = some q → q.next s.threads s.clock.now = .ok n →
      mid n (s.selected .ready n))
    (launched : ∀ {q n t s'}, s.queues.get? .ready = some q → q.next s.threads s.clock.now = .ok n → s.RunsNext n t →
      s'.Knows t → mid n s' → Ends (launch t s'.clock.now) s' (fun _ => post) refused) :
    Ends dispatch s (fun t s' => post s' ∧ ∃ q n, s.queues.get? .ready = some q ∧
      q.next s.threads s.clock.now = .ok n ∧ s.RunsNext n t) refused := by
  rw [dispatch, ends_bind, Action.assertMasked, ends_bind, ends_get]
  split
  · trivial
  · rw [ends_pure, now, ends_bind, ends_bind, ends_get, ends_pure, ends_bind]
    refine (ends_choose books rest selected).imp ?_ fun _ => id
    rintro t s' ⟨clock, known, q, n, found, taken, runs, holds⟩
    have launches := launched found taken runs known holds
    rw [clock] at launches
    rw [ends_bind]
    exact launches.imp (fun _ _ after => ⟨after, q, n, found, taken, runs⟩) fun _ => id

theorem ends_dispatch {mid : Noted (Selection WaitQueue) → Scheduler → Prop} (books : ∀ n, Accounted (mid n))
    (rest : s.queues.get? .ready = none → refused s)
    (selected : ∀ q n, s.queues.get? .ready = some q → q.next s.threads s.clock.now = .ok n →
      mid n (s.selected .ready n))
    (switched : ∀ {q n t s'}, s.queues.get? .ready = some q → q.next s.threads s.clock.now = .ok n → s.RunsNext n t →
      s'.Knows t → mid n s' → post { s' with processor := s'.processor.switchTo t }) :
    Ends dispatch s (fun t s' => post s' ∧ ∃ q n, s.queues.get? .ready = some q ∧
      q.next s.threads s.clock.now = .ok n ∧ s.RunsNext n t) refused := by
  refine ends_dispatch_choice (fun n => (books n).toRecorded) rest selected
    fun {q n t s₁} found taken runs known holds => ?_
  refine ends_launch (fun _ => switched found taken runs known holds) fun p s' busy charged => ?_
  have known' : s'.Knows t := known.charged charged
  have told : (s'.tell [.event (.scheduled s₁.clock.now t p)]).Knows t := known'
  exact switched found taken runs told ((books n).dispatched p busy known charged holds)

theorem Dispatched.ends_dispatch (survives : Dispatched post) (rest : s.queues.get? .ready = none → refused s)
    (selected : ∀ q n, s.queues.get? .ready = some q → q.next s.threads s.clock.now = .ok n →
      post (s.selected .ready n)) :
    Ends dispatch s (fun t s' => post s' ∧ ∃ q n, s.queues.get? .ready = some q ∧
      q.next s.threads s.clock.now = .ok n ∧ s.RunsNext n t) refused :=
  PriorityScheduler.ends_dispatch (fun _ => survives.toAccounted) rest selected
    fun _ _ _ known holds => survives.switched known holds

theorem ends_dispatch_current (s : Scheduler) : Ends dispatch s (fun t s' => s'.processor.current = t) fun _ => True := by
  rw [dispatch, ends_bind]
  refine (ends_true _ s).imp (fun _ s _ => ?_) fun _ => id
  rw [now, ends_bind, ends_bind, ends_get, ends_pure, ends_bind]
  refine (ends_true _ s).imp (fun next s _ => ?_) fun _ => id
  rw [ends_bind, launch]
  cases next.isIdle with
  | true => exact rfl
  | false =>
      simp only [Bool.false_eq_true, if_false]
      rw [ends_bind]
      refine (ends_true _ s).imp (fun _ s _ => ?_) fun _ => id
      exact rfl

end PriorityScheduler
