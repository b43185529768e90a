import PriorityScheduler.Proofs.Scheduler.Ledger
import PriorityScheduler.Proofs.Turns

namespace PriorityScheduler

open PriorityScheduler.Action PriorityScheduler.Scheduler

namespace Scheduler

/-- Inputs in the course of which a thread is neither admitted nor dispatched, and does not finish. -/
inductive Aside (roster : Roster) (id : ThreadId) (s : Scheduler) : Scheduler → Prop where
  | rest : Aside roster id s s
  | feed {s₁ s₂ : Scheduler} {input : Input} {more : List Output} (aside : Aside roster id s s₁)
      (fits : Open roster s₁ input) (fed : s₁.feed input = some s₂) (told : s₂.output = s₁.output ++ more)
      (quiet : ∀ o ∈ more, o.milestoneOf? id = none) : Aside roster id s s₂

/-- While it runs, a thread is admitted to a queue at `a` and goes to sleep. It is handed out and made ready at `b`, and
dispatched at `c`. In between anything may happen to others. -/
inductive Errand (roster : Roster) (queue : QueueId) (t : Thread) (a b c : Ticks) (s s₁ s' : Scheduler) : Prop where
  | mk {s₂ s₃ s₄ s₅ s₆ s₇ s₈ : Scheduler} {other : Thread} (elsewhere : queue ≠ .ready)
      (runs : s.processor.current = t) (registers : joinQueue queue t s = .ok () s₁) (start : s.clock.now = a)
      (registered : Aside roster t.id s₁ s₂) (running : s₂.processor.current = t)
      (sleeps : sleep s₂ = .ok other s₃) (away : other.id ≠ t.id) (asleep : Aside roster t.id s₃ s₄)
      (called : serve queue s₄ = .ok (some t) s₅) (due : s₄.clock.now = b) (handed : Aside roster t.id s₅ s₆)
      (wakes : wake t s₆ = .ok () s₇) (prompt : s₆.clock.now = b) (ready : Aside roster t.id s₇ s₈)
      (dispatched : dispatch s₈ = .ok t s') (finish : s₈.clock.now = c)

variable {roster : Roster} {config : Config} {s s' : Scheduler} {id : ThreadId} {life : Life} {time : Ticks}

def Tells (id : ThreadId) (life : Life) (time : Ticks) (s : Scheduler) : Prop :=
  lifeOf id s.output = life ∧ s.clock.now = time

theorem neutral_tells (id : ThreadId) (life : Life) (time : Ticks) : Neutral (fun _ => True) (Tells id life time) where
  quiet same tells := ⟨same.output ▸ tells.1, same.clock ▸ tells.2⟩
  told silent tells := ⟨(lifeOf_quiet fun o member => (silent o member).milestone?).trans tells.1, tells.2⟩
  ensured _ _ tells := tells
  known _ _ := trivial
  running _ _ := trivial
  interrupted _ tells := tells
  repriced _ _ tells := tells
  claimed _ tells := tells
  queueMade tells := tells
  lockMade tells := tells

theorem ends_joinQueue_tells {queue : QueueId} {t : Thread} (tells : s.Tells t.id life time) :
    Ends (joinQueue queue t) s (fun _ => Tells t.id (life.prolong (.admitted time)) time) fun _ => True := by
  refine (neutral_tells t.id life time).ends_joinQueue trivial tells ?_ fun _ _ _ => trivial
  rintro s q state accounts p - - - ⟨rfl, rfl⟩
  refine ⟨?_, rfl⟩
  show lifeOf t.id (s.output ++ [_]) = _
  rw [lifeOf_milestone rfl, if_pos rfl]

theorem ends_wake_tells {t : Thread} (tells : s.Tells t.id life time) (unready : s.threads.seat? t.id ≠ some .ready) :
    Ends (wake t) s (fun _ => Tells t.id (life.prolong (.admitted time)) time) fun _ => True := by
  refine (neutral_tells t.id life time).toListing.ends_wake trivial (fun _ ready => absurd ready unready)
    (fun _ _ => tells) ?_ fun _ _ _ => trivial
  rintro s q state accounts p - - - - - ⟨rfl, rfl⟩
  refine ⟨?_, rfl⟩
  show lifeOf t.id (s.output ++ [_]) = _
  rw [lifeOf_milestone rfl, if_pos rfl]

theorem ends_dispatch_tells (tells : s.Tells id life time) :
    Ends dispatch s (fun next s' =>
      s'.Tells id (if next.id = id ∧ next.isIdle = false then life.prolong (.dispatched time) else life) time)
      fun _ => True := by
  let after (next : Thread) : Life :=
    if next.id = id ∧ next.isIdle = false then life.prolong (.dispatched time) else life
  let told (s' : Scheduler) : Prop := s'.Tells id (after s'.processor.current) time
  have launches {next : Thread} {s : Scheduler} (tells : s.Tells id life time) :
      Ends (launch next s.clock.now) s (fun _ => told) fun _ => True := by
    refine ends_launch (fun idle => ?_) fun p s' busy charged => ?_
    · have still : after next = life := if_neg fun both => by simp [idle] at both
      exact ⟨tells.1.trans still.symm, tells.2⟩
    · obtain ⟨threads, rfl, -⟩ := charged.exists_threads
      obtain ⟨rfl, rfl⟩ := tells
      refine ⟨?_, rfl⟩
      show lifeOf id (s.output ++ [_]) = after next
      rw [lifeOf_milestone rfl]
      simp only [after, busy, and_true]
  have books := (neutral_tells id life time).toRecorded
  have ends : Ends dispatch s (fun _ s' => told s' ∧ _) fun _ => True :=
    ends_dispatch_choice (fun _ => books) (fun _ => trivial) (fun _ _ _ _ => tells) fun _ _ _ _ tells => launches tells
  refine (ends.and (ends_dispatch_current s)).imp (fun next s' both => ?_) fun _ _ => trivial
  obtain ⟨⟨told, -⟩, rfl⟩ := both
  exact told

theorem ends_sleep_tells (tells : s.Tells id life time) :
    Ends sleep s (fun next s' =>
      s'.Tells id (if next.id = id ∧ next.isIdle = false then life.prolong (.dispatched time) else life) time)
      fun _ => True := by
  rw [sleep, ends_bind]
  refine (Bookkept.assertMasked _ .sleep s tells).imp (fun _ s tells => ?_) fun _ _ => trivial
  rw [current, ends_bind, ends_bind, ends_get, ends_pure]
  split
  · trivial
  · rw [ends_bind]
    have suspends : Ends (suspend s.processor.current) s (fun _ => Tells id life time) fun _ => True :=
      (neutral_tells id life time).suspend _ tells
    exact suspends.imp (fun _ _ tells => ends_dispatch_tells tells) fun _ _ => trivial

theorem ends_serve_tells {queue : QueueId} (staffed : s.Staffed roster config) (tells : s.Tells id life time) :
    Ends (serve queue) s (fun next s' => s'.Tells id life time ∧ ∀ t ∈ next, s'.threads.seat? t.id = none)
      fun _ => True := by
  refine ends_serve (fun _ => trivial) fun q n found taken => ?_
  have books := (neutral_tells id life time).toBookkept
  refine ⟨books.told (s := s.selected queue n) (Bookkept.silent_notices n.notices) tells, fun t handed => ?_⟩
  obtain ⟨housed, -, placed⟩ := staffed.1.1.selected found taken
  obtain ⟨j, next, known⟩ := Option.bind_eq_some_iff.mp handed
  obtain ⟨rfl, -⟩ := housed.registered.thread? roster.lists_main (t := t) known
  have seat : (s.selected queue n).placement.seat? t.id = none := by
    rw [placed, next]
    exact if_pos rfl
  exact seat

namespace Aside

variable {s₁ : Scheduler}

theorem attainable (aside : Aside roster id s s₁) (attainable : s.Attainable roster config) :
    s₁.Attainable roster config := by
  induction aside with
  | rest => exact attainable
  | feed _ fits fed _ _ ih => exact ih.feed fits fed

theorem lifeOf (aside : Aside roster id s s₁) : lifeOf id s₁.output = PriorityScheduler.lifeOf id s.output := by
  induction aside with
  | rest => rfl
  | feed _ _ _ told quiet ih => rw [told, lifeOf_append, List.filterMap_eq_nil_iff.mpr quiet, List.foldl_nil, ih]

theorem count_admitted (aside : Aside roster id s s₁) : s₁.admitted.count id = s.admitted.count id := by
  induction aside with
  | rest => rfl
  | @feed _ _ _ more _ _ _ told quiet ih =>
      have none : (more.filterMap Output.admitted?).count id = 0 := by
        refine List.count_eq_zero.mpr fun member => ?_
        obtain ⟨o, told, admits⟩ := List.mem_filterMap.mp member
        have quiet := quiet o told
        unfold Output.admitted? at admits
        split at admits
        · cases admits
          simp [Output.milestoneOf?, Output.milestone?] at quiet
        · cases admits
      rw [admitted, told, List.filterMap_append, List.count_append, none, Nat.add_zero]
      exact ih

theorem unready (aside : Aside roster id s s₁) (staffed : s.Staffed roster config)
    (unready : s.threads.seat? id ≠ some .ready) : s₁.threads.seat? id ≠ some .ready := by
  let good (ids : List ThreadId) (p : Placement) : Prop :=
    s.admitted.count id ≤ ids.count id ∧ (ids.count id = s.admitted.count id → p.seat? id ≠ some .ready)
  have durable : Durable roster good := by
    refine ⟨fun {ids p t} queue _ before => ?_, fun {ids p} j queue before => ?_, fun {ids p} j before => ?_⟩
    · by_cases here : t.id = id
      · simp only [good, here, List.count_append, List.count_singleton_self]
        refine ⟨Nat.le_succ_of_le before.1, fun same => ?_⟩
        have more := before.1
        omega
      · simp only [good, List.count_append, List.count_singleton, beq_iff_eq, here, if_false, Nat.add_zero,
          Placement.join, Ne.symm here]
        exact before
    · refine ⟨before.1, fun same => ?_⟩
      simp only [Placement.leave, Placement.unseat]
      split
      · rintro ⟨⟩
      · exact before.2 same
    · refine ⟨before.1, fun same => ?_⟩
      simp only [Placement.unseat]
      split
      · rintro ⟨⟩
      · exact before.2 same
  have crewed : s₁.Crewed roster config good := by
    induction aside with
    | rest => exact ⟨⟨staffed.1.1, Nat.le_refl _, fun _ => unready⟩, staffed.2⟩
    | feed _ fits fed _ _ ih => exact ih.feed durable fits fed
  exact crewed.1.2.2 aside.count_admitted

end Aside

theorem Attainable.call (attainable : s.Attainable roster config) (call : Call)
    (listed : ∀ t ∈ call.thread?, roster.Lists t) (run : call.action s = .ok () s') : s'.Attainable roster config := by
  have fed : s.feed (.call call) = some s' := by
    simp only [Scheduler.feed, perform, run]
  exact attainable.feed (show Open roster s (.call call) from listed) fed

theorem run_unit {α : Type} {m : Action α} {x : α} (run : m s = .ok x s') :
    (do let _ ← m : Action Unit) s = .ok () s' := by
  simp only [bind, EStateM.bind, run]
  rfl

variable {queue : QueueId} {t : Thread} {a b c : Ticks} {s₁ : Scheduler}

theorem Errand.told (errand : Errand roster queue t a b c s s₁ s') (attainable : s.Attainable roster config)
    (listed : roster.Lists t) (busy : t.isIdle = false) :
    s₁.Attainable roster config ∧ s'.Attainable roster config ∧
      lifeOf t.id s₁.output = lifeOf t.id s.output ++ [.admitted a] ∧
      lifeOf t.id s'.output = lifeOf t.id s₁.output ++ [.admitted b] ++ [.dispatched c] := by
  obtain @⟨s₂, s₃, s₄, s₅, s₆, s₇, s₈, other, -, -, registers, rfl, registered, -, sleeps, away, asleep, called, rfl,
    handed, wakes, prompt, ready, dispatched, rfl⟩ := errand
  -- the way to the queue
  have attainable₁ := attainable.call (.join queue t) (by simpa [Call.thread?]) registers
  have attainable₃ := (registered.attainable attainable₁).call .sleep nofun (run_unit sleeps)
  have life₁ := ((ends_joinQueue_tells ⟨rfl, rfl⟩).of_ok registers).1
  have life₃ := ((ends_sleep_tells ⟨registered.lifeOf, rfl⟩).of_ok sleeps).1
  rw [if_neg fun both => away both.1] at life₃
  -- and back
  have attainable₄ := asleep.attainable attainable₃
  have attainable₅ := attainable₄.call (.serve queue) nofun (run_unit called)
  have attainable₆ := handed.attainable attainable₅
  have attainable₇ := attainable₆.call (.wake t) (by simpa [Call.thread?]) wakes
  have attainable' := (ready.attainable attainable₇).call .dispatch nofun (run_unit dispatched)
  have unread := (ends_serve_tells (staffed_of_attainable attainable₄) ⟨asleep.lifeOf.trans life₃, rfl⟩).of_ok called
  obtain ⟨⟨life₅, -⟩, unseated⟩ := unread
  have unready : s₅.threads.seat? t.id ≠ some .ready := by
    rw [unseated t rfl]
    exact nofun
  have unready₆ := handed.unready (staffed_of_attainable attainable₅) unready
  have life₇ := ((ends_wake_tells ⟨handed.lifeOf.trans life₅, prompt⟩ unready₆).of_ok wakes).1
  have life' := ((ends_dispatch_tells ⟨ready.lifeOf.trans life₇, rfl⟩).of_ok dispatched).1
  rw [if_pos ⟨rfl, busy⟩] at life'
  exact ⟨attainable₁, attainable', life₁, life'.trans (if_neg (by simp [Life.prolong]))⟩

def runErrand (queue : QueueId) (t : Thread) (a b c : Ticks) (s : Scheduler) : Option (Scheduler × Scheduler) := do
  let (_, s₁) ← s.after (joinQueue queue t)
  let (other, s₃) ← s₁.after sleep
  let s₄ : Scheduler := { s₃ with clock := s₃.clock.set b }
  let (next, s₅) ← s₄.after (serve queue)
  let (_, s₇) ← s₅.after (wake t)
  let s₈ : Scheduler := { s₇ with clock := s₇.clock.set c }
  let (last, s') ← s₈.after dispatch
  if queue ≠ .ready ∧ s.processor.current = t ∧ s.clock.now = a ∧ s₁.processor.current = t ∧ other.id ≠ t.id ∧
      next = some t ∧ s₄.clock.now = b ∧ s₅.clock.now = b ∧ last = t ∧ s₈.clock.now = c then
    some (s₁, s')
  else none

theorem errand_of_run (due : b < Ticks.bound) (finish : c < Ticks.bound)
    {states : Scheduler × Scheduler} (ran : runErrand queue t a b c s = some states) :
    Errand roster queue t a b c s states.1 states.2 := by
  have aside (time : Ticks) (early : time < Ticks.bound) (s : Scheduler) :
      Aside roster t.id s { s with clock := s.clock.set time } :=
    Aside.rest.feed (show Open roster s (.clock time) from early) rfl (List.append_nil _).symm nofun
  unfold runErrand at ran
  obtain ⟨⟨_, _⟩, registers, ran⟩ := Option.bind_eq_some_iff.mp ran
  obtain ⟨⟨_, s₃⟩, sleeps, ran⟩ := Option.bind_eq_some_iff.mp ran
  obtain ⟨⟨_, _⟩, called, ran⟩ := Option.bind_eq_some_iff.mp ran
  obtain ⟨⟨_, s₇⟩, wakes, ran⟩ := Option.bind_eq_some_iff.mp ran
  obtain ⟨⟨_, _⟩, dispatched, ran⟩ := Option.bind_eq_some_iff.mp ran
  simp only at ran
  split at ran
  · rename_i checks
    cases ran
    obtain ⟨elsewhere, runs, start, running, away, rfl, due', prompt, rfl, finish'⟩ := checks
    exact ⟨elsewhere, runs, after_eq_some.mp registers, start, .rest, running, after_eq_some.mp sleeps, away,
      aside b due s₃, after_eq_some.mp called, due', .rest, after_eq_some.mp wakes, prompt, aside c finish s₇,
      after_eq_some.mp dispatched, finish'⟩
  · cases ran

def departing : Option Scheduler :=
  opened [.interrupts ⟨false, 1⟩, .call (.createQueue false), .call (.wake ⟨⟨2⟩, "worker", .ordinary⟩), .call .dispatch,
    .clock 1]

theorem exists_errand :
    ∃ s s₁ s', s.Attainable .workers {} ∧ Errand .workers ⟨1⟩ ⟨⟨2⟩, "worker", .ordinary⟩ 1 3 7 s s₁ s' ∧
      (s.threads.accounts ⟨2⟩).wait = 0 ∧ (s₁.threads.accounts ⟨2⟩).lastScheduled = some 0 ∧
      (s'.threads.accounts ⟨2⟩).wait = 4 := by
  have reached : departing = some (departing.get (by decide +kernel)) := (Option.some_get _).symm
  let s := departing.get (by decide +kernel)
  let run := runErrand ⟨1⟩ ⟨⟨2⟩, "worker", .ordinary⟩ 1 3 7 s
  have ends : run = some (run.get (by decide +kernel)) := (Option.some_get _).symm
  have errand : Errand .workers _ _ _ _ _ s _ _ := errand_of_run (by decide) (by decide) ends
  exact ⟨s, _, _, attainable_opened reached, errand, by decide +kernel, by decide +kernel, by decide +kernel⟩

end Scheduler

end PriorityScheduler
