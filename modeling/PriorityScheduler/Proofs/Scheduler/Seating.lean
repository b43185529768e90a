import PriorityScheduler.Proofs.Scheduler.Placement
import PriorityScheduler.Proofs.Scheduler.Readiness

/-!
# The link between threads and queues

A state has room for one queue, and a thread that joins another queue stays among the waiters of the first. The link
between threads and queues is exact as long as that does not happen, and once it happened the first queue keeps a waiter
that does not know it.

Main statement: `seating_iff_exclusive`, a call leaves the link exact if and only if it admits no thread that sits in
another queue.
-/

namespace PriorityScheduler

open PriorityScheduler.Action PriorityScheduler.Scheduler

namespace Scheduler

variable {config : Config} {s s' : Scheduler} {line : List ThreadId} {queue target : QueueId} {call : Call}

/-- Threads wait in one queue at most, which is the one that their state names, and every waiter has a state. -/
structure Seating (s : Scheduler) : Prop where
  once : ∀ id queue other, s.Waits id queue → s.Waits id other → queue = other
  exact : ∀ id queue q, s.queues.get? queue = some q →
    (q.contains id = true ↔ id ∈ q.waiters) ∧ (s.threads.seat? id = some queue ↔ id ∈ q.waiters)
  known : ∀ id queue, s.Waits id queue → (s.threads.get? id).isSome

theorem Lining.seating (lining : s.Lining config line) : s.Seating where
  once id queue other first second := by
    have sits := (lining.seated.seats id queue).mpr first
    rw [(lining.seated.seats id other).mpr second] at sits
    exact (Option.some.inj sits).symm
  exact id queue q found :=
    ⟨(lining.seated.queues queue q found).2.contains_iff id, (lining.seated.seats id queue).trans (waits_iff found)⟩
  known id queue waits := by
    obtain ⟨state, found, -⟩ := Option.bind_eq_some_iff.mp ((lining.seated.seats id queue).mpr waits)
    rw [found]
    rfl

theorem Lining.housed (lining : s.Lining config line) : s.Housed Thread.IsUser config where
  registered := lining.registered
  queues queue q found := by
    obtain ⟨same, settled⟩ := lining.seated.queues queue q found
    exact ⟨same, settled.any⟩
  numbered := lining.seated.numbered
  ready := lining.seated.ready
  seats id queue := (lining.seated.seats id queue).mp

/-- Who waited in another queue still does, and who was admitted since sits in the queue of the admissions. -/
def Strays (s₀ : Scheduler) (target : QueueId) (ids : List ThreadId) (p : Placement) : Prop :=
  ∃ new, ids = s₀.admitted ++ new ∧ ∀ id other, other ≠ target → s₀.Waits id other →
    p.waits id other ∧ (id ∈ new → p.seat? id = some target)

/-- Who waited in another queue and was admitted since waits there without knowing. -/
def Astray (s₀ : Scheduler) (target : QueueId) (ids : List ThreadId) (p : Placement) : Prop :=
  ∃ new, ids = s₀.admitted ++ new ∧ ∀ id ∈ new, ∀ other, other ≠ target → s₀.Waits id other →
    p.waits id other ∧ p.seat? id ≠ some other

variable {s₀ : Scheduler} {ids : List ThreadId} {p : Placement} {id : ThreadId}

theorem Strays.astray (strays : Strays s₀ target ids p) : Astray s₀ target ids p := by
  obtain ⟨new, ids, waits⟩ := strays
  refine ⟨new, ids, fun id member other apart before => ?_⟩
  obtain ⟨waits, sits⟩ := waits id other apart before
  rw [sits member]
  exact ⟨waits, fun same => apart (Option.some.inj same).symm⟩

theorem joinable_strays (s₀ : Scheduler) (target : QueueId) : Joinable Thread.IsUser target (Strays s₀ target) where
  mains _ user := user.isMain_iff
  join {ids p t} _ strays := by
    obtain ⟨new, rfl, waits⟩ := strays
    refine ⟨new ++ [t.id], List.append_assoc _ _ _, fun id other apart before => ?_⟩
    obtain ⟨waits, sits⟩ := waits id other apart before
    refine ⟨.inr waits, fun member => ?_⟩
    by_cases here : id = t.id
    · exact if_pos here
    · refine (if_neg here).trans (sits ?_)
      simpa [here] using member

theorem Strays.left (strays : Strays s₀ target ids p) (id : ThreadId) :
    Astray s₀ target ids ((p.seat? id).elim p (p.leave id)) := by
  cases sits : p.seat? id with
  | none => exact strays.astray
  | some queue =>
      obtain ⟨new, ids, waits⟩ := strays
      refine ⟨new, ids, fun j member other apart before => ?_⟩
      obtain ⟨waits, here⟩ := waits j other apart before
      refine ⟨⟨waits, ?_⟩, ?_⟩
      · rintro ⟨rfl, rfl⟩
        exact apart (Option.some.inj (sits.symm.trans (here member)))
      · simp only [Option.elim, Placement.leave, Placement.unseat]
        split
        · intro same
          cases same
        · rw [here member]
          exact fun same => apart (Option.some.inj same).symm

theorem Astray.unseat (astray : Astray s₀ target ids p) (id : ThreadId) : Astray s₀ target ids (p.unseat id) := by
  obtain ⟨new, ids, strays⟩ := astray
  refine ⟨new, ids, fun j member other apart before => ⟨(strays j member other apart before).1, ?_⟩⟩
  simp only [Placement.unseat]
  split
  · intro same
    cases same
  · exact (strays j member other apart before).2

theorem Astray.leave (astray : Astray s₀ target ids p) (id : ThreadId) : Astray s₀ target ids (p.leave id target) := by
  obtain ⟨new, ids, strays⟩ := astray.unseat id
  refine ⟨new, ids, fun j member other apart before => ?_⟩
  obtain ⟨waits, sits⟩ := strays j member other apart before
  exact ⟨⟨waits, fun both => apart both.2⟩, sits⟩

theorem Dwelling.astray (dwelling : s.Dwelling Thread.IsUser config (Strays s₀ target)) :
    s.Dwelling Thread.IsUser config (Astray s₀ target) :=
  ⟨dwelling.1, dwelling.2.astray⟩

theorem Dwelling.left (dwelling : s.Dwelling Thread.IsUser config (Strays s₀ target)) (id : ThreadId) :
    (s.left id).Dwelling Thread.IsUser config (Astray s₀ target) := by
  obtain ⟨housed, placed⟩ := dwelling.1.left id
  have admitted : (s.left id).admitted = s.admitted := by
    obtain ⟨queues, threads, left, -⟩ := s.exists_left id
    rw [left]
    rfl
  refine ⟨housed, ?_⟩
  rw [admitted, placed]
  exact dwelling.2.left id

theorem Dwelling.retired (dwelling : s.Dwelling Thread.IsUser config (Astray s₀ target)) (id : ThreadId) :
    ({ s with threads := s.threads.remove id } : Scheduler).Dwelling Thread.IsUser config (Astray s₀ target) := by
  obtain ⟨housed, placed⟩ := dwelling.1.retired id
  refine ⟨housed, ?_⟩
  rw [placed]
  exact dwelling.2.unseat id

theorem ends_astray (legal : s.Legal (.call call)) (housed : s.Housed Thread.IsUser config) :
    Ends call.action s (fun _ => Dwelling Thread.IsUser config (Astray s call.target))
      (Dwelling Thread.IsUser config (Astray s call.target)) := by
  have start : s.Dwelling Thread.IsUser config (Strays s call.target) :=
    ⟨housed, [], (List.append_nil _).symm, fun _ _ _ waits => ⟨waits, nofun⟩⟩
  refine ends_call legal.1 (kept_placement (.inl rfl) (joinable_strays s call.target))
    Dwelling.astray (dispatched_placement (.inl rfl) (Astray s call.target)) ?_
    (fun takes => housed.registered.busy (legal.2 takes)) ?_ (fun _ dwelling _ => dwelling) ?_ start
  · intro lock s' outcome w _ _ _ _ done dwelling
    exact dwelling.walked (effect_acquire done)
  · rintro rfl
    have masked : s.masked.Dwelling Thread.IsUser config (Strays s .ready) := start.still rfl rfl rfl rfl rfl rfl
    refine (kept_placement (.inl rfl) (joinable_strays s .ready)).ends_depart (bookkept_placement _) Dwelling.astray
      (masked.walked (effect_withdraw _ _ _)) (fun after => after.left _) fun after => ?_
    exact ends_retire (bookkept_placement _) _ (fun astray => astray.told rfl) (fun _ => after) (after.retired _)
  · intro queue s₁ q n chosen dwelling found taken
    obtain ⟨housed', -, placed⟩ := dwelling.1.selected found taken
    refine ⟨housed', ?_⟩
    show Astray s call.target s₁.admitted _
    rw [placed]
    cases n.value.next with
    | none => exact dwelling.2
    | some id =>
        rcases selection_target chosen with rfl | rfl
        · exact dwelling.2.leave id
        · -- nobody was admitted yet
          refine ⟨[], (List.append_nil _).symm, nofun⟩

theorem exclusive_of_seating (lining : s.Lining config line) (legal : s.Legal (.call call)) (performed : s.perform call = some s')
    (seating : s'.Seating) : s.Exclusive (.call call) s' := by
  obtain ⟨housed, new, ids, astray⟩ := of_perform (ends_astray legal lining.housed) performed
  have course := of_perform (ends_standing legal lining.registered lining.seated lining.lined lining.whole) performed
  obtain ⟨out, output, -⟩ := course.told
  have admissions : s.admissions s' = new := by
    have since : s'.admitted = s.admitted ++ out.filterMap Output.admitted? := by
      rw [admitted, output, List.filterMap_append, admitted]
    rw [Scheduler.admissions, output, List.drop_left]
    exact List.append_cancel_left (since.symm.trans ids)
  intro id member
  rw [admissions] at member
  rw [Scheduler.sitsApart, List.any_eq_false]
  rintro ⟨other, q⟩ entry
  have found := (SortedMap.mem_entries_iff s.queues other q).mp entry
  simp only [Bool.and_eq_true, decide_eq_true_eq, not_and]
  intro apart waits
  obtain ⟨⟨q', found', waits'⟩, lost⟩ := astray id member other apart ⟨q, found, waits⟩
  exact lost ((seating.exact id other q' found').2.mpr waits')

theorem Seating.serve_none (seating : s.Seating) (housed : s.Housed Thread.IsUser config)
    (served : serve queue s = .ok none s') : s.queueWaiters queue = .ok [] := by
  have ends : Ends (serve queue) s (fun t _ => t = none → s.queueWaiters queue = .ok []) fun _ => True := by
    refine ends_serve (fun _ => trivial) fun q n found taken nobody => ?_
    obtain ⟨-, serves, -⟩ := housed.selected found taken
    have empty : n.value.next = none := by
      cases chosen : n.value.next with
      | none => rfl
      | some id =>
          -- who is handed out has waited, and so has a state
          have known := seating.known id queue ⟨q, found, serves.member id chosen⟩
          obtain ⟨state, present⟩ := Option.isSome_iff_exists.mp known
          have named : ((s.selected queue n).tell (n.notices.map .notice)).thread? id = some state.thread := by
            show (s.selected queue n).thread? id = _
            rw [thread?_selected taken, Scheduler.thread?, present]
          rw [chosen, Option.bind_some, named] at nobody
          cases nobody
    rw [queueWaiters, queue?, found]
    exact congrArg Except.ok (serves.none empty)
  exact ends.of_ok served rfl

theorem Queueing.reachable (queueing : Queueing config line s) : s.Reachable config := by
  induction queueing with
  | boot booted => exact .boot booted
  | feed _ legal fed _ ih => exact ih.feed legal fed

def waitingApart : Option (List ThreadId × Scheduler) :=
  (boot middling ⟨⟨1⟩, "idle", .idle⟩ 0).value.toOption.bind (playQueueing
    [.interrupts ⟨false, 1⟩, .call (.createQueue false), .call (.join ⟨1⟩ ⟨⟨2⟩, "second", .ordinary⟩)] [])

theorem queueing_waitingApart (reached : waitingApart = some (line, s)) : Queueing middling line s := by
  unfold waitingApart at reached
  obtain ⟨s₀, made, played⟩ := Option.bind_eq_some_iff.mp reached
  refine Queueing.play (.boot ⟨by decide, by decide, ⟨⟨1⟩, "idle", .idle⟩, 0, rfl, ?_⟩) played
  exact eq_ok_of_toOption made

/-- The link between threads and queues is exact as long as no thread is admitted while it sits in another queue, and a call
that admits one breaks it. While it is exact, a queue that hands out nobody is empty. -/
theorem seating_iff_exclusive (queueing : Queueing config line s) (legal : s.Legal (.call call))
    (performed : s.perform call = some s') :
    s.Seating ∧ (s'.Seating ↔ s.Exclusive (.call call) s') ∧
      ∀ queue s'', serve queue s = .ok none s'' → s.queueWaiters queue = .ok [] := by
  have lining := lining_of_queueing queueing
  refine ⟨lining.seating, ⟨exclusive_of_seating lining legal performed, fun exclusive => ?_⟩, fun queue s'' served => ?_⟩
  · exact (lining.call legal performed exclusive).seating
  · exact lining.seating.serve_none lining.housed served

theorem seating_iff_exclusive_waitingApart :
    ∃ line s s', waitingApart = some (line, s) ∧ s.perform (.wake ⟨⟨2⟩, "second", .ordinary⟩) = some s' ∧ s.Seating ∧
      s'.queueWaiters .ready = .ok [⟨2⟩] ∧ s'.queueWaiters ⟨1⟩ = .ok [⟨2⟩] ∧ ¬s'.Seating := by
  have reached : waitingApart = some (waitingApart.get (by decide)) := (Option.some_get _).symm
  let wake : Call := .wake ⟨⟨2⟩, "second", .ordinary⟩
  have performed : (waitingApart.get (by decide)).2.perform wake =
      some (((waitingApart.get (by decide)).2.perform wake).get (by decide)) := (Option.some_get _).symm
  obtain ⟨before, exact, -⟩ := seating_iff_exclusive (queueing_waitingApart reached) (by decide) performed
  refine ⟨_, _, _, reached, performed, before, by decide, by decide, ?_⟩
  rw [exact]
  decide

def leftBehind : Option Scheduler :=
  waitingApart.bind fun both => playLegal
    [.call (.wake ⟨⟨2⟩, "second", .ordinary⟩), .call .dispatch, .call .finish] both.2

theorem reachable_leftBehind (reached : leftBehind = some s) : Reachable middling s := by
  unfold leftBehind at reached
  obtain ⟨⟨line, s₁⟩, before, played⟩ := Option.bind_eq_some_iff.mp reached
  exact (queueing_waitingApart before).reachable.play played

/-- A run may leave a waiter without a state behind, and its queue hands out nobody. -/
theorem exists_not_seating :
    ∃ s s', Reachable middling s ∧ s.queueWaiters ⟨1⟩ = .ok [⟨2⟩] ∧ s.threads.get? ⟨2⟩ = none ∧
      serve ⟨1⟩ s = .ok none s' ∧ ¬s.Seating := by
  have reached : leftBehind = some (leftBehind.get (by decide +kernel)) := (Option.some_get _).symm
  have waits : (leftBehind.get (by decide +kernel)).queueWaiters ⟨1⟩ = .ok [⟨2⟩] := by decide +kernel
  have gone : (leftBehind.get (by decide +kernel)).threads.get? ⟨2⟩ = none := by decide +kernel
  have nobody : ((leftBehind.get (by decide +kernel)).after (serve ⟨1⟩)).map Prod.fst = some none := by decide +kernel
  obtain ⟨s', served⟩ := exists_of_after nobody
  refine ⟨_, s', reachable_leftBehind reached, waits, gone, served, fun seating => ?_⟩
  have known := seating.known ⟨2⟩ ⟨1⟩ ((waits_iff_mem waits).mpr (List.mem_singleton_self _))
  rw [gone] at known
  cases known

end Scheduler

end PriorityScheduler
