import PriorityScheduler.Proofs.Scheduler.Turning

/-!
# Exact accounts

A thread may only be made ready while it neither runs nor waits for a lock. Then whoever runs is neither ready nor in line,
and whoever was not taken off the ready queue but to run leads a life in turns, whose record adds up to its length.

Main statement: `balanced_of_watched`.
-/

namespace PriorityScheduler

open PriorityScheduler.Action PriorityScheduler.Scheduler PriorityScheduler.LockRegistry

def Call.joins : Call → Bool
  | .join _ _ => true
  | _ => false

def Call.woken? : Call → Option Thread
  | .wake thread => some thread
  | _ => none

def Scheduler.Input.call? : Input → Option Call
  | .call c => some c
  | _ => none

namespace Scheduler

variable {roster : Roster} {config : Config} {takings : Takings} {s s' : Scheduler} {c t : Thread} {refused : Scheduler → Prop}

/-! ## The end of a thread -/

theorem Turning.retired (turning : s.Turning roster config takings) (unseated : s.placement.seat? t.id = none)
    (record : Option Lifetime) :
    let s' := ({ s with threads := s.threads.remove t.id } : Scheduler).tell
      (record.toList.map fun r => .event (.finished t r))
    s'.Turning roster config takings ∧ s'.placement = s.placement := by
  obtain ⟨housed, placed⟩ := turning.housed.retired t.id
  have nowhere : s.placement.unseat t.id = s.placement := by
    refine Placement.ext rfl (funext fun j => ?_)
    simp only [Placement.unseat]
    split
    · rename_i here
      rw [here, unseated]
    · rfl
  have after (out : List Output) := (housed.told out).imp_right (·.trans (placed.trans nowhere))
  have elsewhere : s.placement.seat? t.id ≠ some .ready := by simp [unseated]
  cases record with
  | none =>
      have still : ({ s with threads := s.threads.remove t.id } : Scheduler).Turning roster config takings :=
        turning.still ⟨housed, placed.trans nowhere⟩ rfl (.of_eq rfl)
      exact ⟨still.told (List.forall_mem_nil _), (after []).2⟩
  | some record =>
      refine ⟨turning.step (m := .finished record) (after _) rfl rfl rfl turning.gathered (fun _ _ => rfl)
        (fun ready => absurd ready elsewhere) ⟨fun ready => absurd ready elsewhere, fun _ ready => absurd ready elsewhere,
          fun _ _ => Life.inTurns_nil⟩ fun thread record' same => ?_, (after _).2⟩
      cases same
      exact fun _ spared => (turning.paced t.id).turns spared elsewhere

theorem left_of_seat?_eq_none {id : ThreadId} (unseated : s.threads.seat? id = none) : s.left id = s := by
  have seat : (s.threads.get? id).bind (·.queuedOn) = none := unseated
  rw [Scheduler.left, seat]

theorem Manned.ends_depart {beside gone post : Scheduler → Prop} (manned : s.Manned roster config takings c (c.isIdle = false))
    (books : Recorded beside) (books' : Recorded gone)
    (withdrawn : beside s →
      let w := s.locks.withdraw c.id s.threads
      beside (s.follow w w.changed))
    (handed : ∀ {lock} {s' : Scheduler}, s'.Manned roster config takings c (c.isIdle = false) → c.isIdle = false → beside s' →
      Ends (handOn lock c s.clock.now) s' (fun _ => beside) refused)
    (stays : ∀ {s'}, s'.threads.get? c.id = none → beside s' → gone s')
    (retired : ∀ {s' : Scheduler} {state record statistics}, s'.Manned roster config takings c (c.isIdle = false) →
      c.isIdle = false → s'.threads.get? c.id = some state →
      state.finished s.clock.now s'.statistics = .ok (record, statistics) → beside s' →
      gone (({ s' with threads := s'.threads.remove c.id } : Scheduler).tell
        (record.toList.map fun r => .event (.finished c r))))
    (blocked : ∀ {s' : Scheduler}, s'.Manned roster config takings c (c.isIdle = false) → c.isIdle = false → gone s' →
      post { s' with processor := s'.processor.block })
    (early : ∀ {s'}, s'.Manned roster config takings c (c.isIdle = false) → beside s' → refused s')
    (holds : beside s) :
    Ends depart s (fun _ => post) refused := by
  obtain rfl : s.processor.current = c := manned.1.2
  let c := s.processor.current
  let Mine : Scheduler → Prop := Manned roster config takings c (c.isIdle = false)
  have mine : Bookkept Mine := (neutral_manned roster config takings c (c.isIdle = false)).toBookkept
  have departs (busy : c.isIdle = false) : Departs (fun s' => s' = s) (fun s' => Mine s' ∧ gone s') refused c s.clock.now
      (fun _ s' => Mine s' ∧ beside s') fun s' => Mine s' ∧ beside s' := by
    have unseated {s' : Scheduler} (mine : Mine s') : s'.placement.seat? c.id = none :=
      mine.1.1.seat?_eq_none (mine.2 busy).1
    refine ⟨fun _ => mine.toRecorded.and books, fun both => early both.1 both.2, fun same => ?_, fun both => ?_,
      fun both => ?_, fun both => ?_⟩
    · subst same
      exact ⟨manned.walked (effect_withdraw _ _ _) (shrinks_withdraw _ _ _), withdrawn holds⟩
    · exact ((ends_handOn_manned _ _ both.1).and (handed both.1 busy both.2)).imp (fun _ _ => id) fun _ => And.right
    · rwa [left_of_seat?_eq_none (unseated both.1)]
    · refine ends_retire_record (mine.toRecorded.and books') s.clock.now (fun absent => ⟨both.1, stays absent both.2⟩)
        fun state record _ found drawn => ⟨?_, retired both.1 busy found drawn both.2⟩
      obtain ⟨turning, same⟩ := both.1.1.1.retired (unseated both.1) record
      have seat? := congrFun (congrArg Placement.seat? same) c.id
      exact ⟨⟨turning, both.1.1.2⟩, fun busy => (both.1.2 busy).congr seat? (.of_eq rfl)⟩
  exact ends_depart_block (mine.toRecorded.and books') (fun busy _ both => blocked both.1 busy both.2) departs rfl

theorem ends_depart_manned (manned : s.Manned roster config takings c (c.isIdle = false)) :
    Ends depart s (fun _ => Manned roster config takings c (c.isIdle = false))
      (Manned roster config takings c (c.isIdle = false)) := by
  have books : Recorded fun _ => True := ⟨fun _ _ => id, fun _ => id⟩
  refine manned.ends_depart books books id (fun mine _ _ => ?_) (fun _ => id) (fun _ _ _ _ => id) (fun {s'} mine _ _ => ?_)
    (fun mine _ => mine) trivial
  · exact (ends_handOn_manned _ _ mine).imp (fun _ _ _ => trivial) fun _ => id
  · exact (neutral_manned roster config takings c _).quiet (s := s') ⟨rfl, rfl, rfl, rfl, rfl, rfl, rfl, rfl, rfl⟩ mine

/-! ## Dispatch -/

/-- Threads take turns but for one that was just taken off the ready queue. -/
def Chosen (roster : Roster) (config : Config) (takings : Takings) (next : Option ThreadId) (s : Scheduler) : Prop :=
  ∃ s₀ : Scheduler, s₀.Turning roster config takings ∧ (∀ id ∈ next, s₀.placement.seat? id = some .ready) ∧
    (s.Housed roster.Lists config ∧ s.placement = next.elim s₀.placement (s₀.placement.leave · .ready)) ∧
    s.locks = s₀.locks ∧ s.output = s₀.output

theorem bookkept_chosen (roster : Roster) (config : Config) (takings : Takings) (next : Option ThreadId) :
    Bookkept (Chosen roster config takings next) where
  quiet same := by
    rintro ⟨s₀, turning, sat, ⟨housed, placed⟩, locks, output⟩
    have after := housed.same same.threads same.queues same.nextQueue same.current same.idle
    exact ⟨s₀, turning, sat, after.imp_right (·.trans placed), same.locks.trans locks, same.output.trans output⟩
  told {s out} silent := by
    rintro ⟨s₀, turning, sat, ⟨housed, placed⟩, locks, output⟩
    have still := (turning.housed.told out).2
    refine ⟨s₀.tell out, (neutral_turning roster config takings).told silent turning, ?_, ?_, locks, congrArg (· ++ out) output⟩
    · rwa [still]
    · rw [still]
      exact (housed.told out).imp_right (·.trans placed)

theorem Turning.runsNext (turning : s.Turning roster config takings) {q : WaitQueue} {n : Noted (Selection WaitQueue)}
    (found : s.queues.get? .ready = some q) (taken : q.next s.threads s.clock.now = .ok n) (runs : s.RunsNext n t) :
    n.value.next = none ∧ t = s.idle.thread ∨ n.value.next = some t.id ∧ t.isIdle = false ∧ roster.Lists t := by
  obtain ⟨housed, serves, -⟩ := turning.housed.selected found taken
  cases chosen : n.value.next with
  | none =>
      rw [RunsNext, chosen] at runs
      rcases runs with known | ⟨-, idle⟩
      · cases known
      · exact .inl ⟨rfl, idle⟩
  | some id =>
      obtain ⟨-, sits, busy⟩ := turning.gathered id .ready ⟨q, found, serves.member id chosen⟩
      rw [RunsNext, chosen] at runs
      rcases runs with known | ⟨unknown, -⟩
      · obtain ⟨rfl, listed⟩ := housed.registered.thread? roster.lists_main known
        rw [listed] at busy
        exact .inr ⟨rfl, busy, listed⟩
      · -- a thread that knows its queue has a state
        obtain ⟨state, present⟩ := ThreadRegistry.exists_of_seat? sits
        rw [Option.bind_some, thread?_selected taken, Scheduler.thread?, present] at unknown
        cases unknown

def OnTurn (roster : Roster) (config : Config) (takings : Takings) (s : Scheduler) : Prop :=
  s.Manned roster config takings s.processor.current (s.processor.current.isIdle = false)

theorem Manned.onTurn (manned : s.Manned roster config takings c (c.isIdle = false)) : s.OnTurn roster config takings := by
  rw [OnTurn, manned.1.2]
  exact manned

theorem Turning.switched (turning : s.Turning roster config takings) (known : s.Knows t) :
    ({ s with processor := s.processor.switchTo t } : Scheduler).Turning roster config takings :=
  turning.still (turning.housed.still (turning.housed.registered.switched roster.lists_main known) rfl rfl fun _ => rfl) rfl
    (.of_eq rfl)

theorem Chosen.launched (chosen : s.Chosen roster config takings (some t.id)) (busy : t.isIdle = false) (listed : roster.Lists t)
    (p : Priority) (charged : s.Charged t s') :
    let s'' := s'.tell [.event (.scheduled s.clock.now t p)]
    s''.Turning roster config takings ∧ s''.Off t.id := by
  obtain ⟨s₀, turning, sat, ⟨housed, placed⟩, locks, output⟩ := chosen
  have ready : s₀.placement.seat? t.id = some .ready := sat t.id rfl
  have isBusy : (roster.thread t.id).isIdle = false := by rw [listed, busy]
  have awake : ¬s₀.locks.InLine t.id := fun waits => turning.apart t.id isBusy waits ready
  have charge := housed.charged charged
  obtain ⟨threads, rfl, -⟩ := charged.exists_threads
  have after := (charge.1.told [.event (.scheduled s.clock.now t p)]).imp_right (·.trans (charge.2.trans placed))
  have unseated : (s₀.placement.leave t.id .ready).seat? t.id = none := if_pos rfl
  have out : (s₀.placement.leave t.id .ready).seat? t.id ≠ some .ready := by simp [unseated]
  refine ⟨?_, ?_, locks ▸ awake⟩
  · refine turning.step (m := .dispatched s.clock.now) after rfl (congrArg (· ++ _) output) locks
      (turning.gathered.leave t.id) (fun j other => if_neg other) (fun sits => absurd sits out)
      ⟨fun sits => absurd sits out, fun _ sits => absurd sits out, fun spared _ => ?_⟩ nofun
    exact ((turning.paced t.id).turn spared ready).dispatched s.clock.now
  · exact fun sits => out ((congrFun (congrArg Placement.seat? after.2) t.id).symm.trans sits)

theorem ends_dispatch_onTurn (turning : s.Turning roster config takings) :
    Ends dispatch s (fun _ => OnTurn roster config takings) (OnTurn roster config takings) := by
  have books (n : Noted (Selection WaitQueue)) := (bookkept_chosen roster config takings n.value.next).toRecorded
  refine (ends_dispatch_choice books (fun absent => ?_) (fun q n found taken => ?_) ?_).imp (fun _ _ => And.left) fun _ => id
  · exact absurd absent (Option.isSome_iff_ne_none.mp turning.housed.ready)
  · obtain ⟨housed, serves, placed⟩ := turning.housed.selected found taken
    refine ⟨s, turning, fun id chosen => ?_, ⟨housed, placed⟩, rfl, rfl⟩
    exact (turning.gathered id .ready ⟨q, found, serves.member id chosen⟩).2.1
  · intro q n t s₁ found taken runs known chosen
    refine ends_launch (fun idle => ?_) fun p s' busy charged => ?_
    · rcases turning.runsNext found taken runs with ⟨nobody, -⟩ | ⟨-, busy, -⟩
      · obtain ⟨s₀, turning₀, -, ⟨housed, placed⟩, locks, output⟩ := chosen
        rw [nobody] at placed
        have still : s₁.Turning roster config takings := turning₀.still ⟨housed, placed⟩ output (.of_eq locks)
        refine Manned.onTurn (c := t) ⟨⟨still.switched known, rfl⟩, fun busy => ?_⟩
        cases idle.symm.trans busy
      · cases idle.symm.trans busy
    · rcases turning.runsNext found taken runs with ⟨-, rfl⟩ | ⟨next, -, listed⟩
      · cases turning.housed.registered.idling.symm.trans busy
      · rw [next] at chosen
        obtain ⟨launched, isOff⟩ := chosen.launched busy listed p charged
        have known' : s'.Knows t := known.charged charged
        exact Manned.onTurn (c := t) ⟨⟨launched.switched known', rfl⟩, fun _ => isOff⟩

/-! ## Calls -/

/-- Threads only come to wait when a thread is made ready that neither runs nor is in line for a lock, when the one that
runs gives way, and when a lock is handed on. The processor is not exchanged. -/
def Admits (s : Scheduler) : Input → Prop
  | .call call => call.joins = false ∧ ∀ t ∈ call.woken?, t.id ≠ s.processor.current.id ∧ ¬s.locks.InLine t.id
  | .processor _ => False
  | _ => True

instance (s : Scheduler) (input : Input) : Decidable (Admits s input) :=
  match input with
  | .call _ => inferInstanceAs (Decidable (_ ∧ _))
  | .clock _ => isTrue trivial
  | .interrupts _ => isTrue trivial
  | .processor _ => isFalse id

/-- Who was taken off the ready queue by `serve` in its life so far. -/
def takenAfter (taken : ThreadId → Bool) (s : Scheduler) (input : Input) (s' : Scheduler) (id : ThreadId) : Bool :=
  !(lifeOf id s'.output).isEmpty &&
    (taken id || decide (input.call? = some (.serve .ready) ∧ id ∈ s.readyWaiters ∧ id ∉ s'.readyWaiters))

theorem OnTurn.interrupted (onTurn : s.OnTurn roster config takings) (interrupts : Interrupts) :
    ({ s with interrupts } : Scheduler).OnTurn roster config takings :=
  (neutral_manned roster config takings _ _).interrupted interrupts onTurn

theorem Turning.noted (turning : s.Turning roster config takings) {taken : ThreadId → Bool}
    (spared : ∀ id, taken id = false → lifeOf id s.output ≠ [] → takings.taken id = false) :
    s.Turning roster config ⟨taken, s.output.length⟩ := by
  refine { turning with paced := fun id => ?_, audited := fun before thread record within late => ?_ }
  · have paced := turning.paced id
    refine ⟨paced.begun, fun free ready => ?_, fun free unready => ?_⟩
    · exact paced.turn (spared id free (paced.begun ready).ne_nil) ready
    · by_cases unborn : lifeOf id s.output = []
      · exact unborn ▸ Life.inTurns_nil
      · exact paced.turns (spared id free unborn) unready
  · have longer := within.length_le
    rw [List.length_append, List.length_singleton] at longer
    exact absurd late (Nat.not_le_of_lt longer)

def serving (takings : Takings) (queue : QueueId) (s s' : Scheduler) : Takings where
  taken id := takings.taken id || decide (queue = .ready ∧ id ∈ s.readyWaiters ∧ id ∉ s'.readyWaiters)
  told := takings.told

theorem taken_serving_eq_false {queue : QueueId} {id : ThreadId} : (serving takings queue s s').taken id = false ↔
    takings.taken id = false ∧ (queue = .ready → id ∈ s.readyWaiters → id ∈ s'.readyWaiters) := by
  simp [serving]

theorem Turning.selected (turning : s.Turning roster config takings) {queue : QueueId} {q : WaitQueue}
    {n : Noted (Selection WaitQueue)} (found : s.queues.get? queue = some q)
    (chosen : q.next s.threads s.clock.now = .ok n) :
    (s.selected queue n).Turning roster config (serving takings queue s (s.selected queue n)) ∧
      ∀ id, (s.selected queue n).placement.seat? id = some .ready → s.placement.seat? id = some .ready := by
  obtain ⟨housed, serves, placed⟩ := turning.housed.selected found chosen
  let s' := s.selected queue n
  have stays (id : ThreadId) (ready : s'.placement.seat? id = some .ready) : s.placement.seat? id = some .ready := by
    rw [placed] at ready
    cases next : n.value.next with
    | none => rwa [next] at ready
    | some j =>
        simp only [next, Option.elim_some, Placement.leave, Placement.unseat] at ready
        split at ready
        · cases ready
        · exact ready
  have gathered : Gathered roster s'.placement := by
    rw [placed]
    cases next : n.value.next with
    | none => exact turning.gathered
    | some j =>
        obtain ⟨rfl, -, -⟩ := turning.gathered j queue ⟨q, found, serves.member j next⟩
        exact turning.gathered.leave j
  -- whoever was ready and is spared waits on
  have waits (id : ThreadId) (spared : queue = .ready → id ∈ s.readyWaiters → id ∈ s'.readyWaiters)
      (ready : s.placement.seat? id = some .ready) : s'.placement.seat? id = some .ready := by
    by_cases here : queue = .ready
    · have before := mem_readyWaiters.mpr (turning.housed.seats id .ready ready)
      exact (gathered id .ready (mem_readyWaiters.mp (spared here before))).2.1
    · rw [placed]
      cases next : n.value.next with
      | none => exact ready
      | some j => exact absurd (turning.gathered j queue ⟨q, found, serves.member j next⟩).1 here
  refine ⟨⟨housed, gathered, fun id => ?_, fun before thread record within late free => ?_, turning.single, ?_⟩, stays⟩
  · have paced := turning.paced id
    refine ⟨fun ready => paced.begun (stays id ready), fun free ready => ?_, fun free unready => ?_⟩
    · exact paced.turn (taken_serving_eq_false.mp free).1 (stays id ready)
    · obtain ⟨free, spared⟩ := taken_serving_eq_false.mp free
      exact paced.turns free fun ready => unready (waits id spared ready)
  · exact turning.audited before thread record within late (taken_serving_eq_false.mp free).1
  · exact fun id busy inLine ready => turning.apart id busy inLine (stays id ready)

theorem ends_serve_onTurn {queue : QueueId} (onTurn : s.OnTurn roster config takings) :
    Ends (serve queue) s
      (fun _ s' => s'.OnTurn roster config (serving takings queue s s') ∧ Audited takings.Spares s'.output)
      (fun s' => s'.OnTurn roster config (serving takings queue s s') ∧ Audited takings.Spares s'.output) := by
  obtain ⟨⟨turning, current⟩, isOff⟩ := onTurn
  refine ends_serve (fun _ => ?_) fun q n found chosen => ?_
  · have same : serving takings queue s s = takings := by simp [serving]
    exact ⟨same.symm ▸ ⟨⟨turning, current⟩, isOff⟩, turning.audited⟩
  · have quiet : ∀ o ∈ n.notices.map Output.notice, o.milestone? = none :=
      fun o member => (Bookkept.silent_notices n.notices o member).milestone?
    obtain ⟨selected, stays⟩ := turning.selected found chosen
    have off : s.processor.current.isIdle = false → (s.selected queue n).Off s.processor.current.id :=
      fun busy => ⟨fun ready => (isOff busy).1 (stays _ ready), (isOff busy).2⟩
    exact ⟨Manned.told (c := s.processor.current) ⟨⟨selected, current⟩, off⟩ quiet, turning.audited.quiet quiet⟩

theorem ends_giveWay_manned (manned : s.Manned roster config takings c (c.isIdle = false)) :
    Ends giveWay s (fun _ => Manned roster config takings c False) (Manned roster config takings c (c.isIdle = false)) := by
  have current : s.processor.current = c := manned.1.2
  rw [Action.giveWay, Action.current, ends_bind, ends_bind, ends_get, ends_pure, current]
  split
  · exact manned.weaken False.elim
  · rename_i busy
    have busy : c.isIdle = false := Bool.eq_false_iff.mpr busy
    have listed : roster.Lists c := current ▸ manned.1.1.housed.registered.busy (current ▸ busy)
    rw [ends_bind]
    refine ((neutral_manned roster config takings c _).ageOut c manned).imp (fun _ s' after => ?_) fun _ => id
    exact ends_wake_manned listed after (fun _ => (after.2 busy).2) False.elim False.elim

theorem ends_onTurn {call : Call} (listed : ∀ t ∈ call.thread?, roster.Lists t) (admits : s.Admits (.call call))
    (serves : ∀ queue, call ≠ .serve queue) (running : roster.Lists s.processor.current)
    (onTurn : s.OnTurn roster config takings) :
    Ends call.action s (fun _ => OnTurn roster config takings) (OnTurn roster config takings) := by
  let c := s.processor.current
  -- a call that selects nobody leaves the current thread running
  let Mine : Scheduler → Prop := Manned roster config takings c (s.selection call = none ∧ c.isIdle = false)
  have mine {s' : Scheduler} (manned : s'.Manned roster config takings c (c.isIdle = false)) : Mine s' :=
    manned.weaken And.right
  have masked : s.masked.Manned roster config takings c (c.isIdle = false) := onTurn.interrupted _
  obtain ⟨apart, woken⟩ := admits
  have neutral := neutral_manned roster config takings c (s.selection call = none ∧ c.isIdle = false)
  refine ends_parts neutral.mild listed (fun _ => id) (fun interrupts after => after.interrupted interrupts)
    (fun s' after none => ?_) ?_ ?_ ?_ (fun _ _ => neutral.suspend c (mine onTurn)) ?_
    (fun s₁ _ after => ends_dispatch_onTurn after.1.1) ?_ ?_ ?_ (mine onTurn)
  · exact Manned.onTurn (c := c) (after.weaken fun busy => ⟨none, busy⟩)
  · rintro queue thread rfl
    cases apart
  · rintro thread rfl
    obtain ⟨other, awake⟩ := woken thread rfl
    have wakes := ends_wake_manned (listed thread rfl) onTurn (fun _ => awake) id fun _ _ => other
    exact wakes.imp (fun _ _ => mine) fun _ => mine
  · rintro rfl
    refine (ends_giveWay_manned masked).run.imp (fun _ s₁ both => both.1.weaken fun none => ?_) fun _ both => mine both.1
    simp [Scheduler.selection, both.2] at none
  · exact fun queue same => absurd same (serves queue)
  · rintro lock rfl
    refine (ends_contend_manned lock running masked).run.imp (fun outcome s₁ both => both.1.weaken fun busy => ?_)
      fun _ both => mine both.1
    cases outcome with
    | acquired => exact ⟨rfl, busy.2⟩
    | blocked holder => simp [Scheduler.selection, both.2] at busy
  · rintro lock rfl
    exact (ends_handOn_manned lock s.clock.now masked).imp (fun _ _ => mine) fun _ => mine
  · rintro rfl
    exact (ends_depart_manned masked).imp (fun _ _ => mine) fun _ => mine

/-! ## Runs -/

theorem Booted.onTurn (booted : s.Booted config) (listed : roster.Lists s.idle.thread) : s.OnTurn roster config takings := by
  have housed := (booted.staffed listed).1.1
  have known := @Booted.queue config s booted
  obtain ⟨idle, start, -, rfl⟩ := booted.eq
  have nobody (id : ThreadId) : ¬(({ donation := config.donation } : LockRegistry).InLine id) := by
    rintro ⟨lock, waits⟩
    cases waits
  refine ⟨⟨⟨housed, ?_, fun id => ⟨nofun, nofun, fun _ _ => Life.inTurns_nil⟩, audited_nil _, ⟨?_, ?_⟩, ?_⟩, rfl⟩,
    fun _ => ⟨nofun, nobody _⟩⟩
  · rintro id queue ⟨q, found, waits⟩
    obtain ⟨-, rfl⟩ := known found
    rw [WaitQueue.waiters_new] at waits
    cases waits
  · intro id _ j k waits
    cases waits
  · intro id _ lock
    exact Nat.zero_le 1
  · intro id _ waits
    cases nobody id waits

theorem OnTurn.feed {input : Input} {taken : ThreadId → Bool} (attainable : s.Attainable roster config)
    (onTurn : s.OnTurn roster config ⟨taken, s.output.length⟩) (fits : Open roster s input) (admits : s.Admits input)
    (fed : s.feed input = some s') :
    s'.OnTurn roster config ⟨takenAfter taken s input s', s'.output.length⟩ ∧
      Audited (Takings.Spares ⟨taken, s.output.length⟩) s'.output := by
  have free {id : ThreadId} (spared : takenAfter taken s input s' id = false) (born : lifeOf id s'.output ≠ []) :
      taken id = false ∧ (input.call? = some (.serve .ready) → id ∈ s.readyWaiters → id ∈ s'.readyWaiters) := by
    simpa [takenAfter, born] using spared
  have noted {takings : Takings} (onTurn : s'.OnTurn roster config takings)
      (spared : ∀ id, takenAfter taken s input s' id = false → lifeOf id s'.output ≠ [] → takings.taken id = false) :
      s'.OnTurn roster config ⟨takenAfter taken s input s', s'.output.length⟩ :=
    ⟨⟨onTurn.1.1.noted spared, rfl⟩, onTurn.2⟩
  have plain (onTurn : s'.OnTurn roster config ⟨taken, s.output.length⟩) :
      s'.OnTurn roster config ⟨takenAfter taken s input s', s'.output.length⟩ ∧
        Audited (Takings.Spares ⟨taken, s.output.length⟩) s'.output :=
    ⟨noted onTurn fun id spared born => (free spared born).1, onTurn.1.1.audited⟩
  cases input with
  | call call =>
      by_cases serves : ∃ queue, call = .serve queue
      · obtain ⟨queue, rfl⟩ := serves
        let after (s' : Scheduler) : Prop := s'.OnTurn roster config (serving ⟨taken, s.output.length⟩ queue s s') ∧
          Audited (Takings.Spares ⟨taken, s.output.length⟩) s'.output
        have ends : Ends (Call.serve queue).action s (fun _ => after) after := ends_unit (ends_serve_onTurn onTurn)
        obtain ⟨served, audited⟩ := of_perform ends fed
        refine ⟨noted served fun id spared born => ?_, audited⟩
        obtain ⟨free, stays⟩ := free spared born
        exact taken_serving_eq_false.mpr ⟨free, fun here => stays (here ▸ rfl)⟩
      · have running := (staffed_of_attainable attainable).2.1
        exact plain (of_perform (ends_onTurn fits admits (fun queue same => serves ⟨queue, same⟩) running onTurn) fed)
  | clock time =>
      cases fed
      exact plain ⟨⟨onTurn.1.1.same rfl rfl rfl rfl rfl rfl (.of_eq rfl), rfl⟩, onTurn.2⟩
  | interrupts interrupts =>
      cases fed
      exact plain (onTurn.interrupted interrupts)
  | processor processor => cases admits

theorem onTurn_of_watched {taken : ThreadId → Bool}
    (watched : s.Watched (fun _ => false) takenAfter Admits roster config taken) :
    s.OnTurn roster config ⟨taken, s.output.length⟩ := by
  induction watched with
  | @boot s booted listed _ => exact booted.onTurn listed
  | feed watched fits admits fed ih => exact (ih.feed watched.obeying.attainable fits admits fed).1

/-- Each thread that finishes and was not taken off the ready queue in its life was admitted and dispatched in turns. It
waited from its admissions to the dispatches after them and ran from its dispatches to the admissions after them or its end,
and these times add up to its life. -/
theorem balanced_of_watched {taken : ThreadId → Bool} {input : Input} {before after : List Output} {thread : Thread}
    {record : Lifetime} (watched : s.Watched (fun _ => false) takenAfter Admits roster config taken)
    (fits : Open roster s input) (admits : s.Admits input) (fed : s.feed input = some s')
    (told : s'.output = before ++ .event (.finished thread record) :: after) (late : s.output.length ≤ before.length)
    (spared : taken thread.id = false) :
    ∃ turns, lifeOf thread.id before = Life.ofTurns turns ∧
      (Life.ofTurns turns).Ordered ∧ (Life.ofTurns turns).Until record.finish ∧
      turns.head?.map (·.admitted) = some record.arrival ∧
      record.wait = Turn.waited turns ∧ record.run = Turn.ran turns record.finish ∧
      record.arrival ≤ record.finish ∧ record.run + record.wait = record.finish - record.arrival := by
  have attainable := watched.obeying.attainable
  have audited := ((onTurn_of_watched watched).feed attainable fits admits fed).2
  obtain ⟨turns, life⟩ := audited.of_told told late spared
  have closes := (ledger_of_attainable (attainable.feed fits fed)).closed.of_told told
  rw [life] at closes
  have early := closes.counted_le.1
  obtain ⟨arrived, waited, ran, total⟩ := closes.balanced
  obtain ⟨upTo, a, course, -⟩ := closes
  exact ⟨turns, life, course.ordered, upTo, arrived, waited, ran, early, total⟩

/-- Two workers take turns. The first one is taken off the ready queue and made ready again while the second one runs. -/
def relayed : Option ((ThreadId → Bool) × Scheduler) :=
  watchedUnder {} (fun _ => false) takenAfter Admits [.interrupts ⟨false, 1⟩, .call (.wake ⟨⟨2⟩, "worker", .ordinary⟩),
    .call (.wake ⟨⟨3⟩, "worker", .ordinary⟩), .clock 2, .call .sleep, .clock 5, .call .yield, .clock 6,
    .call (.serve .ready), .clock 8, .call (.wake ⟨⟨2⟩, "worker", .ordinary⟩), .clock 9, .call .yield, .clock 12,
    .call .sleep, .clock 15]

theorem balanced_of_watched_relayed :
    ∃ taken s s' before after turns, relayed = some (taken, s) ∧ taken ⟨2⟩ = true ∧ taken ⟨3⟩ = false ∧
      s.feed (.call .finish) = some s' ∧
      s'.output = before ++ .event (.finished ⟨⟨3⟩, "worker", .ordinary⟩ ⟨0, 7, 8, 15⟩) :: after ∧
      lifeOf ⟨3⟩ before = Life.ofTurns [⟨0, 5⟩, ⟨9, 12⟩] ∧ lifeOf ⟨3⟩ before = Life.ofTurns turns ∧
      8 = Turn.waited turns ∧ 7 = Turn.ran turns 15 ∧ 7 + 8 = 15 - 0 := by
  have reached : relayed = some (relayed.get (by decide +kernel)) := (Option.some_get _).symm
  let s := (relayed.get (by decide +kernel)).2
  have fed : s.feed (.call .finish) = some ((s.feed (.call .finish)).get (by decide +kernel)) := (Option.some_get _).symm
  let out := ((s.feed (.call .finish)).get (by decide +kernel)).output
  have told : out = out.take 11 ++ .event (.finished ⟨⟨3⟩, "worker", .ordinary⟩ ⟨0, 7, 8, 15⟩) :: out.drop 12 := by
    decide +kernel
  have life : lifeOf ⟨3⟩ (out.take 11) = Life.ofTurns [⟨0, 5⟩, ⟨9, 12⟩] := by decide +kernel
  have spared : (relayed.get (by decide +kernel)).1 ⟨3⟩ = false := by decide +kernel
  obtain ⟨turns, inTurns, -, -, -, waited, ran, -, total⟩ :=
    balanced_of_watched (watched_watchedUnder (by decide) (by decide) reached) (by decide) (by decide) fed told
      (by decide +kernel) spared
  exact ⟨_, _, _, _, _, turns, reached, by decide +kernel, spared, fed, told, life, inTurns, waited, ran, total⟩

/-- A worker that was taken off the ready queue and is made ready once more loses the time that it waited before. -/
def overlooked : Option Scheduler :=
  openedUnder Admits [.interrupts ⟨false, 1⟩, .call (.wake ⟨⟨2⟩, "worker", .ordinary⟩), .call .dispatch, .clock 5,
    .call .sleep, .clock 8, .call (.wake ⟨⟨2⟩, "worker", .ordinary⟩), .clock 9, .call (.serve .ready), .clock 12,
    .call (.wake ⟨⟨2⟩, "worker", .ordinary⟩), .clock 14, .call .dispatch, .clock 20, .call .finish]

theorem exists_not_balanced :
    ∃ (s : Scheduler) (thread : Thread) (record : Lifetime), s.Obeying Admits .workers {} ∧
      .event (.finished thread record) ∈ s.output ∧ record.run + record.wait ≠ record.finish - record.arrival := by
  have reached : overlooked = some (overlooked.get (by decide +kernel)) := (Option.some_get _).symm
  exact ⟨_, ⟨⟨2⟩, "worker", .ordinary⟩, ⟨0, 14, 2, 20⟩, obeying_openedUnder reached, by decide +kernel, by decide⟩

end Scheduler

end PriorityScheduler
