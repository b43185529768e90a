import PriorityScheduler.Proofs.Scheduler.Balance

namespace PriorityScheduler

open PriorityScheduler.Action PriorityScheduler.Scheduler PriorityScheduler.LockRegistry

variable {roster : Roster} {config : Config} {takings : Takings}

def Call.selects : Call → Bool
  | .serve _ => true
  | .dispatch => true
  | _ => false

/-! ## Run states and places -/

namespace Processor

variable (p : Processor) (t : Thread) (id : ThreadId)

theorem state?_setReady : (p.setReady t).state? id = if id = t.id then some .ready else p.state? id :=
  p.states.get?_insert_eq t.id id .ready

theorem state?_block : p.block.state? id = if id = p.current.id then some .blocked else p.state? id :=
  p.states.get?_insert_eq p.current.id id .blocked

theorem state?_switchTo :
    (p.switchTo t).state? id =
      if id = t.id then some .running
      else if id = p.current.id ∧ p.state? id = some .running then some .ready
      else p.state? id := by
  refine (SortedMap.get?_insert_eq _ t.id id RunState.running).trans ?_
  by_cases next : id = t.id
  · rw [if_pos next, if_pos next]
  · rw [if_neg next, if_neg next]
    split
    · rename_i leaves
      rw [SortedMap.get?_insert_eq]
      by_cases here : id = p.current.id
      · rw [if_pos here, if_pos ⟨here, here ▸ leaves.2⟩]
      · rw [if_neg here, if_neg fun both => here both.1]
        rfl
    · rename_i stays
      rw [if_neg]
      · rfl
      · rintro ⟨rfl, runs⟩
        exact stays ⟨next, runs⟩

end Processor

/-- What the processor records of a thread agrees with its place: a thread is ready if it sits in the ready queue, but for
idle threads, nobody but the current thread runs, and who is in line for a lock is blocked. -/
structure Posted (roster : Roster) (place : Placement) (p : Processor) (t : LockRegistry) : Prop where
  ready : ∀ id, (roster.thread id).isIdle = false → (p.state? id = some .ready ↔ place.seat? id = some .ready)
  running : ∀ id, p.state? id = some .running → id = p.current.id
  lined : ∀ id, t.InLine id → (roster.thread id).isIdle = false ∧ p.state? id = some .blocked

namespace Posted

variable {place : Placement} {p : Processor} {t u : LockRegistry} {next : Thread}

theorem shrink (posted : Posted roster place p t) (shrinks : t.Shrinks u) : Posted roster place p u :=
  ⟨posted.ready, posted.running, fun id waits => posted.lined id (shrinks.inLine waits)⟩

theorem woken (posted : Posted roster place p t) (awake : ¬t.InLine next.id) :
    Posted roster (place.join next.id .ready) (p.setReady next) t where
  ready id busy := by
    rw [Processor.state?_setReady]
    simp only [Placement.join]
    by_cases here : id = next.id
    · simp [here]
    · rw [if_neg here, if_neg here]
      exact posted.ready id busy
  running id runs := by
    rw [Processor.state?_setReady] at runs
    split at runs
    · cases runs
    · exact posted.running id runs
  lined id waits := by
    obtain ⟨busy, blocked⟩ := posted.lined id waits
    have other : id ≠ next.id := fun here => awake (here ▸ waits)
    rw [Processor.state?_setReady, if_neg other]
    exact ⟨busy, blocked⟩

theorem blocked (posted : Posted roster place p t) (unready : place.seat? p.current.id ≠ some .ready)
    (lines : ∀ id, u.InLine id → t.InLine id ∨ id = p.current.id ∧ (roster.thread id).isIdle = false) :
    Posted roster place p.block u where
  ready id busy := by
    rw [Processor.state?_block]
    split
    · rename_i here
      exact iff_of_false nofun (here ▸ unready)
    · exact posted.ready id busy
  running id runs := by
    rw [Processor.state?_block] at runs
    split at runs
    · cases runs
    · exact posted.running id runs
  lined id waits := by
    rw [Processor.state?_block]
    rcases lines id waits with waits | ⟨here, busy⟩
    · obtain ⟨busy, blocked⟩ := posted.lined id waits
      exact ⟨busy, by rw [blocked, ite_self]⟩
    · exact ⟨busy, if_pos here⟩

theorem switched {place' : Placement} (posted : Posted roster place p t)
    (left : p.state? p.current.id = some .running → (roster.thread p.current.id).isIdle = true)
    (others : ∀ id, id ≠ next.id → place'.seat? id = place.seat? id)
    (chosen : (roster.thread next.id).isIdle = true ∨ place'.seat? next.id = none ∧ ¬t.InLine next.id) :
    Posted roster place' (p.switchTo next) t where
  ready id busy := by
    rw [Processor.state?_switchTo]
    by_cases here : id = next.id
    · rw [if_pos here]
      rcases chosen with idle | ⟨unseated, -⟩
      · rw [here, idle] at busy
        cases busy
      · exact iff_of_false nofun (by simp [here, unseated])
    · have stays : ¬(id = p.current.id ∧ p.state? id = some .running) := by
        rintro ⟨rfl, runs⟩
        cases busy.symm.trans (left runs)
      rw [if_neg here, if_neg stays, others id here]
      exact posted.ready id busy
  running id runs := by
    rw [Processor.state?_switchTo] at runs
    split at runs
    · assumption
    · split at runs
      · cases runs
      · rename_i stays
        exact absurd ⟨posted.running id runs, runs⟩ stays
  lined id waits := by
    obtain ⟨busy, blocked⟩ := posted.lined id waits
    have other : id ≠ next.id := by
      rintro rfl
      rcases chosen with idle | ⟨-, awake⟩
      · cases busy.symm.trans idle
      · exact awake waits
    refine ⟨busy, ?_⟩
    rw [Processor.state?_switchTo, if_neg other, if_neg fun both => ?_, blocked]
    cases blocked.symm.trans both.2

end Posted

namespace Scheduler

variable {s s' : Scheduler} {c t : Thread} {id : ThreadId} {refused : Scheduler → Prop}

structure Posting (roster : Roster) (config : Config) (s : Scheduler) : Prop where
  housed : s.Housed roster.Lists config
  posted : Posted roster s.placement s.processor s.locks
  idling : roster.Lists s.idle.thread

structure Fixed (roster : Roster) (config : Config) (place : Placement) (p : Processor) (t : LockRegistry) (s : Scheduler) :
    Prop where
  housed : s.Housed roster.Lists config ∧ s.placement = place
  processor : s.processor = p
  locks : s.locks = t
  idling : roster.Lists s.idle.thread

theorem Fixed.posting {place : Placement} {p : Processor} {t : LockRegistry} (fixed : s.Fixed roster config place p t)
    (posted : Posted roster place p t) : s.Posting roster config := by
  obtain ⟨⟨housed, rfl⟩, rfl, rfl, idling⟩ := fixed
  exact ⟨housed, posted, idling⟩

theorem Posting.still (posting : s.Posting roster config)
    (after : s'.Housed roster.Lists config ∧ s'.placement = s.placement) (processor : s'.processor = s.processor)
    (shrinks : s.locks.Shrinks s'.locks) (idle : s'.idle.thread = s.idle.thread) : s'.Posting roster config := by
  refine ⟨after.1, ?_, idle ▸ posting.idling⟩
  rw [after.2, processor]
  exact posting.posted.shrink shrinks

theorem listing_fixed (place : Placement) (p : Processor) (t : LockRegistry) :
    Listing roster.Lists (Fixed roster config place p t) where
  still same processor fixed := by
    have after := fixed.housed.1.same same.threads same.queues same.nextQueue same.current same.idle
    exact ⟨after.imp_right (·.trans fixed.housed.2), processor.trans fixed.processor, same.locks.trans fixed.locks,
      same.idle ▸ fixed.idling⟩
  told _ fixed := { fixed with housed := (fixed.housed.1.told _).imp_right (·.trans fixed.housed.2) }
  ensured listed absent fixed :=
    { fixed with housed := (fixed.housed.1.ensured listed absent _).imp_right (·.trans fixed.housed.2) }

theorem mild_posting (roster : Roster) (config : Config) : Mild roster.Lists (Posting roster config) where
  still same processor posting :=
    posting.still (posting.housed.same same.threads same.queues same.nextQueue same.current same.idle) processor
      (.of_eq same.locks) same.idle
  told _ posting := posting.still (posting.housed.told _) rfl (.of_eq rfl) rfl
  ensured listed absent posting := posting.still (posting.housed.ensured listed absent _) rfl (.of_eq rfl) rfl
  interrupted _ posting := posting.still (posting.housed.same rfl rfl rfl rfl rfl) rfl (.of_eq rfl) rfl
  claimed found posting := posting.still (posting.housed.claimed found _) rfl (.of_eq rfl) rfl
  queueMade posting := posting.still (posting.housed.queueMade _) rfl (.of_eq rfl) rfl
  lockMade posting := posting.still (posting.housed.same rfl rfl rfl rfl rfl) rfl (shrinks_create _) rfl
  rebased found inside posting :=
    posting.still (posting.housed.follow _ (placed_reprice found (.setBase _ inside))) rfl (shrinks_reprice _ _ _ _) rfl

def Stands (roster : Roster) (config : Config) (id : ThreadId) (r : Option RunState) (s : Scheduler) : Prop :=
  s.Posting roster config ∧ s.processor.state? id = r

theorem mild_stands (roster : Roster) (config : Config) (id : ThreadId) (r : Option RunState) :
    Mild roster.Lists (Stands roster config id r) :=
  (mild_posting roster config).and
    { still := fun _ processor here => processor ▸ here
      told := fun _ here => here
      ensured := fun _ _ here => here
      interrupted := fun _ here => here
      claimed := fun _ here => here
      queueMade := fun here => here
      lockMade := fun here => here
      rebased := fun _ _ here => here }

theorem ends_ageOut_stands {r : Option RunState} (t : Thread) (stands : s.Stands roster config id r) :
    Ends (ageOut t) s (fun _ => Stands roster config id r) refused := by
  refine (mild_stands roster config id r).ends_ageOut (fun _ => stands) fun _ _ found aged => ⟨?_, stands.2⟩
  exact stands.1.still (stands.1.housed.follow _ (placed_reprice found (ThreadState.repriced_ageRunning aged))) rfl
    (shrinks_reprice _ _ _ _) rfl

/-! ## Threads that become ready or block -/

theorem ends_wake_posting (listed : roster.Lists t) (awake : t.isIdle = false → ¬s.locks.InLine t.id)
    (posting : s.Posting roster config) :
    Ends (wake t) s (fun _ s' => s'.Posting roster config ∧ t.isIdle = false ∧
      ∀ j, s'.processor.state? j = if j = t.id then some .ready else s.processor.state? j) refused := by
  have lists : Listing roster.Lists (Fixed roster config s.placement (s.processor.setReady t) s.locks) :=
    listing_fixed _ _ _
  have readied (j : ThreadId) := s.processor.state?_setReady t j
  refine lists.ends_wake listed (fun busy ready => ⟨?_, busy, fun j => ?_⟩) (fun _ _ => ⟨?_, rfl, rfl, posting.idling⟩) ?_ ?_
  · exact posting.still (posting.housed.told _) rfl (.of_eq rfl) rfl
  · have here : s.processor.state? t.id = some .ready := (posting.posted.ready t.id (by rw [listed, busy])).mpr ready
    show s.processor.state? j = _
    split
    · rename_i same
      rw [same, here]
    · rfl
  · exact posting.housed.same rfl rfl rfl rfl rfl
  · rintro s' q state accounts p busy - found queue - ⟨⟨housed, placed⟩, processor, locks, idling⟩
    obtain ⟨enrolled, joined⟩ := housed.joined listed.isMain_iff found queue accounts
    have after := (enrolled.told [.event (.enqueued s'.clock.now t p)]).imp_right (·.trans joined)
    refine ⟨⟨after.1, ?_, idling⟩, busy, fun j => ?_⟩
    · rw [after.2, placed]
      show Posted roster _ s'.processor s'.locks
      rw [processor, locks]
      exact posting.posted.woken (awake busy)
    · rw [← readied, ← processor]
      rfl
  · intro s' absent fixed
    exact absurd absent (Option.isSome_iff_ne_none.mp fixed.housed.1.ready)

theorem ends_handOn_stands {r : Option RunState} (lock : LockId) (time : Ticks) (listed : roster.Lists c)
    (turning : s.Turning roster config takings) (awake : c.isIdle = false → ¬s.locks.InLine c.id)
    (stands : s.Stands roster config c.id r) :
    Ends (handOn lock c time) s (fun _ => Stands roster config c.id r) (Stands roster config c.id r) := by
  refine turning.ends_handOn lock time stands (fun next w p done => ⟨?_, stands.2⟩) fun {t s'} named apart stands' => ?_
  · have walked := stands.1.still (stands.1.housed.walked (effect_release done)) rfl (shrinks_release done) rfl
    exact walked.still (walked.housed.told _) rfl (.of_eq rfl) rfl
  · refine (ends_wake_posting named (fun busy => (apart busy).2) stands'.1).imp (fun _ s₁ after => ?_) fun _ => id
    obtain ⟨posting, busy, states⟩ := after
    have other : c.id ≠ t.id := by
      intro same
      have waited := (apart busy).1
      rw [← same] at waited
      refine awake ?_ waited
      rw [← listed, same, named, busy]
    refine ⟨posting, ?_⟩
    rw [states, if_neg other, stands'.2]

theorem ends_giveWay_stands {r : Option RunState} (current : s.processor.current = c) (listed : roster.Lists c)
    (isOff : c.isIdle = false → s.Off c.id) (stands : s.Stands roster config c.id r) :
    Ends giveWay s (fun _ => Stands roster config c.id (if c.isIdle then r else some .ready)) refused := by
  rw [Action.giveWay, Action.current, ends_bind, ends_bind, ends_get, ends_pure, current]
  cases idle : c.isIdle with
  | true => exact stands
  | false =>
      simp only [Bool.false_eq_true, if_false]
      rw [ends_bind]
      have ages : Ends (ageOut c) s (fun _ s' => s'.Off c.id) refused := (neutral_off c.id).ageOut c (isOff idle)
      refine ((ends_ageOut_stands c stands).and ages).imp (fun _ s₁ both => ?_) fun _ => And.left
      refine (ends_wake_posting listed (fun _ => both.2.2) both.1.1).imp (fun _ s₂ after => ⟨after.1, ?_⟩) fun _ => id
      rw [after.2.2, if_pos rfl]

theorem Fixed.ends_suspend {place : Placement} {p : Processor} {t u : LockRegistry}
    (fixed : s.Fixed roster config place p u) (posted : Posted roster place p t)
    (unready : place.seat? p.current.id ≠ some .ready)
    (lines : ∀ id, u.InLine id → t.InLine id ∨ id = p.current.id ∧ (roster.thread id).isIdle = false) :
    Ends (suspend c) s (fun _ => Stands roster config p.current.id (some .blocked)) refused := by
  obtain ⟨⟨housed, rfl⟩, rfl, rfl, idling⟩ := fixed
  let s₁ : Scheduler := { s with processor := s.processor.block }
  have after : s₁.Housed roster.Lists config ∧ s₁.placement = s.placement := housed.same rfl rfl rfl rfl rfl
  have blocked : s₁.Posting roster config := ⟨after.1, after.2 ▸ posted.blocked unready lines, idling⟩
  rw [Action.suspend, ends_bind, Action.onProcessor, ends_modify]
  exact ends_ageOut_stands c ⟨blocked, (Processor.state?_block _ _).trans (if_pos rfl)⟩

theorem ends_contend_stands {r : Option RunState} (lock : LockId) (current : s.processor.current = c)
    (listed : roster.Lists c) (busy : c.isIdle = false) (unready : s.placement.seat? c.id ≠ some .ready)
    (stands : s.Stands roster config c.id r) :
    Ends (contend lock) s (fun outcome => Stands roster config c.id (if outcome = .acquired then r else some .blocked))
      (Stands roster config c.id r) := by
  subst current
  obtain ⟨posting, here⟩ := stands
  let place := s.placement
  let p := s.processor
  have fixed : s.Fixed roster config place p s.locks := ⟨⟨posting.housed, rfl⟩, rfl, rfl, posting.idling⟩
  let won (outcome : LockOutcome) (s' : Scheduler) : Prop := ∃ u, s'.Fixed roster config place p u ∧
    (outcome = .acquired → s.locks.Shrinks u) ∧ ∀ id, u.InLine id → s.locks.InLine id ∨ id = p.current.id
  have books (outcome : LockOutcome) : Recorded (won outcome) :=
    ⟨fun same processor ⟨u, fixed, lines⟩ => ⟨u, (listing_fixed place p u).still same processor fixed, lines⟩,
      fun silent ⟨u, fixed, lines⟩ => ⟨u, (listing_fixed place p u).told silent fixed, lines⟩⟩
  have waits {s' : Scheduler} {u : LockRegistry} (fixed : s'.Fixed roster config place p u) (shrinks : s.locks.Shrinks u) :
      s'.Stands roster config p.current.id r :=
    ⟨fixed.posting (posting.posted.shrink shrinks), by rw [fixed.processor, here]⟩
  refine ((listing_fixed place p s.locks).ends_contend listed fixed books ?_ ?_ ?_).imp (fun _ _ => id)
    fun s' after => waits after (.of_eq rfl)
  · rintro s' outcome w q - - - done ⟨⟨housed, placed⟩, processor, locks, idling⟩
    have walked := housed.walked (effect_acquire done)
    have told := (walked.1.told (w.notices.map .notice ++
      [.event (.lock outcome.transition lock s.clock.now p.current.id q)])).imp_right (·.trans (walked.2.trans placed))
    refine ⟨w.locks, ⟨told, processor, rfl, idling⟩, ?_, fun id waits => ?_⟩
    · rintro rfl
      exact locks ▸ shrinks_acquire done
    · rw [locks] at done
      cases outcome with
      | acquired => exact .inl ((shrinks_acquire done).inLine waits)
      | blocked holder => exact inLine_blocked done waits
  · rintro s' ⟨u, fixed, shrinks, -⟩
    exact waits fixed (shrinks rfl)
  · rintro holder s' ⟨u, fixed, -, lines⟩
    refine fixed.ends_suspend posting.posted unready fun id waits => (lines id waits).imp_right fun here => ⟨here, ?_⟩
    rw [here, listed, busy]

theorem ends_depart_stands {r : Option RunState} (manned : s.Manned roster config takings c (c.isIdle = false))
    (listed : roster.Lists c) (stands : s.Stands roster config c.id r) :
    Ends depart s (fun _ => Stands roster config c.id (some .blocked)) (Stands roster config c.id r) := by
  have books := (mild_stands roster config c.id r).toRecorded
  refine manned.ends_depart books books (fun stands => ⟨?_, stands.2⟩) (fun manned _ stands => ?_) (fun _ => id)
    (fun {s' _ record _} manned busy _ _ stands => ⟨?_, stands.2⟩) (fun {s'} manned busy stands => ?_) (fun _ => id)
    stands
  · exact stands.1.still (stands.1.housed.walked (effect_withdraw _ _ _)) rfl (shrinks_withdraw _ _ _) rfl
  · exact ends_handOn_stands _ _ listed manned.1.1 (fun busy => (manned.2 busy).2) stands
  · obtain ⟨turning, placed⟩ := manned.1.1.retired (manned.1.1.seat?_eq_none (manned.2 busy).1) record
    exact stands.1.still ⟨turning.housed, placed⟩ rfl (.of_eq rfl) rfl
  · obtain ⟨⟨-, rfl⟩, isOff⟩ := manned
    let s₁ : Scheduler := { s' with processor := s'.processor.block }
    have after : s₁.Housed roster.Lists config ∧ s₁.placement = s'.placement := stands.1.housed.same rfl rfl rfl rfl rfl
    refine ⟨⟨after.1, ?_, stands.1.idling⟩, (Processor.state?_block _ _).trans (if_pos rfl)⟩
    rw [after.2]
    exact stands.1.posted.blocked (isOff busy).1 fun _ => .inl

/-! ## Dispatch -/

def Running (roster : Roster) (config : Config) (s : Scheduler) : Prop :=
  s.Stands roster config s.processor.current.id (some .running)

theorem ends_dispatch_running (turning : s.Turning roster config takings)
    (left : s.processor.state? s.processor.current.id = some .running →
      (roster.thread s.processor.current.id).isIdle = true) (posting : s.Posting roster config) :
    Ends dispatch s (fun _ => Running roster config) refused := by
  let place (n : Noted (Selection WaitQueue)) : Placement := n.value.next.elim s.placement (s.placement.leave · .ready)
  have lists (n : Noted (Selection WaitQueue)) : Listing roster.Lists (Fixed roster config (place n) s.processor s.locks) :=
    listing_fixed _ _ _
  refine (ends_dispatch_choice (fun n => (lists n).toRecorded) (fun absent => ?_) (fun q n found taken => ?_) ?_).imp
    (fun _ _ => And.left) fun _ => id
  · exact absurd absent (Option.isSome_iff_ne_none.mp turning.housed.ready)
  · obtain ⟨housed, serves, placed⟩ := turning.housed.selected found taken
    exact ⟨⟨housed, placed⟩, rfl, rfl, posting.idling⟩
  · intro q n t s₁ found taken runs known fixed
    have switched : Posted roster (place n) (s.processor.switchTo t) s.locks := by
      rcases turning.runsNext found taken runs with ⟨nobody, rfl⟩ | ⟨next, busy, listed⟩
      · simp only [place, nobody]
        exact posting.posted.switched left (fun _ _ => rfl) (.inl (by rw [posting.idling, turning.housed.registered.idling]))
      · have waits : s.Waits t.id .ready := ⟨q, found, (turning.housed.selected found taken).2.1.member t.id next⟩
        obtain ⟨-, ready, isBusy⟩ := turning.gathered t.id .ready waits
        have awake : ¬s.locks.InLine t.id := fun inLine => turning.apart t.id isBusy inLine ready
        simp only [place, next]
        exact posting.posted.switched left (fun j other => if_neg other) (.inr ⟨if_pos rfl, awake⟩)
    have moved {s₂ : Scheduler} (fixed : s₂.Fixed roster config (place n) s.processor s.locks) (known : s₂.Knows t) :
        ({ s₂ with processor := s₂.processor.switchTo t } : Scheduler).Running roster config := by
      obtain ⟨⟨housed, placed⟩, processor, locks, idling⟩ := fixed
      let s₃ : Scheduler := { s₂ with processor := s₂.processor.switchTo t }
      have after : s₃.Housed roster.Lists config ∧ s₃.placement = s₂.placement :=
        housed.still (housed.registered.switched roster.lists_main known) rfl rfl fun _ => rfl
      refine ⟨⟨after.1, ?_, idling⟩, (Processor.state?_switchTo _ _ _).trans (if_pos rfl)⟩
      show Posted roster _ (s₂.processor.switchTo t) s₂.locks
      rw [after.2, placed, processor, locks]
      exact switched
    refine ends_launch (fun _ => moved fixed known) fun p s' busy charged => ?_
    have known' : s'.Knows t := known.charged charged
    have charge := fixed.housed.1.charged charged
    obtain ⟨threads, rfl, -⟩ := charged.exists_threads
    have told := (charge.1.told [.event (.scheduled s₁.clock.now t p)]).imp_right (·.trans (charge.2.trans fixed.housed.2))
    exact moved ⟨told, fixed.processor, fixed.locks, fixed.idling⟩ known'

/-! ## Calls -/

/-- Threads only leave the processor by giving way, sleeping, waiting for a lock or finishing, nobody takes a thread off a
queue but to run it, and idle threads take no locks. -/
def Cooperating (s : Scheduler) (input : Input) : Prop :=
  s.Admits input ∧ (∀ call ∈ input.call?, call.selects = false) ∧
    ∀ lock ∈ input.acquired?, s.processor.current.isIdle = false

instance (s : Scheduler) (input : Input) : Decidable (Cooperating s input) :=
  inferInstanceAs (Decidable (_ ∧ (∀ call ∈ input.call?, _) ∧ ∀ lock ∈ input.acquired?, _))

theorem exists_onTurn (obeying : s.Obeying Cooperating roster config) : ∃ takings, s.OnTurn roster config takings := by
  have admits : s.Obeying Admits roster config := obeying.mono fun _ _ cooperates => cooperates.1
  obtain ⟨taken, watched⟩ := admits.exists_watched (fun _ => false) takenAfter
  exact ⟨_, onTurn_of_watched watched⟩

theorem Running.interrupted (running : s.Running roster config) (interrupts : Interrupts) :
    ({ s with interrupts } : Scheduler).Running roster config :=
  ⟨(mild_posting roster config).interrupted interrupts running.1, running.2⟩

structure Standby (roster : Roster) (config : Config) (takings : Takings) (s : Scheduler) (call : Call) (s' : Scheduler) :
    Prop where
  manned : s'.Manned roster config takings s.processor.current False
  stands : ∃ r, s'.Stands roster config s.processor.current.id r ∧ (s.selection call = none → r = some .running) ∧
    (s.selection call ≠ none → r = some .running → s.processor.current.isIdle = true)

theorem Standby.stays {call : Call} (selects : s.selection call = none)
    (manned : s'.Manned roster config takings s.processor.current False)
    (stands : s'.Stands roster config s.processor.current.id (some .running)) : Standby roster config takings s call s' :=
  ⟨manned, _, stands, fun _ => rfl, fun nobody => absurd selects nobody⟩

theorem Standby.leaves {call : Call} {r : Option RunState} (selects : s.selection call ≠ none)
    (manned : s'.Manned roster config takings s.processor.current False)
    (stands : s'.Stands roster config s.processor.current.id r)
    (left : r = some .running → s.processor.current.isIdle = true) : Standby roster config takings s call s' :=
  ⟨manned, r, stands, fun nobody => absurd nobody selects, fun _ => left⟩

theorem ends_running {call : Call} (listed : ∀ t ∈ call.thread?, roster.Lists t)
    (cooperating : s.Cooperating (.call call)) (known : roster.Lists s.processor.current)
    (onTurn : s.OnTurn roster config takings) (running : s.Running roster config) :
    Ends call.action s (fun _ => Running roster config) (Running roster config) := by
  let c := s.processor.current
  let Mine : Scheduler → Prop := Manned roster config takings c False
  obtain ⟨⟨apart, woken⟩, chooses, alert⟩ := cooperating
  have neutral : Neutral roster.Lists Mine := neutral_manned roster config takings c False
  have rests (runs : some RunState.blocked = some .running) : c.isIdle = true := by cases runs
  have masked : s.masked.OnTurn roster config takings := onTurn.interrupted _
  have standing : s.masked.Running roster config := running.interrupted _
  refine ends_parts (neutral.mild.and (mild_stands roster config c.id (some .running))) listed
    (fun same both => same.elim (Standby.stays · both.1 both.2) fun same => ?_)
    (fun interrupts after => after.interrupted interrupts)
    (fun s' after nobody => ?_) ?_ ?_ ?_ ?_ ?_ (fun s₁ selects after => ?_) ?_ ?_ ?_ ⟨onTurn.weaken nofun, running⟩
  · cases same ▸ chooses call rfl
  · obtain ⟨manned, r, stands, left⟩ := after
    obtain rfl := left.1 nobody
    rw [Running, manned.1.2]
    exact stands
  · rintro queue thread rfl
    cases apart
  · rintro thread rfl
    obtain ⟨other, awake⟩ := woken thread rfl
    have wakes : Ends (wake thread) s (fun _ s' => s'.Posting roster config ∧ thread.isIdle = false ∧ ∀ j,
        s'.processor.state? j = if j = thread.id then some .ready else s.processor.state? j) fun _ => False :=
      ends_wake_posting (listed thread rfl) (fun _ => awake) running.1
    have manned : Ends (wake thread) s (fun _ => Mine) _ :=
      ends_wake_manned (listed thread rfl) onTurn (fun _ => awake) nofun nofun
    refine (manned.and wakes).imp (fun _ s' both => .stays rfl both.1 ⟨both.2.1, ?_⟩) fun _ both => both.2.elim
    rw [both.2.2.2, if_neg (Ne.symm other), running.2]
  · rintro rfl
    have gives : Ends giveWay s.masked
        (fun _ => Stands roster config c.id (if c.isIdle then some .running else some .ready)) fun _ => False :=
      ends_giveWay_stands rfl known (fun busy => masked.2 busy) standing
    refine ((ends_giveWay_manned masked).and gives).run.imp (fun _ s₁ ends => ?_) fun _ ends => ends.1.2.elim
    refine .leaves (by simp [Scheduler.selection, ends.2]) ends.1.1 ends.1.2 fun runs => ?_
    split at runs
    · assumption
    · cases runs
  · rintro rfl busy
    have suspends : Ends (suspend s.processor.current) s
        (fun _ => Stands roster config c.id (some .blocked)) fun _ => False := by
      have fixed : s.Fixed roster config s.placement s.processor s.locks :=
        ⟨⟨running.1.housed, rfl⟩, rfl, rfl, running.1.idling⟩
      exact fixed.ends_suspend running.1.posted (onTurn.2 busy).1 fun _ => .inl
    have manned : Ends (suspend s.processor.current) s (fun _ => Mine) Mine := neutral.suspend _ (onTurn.weaken nofun)
    refine (manned.and suspends).run.imp (fun _ s₁ ends => ?_) fun _ ends => ends.1.2.elim
    exact .leaves (by simp [Scheduler.selection, ends.2]) ends.1.1 ends.1.2 rests
  · rintro queue rfl
    cases chooses _ rfl
  · obtain ⟨manned, r, stands, left⟩ := after
    have here : s₁.processor.current = c := manned.1.2
    refine ends_dispatch_running manned.1.1 (fun runs => ?_) stands.1
    rw [here] at runs ⊢
    rw [known]
    exact left.2 (by simp [selects]) (stands.2.symm.trans runs)
  · rintro lock rfl
    have busy : c.isIdle = false := alert lock rfl
    have contends := ends_contend_stands (s := s.masked) lock rfl known busy (masked.2 busy).1 standing
    refine ((ends_contend_manned lock known masked).and contends).run.imp (fun outcome s₁ ends => ?_) fun s₁ ends => ?_
    · have manned : Mine s₁ := ends.1.1.weaken nofun
      cases outcome with
      | acquired => exact .stays (by simp [Scheduler.selection, ends.2]) manned ends.1.2
      | blocked holder => exact .leaves (by simp [Scheduler.selection, ends.2]) manned ends.1.2 rests
    · exact .stays (by simp [Scheduler.selection, ends.2]) (ends.1.1.weaken nofun) ends.1.2
  · rintro lock rfl
    have hands := ends_handOn_stands lock s.clock.now known masked.1.1 (fun busy => (masked.2 busy).2) standing
    have still : Mine s.masked := masked.weaken nofun
    have manned := ends_handOn_manned lock s.clock.now still
    exact (manned.and hands).imp (fun _ _ both => .stays rfl both.1 both.2) fun _ both => .stays rfl both.1 both.2
  · rintro rfl
    refine ((ends_depart_manned masked).and (ends_depart_stands masked known standing)).run.imp (fun _ s₁ ends => ?_)
      fun s₁ ends => ?_
    · exact .leaves (by simp [Scheduler.selection, ends.2]) (ends.1.1.weaken nofun) ends.1.2 rests
    · exact .stays (by simp [Scheduler.selection, ends.2]) (ends.1.1.weaken nofun) ends.1.2

/-! ## Runs -/

theorem Booted.running (booted : s.Booted config) (listed : roster.Lists s.idle.thread) : s.Running roster config := by
  have housed := (booted.staffed listed).1.1
  obtain ⟨idle, start, -, rfl⟩ := booted.eq
  have states (id : ThreadId) : Processor.boot.state? id = if id = .main then some .running else none :=
    SortedMap.get?_insert_eq ∅ ThreadId.main id RunState.running
  refine ⟨⟨housed, ⟨fun id _ => ?_, fun id runs => ?_, ?_⟩, listed⟩, states .main⟩
  · have unready : Processor.boot.state? id ≠ some .ready := by
      rw [states]
      split <;> nofun
    exact iff_of_false unready nofun
  · have runs : Processor.boot.state? id = some .running := runs
    rw [states] at runs
    split at runs
    · assumption
    · cases runs
  · rintro id ⟨lock, waits⟩
    cases waits

theorem running_of_cooperating (obeying : s.Obeying Cooperating roster config) : s.Running roster config := by
  induction obeying with
  | boot booted listed _ => exact booted.running listed
  | @feed s s' input obeying fits cooperates fed ih =>
      cases input with
      | call call =>
          have known := (staffed_of_attainable obeying.attainable).2.1
          obtain ⟨takings, onTurn⟩ := exists_onTurn obeying
          exact of_perform (ends_running fits cooperates known onTurn ih) fed
      | clock time =>
          cases fed
          exact ⟨ih.1.still (ih.1.housed.same rfl rfl rfl rfl rfl) rfl (.of_eq rfl) rfl, ih.2⟩
      | interrupts interrupts =>
          cases fed
          exact ih.interrupted interrupts
      | processor processor => cases cooperates.1

/-- Only the current thread runs, and it is not ready, the ready threads but for idle ones are those in the ready queue,
and who is in line for a lock is blocked. -/
theorem posted_of_cooperating (obeying : s.Obeying Cooperating roster config) :
    (∀ id, s.processor.state? id = some .running ↔ id = s.processor.current.id) ∧
      s.processor.current.id ∉ s.readyWaiters ∧
      (∀ id, id ∈ s.readyWaiters ↔ (roster.thread id).isIdle = false ∧ s.processor.state? id = some .ready) ∧
      ∀ lock ids, s.lockWaiters lock = .ok ids → ∀ id ∈ ids, s.processor.state? id = some .blocked := by
  obtain ⟨posting, runs⟩ := running_of_cooperating obeying
  obtain ⟨takings, ⟨turning, -⟩, -⟩ := exists_onTurn obeying
  have ready (id : ThreadId) :
      id ∈ s.readyWaiters ↔ (roster.thread id).isIdle = false ∧ s.processor.state? id = some .ready := by
    constructor
    · intro waits
      obtain ⟨-, sits, busy⟩ := turning.gathered id .ready (mem_readyWaiters.mp waits)
      exact ⟨busy, (posting.posted.ready id busy).mpr sits⟩
    · rintro ⟨busy, ready⟩
      exact mem_readyWaiters.mpr (posting.housed.seats id .ready ((posting.posted.ready id busy).mp ready))
  refine ⟨fun id => ⟨posting.posted.running id, fun here => here ▸ runs⟩, fun waits => ?_, ready, ?_⟩
  · cases runs.symm.trans ((ready _).mp waits).2
  · intro lock ids line id waits
    exact (posting.posted.lined id ⟨lock, by rwa [waitersOf_of_lockWaiters line]⟩).2

def engaged : Option Scheduler :=
  openedUnder Cooperating [.interrupts ⟨false, 1⟩, .call .createLock, .call (.wake ⟨⟨2⟩, "worker", .ordinary⟩),
    .call (.wake ⟨⟨3⟩, "worker", .ordinary⟩), .clock 2, .call .sleep, .call (.acquire ⟨1⟩), .clock 5, .call .yield,
    .call (.acquire ⟨1⟩), .call (.wake .main)]

theorem posted_of_cooperating_engaged : ∃ s, engaged = some s ∧ s.processor.current.id = ⟨2⟩ ∧ s.readyWaiters = [.main] ∧
    s.lockWaiters ⟨1⟩ = .ok [⟨3⟩] ∧ s.processor.state? .main = some .ready ∧ s.processor.state? ⟨3⟩ = some .blocked := by
  have reached : engaged = some (engaged.get (by decide +kernel)) := (Option.some_get _).symm
  have line : (engaged.get (by decide +kernel)).lockWaiters ⟨1⟩ = .ok [⟨3⟩] := by decide +kernel
  have waits : (engaged.get (by decide +kernel)).readyWaiters = [.main] := by decide +kernel
  obtain ⟨-, -, ready, blocked⟩ := posted_of_cooperating (obeying_openedUnder reached)
  refine ⟨_, reached, by decide +kernel, waits, line, ((ready .main).mp ?_).2, blocked ⟨1⟩ [⟨3⟩] line ⟨3⟩ ?_⟩
  · rw [waits]
    exact List.mem_singleton_self _
  · exact List.mem_singleton_self _

end Scheduler

end PriorityScheduler
