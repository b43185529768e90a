import PriorityScheduler.Proofs.Carries
import PriorityScheduler.Proofs.Scheduler.Balance

namespace PriorityScheduler

open PriorityScheduler.Action PriorityScheduler.Scheduler

/-- A call by which the current thread may leave the processor and come back. -/
def Call.pauses : Call → Bool
  | .yield => true
  | .sleep => true
  | .acquire _ => true
  | _ => false

def ThreadState.timed (s : ThreadState) : ThreadState :=
  { ThreadState.new s.thread 0 with accounts := s.accounts, runDrift := s.runDrift, waitDrift := s.waitDrift }

theorem ThreadState.Carries.of_timed {s s' : ThreadState} {interval now : Ticks} {life : Life} {spells : List Spell}
    (carries : s.Carries interval now life spells) (same : s.timed = s'.timed) : s'.Carries interval now life spells :=
  carries.congr (congrArg (·.accounts) same.symm) (congrArg (·.runDrift) same.symm) (congrArg (·.waitDrift) same.symm)

def addSpell (spells : ThreadId → List Spell) (id : ThreadId) (x : Spell) (j : ThreadId) : List Spell :=
  if j = id then spells j ++ [x] else spells j

namespace Scheduler

variable {roster : Roster} {config : Config} {takings : Takings} {spells spells' : ThreadId → List Spell}
  {s s' : Scheduler} {c t : Thread}
  {id : ThreadId} {start now : Ticks} {refused : Scheduler → Prop}

/-! ## Ledgers -/

structure Coeval (s s' : Scheduler) : Prop where
  threads : s.threads.Matches ThreadState.timed s'.threads
  clock : s'.clock = s.clock
  life : ∀ id, lifeOf id s'.output = lifeOf id s.output
  idle : s'.idle.thread = s.idle.thread

structure Carried (roster : Roster) (config : Config) (spells : ThreadId → List Spell) (s : Scheduler) : Prop where
  states : ∀ id state, s.threads.get? id = some state → (roster.thread id).isExempt = false →
    state.Carries config.agingInterval s.clock.now (lifeOf id s.output) (spells id)
  idling : roster.Lists s.idle.thread
  positive : 0 < config.agingInterval

structure Booked (roster : Roster) (config : Config) (spells : ThreadId → List Spell) (s : Scheduler) : Prop
    extends Carried roster config spells s where
  unborn : ∀ id, (roster.thread id).isExempt = false → s.threads.get? id = none → spells id = [] ∧ lifeOf id s.output = []

/-- It is `now`, and if a thread ages, it was dispatched at `start` and was not looked at as it ran since. -/
def Aboard (roster : Roster) (id : ThreadId) (start now : Ticks) (s : Scheduler) : Prop :=
  s.clock.now = now ∧ ((roster.thread id).isExempt = false → (lifeOf id s.output).since = start ∧
    ∃ state, s.threads.get? id = some state ∧ state.accounts.lastScheduled = some start ∧
      ∀ m ∈ state.runDrift.mark, m ≤ start)

def Looked (roster : Roster) (id : ThreadId) (s : Scheduler) : Prop :=
  (roster.thread id).isExempt = false → lifeOf id s.output ≠ [] ∧
    ∃ state, s.threads.get? id = some state ∧ state.waitDrift.mark = some s.clock.now

theorem Coeval.of_same (same : s.Same s') : s.Coeval s' :=
  ⟨same.threads ▸ .refl _, same.clock, fun id => by rw [same.output], same.idle⟩

theorem Coeval.told (s : Scheduler) {out : List Output} (quiet : ∀ o ∈ out, o.milestone? = none) : s.Coeval (s.tell out) :=
  ⟨.refl _, rfl, fun _ => lifeOf_quiet quiet, rfl⟩

theorem Coeval.walked {w : Walk} (effect : Effect s.locks s.threads w) (ids : List ThreadId) {out : List Output}
    (quiet : ∀ o ∈ out, o.milestone? = none) : s.Coeval ((s.follow w ids).tell out) :=
  ⟨effect.kin.weaken fun _ => rfl, rfl, fun _ => lifeOf_quiet quiet, rfl⟩

theorem Carried.congr (carried : s.Carried roster config spells) (coeval : s.Coeval s') :
    s'.Carried roster config spells where
  states id state found ordinary := by
    obtain ⟨state₀, found₀, same⟩ := coeval.threads.exists_view found
    rw [coeval.clock, coeval.life]
    exact (carried.states id state₀ found₀ ordinary).of_timed same
  idling := coeval.idle ▸ carried.idling
  positive := carried.positive

theorem Carried.relabel (carried : s.Carried roster config spells)
    (same : ∀ id, (roster.thread id).isExempt = false → (s.threads.get? id).isSome → spells' id = spells id) :
    s.Carried roster config spells' where
  states id state found ordinary := same id ordinary (found ▸ rfl) ▸ carried.states id state found ordinary
  idling := carried.idling
  positive := carried.positive

section

variable {state : ThreadState} (threads : s'.threads = s.threads.put id state) (clock : s'.clock = s.clock)
  (idle : s'.idle.thread = s.idle.thread) (lives : ∀ j, j ≠ id → lifeOf j s'.output = lifeOf j s.output)
  (logs : ∀ j, j ≠ id → spells' j = spells j)
  (here : (roster.thread id).isExempt = false →
    state.Carries config.agingInterval s.clock.now (lifeOf id s'.output) (spells' id))

include threads clock idle lives logs here

theorem Carried.put (carried : s.Carried roster config spells) : s'.Carried roster config spells' where
  states j state' found ordinary := by
    rw [threads, ThreadRegistry.get?_put] at found
    rw [clock]
    split at found
    · rename_i same
      subst same
      cases found
      exact here ordinary
    · rename_i other
      rw [lives j other, logs j other]
      exact carried.states j state' found ordinary
  idling := idle ▸ carried.idling
  positive := carried.positive

theorem Booked.put (booked : s.Booked roster config spells) : s'.Booked roster config spells' where
  toCarried := booked.toCarried.put threads clock idle lives logs here
  unborn j ordinary absent := by
    rw [threads, ThreadRegistry.get?_put] at absent
    split at absent
    · cases absent
    · rename_i other
      rw [lives j other, logs j other]
      exact booked.unborn j ordinary absent

end

theorem Booked.congr (booked : s.Booked roster config spells) (coeval : s.Coeval s') : s'.Booked roster config spells where
  toCarried := booked.toCarried.congr coeval
  unborn id ordinary absent := by
    rw [coeval.life]
    refine booked.unborn id ordinary (Option.isNone_iff_eq_none.mp ?_)
    rw [← Option.not_isSome, ← coeval.threads.isSome, absent]
    rfl

theorem Booked.relabel (booked : s.Booked roster config spells)
    (same : ∀ id, (roster.thread id).isExempt = false → spells' id = spells id) : s.Booked roster config spells' where
  toCarried := booked.toCarried.relabel fun id ordinary _ => same id ordinary
  unborn id ordinary absent := same id ordinary ▸ booked.unborn id ordinary absent

theorem Aboard.congr (aboard : s.Aboard roster id start now) (coeval : s.Coeval s') : s'.Aboard roster id start now := by
  refine ⟨coeval.clock ▸ aboard.1, fun ordinary => ?_⟩
  obtain ⟨since, state, found, scheduled, marked⟩ := aboard.2 ordinary
  obtain ⟨state', found', same⟩ := coeval.threads.symm.exists_view found
  have accounts : state'.accounts = state.accounts := congrArg (·.accounts) same
  have drift : state'.runDrift = state.runDrift := congrArg (·.runDrift) same
  exact ⟨(coeval.life id).symm ▸ since, state', found', accounts ▸ scheduled, drift ▸ marked⟩

theorem Aboard.renew (aboard : s.Aboard roster id start now) :
    s.Aboard roster id (lifeOf id s.output).since s.clock.now :=
  ⟨rfl, fun ordinary => ⟨rfl, (aboard.2 ordinary).1 ▸ (aboard.2 ordinary).2⟩⟩

theorem Looked.congr (looked : s.Looked roster id) (coeval : s.Coeval s') : s'.Looked roster id := by
  intro ordinary
  obtain ⟨born, state, found, mark⟩ := looked ordinary
  obtain ⟨state', found', same⟩ := coeval.threads.symm.exists_view found
  have drift : state'.waitDrift = state.waitDrift := congrArg (·.waitDrift) same
  exact ⟨(coeval.life id).symm ▸ born, state', found', by rw [drift, mark, coeval.clock]⟩

/-! ## What all calls keep -/

section

variable {named : Thread → Prop} {inv : Scheduler → Prop} (congr : ∀ {s s'}, s.Coeval s' → inv s → inv s')

include congr

theorem recorded_of_coeval : Recorded inv where
  still same _ := congr (.of_same same)
  told silent := congr (.told _ fun o member => (silent o member).milestone?)

theorem mild_of_coeval (ensured : ∀ {s : Scheduler} {t : Thread}, named t → s.threads.get? t.id = none → inv s →
    inv { s with threads := s.threads.put t.id (.new t s.threads.config.initial) }) : Mild named inv where
  toRecorded := recorded_of_coeval congr
  ensured := ensured
  interrupted _ := congr ⟨.refl _, rfl, fun _ => rfl, rfl⟩
  claimed _ := congr ⟨.refl _, rfl, fun _ => rfl, rfl⟩
  queueMade := congr ⟨.refl _, rfl, fun _ => rfl, rfl⟩
  lockMade := congr ⟨.refl _, rfl, fun _ => rfl, rfl⟩
  rebased {s id state p} found _ := by
    have put : s.threads.Matches ThreadState.timed (s.threads.put id (ThreadState.refresh { state with base := p }).state) :=
      .put found rfl
    exact congr ⟨put.trans ((effect_reprice s.locks id _ s.threads).kin.weaken fun _ => rfl), rfl, fun _ => rfl, rfl⟩

end

theorem mild_booked (roster : Roster) (config : Config) (spells : ThreadId → List Spell) :
    Mild roster.Lists (Booked roster config spells) := by
  refine mild_of_coeval (fun coeval booked => booked.congr coeval) fun {s t} listed absent booked => ?_
  refine booked.put rfl rfl rfl (fun _ _ => rfl) (fun _ _ => rfl) fun ordinary => ?_
  obtain ⟨none, nobody⟩ := booked.unborn t.id ordinary absent
  rw [none, nobody]
  exact ThreadState.carries_new _ _ booked.positive _

theorem mild_aboard (roster : Roster) (id : ThreadId) (start now : Ticks) :
    Mild roster.Lists (Aboard roster id start now) := by
  refine mild_of_coeval (fun coeval aboard => aboard.congr coeval) fun {s t} _ absent aboard => ⟨aboard.1, fun ordinary => ?_⟩
  obtain ⟨since, state, found, rest⟩ := aboard.2 ordinary
  refine ⟨since, state, ?_, rest⟩
  rw [ThreadRegistry.get?_put, if_neg, found]
  rintro rfl
  cases found.symm.trans absent

/-! ## Admissions -/

theorem Booked.joined (booked : s.Booked roster config spells) {q : WaitQueue} {target : QueueId} {state : ThreadState}
    {accounts : Accounts} (p : Priority) (found : s.threads.get? t.id = some state)
    (enqueued : state.accounts.enqueued s.clock.now = .ok accounts) :
    ((s.enrol target q t { state with accounts }).tell [.event (.enqueued s.clock.now t p)]).Booked roster config spells := by
  have life (id : ThreadId) : lifeOf id (s.output ++ [.event (.enqueued s.clock.now t p)]) =
      if t.id = id then (lifeOf id s.output).prolong (.admitted s.clock.now) else lifeOf id s.output := lifeOf_milestone rfl
  refine booked.put rfl rfl rfl (fun id other => (life id).trans (if_neg (Ne.symm other))) (fun _ _ => rfl)
    fun ordinary => ?_
  show ThreadState.Carries _ _ _ (lifeOf t.id (s.output ++ _)) _
  rw [life, if_pos rfl]
  exact ((booked.states t.id state found ordinary).admitted enqueued).congr rfl rfl rfl

theorem Aboard.joined (aboard : s.Aboard roster id start now) (other : t.id ≠ id) {q : WaitQueue} {target : QueueId}
    (state : ThreadState) (p : Priority) :
    ((s.enrol target q t state).tell [.event (.enqueued s.clock.now t p)]).Aboard roster id start now := by
  refine ⟨aboard.1, fun ordinary => ?_⟩
  obtain ⟨since, state', found, rest⟩ := aboard.2 ordinary
  refine ⟨?_, state', ?_, rest⟩
  · show (lifeOf id (s.output ++ [_])).since = start
    rw [lifeOf_milestone rfl, if_neg other, since]
  · show (s.threads.put t.id _).get? id = some state'
    rw [ThreadRegistry.get?_put, if_neg (Ne.symm other), found]

theorem admitting_booked (roster : Roster) (config : Config) (spells : ThreadId → List Spell) :
    Admitting roster.Lists .ready (Booked roster config spells) where
  quiet same booked := booked.congr (.of_same same)
  told := (mild_booked roster config spells).told
  ensured := (mild_booked roster config spells).ensured
  joined p _ found _ enqueued booked := booked.joined p found enqueued

theorem filing_aboard (roster : Roster) (id : ThreadId) (start now : Ticks) :
    Filing roster.Lists (Aboard roster id start now) where
  quiet same aboard := aboard.congr (.of_same same)
  told := (mild_aboard roster id start now).told
  ensured := (mild_aboard roster id start now).ensured

theorem ends_wake_aboard (listed : roster.Lists t) (other : t.isIdle = false → t.id ≠ id)
    (booked : s.Booked roster config spells) (aboard : s.Aboard roster id start now) :
    Ends (wake t) s (fun _ s' => s'.Booked roster config spells ∧ s'.Aboard roster id start now)
      (fun s' => s'.Booked roster config spells ∧ s'.Aboard roster id start now) := by
  have files := (admitting_booked roster config spells).toFiling.and (filing_aboard roster id start now)
  refine files.ends_wake listed ⟨booked, aboard⟩ (fun _ both => both) ?_
  intro s' q state accounts p busy _ found _ enqueued both
  exact ⟨both.1.joined p found enqueued, both.2.joined (other busy) _ p⟩

theorem ends_handOn_aboard (lock : LockId) (time : Ticks) (listed : roster.Lists c) (turning : s.Turning roster config takings)
    (awake : c.isIdle = false → ¬s.locks.InLine c.id) (booked : s.Booked roster config spells)
    (aboard : s.Aboard roster c.id start now) :
    Ends (handOn lock c time) s (fun _ s' => s'.Booked roster config spells ∧ s'.Aboard roster c.id start now)
      (fun s' => s'.Booked roster config spells ∧ s'.Aboard roster c.id start now) := by
  refine turning.ends_handOn lock time ⟨booked, aboard⟩ (fun next w p done => ?_) fun {t s'} named apart both => ?_
  · have quiet := milestone?_handOver w.notices lock time c.id (s.threads.effective c.id) p next
    have walked := Coeval.walked (effect_release done) w.changed quiet
    exact ⟨booked.congr walked, aboard.congr walked⟩
  · refine ends_wake_aboard named (fun busy same => ?_) both.1 both.2
    have waited := (apart busy).1
    rw [same] at waited
    refine awake ?_ waited
    rw [← listed, ← same, named, busy]

/-! ## Switch-outs -/

theorem Registered.ages (registered : s.Registered roster.Lists config) (positive : 0 < config.agingInterval)
    {state : ThreadState} (found : s.threads.get? id = some state) (ordinary : (roster.thread id).isExempt = false) :
    state.ages config.agingInterval = true := by
  obtain ⟨same, named⟩ := registered.filed id state found
  rw [ThreadState.ages, ← named, same, ordinary, Bool.and_eq_true, decide_eq_true_iff]
  exact ⟨positive, rfl⟩

theorem Booked.ends_ageOut (ages : config.policy.ages = true)
    (registered : s.Registered roster.Lists config) (booked : s.Booked roster config spells)
    (aboard : s.Aboard roster c.id start now) :
    Ends (ageOut c) s (fun _ => Booked roster config (addSpell spells c.id ⟨start, now⟩)) refused := by
  obtain ⟨rfl, runs⟩ := aboard
  have others {id : ThreadId} (other : id ≠ c.id) : addSpell spells c.id ⟨start, s.clock.now⟩ id = spells id := if_neg other
  have books := (mild_booked roster config (addSpell spells c.id ⟨start, s.clock.now⟩)).toRecorded
  refine books.ends_ageOut (fun absent => ?_) fun state n found aged => ?_
  · refine booked.relabel fun id ordinary => others ?_
    rintro rfl
    obtain ⟨-, state, found, -⟩ := runs ordinary
    cases absent.symm.trans found
  · have put : ({ s with threads := s.threads.put c.id n.value.state } : Scheduler).Booked roster config
        (addSpell spells c.id ⟨start, s.clock.now⟩) := by
      refine booked.put rfl rfl rfl (fun _ _ => rfl) (fun _ => others) fun ordinary => ?_
      obtain ⟨-, state₀, found₀, scheduled, marked⟩ := runs ordinary
      cases found.symm.trans found₀
      rw [registered.configured, Config.agingStep_of_ages ages] at aged
      rw [addSpell, if_pos rfl]
      exact (booked.states c.id state found ordinary).left (registered.ages booked.positive found ordinary) scheduled marked aged
    exact put.congr ⟨(effect_reprice s.locks c.id _ s.threads).kin.weaken fun _ => rfl, rfl, fun _ => rfl, rfl⟩

theorem Booked.ends_giveWay (ages : config.policy.ages = true)
    (manned : s.Manned roster config takings c False) (listed : roster.Lists c) (booked : s.Booked roster config spells)
    (aboard : s.Aboard roster c.id start now) :
    Ends giveWay s (fun _ => Booked roster config (addSpell spells c.id ⟨start, now⟩)) refused := by
  rw [Action.giveWay, Action.current, ends_bind, ends_bind, ends_get, ends_pure, manned.1.2]
  cases idle : c.isIdle with
  | true =>
      -- an idle thread has no books
      refine booked.relabel fun id ordinary => if_neg ?_
      rintro rfl
      rw [listed, Thread.isExempt, idle, Bool.or_true] at ordinary
      cases ordinary
  | false =>
      simp only [Bool.false_eq_true, if_false]
      rw [ends_bind]
      have neutral := neutral_manned roster config takings c False
      have admits := admitting_booked roster config (addSpell spells c.id ⟨start, now⟩)
      have looks : Ends (ageOut c) s (fun _ => Manned roster config takings c False) refused := neutral.ageOut c manned
      have ends : Ends (ageOut c) s (fun _ => Booked roster config (addSpell spells c.id ⟨start, now⟩)) refused :=
        booked.ends_ageOut ages manned.1.1.housed.registered aboard
      refine (looks.and ends).imp (fun _ s₁ both => ?_) fun _ => And.left
      refine (neutral.toListing.and admits.toListing).ends_wake listed (fun _ _ => ?_) (fun _ _ => ⟨?_, ?_⟩) ?_ ?_
      · exact admits.told (Bookkept.silent_notices [_]) both.2
      · exact neutral.quiet (s := s₁) ⟨rfl, rfl, rfl, rfl, rfl, rfl, rfl, rfl, rfl⟩ both.1
      · exact admits.quiet (s := s₁) ⟨rfl, rfl, rfl, rfl, rfl, rfl, rfl, rfl, rfl⟩ both.2
      · exact fun p _ _ found queue enqueued both => admits.joined p listed found queue enqueued both.2
      · exact fun _ absent both => absurd absent (Option.isSome_iff_ne_none.mp both.1.1.1.housed.ready)

theorem Booked.ends_suspend (ages : config.policy.ages = true)
    (registered : s.Registered roster.Lists config) (booked : s.Booked roster config spells)
    (aboard : s.Aboard roster c.id start now) :
    Ends (suspend c) s (fun _ => Booked roster config (addSpell spells c.id ⟨start, now⟩)) refused := by
  let s₁ : Scheduler := { s with processor := s.processor.block }
  have coeval : s.Coeval s₁ := ⟨.refl _, rfl, fun _ => rfl, rfl⟩
  have registered : s₁.Registered roster.Lists config := registered.congr (.refl _) rfl rfl
  rw [Action.suspend, ends_bind, Action.onProcessor, ends_modify]
  exact (booked.congr coeval).ends_ageOut ages registered (aboard.congr coeval)

theorem Booked.ends_contend (ages : config.policy.ages = true) (lock : LockId)
    (registered : s.Registered roster.Lists config) (listed : roster.Lists s.processor.current)
    (booked : s.Booked roster config spells) (aboard : s.Aboard roster s.processor.current.id start now) :
    let id := s.processor.current.id
    Ends (contend lock) s
      (fun outcome s' => s'.Booked roster config (if outcome = .acquired then spells else addSpell spells id ⟨start, now⟩) ∧
        (outcome = .acquired → s'.Aboard roster id start now))
      (fun s' => s'.Booked roster config spells ∧ s'.Aboard roster id start now) := by
  intro id
  let won (s' : Scheduler) : Prop :=
    s'.Registered roster.Lists config ∧ s'.Booked roster config spells ∧ s'.Aboard roster id start now
  have mild := (mild_booked roster config spells).and (mild_aboard roster id start now)
  have filing : Filing roster.Lists (Registered roster.Lists config) :=
    (kept_registered roster.lists_main config .ready).toFiling
  have lists : Listing roster.Lists won := filing.toListing.and mild.toListing
  refine (lists.ends_contend listed ⟨registered, booked, aboard⟩ (fun _ => lists.toRecorded) ?_ ?_ ?_).imp
    (fun _ _ both => both) fun _ => And.right
  · rintro s' outcome w p - - - done ⟨registered, booked, aboard⟩
    have quiet := milestone?_lock w.notices outcome.transition lock s.clock.now id p
    have walked := Coeval.walked (effect_acquire done) w.changed quiet
    exact ⟨registered.congr ((effect_acquire done).kin.weaken fun _ => rfl) rfl rfl, booked.congr walked, aboard.congr walked⟩
  · rintro s' ⟨-, booked, aboard⟩
    exact ⟨booked, fun _ => aboard⟩
  · rintro holder s' ⟨registered, booked, aboard⟩
    refine (booked.ends_suspend ages registered aboard).imp (fun _ s₁ booked => ⟨booked, nofun⟩) fun _ both => both

theorem Carried.retired (carried : s.Carried roster config spells) (t : Thread) (record : Option Lifetime) :
    (({ s with threads := s.threads.remove t.id } : Scheduler).tell
      (record.toList.map fun r => .event (.finished t r))).Carried roster config spells := by
  refine ⟨fun id state found ordinary => ?_, carried.idling, carried.positive⟩
  have kept : (s.threads.remove t.id).get? id = some state := found
  rw [ThreadRegistry.get?_remove] at kept
  split at kept
  · cases kept
  · rename_i other
    have life : lifeOf id (s.output ++ record.toList.map fun r => .event (.finished t r)) = lifeOf id s.output := by
      cases record with
      | none => exact lifeOf_quiet nofun
      | some r => exact (lifeOf_milestone rfl).trans (if_neg (Ne.symm other))
    show state.Carries _ _ (lifeOf id (s.output ++ _)) _
    rw [life]
    exact carried.states id state kept ordinary

theorem Booked.ends_depart (manned : s.Manned roster config takings c (c.isIdle = false)) (listed : roster.Lists c)
    (booked : s.Booked roster config spells) (aboard : s.Aboard roster c.id start now) :
    Ends depart s (fun _ => Carried roster config spells)
      fun s' => s'.Carried roster config spells ∧ s'.Aboard roster c.id start now := by
  have mild := (mild_booked roster config spells).and (mild_aboard roster c.id start now)
  have books : Recorded (Carried roster config spells) := recorded_of_coeval fun coeval carried => carried.congr coeval
  refine manned.ends_depart mild.toRecorded books (fun both => ?_) (fun manned _ both => ?_) (fun _ both => both.1.toCarried)
    (fun {s' _ record _} _ _ _ _ both => both.1.toCarried.retired c record) (fun {s'} _ _ carried => ?_)
    (fun _ both => ⟨both.1.toCarried, both.2⟩) ⟨booked, aboard⟩
  · let w := s.locks.withdraw c.id s.threads
    have walked : s.Coeval (s.follow w w.changed) :=
      ⟨(effect_withdraw s.locks c.id s.threads).kin.weaken fun _ => rfl, rfl, fun _ => rfl, rfl⟩
    exact ⟨both.1.congr walked, both.2.congr walked⟩
  · refine (ends_handOn_aboard _ _ listed manned.1.1 (fun busy => (manned.2 busy).2) both.1 both.2).imp (fun _ _ both => both)
      fun _ => And.imp_left Booked.toCarried
  · exact carried.congr ⟨.refl _, rfl, fun _ => rfl, rfl⟩

/-! ## Dispatch -/

theorem timed_selected {queue : QueueId} {q : WaitQueue} {n : Noted (Selection WaitQueue)}
    (chosen : q.next s.threads s.clock.now = .ok n) :
    (q.discipline.aged s.threads s.clock.now).Matches ThreadState.timed (s.selected queue n).threads :=
  (WaitQueue.unqueued_next chosen).weaken fun _ => rfl

theorem Carried.selected (ages : config.policy.ages = true) (turning : s.Turning roster config takings)
    (carried : s.Carried roster config spells) {queue : QueueId} {q : WaitQueue} {n : Noted (Selection WaitQueue)}
    (found : s.queues.get? queue = some q) (chosen : q.next s.threads s.clock.now = .ok n) :
    (s.selected queue n).Carried roster config spells ∧ ∀ id ∈ n.value.next, (s.selected queue n).Looked roster id := by
  obtain ⟨-, serves, -⟩ := turning.housed.selected found chosen
  obtain ⟨-, settled⟩ := turning.housed.queues queue q found
  obtain ⟨m, selected, -⟩ := WaitQueue.next_ok chosen
  have timed : m.value.threads.Matches ThreadState.timed (s.selected queue n).threads := by
    rw [Discipline.threads_select selected]
    exact timed_selected chosen
  -- who waits was admitted last
  have looks {id : ThreadId} (ordinary : (roster.thread id).isExempt = false) (waits : id ∈ q.discipline.waiters) :
      ∃ state, m.value.threads.get? id = some state ∧ (lifeOf id s.output).Begun ∧
        state.Carries config.agingInterval s.clock.now (lifeOf id s.output) (spells id) ∧
        state.waitDrift.mark = some s.clock.now := by
    have member : s.Waits id queue := ⟨q, found, (q.mem_waiters id).mpr (.inl waits)⟩
    obtain ⟨-, sits, -⟩ := turning.gathered id queue member
    have begun := (turning.paced id).begun sits
    obtain ⟨state, present⟩ := ThreadRegistry.exists_of_seat? sits
    obtain ⟨k, look, after⟩ := settled.ordered.look_select ages waits present selected
    rw [turning.housed.registered.configured, Config.agingStep_of_ages ages] at look
    have aging := turning.housed.registered.ages carried.positive present ordinary
    obtain ⟨aged, mark⟩ := (carried.states id state present ordinary).aged aging begun look
    exact ⟨k.value.state, after, begun, aged, mark⟩
  refine ⟨⟨fun id state found' ordinary => ?_, carried.idling, carried.positive⟩, fun id next ordinary => ?_⟩
  · obtain ⟨state₀, found₀, same⟩ := timed.exists_view found'
    refine ThreadState.Carries.of_timed ?_ same
    by_cases waits : id ∈ q.discipline.waiters
    · obtain ⟨state₁, after, -, carries, -⟩ := looks ordinary waits
      cases found₀.symm.trans after
      exact carries
    · rw [Discipline.threads_select selected, Discipline.get?_aged waits] at found₀
      exact carried.states id state₀ found₀ ordinary
  · have waits : id ∈ q.discipline.waiters := by
      refine ((q.mem_waiters id).mp (serves.member id next)).resolve_right ?_
      rintro ⟨-, rfl⟩
      rw [roster.main] at ordinary
      cases ordinary
    obtain ⟨state₁, after, begun, -, mark⟩ := looks ordinary waits
    obtain ⟨state, found', same⟩ := timed.symm.exists_view after
    have drift : state.waitDrift = state₁.waitDrift := congrArg (·.waitDrift) same
    exact ⟨begun.ne_nil, state, found', drift ▸ mark⟩

theorem Aboard.selected (aboard : s.Aboard roster id start now) {queue : QueueId} {q : WaitQueue}
    {n : Noted (Selection WaitQueue)} (chosen : q.next s.threads s.clock.now = .ok n)
    (out : (roster.thread id).isExempt = false → id ∉ q.discipline.waiters) :
    (s.selected queue n).Aboard roster id start now := by
  refine ⟨aboard.1, fun ordinary => ?_⟩
  obtain ⟨since, state, found, scheduled, marked⟩ := aboard.2 ordinary
  have still : (q.discipline.aged s.threads s.clock.now).get? id = some state :=
    (Discipline.get?_aged (out ordinary)).trans found
  obtain ⟨state', found', same⟩ := (timed_selected chosen).symm.exists_view still
  have accounts : state'.accounts = state.accounts := congrArg (·.accounts) same
  have drift : state'.runDrift = state.runDrift := congrArg (·.runDrift) same
  exact ⟨since, state', found', accounts ▸ scheduled, drift ▸ marked⟩

theorem Carried.launched (carried : s.Carried roster config spells) (looked : s.Looked roster t.id)
    (charged : s.Charged t s') (p : Priority) :
    let s'' := s'.tell [.event (.scheduled s.clock.now t p)]
    s''.Carried roster config spells ∧ s''.Aboard roster t.id s.clock.now s.clock.now := by
  have life (id : ThreadId) : lifeOf id (s.output ++ [.event (.scheduled s.clock.now t p)]) =
      if t.id = id then (lifeOf id s.output).prolong (.dispatched s.clock.now) else lifeOf id s.output := lifeOf_milestone rfl
  cases charged with
  | @known state accounts found scheduled =>
      refine ⟨carried.put rfl rfl rfl (fun id other => (life id).trans (if_neg (Ne.symm other))) (fun _ _ => rfl)
        fun ordinary => ?_, rfl, fun ordinary => ?_⟩
      · obtain ⟨-, state₀, found₀, mark⟩ := looked ordinary
        cases found.symm.trans found₀
        show ThreadState.Carries _ _ _ (lifeOf t.id (s.output ++ _)) _
        rw [life, if_pos rfl]
        exact (carried.states t.id state found ordinary).dispatched mark
      · obtain ⟨born, -⟩ := looked ordinary
        have put := s.threads.get?_put t.id t.id { state with accounts }
        refine ⟨?_, { state with accounts }, put.trans (if_pos rfl), Accounts.lastScheduled_scheduled scheduled,
          (carried.states t.id state found ordinary).ranMarked⟩
        show (lifeOf t.id (s.output ++ _)).since = _
        rw [life, if_pos rfl, Life.prolong, if_neg born, Life.since_dispatched]
  | unknown absent =>
      have known {id : ThreadId} (ordinary : (roster.thread id).isExempt = false) : t.id ≠ id := by
        rintro rfl
        obtain ⟨-, state, found, -⟩ := looked ordinary
        cases absent.symm.trans found
      refine ⟨⟨fun id state found ordinary => ?_, carried.idling, carried.positive⟩, rfl,
        fun ordinary => absurd rfl (known ordinary)⟩
      show state.Carries _ s.clock.now (lifeOf id (s.output ++ _)) _
      rw [life, if_neg (known ordinary)]
      exact carried.states id state found ordinary

def Boarded (roster : Roster) (s : Scheduler) : Prop :=
  let id := s.processor.current.id
  s.Aboard roster id (lifeOf id s.output).since s.clock.now

theorem ends_dispatch_boarded (ages : config.policy.ages = true)
    (turning : s.Turning roster config takings) (carried : s.Carried roster config spells) :
    Ends dispatch s (fun _ s' => s'.Carried roster config spells ∧ s'.Boarded roster) refused := by
  let mid (n : Noted (Selection WaitQueue)) (s' : Scheduler) : Prop :=
    s'.Carried roster config spells ∧ ∀ id ∈ n.value.next, s'.Looked roster id
  have books (n : Noted (Selection WaitQueue)) : Recorded (mid n) :=
    recorded_of_coeval fun coeval both => ⟨both.1.congr coeval, fun id next => (both.2 id next).congr coeval⟩
  refine (ends_dispatch_choice books (fun absent => ?_)
    (fun q n found taken => carried.selected ages turning found taken) ?_).imp (fun _ _ => And.left) fun _ both => both
  · exact absurd absent (Option.isSome_iff_ne_none.mp turning.housed.ready)
  · rintro q n t s₁ found taken runs - ⟨carried₁, looked⟩
    refine ends_launch (fun idle => ?_) fun p s' busy charged => ?_
    · refine ⟨carried₁.congr ⟨.refl _, rfl, fun _ => rfl, rfl⟩, rfl, fun ordinary => ?_⟩
      have listed : roster.Lists t := by
        rcases turning.runsNext found taken runs with ⟨-, rfl⟩ | ⟨-, busy, -⟩
        · exact carried.idling
        · cases idle.symm.trans busy
      have ordinary : (roster.thread t.id).isExempt = false := ordinary
      rw [listed, Thread.isExempt, idle, Bool.or_true] at ordinary
      cases ordinary
    · rcases turning.runsNext found taken runs with ⟨-, rfl⟩ | ⟨next, -, -⟩
      · cases turning.housed.registered.idling.symm.trans busy
      · obtain ⟨carried', aboard⟩ := carried₁.launched (looked t.id next) charged p
        let s₂ := s'.tell [.event (.scheduled s₁.clock.now t p)]
        have coeval : s₂.Coeval { s₂ with processor := s₂.processor.switchTo t } := ⟨.refl _, rfl, fun _ => rfl, rfl⟩
        exact ⟨carried'.congr coeval, (aboard.congr coeval).renew⟩

/-! ## Calls -/

def leaver? (s : Scheduler) (call : Call) : Option ThreadId :=
  if call.pauses = true ∧ (s.selection call).isSome = true then some s.processor.current.id else none

/-- The spells of all threads after a call. A spell ends when the current thread yields, sleeps or blocks. -/
def spellsAfter (spells : ThreadId → List Spell) (s : Scheduler) (call : Call) : ThreadId → List Spell :=
  match s.leaver? call with
  | some id => addSpell spells id ⟨(lifeOf id s.output).since, s.clock.now⟩
  | none => spells

theorem spellsAfter_stays {call : Call} (stays : call.pauses = false ∨ s.selection call = none) :
    spellsAfter spells s call = spells := by
  have nobody : s.leaver? call = none := by
    refine if_neg ?_
    rintro ⟨pauses, selects⟩
    rcases stays with stays | stays
    · cases stays.symm.trans pauses
    · simp [stays] at selects
  rw [spellsAfter, nobody]

theorem spellsAfter_leaves {call : Call} (pauses : call.pauses = true) (selects : s.selection call ≠ none) :
    spellsAfter spells s call = addSpell spells s.processor.current.id
      ⟨(lifeOf s.processor.current.id s.output).since, s.clock.now⟩ := by
  rw [spellsAfter, leaver?, if_pos ⟨pauses, Option.isSome_iff_ne_none.mpr selects⟩]

/-- How far a call has come before it selects the next thread, if it does: a spell may have ended, or the current thread is
still at it. -/
structure Midway (roster : Roster) (config : Config) (takings : Takings) (spells : ThreadId → List Spell) (s : Scheduler)
    (call : Call) (s' : Scheduler) : Prop where
  manned : s'.Manned roster config takings s.processor.current False
  carried : s'.Carried roster config (spellsAfter spells s call)
  aboard : s.selection call = none →
    s'.Aboard roster s.processor.current.id (lifeOf s.processor.current.id s.output).since s.clock.now

theorem Midway.stays {call : Call} (selects : s.selection call = none ∨ call = .dispatch)
    (manned : s'.Manned roster config takings s.processor.current False) (booked : s'.Booked roster config spells)
    (aboard : s'.Aboard roster s.processor.current.id (lifeOf s.processor.current.id s.output).since s.clock.now) :
    Midway roster config takings spells s call s' := by
  refine ⟨manned, ?_, fun _ => aboard⟩
  rw [spellsAfter_stays]
  · exact booked.toCarried
  · rcases selects with nobody | rfl
    · exact .inr nobody
    · exact .inl rfl

theorem Midway.leaves {call : Call} (pauses : call.pauses = true) (selects : s.selection call ≠ none)
    (manned : s'.Manned roster config takings s.processor.current False)
    (booked : s'.Booked roster config (addSpell spells s.processor.current.id
      ⟨(lifeOf s.processor.current.id s.output).since, s.clock.now⟩)) : Midway roster config takings spells s call s' := by
  refine ⟨manned, ?_, fun nobody => absurd nobody selects⟩
  rw [spellsAfter_leaves pauses selects]
  exact booked.toCarried

theorem ends_serve_boarded {queue : QueueId} (ages : config.policy.ages = true) (onTurn : s.OnTurn roster config takings)
    (known : roster.Lists s.processor.current) (carried : s.Carried roster config spells) (boarded : s.Boarded roster) :
    Ends (serve queue) s (fun _ s' => s'.Carried roster config spells ∧ s'.Boarded roster)
      (fun s' => s'.Carried roster config spells ∧ s'.Boarded roster) := by
  obtain ⟨⟨turning, -⟩, isOff⟩ := onTurn
  refine ends_serve (fun _ => ⟨carried, boarded⟩) fun q n found chosen => ?_
  have out (ordinary : (roster.thread s.processor.current.id).isExempt = false) :
      s.processor.current.id ∉ q.discipline.waiters := by
    intro waits
    have member : s.Waits s.processor.current.id queue := ⟨q, found, (q.mem_waiters _).mpr (.inl waits)⟩
    obtain ⟨-, sits, busy⟩ := turning.gathered _ queue member
    rw [known] at busy
    exact (isOff busy).1 sits
  have selected : (s.selected queue n).Aboard roster s.processor.current.id _ _ := Aboard.selected boarded chosen out
  have told : (s.selected queue n).Coeval ((s.selected queue n).tell (n.notices.map .notice)) :=
    .told _ fun o member => (Bookkept.silent_notices n.notices o member).milestone?
  exact ⟨(carried.selected ages turning found chosen).1.congr told, (selected.congr told).renew⟩

theorem ends_boarded {call : Call} (ages : config.policy.ages = true)
    (listed : ∀ t ∈ call.thread?, roster.Lists t) (admits : s.Admits (.call call))
    (known : roster.Lists s.processor.current) (onTurn : s.OnTurn roster config takings)
    (booked : s.Booked roster config spells) (boarded : s.Boarded roster) :
    Ends call.action s (fun _ s' => s'.Carried roster config (spellsAfter spells s call) ∧ s'.Boarded roster)
      (fun s' => s'.Carried roster config (spellsAfter spells s call) ∧ s'.Boarded roster) := by
  let c := s.processor.current
  let start := (lifeOf c.id s.output).since
  let now := s.clock.now
  let Mine : Scheduler → Prop := Manned roster config takings c False
  have neutral : Neutral roster.Lists Mine := neutral_manned roster config takings c False
  have still : s.Coeval s.masked := ⟨.refl _, rfl, fun _ => rfl, rfl⟩
  have turns : s.masked.OnTurn roster config takings := onTurn.interrupted _
  have booked' : s.masked.Booked roster config spells := booked.congr still
  have boarded' : s.masked.Aboard roster c.id start now := Aboard.congr boarded still
  obtain ⟨apart, woken⟩ := admits
  have mild := (mild_booked roster config spells).and (mild_aboard roster c.id start now)
  refine ends_parts (neutral.mild.and mild) listed (fun selects both => Midway.stays selects both.1 both.2.1 both.2.2)
    (fun interrupts after => ?_) (fun s' after nobody => ?_) ?_ ?_ ?_ ?_ ?_ (fun s₁ _ after => ?_) ?_ ?_ ?_
    ⟨onTurn.weaken nofun, booked, boarded⟩
  · have coeval {s' : Scheduler} : s'.Coeval { s' with interrupts } := ⟨.refl _, rfl, fun _ => rfl, rfl⟩
    exact ⟨after.1.congr coeval, Aboard.congr after.2 coeval⟩
  · refine ⟨after.carried, ?_⟩
    rw [Boarded, after.manned.1.2]
    exact (after.aboard nobody).renew
  · rintro queue thread rfl
    cases apart
  · rintro thread rfl
    obtain ⟨other, awake⟩ := woken thread rfl
    have manned : Ends (wake thread) s (fun _ => Mine) _ :=
      ends_wake_manned (listed thread rfl) onTurn (fun _ => awake) nofun nofun
    refine (manned.and (ends_wake_aboard (listed thread rfl) (fun _ => other) booked boarded)).imp
      (fun _ s' both => .stays (.inl rfl) both.1 both.2.1 both.2.2)
      fun s' both => .stays (.inl rfl) (both.1.weaken nofun) both.2.1 both.2.2
  · rintro rfl
    have gives : Ends giveWay s.masked (fun _ => Booked roster config (addSpell spells c.id ⟨start, now⟩)) fun _ => False :=
      booked'.ends_giveWay ages (turns.weaken nofun) known boarded'
    refine ((ends_giveWay_manned turns).and gives).run.imp (fun _ s₁ ends => ?_) fun _ ends => ends.1.2.elim
    exact .leaves rfl (by simp [Scheduler.selection, ends.2]) ends.1.1 ends.1.2
  · rintro rfl busy
    have suspends : Ends (suspend s.processor.current) s
        (fun _ => Booked roster config (addSpell spells c.id ⟨start, now⟩)) fun _ => False :=
      booked.ends_suspend ages onTurn.1.1.housed.registered boarded
    have manned : Ends (suspend s.processor.current) s (fun _ => Mine) Mine := neutral.suspend _ (onTurn.weaken nofun)
    refine (manned.and suspends).run.imp (fun _ s₁ ends => ?_) fun _ ends => ends.1.2.elim
    exact .leaves rfl (by simp [Scheduler.selection, ends.2]) ends.1.1 ends.1.2
  · rintro queue rfl
    rw [spellsAfter_stays (.inl rfl)]
    exact ends_serve_boarded ages onTurn known booked.toCarried boarded
  · exact ends_dispatch_boarded ages after.manned.1.1 after.carried
  · rintro lock rfl
    have contends := booked'.ends_contend ages lock turns.1.1.housed.registered known boarded'
    refine ((ends_contend_manned lock known turns).and contends).run.imp (fun outcome s₁ ends => ?_) fun s₁ ends => ?_
    · have mine : Mine s₁ := ends.1.1.weaken nofun
      cases outcome with
      | acquired => exact .stays (.inl (by simp [Scheduler.selection, ends.2])) mine ends.1.2.1 (ends.1.2.2 rfl)
      | blocked holder => exact .leaves rfl (by simp [Scheduler.selection, ends.2]) mine ends.1.2.1
    · exact .stays (.inl (by simp [Scheduler.selection, ends.2])) (ends.1.1.weaken nofun) ends.1.2.1 ends.1.2.2
  · rintro lock rfl
    have hands := ends_handOn_aboard lock s.clock.now known turns.1.1 (fun busy => (turns.2 busy).2) booked' boarded'
    have manned := ends_handOn_manned lock s.clock.now turns
    exact (manned.and hands).imp (fun _ _ both => .stays (.inl rfl) (both.1.weaken nofun) both.2.1 both.2.2)
      fun _ both => .stays (.inl rfl) (both.1.weaken nofun) both.2.1 both.2.2
  · rintro rfl
    refine ((ends_depart_manned turns).and (booked'.ends_depart turns known boarded')).run.imp (fun _ s₁ ends => ?_)
      fun s₁ ends => ?_
    · refine ⟨ends.1.1.weaken nofun, ?_, fun nobody => by simp [Scheduler.selection, ends.2] at nobody⟩
      rw [spellsAfter_stays (.inl rfl)]
      exact ends.1.2
    · refine ⟨ends.1.1.weaken nofun, ?_, fun _ => ends.1.2.2⟩
      rw [spellsAfter_stays (.inl rfl)]
      exact ends.1.2.1

/-! ## Runs -/

def nextSpells (spells : ThreadId → List Spell) (s : Scheduler) (input : Input) (s' : Scheduler) (id : ThreadId) :
    List Spell :=
  if (s'.threads.get? id).isSome then input.call?.elim (spells id) fun call => spellsAfter spells s call id else []

/-- What is remembered of a run: the spells of all threads, and who was taken off the ready queue in its life. -/
structure Log where
  spells : ThreadId → List Spell
  taken : ThreadId → Bool

def Log.next (log : Log) (s : Scheduler) (input : Input) (s' : Scheduler) : Log where
  spells := nextSpells log.spells s input s'
  taken := takenAfter log.taken s input s'

def Log.blank : Log := ⟨fun _ => [], fun _ => false⟩

def Logged (roster : Roster) (config : Config) (log : Log) (s : Scheduler) : Prop :=
  s.Watched .blank Log.next Admits roster config log

theorem Logged.taken {log : Log} (logged : s.Logged roster config log) :
    s.Watched (fun _ => false) takenAfter Admits roster config log.taken :=
  Watched.map logged Log.taken fun _ _ _ _ => rfl

theorem Carried.booked (carried : s.Carried roster config spells) (attainable : s.Attainable roster config)
    (absent : ∀ id, s.threads.get? id = none → spells id = []) : s.Booked roster config spells := by
  refine ⟨carried, fun id ordinary none => ⟨absent id none, ?_⟩⟩
  refine ((ledger_of_attainable attainable).lives id ordinary).course.eq_nil ?_
  rw [ThreadRegistry.accounts, none]
  rfl

theorem booked_of_logged {log : Log} (ages : config.policy.ages = true) (positive : 0 < config.agingInterval)
    (logged : s.Logged roster config log) : s.Booked roster config log.spells ∧ s.Boarded roster := by
  induction logged with
  | @boot s booted listed early =>
      have attainable : s.Attainable roster config := .boot booted listed early
      obtain ⟨idle, start, -, rfl⟩ := booted.eq
      refine ⟨Carried.booked ⟨fun id state found => ?_, listed, positive⟩ attainable fun _ _ => rfl, rfl, fun ordinary => ?_⟩
      · cases (SortedMap.get?_empty id).symm.trans found
      · have ordinary : (roster.thread .main).isExempt = false := ordinary
        rw [roster.main] at ordinary
        cases ordinary
  | @feed log s s' input logged fits admits fed ih =>
      obtain ⟨booked, boarded⟩ := ih
      let spells := log.spells
      have attainable := logged.obeying.attainable
      have attainable' : s'.Attainable roster config := attainable.feed fits fed
      have absent (id : ThreadId) (none : s'.threads.get? id = none) : nextSpells spells s input s' id = [] := by
        rw [nextSpells, none]
        rfl
      have carry {spells' : ThreadId → List Spell}
          (same : ∀ id, input.call?.elim (spells id) (spellsAfter spells s · id) = spells' id)
          (carried : s'.Carried roster config spells') : s'.Booked roster config (nextSpells spells s input s') := by
        refine (carried.relabel fun id _ known => ?_).booked attainable' absent
        rw [nextSpells, if_pos known, same]
      cases input with
      | call call =>
          have known := (staffed_of_attainable attainable).2.1
          have onTurn := onTurn_of_watched (Logged.taken logged)
          have after := of_perform (ends_boarded ages fits admits known onTurn booked boarded) fed
          exact ⟨carry (fun _ => rfl) after.1, after.2⟩
      | clock time =>
          cases fed
          have later : s.clock.now ≤ max s.clock.now time := Nat.le_max_left _ _
          refine ⟨carry (fun _ => rfl) ⟨fun id state found ordinary => ?_, booked.idling, positive⟩, rfl, boarded.2⟩
          exact (booked.states id state found ordinary).later later
      | interrupts interrupts =>
          cases fed
          have coeval : s.Coeval { s with interrupts } := ⟨.refl _, rfl, fun _ => rfl, rfl⟩
          exact ⟨carry (fun _ => rfl) (booked.toCarried.congr coeval), Aboard.congr boarded coeval⟩
      | processor processor => cases admits

/-- An ordinary thread carries over what its spells on the processor leave of an interval and, unless it waits or was taken
off the ready queue in its life, what its waits leave. -/
theorem carries_of_logged {log : Log} (ages : config.policy.ages = true) (positive : 0 < config.agingInterval)
    (logged : s.Logged roster config log) {state : ThreadState} (found : s.threads.get? id = some state)
    (ordinary : (roster.thread id).isExempt = false) :
    state.runDrift.carry = Spell.total (log.spells id) % config.agingInterval ∧
      (log.taken id = false → id ∉ s.readyWaiters →
        state.waitDrift.carry = (lifeOf id s.output).waited % config.agingInterval) ∧
      state.runDrift.carry < config.agingInterval ∧ state.waitDrift.carry < config.agingInterval := by
  have carries := (booked_of_logged ages positive logged).1.states id state found ordinary
  have turning := (onTurn_of_watched logged.taken).1.1
  refine ⟨carries.ran, fun spared away => ?_, ?_, carries.below⟩
  · refine carries.waited ((turning.paced id).turns spared fun sits => away ?_)
    exact mem_readyWaiters.mpr (turning.housed.seats id .ready sits)
  · rw [carries.ran]
    exact Nat.mod_lt _ positive

def brisk : Config := { policy := .aging, agingInterval := 10 }

/-- Two workers take turns until the first one goes to sleep. The second one is taken off the ready queue in between. -/
def alternating : Option (Log × Scheduler) :=
  watchedUnder brisk .blank Log.next Admits [.interrupts ⟨false, 1⟩, .call (.wake ⟨⟨2⟩, "worker", .ordinary⟩),
    .call (.wake ⟨⟨3⟩, "worker", .ordinary⟩), .clock 3, .call .sleep, .clock 5, .call (.serve .ready), .clock 6,
    .call (.wake ⟨⟨3⟩, "worker", .ordinary⟩), .clock 7, .call .yield, .clock 15, .call .yield, .clock 24, .call .sleep]

theorem carries_of_logged_alternating :
    ∃ log s state, alternating = some (log, s) ∧ s.threads.get? ⟨2⟩ = some state ∧ log.taken ⟨3⟩ = true ∧
      log.spells ⟨2⟩ = [⟨3, 7⟩, ⟨15, 24⟩] ∧ (lifeOf ⟨2⟩ s.output).waited = 11 ∧
      state.runDrift.carry = Spell.total (log.spells ⟨2⟩) % brisk.agingInterval ∧ state.runDrift.carry = 3 ∧
      state.waitDrift.carry = (lifeOf ⟨2⟩ s.output).waited % brisk.agingInterval ∧ state.waitDrift.carry = 1 := by
  have reached : alternating = some (alternating.get (by decide +kernel)) := (Option.some_get _).symm
  let s := (alternating.get (by decide +kernel)).2
  have found : s.threads.get? ⟨2⟩ = some ((s.threads.get? ⟨2⟩).get (by decide +kernel)) := (Option.some_get _).symm
  have spared : (alternating.get (by decide +kernel)).1.taken ⟨2⟩ = false := by decide +kernel
  have away : ⟨2⟩ ∉ s.readyWaiters := by decide +kernel
  obtain ⟨ran, waited, -, -⟩ := carries_of_logged (by decide) (by decide)
    (watched_watchedUnder (by decide) (by decide) reached) found (by decide)
  exact ⟨_, _, _, reached, found, by decide +kernel, by decide +kernel, by decide +kernel, ran, by decide +kernel,
    waited spared away, by decide +kernel⟩

/-- A worker that was taken off the ready queue was looked at then, and is made ready once more with what it carried over
from a wait that no dispatch ended. -/
def halfCounted : Option (Log × Scheduler) :=
  watchedUnder brisk .blank Log.next Admits [.interrupts ⟨false, 1⟩, .call (.wake ⟨⟨2⟩, "worker", .ordinary⟩),
    .call .dispatch, .clock 5, .call .sleep, .clock 8, .call (.wake ⟨⟨2⟩, "worker", .ordinary⟩), .clock 9,
    .call (.serve .ready), .clock 12, .call (.wake ⟨⟨2⟩, "worker", .ordinary⟩), .clock 14, .call .dispatch]

theorem exists_not_carried :
    ∃ (log : Log) (s : Scheduler) (state : ThreadState), s.Logged .workers brisk log ∧
      s.processor.current.id = ⟨2⟩ ∧ s.threads.get? ⟨2⟩ = some state ∧
      state.waitDrift.carry = 3 ∧ (lifeOf ⟨2⟩ s.output).waited = 2 ∧
      state.waitDrift.carry ≠ (lifeOf ⟨2⟩ s.output).waited % brisk.agingInterval := by
  have reached : halfCounted = some (halfCounted.get (by decide +kernel)) := (Option.some_get _).symm
  let s := (halfCounted.get (by decide +kernel)).2
  have found : s.threads.get? ⟨2⟩ = some ((s.threads.get? ⟨2⟩).get (by decide +kernel)) := (Option.some_get _).symm
  exact ⟨_, _, _, watched_watchedUnder (by decide) (by decide) reached, by decide +kernel, found, by decide +kernel,
    by decide +kernel, by decide +kernel⟩

end Scheduler

end PriorityScheduler
