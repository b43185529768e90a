import PriorityScheduler.Proofs.Accounts
import PriorityScheduler.Proofs.Scheduler.Attainable

namespace PriorityScheduler

open PriorityScheduler.Action PriorityScheduler.Scheduler

def Output.milestoneOf? (id : ThreadId) (o : Output) : Option Milestone :=
  o.milestone?.bind fun (j, m) => if j = id then some m else none

def lifeOf (id : ThreadId) (out : List Output) : Life := (out.filterMap (·.milestoneOf? id)).foldl Life.prolong []

/-- Each record that was told fits to what was told before. -/
def Audited (audit : List Output → Thread → Lifetime → Prop) (out : List Output) : Prop :=
  ∀ before thread record, before ++ [.event (.finished thread record)] <+: out → audit before thread record

section Told

variable {id j : ThreadId} {out more : List Output} {o : Output} {m : Milestone} {audit : List Output → Thread → Lifetime → Prop}

theorem lifeOf_append (id : ThreadId) (out more : List Output) :
    lifeOf id (out ++ more) = (more.filterMap (·.milestoneOf? id)).foldl Life.prolong (lifeOf id out) := by
  rw [lifeOf, List.filterMap_append, List.foldl_append, lifeOf]

theorem lifeOf_quiet (quiet : ∀ o ∈ more, o.milestone? = none) : lifeOf id (out ++ more) = lifeOf id out := by
  have nothing : more.filterMap (·.milestoneOf? id) = [] := by
    refine List.filterMap_eq_nil_iff.mpr fun o member => ?_
    rw [Output.milestoneOf?, quiet o member, Option.bind_none]
  rw [lifeOf_append, nothing, List.foldl_nil]

theorem lifeOf_milestone (tells : o.milestone? = some (j, m)) :
    lifeOf id (out ++ [o]) = if j = id then (lifeOf id out).prolong m else lifeOf id out := by
  have told : [o].filterMap (·.milestoneOf? id) = if j = id then [m] else [] := by
    simp only [List.filterMap_cons, Output.milestoneOf?, tells, Option.bind_some]
    split <;> simp_all
  rw [lifeOf_append, told]
  split <;> rfl

theorem audited_nil (audit : List Output → Thread → Lifetime → Prop) : Audited audit [] := by
  intro before thread record within
  simp at within

theorem Audited.concat (audited : Audited audit out)
    (audits : ∀ thread record, o = .event (.finished thread record) → audit out thread record) :
    Audited audit (out ++ [o]) := by
  intro before thread record within
  rcases List.prefix_concat_iff.mp within with whole | earlier
  · obtain ⟨rfl, same⟩ := List.append_inj' whole rfl
    cases same
    exact audits thread record rfl
  · exact audited before thread record earlier

theorem Audited.quiet (audited : Audited audit out) (quiet : ∀ o ∈ more, o.milestone? = none) :
    Audited audit (out ++ more) := by
  induction more generalizing out with
  | nil => rwa [List.append_nil]
  | cons o rest ih =>
      rw [List.append_cons]
      refine ih (audited.concat fun thread record same => ?_) fun o' member => quiet o' (List.mem_cons_of_mem o member)
      cases same.symm ▸ quiet o List.mem_cons_self

theorem Audited.of_told (audited : Audited audit out) {before after : List Output} {thread : Thread} {record : Lifetime}
    (told : out = before ++ .event (.finished thread record) :: after) : audit before thread record := by
  refine audited before thread record ⟨after, ?_⟩
  rw [told, List.append_assoc, List.singleton_append]

end Told

def ThreadState.accounted (s : ThreadState) : ThreadState := { ThreadState.new s.thread 0 with accounts := s.accounts }

def ThreadRegistry.accounts (t : ThreadRegistry) (id : ThreadId) : Accounts := ((t.get? id).map (·.accounts)).getD {}

theorem ThreadRegistry.Matches.accounts {a b : ThreadRegistry} (same : Matches ThreadState.accounted a b) :
    b.accounts = a.accounts :=
  funext fun id => congrArg (fun found => found.getD {}) (same.map ThreadState.accounts (fun _ => rfl) id)

theorem ThreadRegistry.accounts_put (t : ThreadRegistry) (id j : ThreadId) (state : ThreadState) :
    (t.put id state).accounts j = if j = id then state.accounts else t.accounts j := by
  unfold ThreadRegistry.accounts
  rw [get?_put]
  split <;> rfl

theorem ThreadRegistry.accounts_remove (t : ThreadRegistry) (id j : ThreadId) :
    (t.remove id).accounts j = if j = id then {} else t.accounts j := by
  unfold ThreadRegistry.accounts
  rw [get?_remove]
  split <;> rfl

theorem ThreadRegistry.accounts_of_get? {t : ThreadRegistry} {id : ThreadId} {state : ThreadState}
    (found : t.get? id = some state) : t.accounts id = state.accounts := by
  rw [accounts, found, Option.map_some, Option.getD_some]

namespace Scheduler

open Accounts

variable {roster : Roster} {config : Config} {s s' : Scheduler} {id : ThreadId} {m : Milestone} {o : Output}

theorem Registered.eq_main (registered : s.Registered roster.Lists config) {t : Thread} (busy : t.isIdle = false)
    (known : s.Knows t) (absent : s.threads.get? t.id = none) : t.id = .main := by
  rcases known with ⟨id, known⟩ | rfl
  · have here := (registered.thread? roster.lists_main known).1
    subst here
    rw [Scheduler.thread?, absent] at known
    simp only at known
    split at known
    · assumption
    · cases known
  · rw [registered.idling] at busy
    cases busy

structure Lived (s : Scheduler) (id : ThreadId) : Prop where
  upTo : (lifeOf id s.output).Until s.clock.now
  course : Accounts.Course (lifeOf id s.output) (s.threads.accounts id)

/-- The accounts of ordinary threads are those of their lives, and so are the records that were told. -/
structure Ledger (roster : Roster) (config : Config) (s : Scheduler) : Prop where
  registered : s.Registered roster.Lists config
  lives : ∀ id, (roster.thread id).isExempt = false → s.Lived id
  closed : Audited (fun before thread record => record.Closes (lifeOf thread.id before)) s.output

theorem Lived.congr (lived : s.Lived id) (accounts : s'.threads.accounts id = s.threads.accounts id)
    (clock : s.clock.now ≤ s'.clock.now) (life : lifeOf id s'.output = lifeOf id s.output) : s'.Lived id := by
  obtain ⟨upTo, course⟩ := lived
  rw [← life] at upTo course
  exact ⟨upTo.later clock, accounts ▸ course⟩

theorem Lived.prolong (upTo : (lifeOf id s.output).Until m.time) (tells : o.milestone? = some (id, m))
    (output : s'.output = s.output ++ [o]) (clock : s'.clock.now = m.time)
    (course : Accounts.Course ((lifeOf id s.output).prolong m) (s'.threads.accounts id)) : s'.Lived id := by
  have life : lifeOf id s'.output = (lifeOf id s.output).prolong m := by
    rw [output, lifeOf_milestone tells, if_pos rfl]
  refine ⟨?_, ?_⟩
  · rw [life, clock]
    exact Life.until_prolong upTo
  · rw [life]
    exact course

theorem Lived.blank (gone : s.threads.accounts id = {}) (unborn : lifeOf id s.output = []) : s.Lived id := by
  constructor
  · rw [unborn]
    exact nofun
  · rw [unborn, gone]
    exact .unborn blank_new

namespace Ledger

theorem congr (ledger : s.Ledger roster config) (threads : s.threads.Matches ThreadState.accounted s'.threads)
    (current : s'.processor.current = s.processor.current) (idle : s'.idle.thread = s.idle.thread)
    (clock : s'.clock = s.clock) {more : List Output} (output : s'.output = s.output ++ more)
    (quiet : ∀ o ∈ more, o.milestone? = none) : s'.Ledger roster config where
  registered := ledger.registered.congr (threads.weaken fun _ => rfl) current idle
  lives id ordinary := by
    refine (ledger.lives id ordinary).congr (congrFun threads.accounts id) (Nat.le_of_eq (clock ▸ rfl)) ?_
    rw [output, lifeOf_quiet quiet]
  closed := output ▸ ledger.closed.quiet quiet

theorem still (ledger : s.Ledger roster config) (threads : s.threads.Matches ThreadState.accounted s'.threads)
    (current : s'.processor.current = s.processor.current) (idle : s'.idle.thread = s.idle.thread)
    (clock : s'.clock = s.clock) (output : s'.output = s.output) : s'.Ledger roster config :=
  ledger.congr threads current idle clock (output.trans (List.append_nil _).symm) nofun

theorem step (ledger : s.Ledger roster config) (id : ThreadId) (m : Milestone)
    (registered : s'.Registered roster.Lists config)
    (tells : o.milestone? = some (id, m)) (output : s'.output = s.output ++ [o]) (now : m.time = s.clock.now)
    (clock : s'.clock = s.clock) (others : ∀ j, j ≠ id → s'.threads.accounts j = s.threads.accounts j)
    (course : (roster.thread id).isExempt = false → s.Lived id →
      Accounts.Course ((lifeOf id s.output).prolong m) (s'.threads.accounts id))
    (closed : ∀ thread record, o = .event (.finished thread record) → record.Closes (lifeOf thread.id s.output)) :
    s'.Ledger roster config where
  registered := registered
  lives j ordinary := by
    have lived := ledger.lives j ordinary
    by_cases here : j = id
    · subst here
      exact .prolong (now ▸ lived.upTo) tells output (clock ▸ now.symm) (course ordinary lived)
    · refine lived.congr (others j here) (Nat.le_of_eq (clock ▸ rfl)) ?_
      rw [output, lifeOf_milestone tells, if_neg (Ne.symm here)]
  closed := output ▸ ledger.closed.concat closed

theorem joined (ledger : s.Ledger roster config) {q : WaitQueue} {target : QueueId} {t : Thread} {state : ThreadState}
    {accounts : Accounts} (p : Priority) (found : s.threads.get? t.id = some state)
    (accounted : state.accounts.enqueued s.clock.now = .ok accounts) :
    ((s.enrol target q t { state with accounts }).tell [.event (.enqueued s.clock.now t p)]).Ledger roster config := by
  refine ledger.step t.id (.admitted s.clock.now) ?_ rfl rfl rfl rfl (fun j other => ?_) (fun _ lived => ?_)
    nofun
  · exact ledger.registered.congr (.put found rfl) rfl rfl
  · exact (ThreadRegistry.accounts_put _ _ _ _).trans (if_neg other)
  · have course := lived.course
    rw [ThreadRegistry.accounts_of_get? found] at course
    refine (ThreadRegistry.accounts_put _ _ _ _).trans (if_pos rfl) ▸ ?_
    exact course.admitted lived.upTo accounted

theorem dispatched (ledger : s.Ledger roster config) {t : Thread} (p : Priority) (busy : t.isIdle = false)
    (known : s.Knows t) (charged : s.Charged t s') :
    (s'.tell [.event (.scheduled s.clock.now t p)]).Ledger roster config := by
  cases charged with
  | @known state accounts found scheduled =>
      refine ledger.step t.id (.dispatched s.clock.now) ?_ rfl rfl rfl rfl (fun j other => ?_)
        (fun _ lived => ?_) nofun
      · exact ledger.registered.congr (.put found rfl) rfl rfl
      · exact (ThreadRegistry.accounts_put _ _ _ _).trans (if_neg other)
      · have course := lived.course
        rw [ThreadRegistry.accounts_of_get? found] at course
        refine (ThreadRegistry.accounts_put _ _ _ _).trans (if_pos rfl) ▸ ?_
        exact course.prolong_dispatched lived.upTo scheduled
  | unknown absent =>
      -- only main runs without a state, and it is exempt
      refine ledger.step t.id (.dispatched s.clock.now) ?_ rfl rfl rfl rfl (fun _ _ => rfl)
        (fun ordinary _ => ?_) nofun
      · exact ledger.registered.congr (.refl _) rfl rfl
      · rw [ledger.registered.eq_main busy known absent, roster.main] at ordinary
        cases ordinary

theorem retired (ledger : s.Ledger roster config) {state : ThreadState} {record : Option Lifetime}
    {before after : Statistics} {t : Thread} (found : s.threads.get? t.id = some state)
    (drawn : state.finished s.clock.now before = .ok (record, after)) :
    (({ s with threads := s.threads.remove t.id } : Scheduler).tell
      (record.toList.map fun r => .event (.finished t r))).Ledger roster config := by
  let s₁ : Scheduler := { s with threads := s.threads.remove t.id }
  have registered (out : List Output) : (s₁.tell out).Registered roster.Lists config :=
    (ledger.registered.retired t.id).congr (.refl _) rfl rfl
  have gone : (s.threads.remove t.id).accounts t.id = {} := (ThreadRegistry.accounts_remove _ _ _).trans (if_pos rfl)
  have others {j : ThreadId} (other : j ≠ t.id) : (s.threads.remove t.id).accounts j = s.threads.accounts j :=
    (ThreadRegistry.accounts_remove _ _ _).trans (if_neg other)
  have listed : roster.thread t.id = state.thread := by
    obtain ⟨here, listed⟩ := ledger.registered.filed t.id state found
    rw [← here]
    exact listed
  have accounts := ThreadRegistry.accounts_of_get? found
  cases record with
  | some record =>
      obtain ⟨ordinary, arrival, finish, closed⟩ := ThreadState.finished_eq_some drawn
      have lived := ledger.lives t.id (listed ▸ ordinary)
      refine ledger.step t.id (.finished record) (registered _) rfl rfl finish rfl (fun _ => others)
        (fun _ _ => gone ▸ .unborn blank_new) fun thread record' same => ?_
      cases same
      exact ⟨finish ▸ lived.upTo, state.accounts, accounts ▸ lived.course, arrival, finish ▸ closed⟩
  | none =>
      refine ⟨registered _, fun j ordinary => ?_, ledger.closed.quiet nofun⟩
      have lived := ledger.lives j ordinary
      by_cases here : j = t.id
      · subst here
        have unarrived : state.accounts.arrival = none := by
          rcases ThreadState.finished_eq_none drawn with exempt | unarrived
          · rw [listed, exempt] at ordinary
            cases ordinary
          · exact unarrived
        refine .blank gone ?_
        show lifeOf t.id (s.output ++ []) = []
        rw [List.append_nil]
        exact lived.course.eq_nil (accounts ▸ unarrived)
      · exact lived.congr (others here) (Nat.le_refl _) (lifeOf_quiet nofun)

theorem left (ledger : s.Ledger roster config) (id : ThreadId) : (s.left id).Ledger roster config := by
  obtain ⟨queues, threads, left, same⟩ := s.exists_left id
  rw [left]
  exact ledger.still (same.weaken fun _ => rfl) rfl rfl rfl rfl

theorem selected (ledger : s.Ledger roster config) {queue : QueueId} {q : WaitQueue} {n : Noted (Selection WaitQueue)}
    (taken : q.next s.threads s.clock.now = .ok n) : (s.selected queue n).Ledger roster config :=
  ledger.still ((unseated_selected taken).weaken fun _ => rfl) rfl rfl rfl rfl

end Ledger

theorem kept_ledger (roster : Roster) (config : Config) (target : QueueId) :
    Kept roster.Lists target (Ledger roster config) where
  quiet same ledger := ledger.still (same.threads ▸ .refl _) same.current same.idle same.clock same.output
  told silent ledger := ledger.congr (.refl _) rfl rfl rfl rfl fun o member => (silent o member).milestone?
  known thread ledger := (ledger.registered.thread? roster.lists_main thread).2
  ensured {s t} listed absent ledger := by
    have unborn : (s.threads.put t.id (.new t s.threads.config.initial)).accounts = s.threads.accounts := by
      funext j
      rw [ThreadRegistry.accounts_put]
      split
      · rename_i here
        rw [here, ThreadRegistry.accounts, absent]
        rfl
      · rfl
    refine ⟨ledger.registered.ensured listed _, fun j ordinary => ?_, ledger.closed⟩
    exact (ledger.lives j ordinary).congr (congrFun unborn j) (Nat.le_refl _) rfl
  joined p _ found _ accounted ledger := ledger.joined p found accounted
  running busy ledger := ledger.registered.busy busy
  interrupted _ ledger := ledger.still (.refl _) rfl rfl rfl rfl
  repriced {s id state c} found repriced ledger := by
    have put : s.threads.Matches ThreadState.accounted (s.threads.put id c.state) :=
      .put found (repriced.congr ThreadState.accounted)
    exact ledger.still (put.trans ((effect_reprice s.locks id c s.threads).kin.weaken fun _ => rfl)) rfl rfl rfl rfl
  claimed _ ledger := ledger.still (.refl _) rfl rfl rfl rfl
  queueMade ledger := ledger.still (.refl _) rfl rfl rfl rfl
  lockMade ledger := ledger.still (.refl _) rfl rfl rfl rfl
  emitted ledger := by
    refine ledger.congr (.refl _) rfl rfl rfl rfl fun o member => ?_
    rw [List.mem_singleton.mp member]
    rfl
  released done ledger := ledger.still ((effect_release done).kin.weaken fun _ => rfl) rfl rfl rfl rfl

theorem dispatched_ledger (roster : Roster) (config : Config) : Dispatched (Ledger roster config) where
  toBookkept := (kept_ledger roster config .ready).toBookkept
  dispatched p busy known charged ledger := ledger.dispatched p busy known charged
  interrupted _ ledger := ledger.still (.refl _) rfl rfl rfl rfl
  switched {s next} known ledger := by
    have registered := ledger.registered.switched roster.lists_main known
    exact ⟨registered, fun j ordinary => (ledger.lives j ordinary).congr rfl (Nat.le_refl _) rfl, ledger.closed⟩

theorem ends_retire_ledger {thread : Thread} (ledger : s.Ledger roster config) :
    Ends (retire thread s.clock.now) s (fun _ => Ledger roster config) (Ledger roster config) :=
  ends_retire_record (kept_ledger roster config .ready).toRecorded _ (fun _ => ledger)
    fun _ _ _ found drawn => ledger.retired found drawn

theorem ends_depart_ledger (ledger : s.Ledger roster config) :
    Ends depart s (fun _ => Ledger roster config) (Ledger roster config) := by
  have kept := kept_ledger roster config .ready
  have effect := effect_withdraw s.locks s.processor.current.id s.threads
  have retires (s' : Scheduler) (after : s'.Ledger roster config ∧ s'.clock = s.clock) :
      Ends (retire s.processor.current s.clock.now) s' (fun _ => Ledger roster config) (Ledger roster config) := by
    rw [← after.2]
    exact ends_retire_ledger after.1
  refine (kept.beside fun _ _ clock => clock = s.clock).ends_depart kept.toBookkept (fun both => both.1)
    ⟨ledger.still (effect.kin.weaken fun _ => rfl) rfl rfl rfl rfl, rfl⟩ (fun {s'} both => ?_) fun {s'} => retires s'
  obtain ⟨queues, threads, left, -⟩ := s'.exists_left s.processor.current.id
  exact ⟨both.1.left _, left ▸ both.2⟩

theorem ends_ledger {call : Call} (listed : ∀ t ∈ call.thread?, roster.Lists t) (ledger : s.Ledger roster config)
    (current : roster.Lists s.processor.current) :
    Ends call.action s (fun _ => Ledger roster config) (Ledger roster config) := by
  refine ends_call listed (kept_ledger roster config call.target) id (dispatched_ledger roster config) ?_
    (fun _ => current) ?_ (fun _ after _ => after) (fun _ after _ taken => after.selected taken) ledger
  · intro lock s' outcome w _ _ _ _ done after
    exact after.still ((effect_acquire done).kin.weaken fun _ => rfl) rfl rfl rfl rfl
  · rintro rfl
    exact ends_depart_ledger (s := s.masked) (ledger.still (.refl _) rfl rfl rfl rfl)

theorem Booted.ledger (booted : s.Booted config) (listed : roster.Lists s.idle.thread) : s.Ledger roster config := by
  have staffed := booted.staffed listed
  obtain ⟨idle, start, -, rfl⟩ := booted.eq
  refine ⟨staffed.1.1.registered, fun j _ => ⟨nofun, ?_⟩, audited_nil _⟩
  rw [ThreadRegistry.accounts, ThreadRegistry.get?, SortedMap.get?_empty]
  exact .unborn blank_new

theorem Ledger.later (ledger : s.Ledger roster config) (time : Ticks) :
    ({ s with clock := s.clock.set time } : Scheduler).Ledger roster config := by
  refine ⟨ledger.registered.congr (.refl _) rfl rfl, fun j ordinary => ?_, ledger.closed⟩
  exact (ledger.lives j ordinary).congr rfl (Nat.le_max_left _ _) rfl

theorem ledger_of_attainable (attainable : s.Attainable roster config) : s.Ledger roster config := by
  induction attainable with
  | boot booted listed _ => exact booted.ledger listed
  | @feed s s' input attainable fits fed ih =>
      cases input with
      | call call => exact of_perform (ends_ledger fits ih (staffed_of_attainable attainable).2.1) fed
      | clock time =>
          cases fed
          exact ih.later time
      | interrupts interrupts =>
          cases fed
          exact (kept_ledger roster config .ready).interrupted interrupts ih
      | processor processor =>
          cases fed
          have registered : ({ s with processor } : Scheduler).Registered roster.Lists config :=
            ⟨ih.registered.configured, ih.registered.filed, .inl fits, ih.registered.idling⟩
          exact ⟨registered, fun j ordinary => (ih.lives j ordinary).congr rfl (Nat.le_refl _) rfl, ih.closed⟩

/-- What is counted of a life fits into it, as long as its thread was not admitted to a queue after its last dispatch. The
time up to the first such admission is counted twice. -/
theorem counted_le_of_attainable {before after : List Output} {thread : Thread} {record : Lifetime}
    (attainable : s.Attainable roster config) (told : s.output = before ++ .event (.finished thread record) :: after) :
    record.arrival ≤ record.finish ∧
    record.run + record.wait ≤ record.finish - record.arrival + (lifeOf thread.id before).doubled ∧
    ((∀ time ∈ (lifeOf thread.id before).admissions, time ≤ (lifeOf thread.id before).since) →
      record.run + record.wait ≤ record.finish - record.arrival) := by
  have counted := ((ledger_of_attainable attainable).closed.of_told told).counted_le
  refine ⟨counted.1, counted.2, fun early => ?_⟩
  rw [Life.doubled_eq_zero_iff.mpr early] at counted
  exact counted.2

def overrun : Option Scheduler :=
  opened [.interrupts ⟨false, 1⟩, .call (.wake ⟨⟨2⟩, "worker", .ordinary⟩), .call .dispatch, .clock 5,
    .call (.wake ⟨⟨2⟩, "worker", .ordinary⟩), .clock 8, .call .finish]

theorem counted_le_of_attainable_overrun :
    ∃ s before after, overrun = some s ∧
      s.output = before ++ .event (.finished ⟨⟨2⟩, "worker", .ordinary⟩ ⟨0, 13, 0, 8⟩) :: after ∧
      (lifeOf ⟨2⟩ before).doubled = 5 ∧ 13 + 0 ≤ 8 - 0 + 5 := by
  have reached : overrun = some (overrun.get (by decide +kernel)) := (Option.some_get _).symm
  let out := (overrun.get (by decide +kernel)).output
  have told : out = out.take 4 ++ .event (.finished ⟨⟨2⟩, "worker", .ordinary⟩ ⟨0, 13, 0, 8⟩) :: out.drop 5 := by
    decide +kernel
  have doubled : (lifeOf ⟨2⟩ (out.take 4)).doubled = 5 := by decide +kernel
  have counted := (counted_le_of_attainable (attainable_opened reached) told).2.1
  exact ⟨_, _, _, reached, told, doubled, doubled ▸ counted⟩

/-- A thread may finish with more time in its accounts than it lived. -/
theorem exists_counted_twice :
    ∃ (s : Scheduler) (thread : Thread) (record : Lifetime), s.Attainable .workers {} ∧
      .event (.finished thread record) ∈ s.output ∧ ¬record.run + record.wait ≤ record.finish - record.arrival := by
  have reached : overrun = some (overrun.get (by decide +kernel)) := (Option.some_get _).symm
  exact ⟨_, ⟨⟨2⟩, "worker", .ordinary⟩, ⟨0, 13, 0, 8⟩, attainable_opened reached, by decide +kernel, by decide⟩

end Scheduler

end PriorityScheduler
