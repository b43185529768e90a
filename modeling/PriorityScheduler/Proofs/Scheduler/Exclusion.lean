import PriorityScheduler.Proofs.Locks.Runs
import PriorityScheduler.Proofs.Scheduler.Awake
import PriorityScheduler.Proofs.Scheduler.Replay
import PriorityScheduler.Proofs.Scheduler.Wakeful

namespace PriorityScheduler

open PriorityScheduler.Action PriorityScheduler.Scheduler PriorityScheduler.LockRegistry

namespace Scheduler

variable {roster : Roster} {config : Config} {s s' : Scheduler} {claims claims' : ThreadId → LockId → Prop}
  {lock : LockId} {id : ThreadId} {call : Call}

/-- Each lock is in the hands that its events lead to, and whoever has a claim on a lock holds it or is in line. -/
structure Traced (claims : ThreadId → LockId → Prop) (s : Scheduler) : Prop where
  linked : Linked s.locks s.threads
  replayed : ∀ lock, replay lock s.output = some (s.locks.handsOf lock)
  met : ∀ id lock, claims id lock → (s.locks.handsOf lock).1 = some id ∨ id ∈ (s.locks.handsOf lock).2

namespace Traced

theorem weaken (traced : s.Traced claims) (fewer : ∀ id lock, claims' id lock → claims id lock) : s.Traced claims' :=
  ⟨traced.linked, traced.replayed, fun id lock claim => traced.met id lock (fewer id lock claim)⟩

theorem same (traced : s.Traced claims) (linked : Linked s'.locks s'.threads)
    (hands : ∀ lock, s'.locks.handsOf lock = s.locks.handsOf lock)
    (told : ∀ lock, replay lock s'.output = replay lock s.output) : s'.Traced claims where
  linked := linked
  replayed lock := by
    rw [told, hands]
    exact traced.replayed lock
  met id lock claim := by
    rw [hands]
    exact traced.met id lock claim

theorem tell (traced : s.Traced claims) {out : List Output} (unlocked : ∀ o ∈ out, o.lockRecord? = none) :
    (s.tell out).Traced claims :=
  traced.same traced.linked (fun _ => rfl) fun _ => replay_silent unlocked

theorem acquired {outcome : LockOutcome} {w : Walk} (traced : s.Traced claims) (known : (s.threads.get? id).isSome)
    (awake : s.threads.blockedOn? id = none) (done : s.locks.acquire lock id s.threads = .ok (outcome, w)) (time : Ticks)
    (p : Priority) :
    ((s.follow w w.changed).tell
      (w.notices.map .notice ++ [.event (.lock outcome.transition lock time id p)])).Traced
        fun id' j => claims id' j ∨ id' = id ∧ j = lock := by
  obtain ⟨holder, waiters, before, other, result, after⟩ := acquire_hands done
  have line : s.locks.waitersOf lock = waiters := (holder?_of_hands? before).2
  have hands (j : LockId) : w.locks.handsOf j =
      if j = lock then if holder = none then (some id, waiters) else (holder, waiters ++ [id]) else s.locks.handsOf j := by
    rw [handsOf, after]
    split <;> rfl
  refine ⟨traced.linked.acquire known (.inr awake) done, fun j => ?_, fun id' j claim => ?_⟩
  · show replay j (s.output ++ (w.notices.map .notice ++ [_])) = some (w.locks.handsOf j)
    rw [← List.append_assoc, replay_event,
      replay_silent fun o member => (Bookkept.silent_notices w.notices o member).lockRecord?, traced.replayed, hands]
    split
    · rename_i here
      rw [here, handsOf_of_hands? before, Option.bind_some]
      rcases result with ⟨rfl, rfl⟩ | ⟨h, rfl, rfl⟩
      · -- a free lock has no line
        have nobody : waiters = [] := by
          rw [← line]
          exact traced.linked.free lock (holder?_of_hands? before).1
        rw [nobody]
        rfl
      · have absent : id ∉ waiters := line ▸ traced.linked.not_mem_waitersOf awake lock
        exact if_pos ⟨rfl, other, absent⟩
    · rfl
  · show (w.locks.handsOf j).1 = some id' ∨ id' ∈ (w.locks.handsOf j).2
    rw [hands]
    split
    · rename_i here
      rcases claim with claim | ⟨rfl, -⟩
      · have met := traced.met id' j claim
        rw [here, handsOf_of_hands? before] at met
        split
        · rename_i free
          refine .inr (met.resolve_left fun holds => ?_)
          cases free.symm.trans holds
        · exact met.imp_right (List.mem_append_left [id])
      · split
        · exact .inl rfl
        · exact .inr (List.mem_append_right waiters (List.mem_singleton_self _))
    · rename_i elsewhere
      exact traced.met id' j (claim.resolve_right fun both => elsewhere both.2)

theorem released {next : Option ThreadId} {w : Walk} (traced : s.Traced claims) (unclaimed : ∀ lock, ¬claims id lock)
    (done : s.locks.release lock id s.threads = .ok (next, w)) (time : Ticks) (p p' : Priority) :
    ((s.follow w w.changed).tell
      (w.notices.map .notice ++ Output.handOver lock time id p next p')).Traced claims := by
  obtain ⟨waiters, before, rfl, after⟩ := release_hands done
  have hands (j : LockId) :
      w.locks.handsOf j = if j = lock then (waiters.head?, waiters.tail) else s.locks.handsOf j := by
    rw [handsOf, after]
    split <;> rfl
  have told (j : LockId) : replay j (s.output ++ w.notices.map .notice) = some (s.locks.handsOf j) := by
    rw [replay_silent fun o member => (Bookkept.silent_notices w.notices o member).lockRecord?, traced.replayed]
  refine ⟨traced.linked.release done, fun j => ?_, fun id' j claim => ?_⟩
  · show replay j (s.output ++ (w.notices.map .notice ++ _)) = some (w.locks.handsOf j)
    rw [← List.append_assoc, replay_handOver time p p' ((told lock).trans (congrArg some (handsOf_of_hands? before))),
      told, hands]
    split <;> rfl
  · show (w.locks.handsOf j).1 = some id' ∨ id' ∈ (w.locks.handsOf j).2
    rw [hands]
    have met := traced.met id' j claim
    split
    · rename_i here
      rw [here, handsOf_of_hands? before] at met
      have waits : id' ∈ waiters := met.resolve_left fun same => unclaimed j (Option.some.inj same ▸ claim)
      cases waiters with
      | nil => cases waits
      | cons first rest => exact (List.mem_cons.mp waits).imp (fun same => congrArg some same.symm) fun waits => waits
    · exact met

theorem selected {queue : QueueId} {q : WaitQueue} {n : Noted (Selection WaitQueue)} (traced : s.Traced claims)
    (taken : q.next s.threads s.clock.now = .ok n) : (s.selected queue n).Traced claims :=
  traced.same (traced.linked.of_matches (unseated_selected taken) (fun _ => rfl) fun _ => rfl) (fun _ => rfl) fun _ => rfl

end Traced

theorem handsOf_create {t : LockRegistry} {a : ThreadRegistry} (linked : Linked t a) (lock : LockId) :
    t.create.2.handsOf lock = t.handsOf lock := by
  rw [handsOf, handsOf, hands?_create]
  split
  · rename_i here
    rw [here, hands?, linked.get?_nextId]
    rfl
  · rfl

theorem lockless_traced (claims : ThreadId → LockId → Prop) (target : QueueId) :
    Lockless (fun _ => True) target (Traced claims) where
  quiet {s s'} same traced := by
    refine traced.same ?_ (fun _ => ?_) fun _ => ?_
    · rw [same.locks, same.threads]
      exact traced.linked
    · rw [same.locks]
    · rw [same.output]
  told silent traced := traced.tell fun o member => (silent o member).lockRecord?
  known _ _ := trivial
  ensured _ absent traced := traced.same (traced.linked.made absent) (fun _ => rfl) fun _ => rfl
  joined p _ found _ _ traced := by
    refine Traced.tell ?_ (List.forall_mem_singleton.mpr rfl)
    exact traced.same (traced.linked.unseen (.put found rfl)) (fun _ => rfl) fun _ => rfl
  running _ _ := trivial
  interrupted _ traced := traced.same traced.linked (fun _ => rfl) fun _ => rfl
  repriced {s id state c} found repriced traced := by
    refine traced.same (traced.linked.reprice found repriced) (fun lock => ?_) fun _ => rfl
    exact congrArg (Option.getD · (none, [])) (hands?_reprice s.locks id c s.threads lock)
  claimed _ traced := traced.same traced.linked (fun _ => rfl) fun _ => rfl
  queueMade traced := traced.same traced.linked (fun _ => rfl) fun _ => rfl
  lockMade traced := traced.same traced.linked.create (handsOf_create traced.linked) fun _ => rfl

theorem dispatched_traced (claims : ThreadId → LockId → Prop) : Dispatched (Traced claims) where
  toBookkept := (lockless_traced claims .ready).toBookkept
  dispatched p _ _ charged traced := by
    obtain ⟨threads, rfl, same⟩ := charged.exists_threads
    refine Traced.tell ?_ (List.forall_mem_singleton.mpr rfl)
    exact traced.same (traced.linked.unseen (same.weaken fun _ => rfl)) (fun _ => rfl) fun _ => rfl
  interrupted := (lockless_traced claims .ready).interrupted
  switched _ traced := traced.same traced.linked (fun _ => rfl) fun _ => rfl

/-! ## Calls -/

def WaitsOnce (s : Scheduler) : Prop := ∀ id queue, s.Waits id queue → ¬s.locks.InLine id

instance (s : Scheduler) : Decidable s.WaitsOnce :=
  decidable_of_iff (∀ e ∈ s.queues.entries, ∀ id ∈ e.2.waiters, ¬s.locks.InLine id) <| by
    simp only [SortedMap.mem_entries_iff, Prod.forall]
    constructor
    · rintro once id queue ⟨q, found, waits⟩
      exact once queue q found id waits
    · intro once queue q found id waits
      exact once id queue ⟨q, found, waits⟩

/-- Idle threads take no locks, no thread waits in a queue and for a lock at once when one is selected, and the processor
is given to nobody who is in line. -/
def Patient (s : Scheduler) : Input → Prop
  | .call call =>
      (call.takesLock = true → s.processor.current.isIdle = false) ∧ ∀ chosen ∈ s.selection call, chosen.2.WaitsOnce
  | .processor processor => ¬s.locks.InLine processor.current.id
  | _ => True

instance (s : Scheduler) (input : Input) : Decidable (Patient s input) :=
  match input with
  | .call _ => inferInstanceAs (Decidable (_ ∧ _))
  | .clock _ => isTrue trivial
  | .interrupts _ => isTrue trivial
  | .processor _ => inferInstanceAs (Decidable (¬_))

def Guarded (roster : Roster) (config : Config) (claims : ThreadId → LockId → Prop) (s : Scheduler) : Prop :=
  s.Staffed roster config ∧ s.Traced claims

/-- Who runs waits for no lock, unless it is the idle thread. -/
def Rested (roster : Roster) (config : Config) (claims : ThreadId → LockId → Prop) (s : Scheduler) : Prop :=
  s.Guarded roster config claims ∧
    (s.processor.current = s.idle.thread ∨ s.threads.blockedOn? s.processor.current.id = none)

theorem lockless_guarded (roster : Roster) (config : Config) (claims : ThreadId → LockId → Prop) (target : QueueId) :
    Lockless roster.Lists target (Guarded roster config claims) :=
  (kept_staffed roster config target).toLockless.and (lockless_traced claims target)

theorem dispatched_guarded (roster : Roster) (config : Config) (claims : ThreadId → LockId → Prop) :
    Dispatched (Guarded roster config claims) := (dispatched_staffed roster config).and (dispatched_traced claims)

theorem Guarded.selected {queue : QueueId} {q : WaitQueue} {n : Noted (Selection WaitQueue)}
    (guarded : s.Guarded roster config claims) (found : s.queues.get? queue = some q)
    (taken : q.next s.threads s.clock.now = .ok n) : (s.selected queue n).Guarded roster config claims :=
  ⟨guarded.1.selected found taken, guarded.2.selected taken⟩

theorem Guarded.released {next : Option ThreadId} {w : Walk} (guarded : s.Guarded roster config claims)
    (unclaimed : ∀ lock, ¬claims id lock) (done : s.locks.release lock id s.threads = .ok (next, w)) (time : Ticks)
    (p p' : Priority) :
    ((s.follow w w.changed).tell
      (w.notices.map .notice ++ Output.handOver lock time id p next p')).Guarded roster config claims := by
  have kept := kept_staffed roster config .ready
  exact ⟨kept.handedOver w.notices (kept.released done guarded.1), guarded.2.released unclaimed done time p p'⟩

theorem dispatched_lines (s₀ : Scheduler) :
    Dispatched fun s => (∀ id, s.threads.blockedOn? id = s₀.threads.blockedOn? id) ∧ s.idle.thread = s₀.idle.thread where
  quiet same lines := ⟨same.threads ▸ lines.1, same.idle.trans lines.2⟩
  told _ lines := lines
  dispatched {s _ _} p _ _ charged lines := by
    obtain ⟨threads, rfl, same⟩ := charged.exists_threads
    have unseen : s.threads.Unseen threads := same.weaken fun _ => rfl
    exact ⟨fun j => (unseen.blockedOn? j).trans (lines.1 j), lines.2⟩
  interrupted _ lines := lines
  switched _ lines := lines

theorem blockedOn?_selected (queue : QueueId) {q : WaitQueue} {n : Noted (Selection WaitQueue)}
    (taken : q.next s.threads s.clock.now = .ok n) (id : ThreadId) :
    (s.selected queue n).threads.blockedOn? id = s.threads.blockedOn? id :=
  (unseated_selected taken).bind ThreadState.blockedOn (fun _ => rfl) id

theorem ends_dispatch_rested (guarded : s.Guarded roster config claims) (once : s.WaitsOnce) :
    Ends dispatch s (fun _ => Rested roster config claims) (Rested roster config claims) := by
  have survives := (dispatched_guarded roster config claims).and (dispatched_lines s)
  have absent (none : s.queues.get? .ready = none) : s.Rested roster config claims :=
    absurd none (Option.isSome_iff_ne_none.mp guarded.1.1.1.ready)
  have ends := survives.ends_dispatch absent fun q n found taken =>
    ⟨guarded.selected found taken, blockedOn?_selected .ready taken, rfl⟩
  refine (ends.and (ends_dispatch_current s)).imp ?_ fun _ => And.left
  rintro t s' ⟨⟨⟨guarded', lines, idle⟩, q, n, found, taken, runs⟩, rfl⟩
  refine ⟨guarded', ?_⟩
  rcases runs with known | ⟨-, same⟩
  -- who was selected waited in a queue, and so for no lock
  · obtain ⟨id, chosen, known⟩ := Option.bind_eq_some_iff.mp known
    obtain ⟨housed, serves, -⟩ := guarded.1.1.1.selected found taken
    obtain ⟨same, -⟩ := housed.registered.thread? roster.lists_main known
    refine .inr ((lines _).trans ((not_inLine_iff guarded.2.linked).mp ?_))
    rw [same]
    exact once id .ready ⟨q, found, serves.member id chosen⟩
  · exact .inl (same.trans idle.symm)

theorem ends_contend_guarded (lock : LockId) (guarded : s.Guarded roster config claims)
    (awake : s.threads.blockedOn? s.processor.current.id = none) :
    let c := s.processor.current
    Ends (contend lock) s
      (fun outcome s' =>
        (s'.Guarded roster config (fun id j => claims id j ∨ id = c.id ∧ j = lock) ∧ s'.processor.current = c) ∧
          (outcome = .acquired → s'.Awake c.id fun _ => True))
      fun s' => (s'.Guarded roster config claims ∧ s'.processor.current = c) ∧ s'.Awake c.id fun _ => True := by
  intro c
  have before := ((lockless_guarded roster config claims .ready).onCurrent c).and (lockless_awake .ready c.id fun _ => True)
  refine before.ends_contend guarded.1.2.1 ⟨⟨guarded, rfl⟩, awake, fun _ _ => trivial⟩ (fun outcome => ?_) ?_
  · exact (((lockless_guarded roster config _ .ready).onCurrent c).and
      ((lockless_awake .ready c.id fun _ => True).when (outcome = .acquired))).toNeutral
  · rintro s' outcome w p - - known done ⟨⟨guarded, current⟩, awake⟩
    refine ⟨⟨⟨?_, guarded.2.acquired known awake.1 done s.clock.now p⟩, current⟩, fun won => ⟨?_, fun _ _ => trivial⟩⟩
    · have kept := kept_staffed roster config .ready
      rw [← tell_tell]
      refine kept.emitted (kept.told (Bookkept.silent_notices w.notices) ⟨guarded.1.1.walked (effect_acquire done), ?_⟩)
      exact guarded.1.2
    · rw [won] at done
      exact awake_acquire done awake.1

theorem ends_depart_guarded (guarded : s.Guarded roster config claims)
    (awake : s.threads.blockedOn? s.processor.current.id = none) (unclaimed : ∀ lock, ¬claims s.processor.current.id lock) :
    let c := s.processor.current
    let rest (s' : Scheduler) :=
      (s'.Guarded roster config claims ∧ s'.processor.current = c) ∧ s'.Awake c.id fun _ => True
    Ends depart s (fun _ => rest) rest := by
  intro c rest
  refine ends_depart_awake ((lockless_guarded roster config claims .ready).onCurrent c)
    (fun both => both.1.2.linked) ?_ ?_ ?_ ?_ ?_
  · -- a thread that is not in line has no wait to withdraw
    show (s.follow (s.locks.withdraw c.id s.threads) _).Guarded roster config claims ∧ _
    rw [withdraw_awake awake]
    exact ⟨guarded, rfl⟩
  · intro s' lock next w time p _ done both
    exact ⟨both.1.released unclaimed done time _ p, both.2⟩
  · rintro s' ⟨guarded, current⟩
    have staffed := guarded.1.left c.id
    have linked := guarded.2.linked.unseen (s'.unseen_left c.id)
    obtain ⟨queues, registry, left, -⟩ := s'.exists_left c.id
    rw [left] at staffed linked ⊢
    exact ⟨⟨staffed, guarded.2.same linked (fun _ => rfl) fun _ => rfl⟩, current⟩
  · rintro s' record ⟨guarded, current⟩
    exact ⟨⟨⟨guarded.1.1.told rfl, guarded.1.2⟩, guarded.2.tell (List.forall_mem_singleton.mpr rfl)⟩, current⟩
  · rintro s' ⟨guarded, current⟩ awake
    have linked := guarded.2.linked.retired awake.1 awake.2
    exact ⟨⟨guarded.1.retired c.id, guarded.2.same linked (fun _ => rfl) fun _ => rfl⟩, current⟩

theorem ends_rested (listed : ∀ t ∈ call.thread?, roster.Lists t) (patient : s.Patient (.call call))
    (guarded : s.Guarded roster config claims) (awake : s.threads.blockedOn? s.processor.current.id = none)
    (unclaimed : ∀ lock, ¬claims s.processor.current.id lock) :
    Ends call.action s (fun _ => Rested roster config claims) (Rested roster config claims) := by
  let c := s.processor.current
  -- a call that selects nobody leaves the current thread running
  let Inv (s' : Scheduler) : Prop := (s'.Guarded roster config claims ∧ s'.processor.current = c) ∧
    (s.selection call = none → s'.Awake c.id fun _ => True)
  have kept (target : QueueId) : Lockless roster.Lists target Inv :=
    ((lockless_guarded roster config claims target).onCurrent c).and
      ((lockless_awake target c.id fun _ => True).when (s.selection call = none))
  have start : Inv s := ⟨⟨guarded, rfl⟩, fun _ => ⟨awake, fun _ _ => trivial⟩⟩
  have masked : s.masked.Guarded roster config claims := (lockless_guarded roster config claims .ready).interrupted _ guarded
  have settle {s' : Scheduler} (both : (s'.Guarded roster config claims ∧ s'.processor.current = c) ∧
      s'.Awake c.id fun _ => True) : Inv s' := ⟨both.1, fun _ => both.2⟩
  refine (kept call.target).ends_parts listed id (fun {s'} interrupts rested => ?_) (fun s' inv none => ?_) ?_ ?_ ?_ ?_ ?_ start
  · exact ⟨(lockless_guarded roster config claims .ready).interrupted interrupts rested.1, rested.2⟩
  · refine ⟨inv.1.1, .inr ?_⟩
    rw [inv.1.2]
    exact (inv.2 none).1
  · rintro queue rfl
    refine ends_serve (fun _ => ⟨guarded, .inr awake⟩) fun q n found taken => ?_
    have told := (dispatched_guarded roster config claims).told (Bookkept.silent_notices n.notices)
      (guarded.selected found taken)
    exact ⟨told, .inr ((blockedOn?_selected queue taken _).trans awake)⟩
  · intro s₁ chosen inv
    exact ends_dispatch_rested inv.1.1 (patient.2 (.ready, s₁) chosen)
  · rintro lock rfl
    refine (ends_contend_guarded (s := s.masked) lock masked awake).run.imp ?_ fun _ both => settle both.1
    rintro outcome s' ⟨⟨⟨guarded, current⟩, went⟩, run⟩
    refine ⟨⟨⟨guarded.1, guarded.2.weaken fun _ _ => .inl⟩, current⟩, fun none => ?_⟩
    cases outcome with
    | acquired => exact went rfl
    | blocked holder =>
        -- the thread has to wait, so the call selects another one
        simp [Scheduler.selection, run] at none
  · rintro lock rfl
    refine (kept .ready).handOn s.clock.now ((kept .ready).interrupted _ start) (fun next w p done => ?_) fun _ => id
    refine ⟨⟨masked.released unclaimed done s.clock.now _ p, rfl⟩, fun _ => ⟨?_, fun _ _ => trivial⟩⟩
    exact (awake_release guarded.2.linked done awake).1
  · rintro rfl
    exact (ends_depart_guarded (s := s.masked) masked awake unclaimed).imp (fun _ _ => settle) fun _ => settle

/-! ## Runs -/

theorem alert_of_patient (s : Scheduler) (input : Input) (patient : s.Patient input) : Alert s input := by
  intro lock taken idle
  unfold Input.acquired? at taken
  split at taken
  · cases (patient.1 rfl).symm.trans idle
  · cases taken

theorem Rested.awake (rested : s.Rested roster config claims) (wakeful : Wakeful roster s.locks) :
    s.threads.blockedOn? s.processor.current.id = none := by
  obtain ⟨⟨⟨dwelling, -, listed⟩, traced⟩, idle | awake⟩ := rested
  · -- the idle thread is in no line, because no idle thread is
    refine (not_inLine_iff traced.linked).mp ?_
    rintro ⟨lock, waits⟩
    have busy := wakeful.busy waits
    rw [idle, listed, dwelling.1.registered.idling] at busy
    cases busy
  · exact awake

theorem traced_feed {input : Input} (obeying : s.Obeying Patient roster config) (fits : Open roster s input)
    (patient : s.Patient input) (fed : s.feed input = some s') (traced : s.Traced claims)
    (awake : s.threads.blockedOn? s.processor.current.id = none) (unclaimed : ∀ lock, ¬claims s.processor.current.id lock) :
    s'.Traced claims ∧ s'.threads.blockedOn? s'.processor.current.id = none := by
  cases input with
  | call call =>
      have guarded : s.Guarded roster config claims := ⟨staffed_of_attainable obeying.attainable, traced⟩
      have rested := of_perform (ends_rested fits patient guarded awake unclaimed) fed
      exact ⟨rested.1.2, rested.awake (wakeful_of_alert ((obeying.feed fits patient fed).mono alert_of_patient))⟩
  | clock time =>
      cases fed
      exact ⟨traced.same traced.linked (fun _ => rfl) fun _ => rfl, awake⟩
  | interrupts interrupts =>
      cases fed
      exact ⟨traced.same traced.linked (fun _ => rfl) fun _ => rfl, awake⟩
  | processor processor =>
      cases fed
      exact ⟨traced.same traced.linked (fun _ => rfl) fun _ => rfl, (not_inLine_iff traced.linked).mp patient⟩

theorem Booted.traced (booted : s.Booted config) : s.Traced fun _ _ => False := by
  obtain ⟨idle, start, -, rfl⟩ := booted.eq
  exact ⟨(LockSystem.sound_fresh (LockSystem.fresh_staffed config [])).linked, fun _ => rfl, nofun⟩

theorem traced_of_patient (obeying : s.Obeying Patient roster config) :
    (s.Traced fun _ _ => False) ∧ s.threads.blockedOn? s.processor.current.id = none := by
  induction obeying with
  | boot booted _ _ =>
      refine ⟨booted.traced, ?_⟩
      obtain ⟨idle, start, -, rfl⟩ := booted.eq
      rfl
  | feed obeying fits patient fed ih => exact traced_feed obeying fits patient fed ih.1 ih.2 fun _ => id

/-- A thread that was told to wait for a lock and has not run since. -/
inductive Pending (roster : Roster) (config : Config) (id : ThreadId) (lock : LockId) : Scheduler → Prop where
  | blocked {s s' : Scheduler} {holder : ThreadId} (obeying : s.Obeying Patient roster config)
      (patient : s.Patient (.call (.acquire lock))) (runs : s.processor.current.id = id)
      (blocked : Action.acquire lock s = .ok (.blocked holder) s') : Pending roster config id lock s'
  | feed {s s' : Scheduler} {input : Input} (pending : Pending roster config id lock s)
      (off : s.processor.current.id ≠ id) (fits : Open roster s input) (patient : s.Patient input)
      (fed : s.feed input = some s') : Pending roster config id lock s'

theorem Pending.play {inputs : List Input} (pending : s.Pending roster config id lock)
    (played : playWhile (fun s input => s.processor.current.id ≠ id ∧ Open roster s input ∧ s.Patient input) inputs s =
      some s') : s'.Pending roster config id lock :=
  playWhile_induction (fun pending fits fed => pending.feed fits.1 fits.2.1 fits.2.2 fed) pending played

theorem Pending.obeying (pending : s.Pending roster config id lock) : s.Obeying Patient roster config := by
  induction pending with
  | @blocked s s' holder obeying patient _ blocked =>
      have fed : s.feed (.call (.acquire lock)) = some s' := by
        show s.perform (.acquire lock) = some s'
        simp [perform, Call.action, bind, EStateM.bind, blocked, pure, EStateM.pure]
      have fits : Open roster s (.call (.acquire lock)) := fun _ named => nomatch named
      exact obeying.feed fits patient fed
  | feed _ _ fits patient fed ih => exact ih.feed fits patient fed

theorem traced_blocked {outcome : LockOutcome} (obeying : s.Obeying Patient roster config)
    (run : Action.acquire lock s = .ok outcome s') :
    s'.Traced fun id j => id = s.processor.current.id ∧ j = lock := by
  obtain ⟨traced, awake⟩ := traced_of_patient obeying
  have guarded : s.masked.Guarded roster config fun _ _ => False :=
    (lockless_guarded roster config _ .ready).interrupted _ ⟨staffed_of_attainable obeying.attainable, traced⟩
  have ends : Ends (Action.acquire lock) s (fun _ => Traced fun id j => id = s.processor.current.id ∧ j = lock)
      fun _ => True := by
    rw [Action.acquire, ends_masked, ends_bind]
    refine (ends_contend_guarded (s := s.masked) lock guarded awake).imp (fun outcome s₁ won => ?_) fun _ _ => trivial
    have claimed := won.1.1.2.weaken fun _ _ => .inr
    cases outcome with
    | acquired => exact claimed.same claimed.linked (fun _ => rfl) fun _ => rfl
    | blocked holder =>
        rw [ends_bind]
        refine ((dispatched_traced _).ends_dispatch (fun _ => trivial) fun _ _ _ taken => claimed.selected taken).imp ?_
          fun _ => id
        rintro _ s₂ ⟨traced, -⟩
        exact traced.same traced.linked (fun _ => rfl) fun _ => rfl
  exact ends.of_ok run

theorem traced_of_pending (pending : s.Pending roster config id lock) :
    (s.Traced fun id' j => id' = id ∧ j = lock) ∧ s.threads.blockedOn? s.processor.current.id = none := by
  induction pending with
  | blocked obeying patient runs blocked =>
      subst runs
      exact ⟨traced_blocked obeying blocked, (traced_of_patient (Pending.blocked obeying patient rfl blocked).obeying).2⟩
  | feed pending off fits patient fed ih =>
      exact traced_feed pending.obeying fits patient fed ih.1 ih.2 fun _ claim => off claim.1

/-- As long as idle threads take no locks and nobody waits in a queue and for a lock at once, the events of each lock are
those of a mutex that is handed on in the order of its line, they tell its holder and its waiters at any time, and a thread
that was told to wait for the lock runs next as its holder. -/
theorem locks_replay (obeying : s.Obeying Patient roster config) (lock : LockId) :
    (∀ holder waiters, s.lockHolder lock = .ok holder → s.lockWaiters lock = .ok waiters →
      replay lock s.output = some (holder, waiters)) ∧
    (s.lockHolder lock = .ok none → s.lockWaiters lock = .ok []) ∧
    (∀ e, s.lockHolder lock = .error e → replay lock s.output = some (none, [])) ∧
    (s.Pending roster config s.processor.current.id lock → s.lockHolder lock = .ok (some s.processor.current.id)) := by
  obtain ⟨linked, replayed, -⟩ := (traced_of_patient obeying).1
  replace replayed := replayed lock
  cases found : s.locks.hands? lock with
  | none =>
      have absent := lockHolder_of_none found
      refine ⟨fun holder waiters held _ => ?_, fun held => ?_, fun _ _ => ?_, fun pending => ?_⟩
      · cases absent.symm.trans held
      · cases absent.symm.trans held
      · rw [replayed, handsOf, found]
        rfl
      · -- nobody has a claim on a lock that there is not
        have met := (traced_of_pending pending).1.met _ lock ⟨rfl, rfl⟩
        rw [handsOf, found] at met
        rcases met with held | waits
        · cases held
        · cases waits
  | some hands =>
      obtain ⟨holder, waiters⟩ := hands
      have hands := handsOf_of_hands? found
      obtain ⟨heldBy, line⟩ := lockHolder_of_hands? found
      obtain ⟨holder?, waitersOf⟩ := holder?_of_hands? found
      refine ⟨fun holder' waiters' held waits => ?_, fun held => ?_, fun e failed => ?_, fun pending => ?_⟩
      · cases heldBy.symm.trans held
        cases line.symm.trans waits
        rw [replayed, hands]
      · cases heldBy.symm.trans held
        rw [line, ← waitersOf, linked.free lock holder?]
      · cases heldBy.symm.trans failed
      · obtain ⟨traced, awake⟩ := traced_of_pending pending
        have met := traced.met _ lock ⟨rfl, rfl⟩
        rw [hands] at met
        have holds : holder = some s.processor.current.id := by
          refine met.resolve_right fun waits => ?_
          exact traced.linked.not_mem_waitersOf awake lock (waitersOf ▸ waits)
        rw [heldBy, holds]

def rivals : Option Scheduler :=
  openedUnder Patient [.interrupts ⟨false, 1⟩, .call .createLock, .call (.acquire ⟨1⟩),
    .call (.wake ⟨⟨2⟩, "worker", .ordinary⟩), .call .yield]

/-- The worker is told to wait, and then main releases the lock and gives way. -/
def reconciled : Option Scheduler :=
  (rivals.bind (·.after (Action.acquire ⟨1⟩))).bind fun (_, s) =>
    playWhile (fun s input => s.processor.current.id ≠ ⟨2⟩ ∧ Open .workers s input ∧ s.Patient input)
      [.call (.release ⟨1⟩), .call .yield] s

theorem locks_replay_reconciled :
    ∃ s, reconciled = some s ∧ s.processor.current.id = ⟨2⟩ ∧ s.lockHolder ⟨1⟩ = .ok (some ⟨2⟩) ∧
      s.lockWaiters ⟨1⟩ = .ok [] ∧ replay ⟨1⟩ s.output = some (some ⟨2⟩, []) ∧
      s.output.filterMap (·.happened? ⟨1⟩) =
        [(.acquired, .main), (.wait, ⟨2⟩), (.released, .main), (.acquired, ⟨2⟩)] := by
  have reached : rivals = some (rivals.get (by decide)) := (Option.some_get _).symm
  let s := reconciled.get (by decide +kernel)
  have settled : reconciled = some s := (Option.some_get _).symm
  have runs : s.processor.current.id = ⟨2⟩ := by decide +kernel
  have told : ((rivals.get (by decide)).after (Action.acquire ⟨1⟩)).map Prod.fst = some (.blocked .main) := by decide +kernel
  obtain ⟨⟨outcome, s₁⟩, asked, played⟩ := Option.bind_eq_some_iff.mp settled
  rw [reached, Option.bind_some] at asked
  rw [asked] at told
  cases told
  have pending : s.Pending .workers {} ⟨2⟩ ⟨1⟩ :=
    (Pending.blocked (obeying_openedUnder reached) (by decide) (by decide) (after_eq_some.mp asked)).play played
  obtain ⟨replayed, -, -, holds⟩ := locks_replay pending.obeying ⟨1⟩
  have held := holds (runs ▸ pending)
  rw [runs] at held
  have line : s.lockWaiters ⟨1⟩ = .ok [] := by decide +kernel
  exact ⟨s, settled, runs, held, line, replayed _ _ held line, by decide +kernel⟩

end Scheduler

end PriorityScheduler
