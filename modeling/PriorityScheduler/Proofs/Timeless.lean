import PriorityScheduler.Proofs.Abreast
import PriorityScheduler.Proofs.Locks.Effects
import PriorityScheduler.Proofs.Overflow
import PriorityScheduler.Queue.Wait

/-!
# Threads without their times

A registry of threads is made `timeless` by dropping every time in it and the aging interval: of the accounts it is left
whether the thread has arrived, of the aging carries nothing. Locks and queues do the same with a timeless registry as with
the registry itself, as long as nobody ages.

Main statements: `acquire_timeless`, `release_timeless` and `exists_next`.
-/

namespace PriorityScheduler

/-! ## Dropping times -/

def Config.timeless (config : Config) : Config := { config with agingInterval := 0 }

def ThreadState.timeless (s : ThreadState) : ThreadState :=
  { s with accounts := { arrival := s.accounts.arrival.map fun _ => 0 }, runDrift := {}, waitDrift := {} }

def Change.timeless (c : Change) : Change := ⟨c.state.timeless, c.changed⟩

namespace ThreadRegistry

def timeless (t : ThreadRegistry) : ThreadRegistry := ⟨t.config.timeless, t.states.mapValues ThreadState.timeless⟩

theorem get?_timeless (t : ThreadRegistry) (id : ThreadId) : t.timeless.get? id = (t.get? id).map ThreadState.timeless :=
  t.states.get?_mapValues _ id

@[simp] theorem effective_timeless (t : ThreadRegistry) : t.timeless.effective = t.effective := by
  funext id
  rw [effective, effective, get?_timeless]
  cases t.get? id <;> rfl

@[simp] theorem blockedOn?_timeless (t : ThreadRegistry) (id : ThreadId) : t.timeless.blockedOn? id = t.blockedOn? id := by
  rw [blockedOn?, blockedOn?, get?_timeless, Option.bind_map]
  rfl

theorem put_timeless (t : ThreadRegistry) (id : ThreadId) (s : ThreadState) :
    (t.put id s).timeless = t.timeless.put id s.timeless := by
  refine ext rfl fun j => ?_
  rw [get?_timeless, get?_put, get?_put, get?_timeless]
  split <;> rfl

theorem modify_timeless (t : ThreadRegistry) (id : ThreadId) {f : ThreadState → ThreadState}
    (commutes : ∀ s, (f s).timeless = f s.timeless) : (t.modify id f).timeless = t.timeless.modify id f := by
  refine ext rfl fun j => ?_
  rw [get?_timeless, get?_modify, get?_modify, get?_timeless, get?_timeless]
  split
  · simp only [Option.map_map]
    exact congrArg (Option.map · (t.get? id)) (funext commutes)
  · rfl

theorem remove_timeless (t : ThreadRegistry) (id : ThreadId) : (t.remove id).timeless = t.timeless.remove id := by
  refine ext rfl fun j => ?_
  rw [get?_timeless, get?_remove, get?_remove, get?_timeless]
  split <;> rfl

theorem ensure_timeless (t : ThreadRegistry) (thread : Thread) :
    t.timeless.ensure thread =
      ⟨((t.ensure thread).value.1.timeless, (t.ensure thread).value.2.timeless), (t.ensure thread).notices⟩ := by
  unfold ensure
  rw [get?_timeless]
  cases t.get? thread.id with
  | some s => rfl
  | none =>
      simp only [Option.map_none]
      rw [put_timeless]
      rfl

end ThreadRegistry

namespace ThreadState

variable {s s' : ThreadState}

theorem congr_timeless {α : Type} (f : ThreadState → α) (shown : ∀ s, f s.timeless = f s) (same : s'.timeless = s.timeless) :
    f s' = f s := by
  rw [← shown s', same, shown s]

theorem base_of_timeless (same : s'.timeless = s.timeless) : s'.base = s.base := congr_timeless base (fun _ => rfl) same

end ThreadState

theorem ThreadState.setPriority_timeless (s : ThreadState) (config : Config) (p : Priority) :
    s.timeless.setPriority config.timeless p = (s.setPriority config p).map Change.timeless := by
  have inside : config.timeless.inRange p = config.inRange p := rfl
  unfold setPriority
  rw [inside]
  split <;> rfl

/-! ## Locks -/

namespace LockRegistry

theorem bestWaiter_timeless (a : ThreadRegistry) (waiters : List ThreadId) :
    bestWaiter a.timeless waiters = bestWaiter a waiters := by
  induction waiters with
  | nil => rfl
  | cons w rest ih => rw [bestWaiter, bestWaiter, ih, ThreadRegistry.effective_timeless]

theorem refresh_timeless (t : LockRegistry) (lock : LockId) (a : ThreadRegistry) :
    t.refresh lock a.timeless = t.refresh lock a := by
  simp only [refresh, bestWaiter_timeless]

theorem refreshThread_timeless (t : LockRegistry) (thread : ThreadId) (a : ThreadRegistry) :
    t.refreshThread thread a.timeless =
      ⟨(t.refreshThread thread a).threads.timeless, (t.refreshThread thread a).changed⟩ := by
  unfold refreshThread
  rw [ThreadRegistry.get?_timeless]
  cases a.get? thread with
  | none => rfl
  | some s =>
      simp only [Option.map_some]
      rw [ThreadRegistry.put_timeless]
      rfl

end LockRegistry

namespace Walk

def timeless (w : Walk) : Walk := { w with threads := w.threads.timeless }

theorem visitLock_timeless (w : Walk) (lock : LockId) : w.timeless.visitLock lock = (w.visitLock lock).timeless := by
  simp only [visitLock, timeless, LockRegistry.refresh_timeless]

theorem visitThread_timeless (w : Walk) (id : ThreadId) : w.timeless.visitThread id = (w.visitThread id).timeless := by
  simp only [visitThread, timeless, LockRegistry.refreshThread_timeless]

theorem moves_timeless (w : Walk) (id : ThreadId) : w.timeless.moves id = w.moves id := by
  simp only [moves, timeless, LockRegistry.refreshThread_timeless]

theorem mark_timeless (w : Walk) (id : ThreadId) : w.timeless.mark id = (w.mark id).timeless := by
  unfold mark
  rw [apply_ite timeless]
  rfl

theorem report_timeless (w : Walk) (lock : LockId) (holder : ThreadId) :
    w.timeless.report lock holder = (w.report lock holder).timeless := by
  have same : w.timeless.threads.effective holder = w.threads.effective holder :=
    congrFun w.threads.effective_timeless holder
  rw [report, report, same, ← mark_timeless]
  rfl

theorem hop_timeless (start lock : LockId) (hops : Nat) (w : Walk) :
    hop start hops lock w.timeless = (hop start hops lock w).timeless := by
  induction hops generalizing lock w with
  | zero => rfl
  | succ hops ih =>
      have waits (v : Walk) (id : ThreadId) : v.timeless.threads.blockedOn? id = v.threads.blockedOn? id :=
        v.threads.blockedOn?_timeless id
      have holds (v : Walk) : v.timeless.locks.holder? lock = v.locks.holder? lock := rfl
      rw [hop_succ, hop_succ]
      simp only [visitLock_timeless, visitThread_timeless, moves_timeless, report_timeless, waits, holds, ih]
      repeat' split
      all_goals rfl

theorem propagate_timeless (w : Walk) (lock : LockId) : w.timeless.propagate lock = (w.propagate lock).timeless :=
  hop_timeless lock lock _ w

theorem settle_timeless (w : Walk) (id : ThreadId) : w.timeless.settle id = (w.settle id).timeless := by
  have waits (v : Walk) : v.timeless.threads.blockedOn? id = v.threads.blockedOn? id := v.threads.blockedOn?_timeless id
  rw [settle_eq, settle_eq]
  simp only [visitThread_timeless, moves_timeless, waits]
  repeat' split
  · exact propagate_timeless { w.visitThread id with changed := w.changed ++ [id] } _
  all_goals rfl

theorem settleNext_timeless (w : Walk) (next : Option ThreadId) :
    w.timeless.settleNext next = (w.settleNext next).timeless := by
  cases next with
  | none => rfl
  | some id => exact settle_timeless w id

theorem start_timeless (t : LockRegistry) (a : ThreadRegistry) : start t a.timeless = (start t a).timeless := rfl

theorem propagated_timeless (on : Bool) (w : Walk) (lock : LockId) :
    (if on then w.timeless.propagate lock else w.timeless) = (if on then w.propagate lock else w).timeless := by
  rw [propagate_timeless]
  exact (apply_ite timeless (on = true) _ _).symm

end Walk

namespace ThreadState

theorem addHeld_timeless (s : ThreadState) (lock : LockId) : (s.addHeld lock).timeless = s.timeless.addHeld lock :=
  apply_ite timeless (lock ∈ s.held) _ _

theorem inherit_timeless (s : ThreadState) (donation : Bool) (lock : LockId) :
    (s.inherit donation lock).timeless = s.timeless.inherit donation lock := by
  cases donation with
  | false => rfl
  | true => exact addHeld_timeless { s with blockedOn := none } lock

end ThreadState

namespace LockRegistry

variable {t : LockRegistry} {a b : ThreadRegistry} {lock : LockId} {thread : ThreadId}

theorem taken_timeless (t : LockRegistry) (thread : ThreadId) (a : ThreadRegistry) :
    t.taken thread a.timeless = (t.taken thread a).timeless := by
  rw [taken, Walk.start_timeless, Walk.visitThread_timeless, Walk.moves_timeless]
  rfl

theorem acquire_timeless (t : LockRegistry) (lock : LockId) (thread : ThreadId) (a : ThreadRegistry) :
    t.acquire lock thread a.timeless =
      (t.acquire lock thread a).map fun r => (r.1, r.2.timeless) := by
  cases found : t.get? lock with
  | none =>
      simp only [acquire, found]
      rfl
  | some l =>
      cases holder : l.holder with
      | none =>
          rw [acquire_vacant found holder, acquire_vacant found holder,
            ← a.modify_timeless thread fun s => s.addHeld_timeless lock]
          cases on : t.donation with
          | false => rfl
          | true => exact congrArg (fun w => Except.ok (LockOutcome.acquired, w)) (taken_timeless _ thread _)
      | some h =>
          by_cases same : h = thread
          · simp only [acquire, found, holder, same, if_true]
            rfl
          · rw [acquire_held found holder same, acquire_held found holder same,
              ← a.modify_timeless thread (f := fun s => { s with blockedOn := some lock }) fun _ => rfl]
            exact congrArg (fun w => Except.ok (LockOutcome.blocked h, w)) (Walk.propagated_timeless _ (.start _ _) lock)

theorem passOn_timeless (a : ThreadRegistry) (donation : Bool) (lock : LockId) (thread : ThreadId)
    (next : Option ThreadId) :
    a.timeless.passOn donation lock thread next = (a.passOn donation lock thread next).timeless := by
  have given := a.modify_timeless thread (f := (·.removeHeld lock)) fun _ => rfl
  cases next with
  | none => exact given.symm
  | some id =>
      rw [ThreadRegistry.passOn, ← given]
      exact (ThreadRegistry.modify_timeless _ id fun s => s.inherit_timeless donation lock).symm

theorem release_timeless (t : LockRegistry) (lock : LockId) (thread : ThreadId) (a : ThreadRegistry) :
    t.release lock thread a.timeless = (t.release lock thread a).map fun r => (r.1, r.2.timeless) := by
  cases found : t.get? lock with
  | none =>
      simp only [release, found]
      rfl
  | some l =>
      by_cases holder : l.holder = some thread
      · rw [release_held found holder, release_held found holder, passOn_timeless]
        simp only [Walk.start_timeless, Walk.visitLock_timeless, Walk.settle_timeless, Walk.settleNext_timeless]
        exact congrArg (fun w => Except.ok (l.waiters.head?, w)) (apply_ite Walk.timeless (t.donation = true) _ _).symm
      · simp only [release, found, if_neg holder]
        rfl

theorem priorityChanged_timeless (t : LockRegistry) (thread : ThreadId) (a : ThreadRegistry) :
    t.priorityChanged thread a.timeless = (t.priorityChanged thread a).timeless := by
  rw [priorityChanged_eq, priorityChanged_eq, ThreadRegistry.blockedOn?_timeless]
  repeat' split
  · exact Walk.propagate_timeless (.start t a) _
  all_goals rfl

theorem withdraw_timeless (t : LockRegistry) (thread : ThreadId) (a : ThreadRegistry) :
    t.withdraw thread a.timeless = (t.withdraw thread a).timeless := by
  have same := a.blockedOn?_timeless thread
  cases waits : a.blockedOn? thread with
  | none =>
      rw [withdraw_awake waits, withdraw_awake (same.trans waits)]
      rfl
  | some lock =>
      have awoken := a.modify_timeless thread (f := fun s => { s with blockedOn := none }) fun _ => rfl
      cases found : t.get? lock with
      | none =>
          rw [withdraw_missing found waits, withdraw_missing found (same.trans waits), ← awoken]
          exact Walk.propagated_timeless _ (.start _ _) lock
      | some l =>
          rw [withdraw_waiting found waits, withdraw_waiting found (same.trans waits), ← awoken]
          exact Walk.propagated_timeless _ (.start _ _) lock

end LockRegistry

/-! ## Queues -/

section Queues

variable (a : ThreadRegistry) (id : ThreadId)

theorem RankedQueue.reposition_timeless (q : RankedQueue) : q.reposition id a.timeless = q.reposition id a := by
  simp only [reposition, ThreadRegistry.effective_timeless]

theorem RankedQueue.enqueue_timeless (q : RankedQueue) : q.enqueue id a.timeless = q.enqueue id a := by
  simp only [enqueue, reposition_timeless, ThreadRegistry.effective_timeless]

theorem BandedQueue.target_timeless (q : BandedQueue) : q.target a.timeless id = q.target a id := by
  simp only [target, ThreadRegistry.effective_timeless]

theorem BandedQueue.reposition_timeless (q : BandedQueue) : q.reposition id a.timeless = q.reposition id a := by
  simp only [reposition, target_timeless]

theorem BandedQueue.enqueue_timeless (q : BandedQueue) : q.enqueue id a.timeless = q.enqueue id a := by
  simp only [enqueue, reposition_timeless, target_timeless]

theorem Discipline.reposition_timeless (d : Discipline) : d.reposition id a.timeless = d.reposition id a := by
  cases d with
  | strict q => exact congrArg strict (q.reposition_timeless a id)
  | aging q => exact congrArg aging (q.reposition_timeless a id)
  | banded q => exact congrArg banded (q.reposition_timeless a id)

theorem Discipline.enqueue_timeless (d : Discipline) : d.enqueue id a.timeless = d.enqueue id a := by
  cases d with
  | strict q => exact congrArg strict (q.enqueue_timeless a id)
  | aging q => exact congrArg aging (q.enqueue_timeless a id)
  | banded q => exact congrArg banded (q.enqueue_timeless a id)

theorem WaitQueue.reposition_timeless (q : WaitQueue) : q.reposition id a.timeless = q.reposition id a := by
  simp only [reposition, Discipline.reposition_timeless]

theorem WaitQueue.unlink_timeless : unlink a.timeless id = (unlink a id).timeless :=
  (a.modify_timeless id (f := fun s => { s with queuedOn := none }) fun _ => rfl).symm

theorem WaitQueue.remove_timeless (q : WaitQueue) :
    q.remove id a.timeless = ((q.remove id a).1, (q.remove id a).2.1, (q.remove id a).2.2.timeless) := by
  simp only [remove, unlink_timeless]
  split <;> split <;> rfl

end Queues

/-! ## Nobody ages -/

theorem ThreadState.ages_zero (s : ThreadState) : s.ages 0 = false := rfl

namespace ThreadRegistry

variable {t : ThreadRegistry}

theorem ageRunning_still (still : t.config.agingStep = 0) (id : ThreadId) (now : Ticks) :
    t.ageRunning id now = .ok ⟨⟨t, false⟩, []⟩ := by
  unfold ageRunning
  cases found : t.get? id with
  | none => rfl
  | some s =>
      simp only [still, ThreadState.ageRunning, s.ages_zero, Bool.not_false, if_true]
      show Except.ok (⟨⟨t.put id s, false⟩, []⟩ : Noted Update) = _
      rw [put_self found]

theorem ageWaiting_still (still : t.config.agingStep = 0) (id : ThreadId) (now : Ticks) :
    t.ageWaiting id now = .ok ⟨⟨t, false⟩, []⟩ := by
  unfold ageWaiting
  cases found : t.get? id with
  | none => rfl
  | some s =>
      simp only [still, ThreadState.ageWaiting, s.ages_zero, Bool.not_false, if_true]
      show Except.ok (⟨⟨t.put id s, false⟩, []⟩ : Noted Update) = _
      rw [put_self found]

theorem ageAll_still (still : t.config.agingStep = 0) (now : Ticks) (ids : List ThreadId) :
    ageAll now ids t = .ok ⟨⟨t, false⟩, []⟩ := by
  induction ids with
  | nil => rfl
  | cons id rest ih =>
      rw [ageAll, ageWaiting_still still]
      show ageAll now rest t >>= _ = _
      rw [ih]
      rfl

end ThreadRegistry

theorem Discipline.exists_select (d : Discipline) :
    ∃ next d', ∀ (a : ThreadRegistry) (now : Ticks), a.config.agingStep = 0 → d.select a now = .ok ⟨⟨next, d', a⟩, []⟩ := by
  cases d with
  | strict q => exact ⟨_, _, fun _ _ _ => rfl⟩
  | aging q =>
      refine ⟨q.popFirst.1, .aging q.popFirst.2, fun a now still => ?_⟩
      rw [select, RankedQueue.selectAged, ThreadRegistry.ageAll_still still]
      rfl
  | banded q =>
      refine ⟨q.popFirst.1, .banded q.popFirst.2, fun a now still => ?_⟩
      rw [select, BandedQueue.selectAged, ThreadRegistry.ageAll_still still]
      rfl

theorem WaitQueue.exists_next (q : WaitQueue) :
    ∃ next q', ∀ (a : ThreadRegistry) (now : Ticks), a.config.agingStep = 0 →
      q.next a now = .ok ⟨⟨next, q', next.elim a (unlink a)⟩, []⟩ := by
  obtain ⟨selected, d, selects⟩ := q.discipline.exists_select
  -- main is handed out only if the discipline has nobody
  let picked : Option ThreadId × WaitQueue :=
    match selected with
    | some id => (some id, { q with discipline := d })
    | none =>
        if q.mainWaiting then (some .main, { q with discipline := d, mainWaiting := false })
        else (none, { q with discipline := d })
  refine ⟨picked.1, if q.transfer then { picked.2 with owner := picked.1 } else picked.2, fun a now still => ?_⟩
  rw [next, selects a now still]
  cases selected with
  | some id => rfl
  | none =>
      simp only [picked]
      cases q.mainWaiting <;> rfl

/-! ## Accounts -/

theorem Statistics.finished_countUnarrived {stats stats' : Statistics} (done : stats.countUnarrived = .ok stats') :
    stats'.finished = stats.finished + 1 := by
  obtain ⟨finished, added, made⟩ := bind_eq_ok.mp done
  cases made
  exact (Ticks.add_eq_ok.mp added).1.symm

theorem Statistics.finished_countFinished {stats stats' : Statistics} {wait turnaround : Ticks}
    (done : stats.countFinished wait turnaround = .ok stats') : stats'.finished = stats.finished + 1 := by
  obtain ⟨finished, added, rest⟩ := bind_eq_ok.mp done
  obtain ⟨totalWait, -, rest⟩ := bind_eq_ok.mp rest
  obtain ⟨totalTurnaround, -, made⟩ := bind_eq_ok.mp rest
  cases made
  exact (Ticks.add_eq_ok.mp added).1.symm

theorem Statistics.finished_report {stats : Statistics} {report : Report} (done : stats.report = .ok report) :
    report.finished = stats.finished := by
  obtain ⟨meanWait, -, rest⟩ := bind_eq_ok.mp done
  obtain ⟨meanTurnaround, -, made⟩ := bind_eq_ok.mp rest
  cases made
  rfl

namespace ThreadState

variable {s s' : ThreadState} {now : Ticks}

theorem timeless_enqueued (done : s.enqueued now = .ok s') :
    s'.timeless = { s with accounts := { arrival := some 0 } }.timeless := by
  obtain ⟨accounts, enqueued, made⟩ := bind_eq_ok.mp done
  cases made
  have arrived : accounts.arrival.map (fun _ => 0) = some 0 := by
    unfold Accounts.enqueued at enqueued
    split at enqueued
    · cases enqueued
      rfl
    · rename_i arrival _
      split at enqueued
      · obtain ⟨run, -, made⟩ := bind_eq_ok.mp enqueued
        cases made
        simp only [arrival, Option.map_some]
      · cases enqueued
        simp only [arrival, Option.map_some]
    · rename_i arrival _
      cases enqueued
      simp only [arrival, Option.map_some]
  simp only [timeless, arrived, Option.map_some]

theorem timeless_scheduled (done : s.scheduled now = .ok s') : s'.timeless = s.timeless := by
  obtain ⟨accounts, scheduled, made⟩ := bind_eq_ok.mp done
  cases made
  have arrival : accounts.arrival = s.accounts.arrival := by
    unfold Accounts.scheduled at scheduled
    split at scheduled
    · split at scheduled
      · obtain ⟨wait, -, made⟩ := bind_eq_ok.mp scheduled
        cases made
        rfl
      · cases scheduled
        rfl
    · cases scheduled
      rfl
  simp only [timeless, arrival]

theorem finished_timeless {stats stats' : Statistics} {record : Option Lifetime}
    (done : s.finished now stats = .ok (record, stats')) :
    record.isSome = (!s.thread.isExempt && s.accounts.arrival.isSome) ∧
      stats'.finished = stats.finished + if s.thread.isExempt then 0 else 1 := by
  unfold finished at done
  split at done
  · rename_i exempt
    cases done
    simp [exempt]
  · rename_i ordinary
    cases arrival : s.accounts.arrival with
    | none =>
        simp only [arrival] at done
        obtain ⟨counted, counts, made⟩ := bind_eq_ok.mp done
        cases made
        simp [ordinary, Statistics.finished_countUnarrived counts]
    | some first =>
        simp only [arrival] at done
        obtain ⟨counted, counts, rest⟩ := bind_eq_ok.mp done
        obtain ⟨record, -, made⟩ := bind_eq_ok.mp rest
        cases made
        simp [ordinary, Statistics.finished_countFinished counts]

end ThreadState

/-! ## Registries in step -/

theorem Abreast.of_overflows {α β : Type} {related : α → β → Prop} {x : Except Fault α} {y : Except Fault β}
    (overflows : Overflows x) (overflows' : Overflows y) (relate : ∀ a b, x = .ok a → y = .ok b → related a b) :
    Abreast (· = .sumTooLarge) related x y := by
  cases x with
  | error f => exact .left (overflows f rfl)
  | ok a =>
      cases y with
      | error f => exact .right (overflows' f rfl)
      | ok b => exact .ok (relate a b rfl rfl)

structure ThreadRegistry.InStep (a b : ThreadRegistry) : Prop where
  strict : a.config.policy = .strict
  timeless : b.timeless = a.timeless

structure Walk.InStep (w u : Walk) : Prop where
  locks : u.locks = w.locks
  threads : w.threads.InStep u.threads
  changed : u.changed = w.changed
  notices : u.notices = w.notices

namespace ThreadRegistry.InStep

variable {a b : ThreadRegistry} {id : ThreadId} {s s' : ThreadState} {excused : Failure → Prop}

theorem config (inStep : a.InStep b) : b.config.timeless = a.config.timeless :=
  congrArg ThreadRegistry.config inStep.timeless

theorem exists_interval (inStep : a.InStep b) : ∃ interval, b.config = { a.config with agingInterval := interval } := by
  refine ⟨b.config.agingInterval, ?_⟩
  calc b.config
    _ = { b.config.timeless with agingInterval := b.config.agingInterval } := rfl
    _ = { a.config.timeless with agingInterval := b.config.agingInterval } := by rw [inStep.config]
    _ = { a.config with agingInterval := b.config.agingInterval } := rfl

theorem still (inStep : a.InStep b) : a.config.agingStep = 0 ∧ b.config.agingStep = 0 := by
  have strict : b.config.policy = .strict := (congrArg Config.policy inStep.config).trans inStep.strict
  unfold Config.agingStep
  rw [inStep.strict, strict]
  exact ⟨rfl, rfl⟩

theorem get? (inStep : a.InStep b) (id : ThreadId) :
    (b.get? id).map ThreadState.timeless = (a.get? id).map ThreadState.timeless := by
  rw [← get?_timeless, inStep.timeless, get?_timeless]

theorem map {α : Type} (inStep : a.InStep b) (f : ThreadState → α) (shown : ∀ s, f s.timeless = f s) (id : ThreadId) :
    (b.get? id).map f = (a.get? id).map f := by
  have mapped := congrArg (Option.map f) (inStep.get? id)
  simpa only [Option.map_map, Function.comp_def, shown] using mapped

theorem bind {α : Type} (inStep : a.InStep b) (f : ThreadState → Option α) (shown : ∀ s, f s.timeless = f s)
    (id : ThreadId) : (b.get? id).bind f = (a.get? id).bind f := by
  have bound := congrArg (Option.bind · f) (inStep.get? id)
  simpa only [Option.bind_map, Function.comp_def, shown] using bound

theorem exists_timeless (inStep : a.InStep b) (found : a.get? id = some s) :
    ∃ s', b.get? id = some s' ∧ s'.timeless = s.timeless := by
  have mapped := inStep.get? id
  rwa [found, Option.map_some, Option.map_eq_some_iff] at mapped

theorem missing (inStep : a.InStep b) (absent : a.get? id = none) : b.get? id = none := by
  have mapped := inStep.get? id
  rwa [absent, Option.map_none, Option.map_eq_none_iff] at mapped

theorem effective (inStep : a.InStep b) : b.effective = a.effective := by
  rw [← b.effective_timeless, inStep.timeless, a.effective_timeless]

theorem put (inStep : a.InStep b) (id : ThreadId) (same : s'.timeless = s.timeless) :
    (a.put id s).InStep (b.put id s') :=
  ⟨inStep.strict, by rw [put_timeless, put_timeless, inStep.timeless, same]⟩

theorem remove (inStep : a.InStep b) (id : ThreadId) : (a.remove id).InStep (b.remove id) :=
  ⟨inStep.strict, by rw [remove_timeless, remove_timeless, inStep.timeless]⟩

theorem unlink (inStep : a.InStep b) (id : ThreadId) : (WaitQueue.unlink a id).InStep (WaitQueue.unlink b id) :=
  ⟨inStep.strict, by rw [← WaitQueue.unlink_timeless, ← WaitQueue.unlink_timeless, inStep.timeless]⟩

theorem ensure (inStep : a.InStep b) (thread : Thread) :
    (b.ensure thread).value.1.timeless = (a.ensure thread).value.1.timeless ∧
      (a.ensure thread).value.2.InStep (b.ensure thread).value.2 ∧
      (b.ensure thread).notices = (a.ensure thread).notices := by
  have same := b.ensure_timeless thread
  rw [inStep.timeless, a.ensure_timeless, Noted.mk.injEq, Prod.mk.injEq] at same
  refine ⟨same.1.1.symm, ⟨?_, same.1.2.symm⟩, same.2.symm⟩
  rw [config_ensure]
  exact inStep.strict

/-! ### Locks -/

theorem walk {w u : Walk} (inStep : a.InStep b) (config : w.threads.config = a.config) (same : u.timeless = w.timeless) :
    w.InStep u := by
  obtain ⟨locks, threads, changed, notices⟩ := w
  simp only [Walk.timeless, Walk.mk.injEq] at same
  exact ⟨same.1, ⟨(congrArg Config.policy config).trans inStep.strict, same.2.1⟩, same.2.2.1, same.2.2.2⟩

theorem acquire (inStep : a.InStep b) (t : LockRegistry) (lock : LockId) (thread : ThreadId) :
    Abreast excused (fun x y => y.1 = x.1 ∧ x.2.InStep y.2) (t.acquire lock thread a) (t.acquire lock thread b) := by
  have same := t.acquire_timeless lock thread b
  rw [inStep.timeless, t.acquire_timeless] at same
  refine .of_map same.symm fun x y done _ equal => ?_
  obtain ⟨outcome, w⟩ := x
  obtain ⟨answer, walk⟩ := Prod.mk.inj equal
  exact ⟨answer, inStep.walk (effect_acquire done).kin.config walk⟩

theorem release (inStep : a.InStep b) (t : LockRegistry) (lock : LockId) (thread : ThreadId) :
    Abreast excused (fun x y => y.1 = x.1 ∧ x.2.InStep y.2) (t.release lock thread a) (t.release lock thread b) := by
  have same := t.release_timeless lock thread b
  rw [inStep.timeless, t.release_timeless] at same
  refine .of_map same.symm fun x y done _ equal => ?_
  obtain ⟨next, w⟩ := x
  obtain ⟨answer, walk⟩ := Prod.mk.inj equal
  exact ⟨answer, inStep.walk (effect_release done).kin.config walk⟩

theorem priorityChanged (inStep : a.InStep b) (t : LockRegistry) (thread : ThreadId) :
    (t.priorityChanged thread a).InStep (t.priorityChanged thread b) := by
  refine inStep.walk (onward_priorityChanged t thread a).threads.config ?_
  rw [← t.priorityChanged_timeless, ← t.priorityChanged_timeless, inStep.timeless]

theorem withdraw (inStep : a.InStep b) (t : LockRegistry) (thread : ThreadId) :
    (t.withdraw thread a).InStep (t.withdraw thread b) := by
  refine inStep.walk (effect_withdraw t thread a).kin.config ?_
  rw [← t.withdraw_timeless, ← t.withdraw_timeless, inStep.timeless]

/-! ### Queues -/

theorem lineUp (inStep : a.InStep b) (d : Discipline) (id : ThreadId) : d.enqueue id b = d.enqueue id a := by
  rw [← d.enqueue_timeless b, inStep.timeless, d.enqueue_timeless a]

theorem reposition (inStep : a.InStep b) (q : WaitQueue) (id : ThreadId) : q.reposition id b = q.reposition id a := by
  rw [← q.reposition_timeless b, inStep.timeless, q.reposition_timeless a]

theorem leave (inStep : a.InStep b) (q : WaitQueue) (id : ThreadId) :
    (q.remove id b).2.1 = (q.remove id a).2.1 ∧ (q.remove id a).2.2.InStep (q.remove id b).2.2 := by
  have same := q.remove_timeless b id
  rw [inStep.timeless, q.remove_timeless a] at same
  obtain ⟨-, rest⟩ := Prod.mk.inj same
  obtain ⟨queue, threads⟩ := Prod.mk.inj rest
  have config : (q.remove id a).2.2.config = a.config := by
    simp only [WaitQueue.remove]
    split <;> split <;> rfl
  exact ⟨queue.symm, (congrArg Config.policy config).trans inStep.strict, threads.symm⟩

theorem enqueue (inStep : a.InStep b) (q : WaitQueue) (thread : Thread) (now later : Ticks) :
    Abreast (· = .sumTooLarge)
      (fun x y => y.value.1 = x.value.1 ∧ x.value.2.InStep y.value.2 ∧ y.notices = x.notices)
      (q.enqueue thread a now) (q.enqueue thread b later) := by
  obtain ⟨state, threads, notices⟩ := inStep.ensure thread
  have base := ThreadState.base_of_timeless state
  obtain ⟨interval, config⟩ := inStep.exists_interval
  have inRange (p : Priority) : b.config.inRange p = a.config.inRange p := by
    rw [config]
    rfl
  unfold WaitQueue.enqueue
  simp only [base, inRange]
  split
  · have admission : Abreast (· = .sumTooLarge) (fun s s' => s'.timeless = s.timeless)
        ((a.ensure thread).value.1.enqueued now) ((b.ensure thread).value.1.enqueued later) := by
      refine .of_overflows (ThreadState.overflows_enqueued _ now) (ThreadState.overflows_enqueued _ later)
        fun s s' done done' => ?_
      rw [ThreadState.timeless_enqueued done, ThreadState.timeless_enqueued done']
      exact congrArg (fun state : ThreadState => { state with accounts := { arrival := some 0 } }) state
    refine admission.bind fun s s' same => ?_
    have seated : { s' with queuedOn := some q.id }.timeless = { s with queuedOn := some q.id }.timeless :=
      congrArg (fun state : ThreadState => { state with queuedOn := some q.id }) same
    have enrolled := threads.put thread.id seated
    refine .ok ⟨?_, enrolled, notices⟩
    simp only [enrolled.lineUp]
  · rw [config]
    exact .error _

theorem next (inStep : a.InStep b) (q : WaitQueue) (now later : Ticks) {excused : Fault → Prop} :
    Abreast excused
      (fun x y => y.value.next = x.value.next ∧ y.value.queue = x.value.queue ∧ x.value.threads.InStep y.value.threads ∧
        y.notices = x.notices)
      (q.next a now) (q.next b later) := by
  obtain ⟨next, q', nexts⟩ := q.exists_next
  rw [nexts a now inStep.still.1, nexts b later inStep.still.2]
  refine .ok ⟨rfl, rfl, ?_, rfl⟩
  cases next with
  | none => exact inStep
  | some id => exact inStep.unlink id

end ThreadRegistry.InStep

end PriorityScheduler
