import PriorityScheduler.Proofs.Locks.Operations

namespace PriorityScheduler

structure LockSystem where
  locks : LockRegistry
  threads : ThreadRegistry

inductive Repricing where
  | set (p : Priority)
  | nearest (p : Priority)
  | running (interval now : Ticks)
  | waiting (interval now : Ticks)
  deriving DecidableEq, Repr, Inhabited

def Repricing.apply (r : Repricing) (s : ThreadState) (config : Config) : Except Fault Change :=
  match r with
  | .set p => s.setPriority config p
  | .nearest p => s.setNearestPriority config p
  | .running interval now => (s.ageRunning interval config now).map (·.value)
  | .waiting interval now => (s.ageWaiting interval config now).map (·.value)

inductive LockOp where
  | create
  | acquire (lock : LockId) (thread : ThreadId)
  | release (lock : LockId) (thread : ThreadId)
  | withdraw (thread : ThreadId)
  | reprice (thread : ThreadId) (r : Repricing)
  deriving DecidableEq, Repr, Inhabited

def Walk.system (w : Walk) : LockSystem := ⟨w.locks, w.threads⟩

namespace LockSystem

structure Fresh (s : LockSystem) : Prop where
  free : ∀ lock l, s.locks.get? lock = some l → l = {}
  numbered : ∀ lock ∈ s.locks.ids, lock.val < s.locks.nextId
  loose : ∀ thread state, s.threads.get? thread = some state →
    state.effective = state.base ∧ state.donation = none ∧ state.held = [] ∧ state.blockedOn = none

def run (s : LockSystem) : LockOp → Except Failure Walk
  | .create => .ok (.start s.locks.create.2 s.threads)
  | .acquire lock thread => (s.locks.acquire lock thread s.threads).map (·.2)
  | .release lock thread => (s.locks.release lock thread s.threads).map (·.2)
  | .withdraw thread => .ok (s.locks.withdraw thread s.threads)
  | .reprice thread r =>
      match s.threads.lookup thread with
      | .error e => .error (.refused e)
      | .ok state =>
          match r.apply state s.threads.config with
          | .error f => .error (.fatal f)
          | .ok change => .ok (s.locks.reprice thread change s.threads)

/-- Only a thread that waits nowhere takes a lock, one that it does not hold, and only a holder gives one up. -/
def Admits (s : LockSystem) : LockOp → Prop
  | .acquire lock thread =>
      (s.threads.get? thread).isSome ∧ s.threads.blockedOn? thread = none ∧ s.locks.holder? lock ≠ some thread
  | .release lock thread => s.locks.holder? lock = some thread
  | _ => True

instance (s : LockSystem) (op : LockOp) : Decidable (s.Admits op) :=
  match op with
  | .create => isTrue trivial
  | .acquire _ _ => inferInstanceAs (Decidable (_ ∧ _ ∧ _))
  | .release _ _ => inferInstanceAs (Decidable (_ = _))
  | .withdraw _ => isTrue trivial
  | .reprice _ _ => isTrue trivial

inductive Reachable : LockSystem → Prop where
  | start {s : LockSystem} (fresh : s.Fresh) : Reachable s
  | step {s : LockSystem} {op : LockOp} {w : Walk} (reachable : Reachable s) (admitted : s.Admits op)
      (done : s.run op = .ok w) : Reachable w.system

def play : List LockOp → LockSystem → Option LockSystem
  | [], s => some s
  | op :: rest, s =>
      if s.Admits op then
        match s.run op with
        | .ok w => play rest w.system
        | .error _ => none
      else none

variable {s : LockSystem}

theorem reachable_play {ops : List LockOp} {s' : LockSystem} (reachable : s.Reachable)
    (played : s.play ops = some s') : s'.Reachable := by
  induction ops generalizing s with
  | nil =>
      cases played
      exact reachable
  | cons op rest ih =>
      rw [play] at played
      split at played
      · rename_i admitted
        cases done : s.run op with
        | error f => simp [done] at played
        | ok w =>
            rw [done] at played
            exact ih (reachable.step admitted done) played
      · cases played

def staffed (config : Config) : List (Thread × Priority) → LockSystem
  | [] => ⟨{ donation := config.donation }, { config }⟩
  | (thread, p) :: rest =>
      let s := staffed config rest
      { s with threads := s.threads.put thread.id (.new thread p) }

theorem fresh_staffed (config : Config) (staff : List (Thread × Priority)) : (staffed config staff).Fresh := by
  induction staff with
  | nil =>
      refine ⟨fun lock l found => ?_, fun lock member => ?_, fun thread state found => ?_⟩
      · cases (SortedMap.get?_empty lock).symm.trans found
      · cases member
      · cases (SortedMap.get?_empty thread).symm.trans found
  | cons head rest ih =>
      refine ⟨ih.free, ih.numbered, fun thread state found => ?_⟩
      rw [staffed, ThreadRegistry.get?_put] at found
      split at found
      · cases found
        exact ⟨rfl, rfl, rfl, rfl⟩
      · exact ih.loose thread state found

theorem repriced_apply {r : Repricing} {state : ThreadState} {config : Config} {c : Change}
    (done : r.apply state config = .ok c) : state.Repriced config c := by
  cases r with
  | set p => exact ThreadState.repriced_setPriority done
  | nearest p => exact ThreadState.repriced_setNearestPriority done
  | running interval now =>
      obtain ⟨n, aged, rfl⟩ := map_eq_ok.mp done
      exact ThreadState.repriced_ageRunning aged
  | waiting interval now =>
      obtain ⟨n, aged, rfl⟩ := map_eq_ok.mp done
      exact ThreadState.repriced_ageWaiting aged

theorem run_reprice {thread : ThreadId} {r : Repricing} {w : Walk} (done : s.run (.reprice thread r) = .ok w) :
    ∃ state change, s.threads.get? thread = some state ∧ state.Repriced s.threads.config change ∧
      s.locks.reprice thread change s.threads = w := by
  rw [run, ThreadRegistry.lookup] at done
  cases found : s.threads.get? thread with
  | none => simp [found] at done
  | some state =>
      simp only [found] at done
      cases applied : r.apply state s.threads.config with
      | error f => simp [applied] at done
      | ok change =>
          simp only [applied, Except.ok.injEq] at done
          exact ⟨state, change, rfl, repriced_apply applied, done⟩

theorem sound_fresh (fresh : s.Fresh) : Sound s.locks s.threads := by
  have holder? (lock : LockId) : s.locks.holder? lock = none := by
    cases found : s.locks.get? lock with
    | none => rw [LockRegistry.holder?, found, Option.bind_none]
    | some l => rw [LockRegistry.holder?_of_get? found, fresh.free lock l found]
  have waitersOf (lock : LockId) : s.locks.waitersOf lock = [] := by
    cases found : s.locks.get? lock with
    | none => rw [LockRegistry.waitersOf, found, Option.map_none, Option.getD_none]
    | some l => rw [LockRegistry.waitersOf_of_get? found, fresh.free lock l found]
  have donated? (lock : LockId) : s.locks.donated? lock = none := by
    cases found : s.locks.get? lock with
    | none => rw [LockRegistry.donated?, found, Option.bind_none]
    | some l => rw [LockRegistry.donated?_of_get? found, fresh.free lock l found]
  have blockedOn? (id : ThreadId) : s.threads.blockedOn? id = none := by
    cases found : s.threads.get? id with
    | none => rw [ThreadRegistry.blockedOn?, found, Option.bind_none]
    | some state => rw [ThreadRegistry.blockedOn?_of_get? found, (fresh.loose id state found).2.2.2]
  have heldBy (id : ThreadId) : s.threads.heldBy id = [] := by
    cases found : s.threads.get? id with
    | none => rw [ThreadRegistry.heldBy, found, Option.map_none, Option.getD_none]
    | some state => rw [ThreadRegistry.heldBy_of_get? found, (fresh.loose id state found).2.2.1]
  refine ⟨⟨?_, ?_, ?_, ?_, ?_, ?_, ?_, fresh.numbered⟩, fun _ => ⟨fun lock _ => ?_, fun h state _ found => ?_⟩⟩
  · simp [waitersOf]
  · simp [waitersOf, blockedOn?]
  · simp [waitersOf]
  · simp [holder?]
  · simp [holder?]
  · simp [heldBy, holder?]
  · simp [heldBy]
  · rw [LockRegistry.Settled, donated?, waitersOf]
    rfl
  · obtain ⟨effective, donation, held, -⟩ := fresh.loose h state found
    refine ⟨?_, ?_⟩
    · rw [effective, ThreadState.floor, donation]
    · rw [donation, held]
      rfl

theorem sound_step {op : LockOp} {w : Walk} (sound : Sound s.locks s.threads) (admitted : s.Admits op)
    (done : s.run op = .ok w) : Sound w.locks w.threads := by
  cases op with
  | create =>
      cases done
      exact sound_create sound
  | acquire lock thread =>
      obtain ⟨⟨outcome, w'⟩, acquired, rfl⟩ := map_eq_ok.mp done
      exact sound_acquire sound admitted.1 (.inr admitted.2.1) acquired
  | release lock thread =>
      obtain ⟨⟨next, w'⟩, released, rfl⟩ := map_eq_ok.mp done
      exact sound_release sound released
  | withdraw thread =>
      cases done
      exact sound_withdraw sound thread
  | reprice thread r =>
      obtain ⟨state, change, found, repriced, rfl⟩ := run_reprice done
      exact sound_reprice sound found repriced

theorem sound_of_reachable (reachable : s.Reachable) : Sound s.locks s.threads := by
  induction reachable with
  | start fresh => exact sound_fresh fresh
  | step _ admitted done ih => exact sound_step ih admitted done

theorem effective_eq_foldl {t : LockRegistry} {a : ThreadRegistry} (linked : Linked t a) (on : t.donation = true)
    {thread : ThreadId} {state : ThreadState} (found : a.get? thread = some state) (balanced : t.Balanced state) :
    state.effective = ((t.heldBy thread).filterMap t.donated?).foldl min state.base := by
  apply eq_of_le_iff
  intro x
  rw [balanced.le_iff, le_foldl_min]
  apply and_congr_right
  intro _
  rw [← ThreadRegistry.heldBy_of_get? found, ← below_least, LockRegistry.below_donations]
  apply forall_congr'
  intro lock
  rw [linked.held, t.mem_heldBy, and_iff_right on]

theorem coherent_of_reachable (reachable : s.Reachable) (on : s.locks.donation = true) :
    s.locks.isConsistent s.threads = true ∧
    (∀ lock l, s.locks.get? lock = some l → l.donated = (l.waiters.map s.threads.effective).min?) ∧
    ∀ thread state, s.threads.get? thread = some state →
      state.effective = ((s.locks.heldBy thread).filterMap s.locks.donated?).foldl min state.base := by
  have sound := sound_of_reachable reachable
  have coherent := sound.coherent on
  refine ⟨isConsistent_of_coherent coherent, fun lock l found => ?_, fun thread state found => ?_⟩
  · have settled := coherent.settled lock not_false
    rw [LockRegistry.Settled, LockRegistry.donated?_of_get? found, LockRegistry.waitersOf_of_get? found] at settled
    rw [settled, least_eq_min?]
  · exact effective_eq_foldl sound.linked on found (coherent.balanced thread state not_false found)

/-- Two threads that wait for each other, and a third, more urgent one. -/
def deadlocked : Option LockSystem :=
  (staffed {} [(⟨⟨1⟩, "first", .ordinary⟩, 5), (⟨⟨2⟩, "second", .ordinary⟩, 3), (⟨⟨3⟩, "third", .ordinary⟩, 1)]).play
    [.create, .create, .acquire ⟨1⟩ ⟨1⟩, .acquire ⟨2⟩ ⟨2⟩, .acquire ⟨2⟩ ⟨1⟩, .acquire ⟨1⟩ ⟨2⟩]

/-- The third thread queues up behind the first, and the walk runs around the circle into its bound. -/
theorem coherent_of_reachable_deadlock : ∃ s w, deadlocked = some s ∧ s.run (.acquire ⟨1⟩ ⟨3⟩) = .ok w ∧
    .waitCycle ⟨1⟩ ∈ w.notices ∧ w.locks.isConsistent w.threads = true ∧ w.threads.effective ⟨2⟩ = 1 := by
  have played : deadlocked = some (deadlocked.get (by decide)) := (Option.some_get _).symm
  have reachable : (deadlocked.get (by decide)).Reachable := reachable_play (.start (fresh_staffed _ _)) played
  have admitted : (deadlocked.get (by decide)).Admits (.acquire ⟨1⟩ ⟨3⟩) := by decide
  refine ⟨_, _, played, rfl, by decide, (coherent_of_reachable (reachable.step admitted rfl) rfl).1, by decide⟩

end LockSystem

end PriorityScheduler
