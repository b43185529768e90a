import Mathlib.Data.List.Nodup
import PriorityScheduler.Proofs.Locks.Hands
import PriorityScheduler.Proofs.Locks.Runs

namespace PriorityScheduler

open PriorityScheduler.LockRegistry

def LockOp.asks (thread : ThreadId) : LockOp → Bool
  | .acquire _ asking => asking = thread
  | _ => false

namespace LockSystem

variable {s s' : LockSystem} {ops : List LockOp} {op : LockOp} {w : Walk} {lock : LockId} {thread : ThreadId}

/-- A system after some operations, the latest first. An operation that is refused changes nothing. -/
inductive After : List LockOp → LockSystem → Prop where
  | start {s : LockSystem} (fresh : s.Fresh) : After [] s
  | step {ops : List LockOp} {s : LockSystem} {op : LockOp} {w : Walk} (after : After ops s) (admitted : s.Admits op)
      (done : s.run op = .ok w) : After (op :: ops) w.system
  | refused {ops : List LockOp} {s : LockSystem} {op : LockOp} {e : Error} (after : After ops s)
      (admitted : s.Admits op) (refused : s.run op = .error (.refused e)) : After (op :: ops) s

/-- How many operations ago a thread last asked for a lock. -/
def waited (ops : List LockOp) (thread : ThreadId) : Nat := ops.findIdx (·.asks thread)

theorem After.reachable (after : s.After ops) : s.Reachable := by
  induction after with
  | start fresh => exact .start fresh
  | step _ admitted done ih => exact ih.step admitted done
  | refused _ _ _ ih => exact ih

theorem After.play {more : List LockOp} (after : s.After ops) (played : s.play more = some s') :
    s'.After (more.reverse ++ ops) := by
  induction more generalizing s ops with
  | nil =>
      cases played
      exact after
  | cons op rest ih =>
      rw [LockSystem.play] at played
      rw [List.reverse_cons, List.append_assoc]
      split at played
      · rename_i admitted
        cases done : s.run op with
        | error f => simp [done] at played
        | ok w =>
            rw [done] at played
            exact ih (after.step admitted done) played
      · cases played

theorem waited_of_asks (asks : op.asks thread = true) : waited (op :: ops) thread = 0 := by
  rw [waited, List.findIdx_cons, asks]
  rfl

theorem waited_of_not_asks (other : op.asks thread = false) : waited (op :: ops) thread = waited ops thread + 1 := by
  rw [waited, List.findIdx_cons, other]
  rfl

theorem waitersOf_of_hands?_eq {t u : LockRegistry} (same : u.hands? lock = t.hands? lock) :
    u.waitersOf lock = t.waitersOf lock := by
  rw [waitersOf_eq_hands?, same, ← waitersOf_eq_hands?]

theorem line_acquire {t : LockRegistry} {a : ThreadRegistry} {taken : LockId} {outcome : LockOutcome}
    (done : t.acquire taken thread a = .ok (outcome, w)) (lock : LockId) :
    w.locks.waitersOf lock = t.waitersOf lock ∨
      lock = taken ∧ w.locks.waitersOf lock = t.waitersOf lock ++ [thread] := by
  obtain ⟨holder, waiters, before, -, -, after⟩ := acquire_hands done
  have hands := after lock
  split at hands
  · rename_i same
    have line : t.waitersOf lock = waiters := same ▸ (holder?_of_hands? before).2
    split at hands
    · exact .inl ((holder?_of_hands? hands).2.trans line.symm)
    · exact .inr ⟨same, by rw [(holder?_of_hands? hands).2, line]⟩
  · exact .inl (waitersOf_of_hands?_eq hands)

theorem line_release {t : LockRegistry} {a : ThreadRegistry} {given : LockId} {next : Option ThreadId}
    (done : t.release given thread a = .ok (next, w)) (lock : LockId) :
    (w.locks.waitersOf lock).Sublist (t.waitersOf lock) := by
  obtain ⟨waiters, before, -, after⟩ := release_hands done
  have hands := after lock
  split at hands
  · rename_i same
    rw [(holder?_of_hands? hands).2, same, (holder?_of_hands? before).2]
    exact waiters.tail_sublist
  · rw [waitersOf_of_hands?_eq hands]

theorem line_withdraw (t : LockRegistry) (thread : ThreadId) (a : ThreadRegistry) (lock : LockId) :
    ((t.withdraw thread a).locks.waitersOf lock).Sublist (t.waitersOf lock) := by
  rw [waitersOf_eq_hands?, waitersOf_eq_hands?, hands?_withdraw]
  split
  · cases t.hands? lock with
    | none => exact .refl _
    | some hands => exact List.filter_sublist
  · exact .refl _

theorem line_step (done : s.run op = .ok w) (lock : LockId) :
    (∃ thread, op = .acquire lock thread ∧ w.locks.waitersOf lock = s.locks.waitersOf lock ++ [thread]) ∨
      (w.locks.waitersOf lock).Sublist (s.locks.waitersOf lock) := by
  cases op with
  | create =>
      cases done
      refine .inr ?_
      show (s.locks.create.2.waitersOf lock).Sublist _
      rw [waitersOf_eq_hands?, hands?_create]
      split
      · exact List.nil_sublist _
      · rw [← waitersOf_eq_hands?]
  | acquire taken thread =>
      obtain ⟨⟨outcome, w'⟩, acquired, rfl⟩ := map_eq_ok.mp done
      rcases line_acquire acquired lock with same | ⟨rfl, joined⟩
      · exact .inr (same ▸ .refl _)
      · exact .inl ⟨thread, rfl, joined⟩
  | release given thread =>
      obtain ⟨⟨next, w'⟩, released, rfl⟩ := map_eq_ok.mp done
      exact .inr (line_release released lock)
  | withdraw thread =>
      cases done
      exact .inr (line_withdraw s.locks thread s.threads lock)
  | reprice thread r =>
      obtain ⟨state, change, -, -, rfl⟩ := run_reprice done
      refine .inr ?_
      rw [waitersOf_of_hands?_eq (hands?_reprice s.locks thread change s.threads lock)]

theorem not_asks_of_waits (linked : Linked s.locks s.threads) (admitted : s.Admits op)
    (waits : thread ∈ s.locks.waitersOf lock) : op.asks thread = false := by
  cases op with
  | acquire taken asking =>
      refine decide_eq_false fun same => ?_
      exact linked.not_mem_waitersOf (same ▸ admitted.2.1) lock waits
  | _ => rfl

theorem waitersOf_fresh (fresh : s.Fresh) (lock : LockId) : s.locks.waitersOf lock = [] := by
  cases found : s.locks.get? lock with
  | none => rw [waitersOf, found, Option.map_none, Option.getD_none]
  | some l => rw [waitersOf_of_get? found, fresh.free lock l found]

theorem pairwise_waited (after : s.After ops) (lock : LockId) :
    (s.locks.waitersOf lock).Pairwise fun earlier later => waited ops later < waited ops earlier := by
  induction after with
  | start fresh =>
      rw [waitersOf_fresh fresh]
      exact .nil
  | @step ops s op w after admitted done ih =>
      have linked := (sound_of_reachable after.reachable).linked
      have older (v : ThreadId) (waits : v ∈ s.locks.waitersOf lock) : waited (op :: ops) v = waited ops v + 1 :=
        waited_of_not_asks (not_asks_of_waits linked admitted waits)
      have kept : (s.locks.waitersOf lock).Pairwise fun earlier later =>
          waited (op :: ops) later < waited (op :: ops) earlier := by
        refine ih.imp_of_mem fun {earlier later} first second ordered => ?_
        rw [older earlier first, older later second]
        exact Nat.succ_lt_succ ordered
      show (w.locks.waitersOf lock).Pairwise _
      rcases line_step done lock with ⟨thread, rfl, joined⟩ | fewer
      · -- whoever joins the line has only just asked
        rw [joined, List.pairwise_append]
        refine ⟨kept, List.pairwise_singleton _ _, fun v waits last asked => ?_⟩
        rw [List.mem_singleton.mp asked, waited_of_asks (by simp [LockOp.asks]), older v waits]
        exact Nat.succ_pos _
      · exact kept.sublist fewer
  | @refused ops s op e after admitted refused ih =>
      have linked := (sound_of_reachable after.reachable).linked
      refine ih.imp_of_mem fun {earlier later} first second ordered => ?_
      rw [waited_of_not_asks (not_asks_of_waits linked admitted first),
        waited_of_not_asks (not_asks_of_waits linked admitted second)]
      exact Nat.succ_lt_succ ordered

theorem nodup_lines (linked : Linked s.locks s.threads) : (s.locks.ids.flatMap s.locks.waitersOf).Nodup := by
  refine List.nodup_flatMap.mpr ⟨fun lock _ => linked.once lock, ?_⟩
  refine s.locks.locks.nodup_keys.imp fun {first second} apart => ?_
  intro thread here there
  have same := ((linked.waiting first thread).mp here).symm.trans ((linked.waiting second thread).mp there)
  exact apart (Option.some.inj same)

theorem held_of_linked (linked : Linked s.locks s.threads) {state : ThreadState}
    (found : s.threads.get? thread = some state) :
    if s.locks.donation then state.held.Nodup ∧ ∀ lock, lock ∈ state.held ↔ lock ∈ s.locks.heldBy thread
    else state.held = [] := by
  have held (lock : LockId) : lock ∈ state.held ↔ s.locks.donation = true ∧ s.locks.holder? lock = some thread := by
    rw [← ThreadRegistry.heldBy_of_get? found]
    exact linked.held thread lock
  split
  · rename_i on
    refine ⟨ThreadRegistry.heldBy_of_get? found ▸ linked.heldOnce thread, fun lock => ?_⟩
    rw [held, mem_heldBy, and_iff_right on]
  · rename_i off
    exact List.eq_nil_iff_forall_not_mem.mpr fun lock holds => off ((held lock).mp holds).1

theorem exists_release {t : LockRegistry} (a : ThreadRegistry) (holder : t.holder? lock = some thread) :
    ∃ w, t.release lock thread a = .ok ((t.waitersOf lock).head?, w) ∧
      w.locks.holder? lock = (t.waitersOf lock).head? := by
  obtain ⟨l, found, held⟩ := Option.bind_eq_some_iff.mp holder
  rw [waitersOf_of_get? found]
  have released := release_held (a := a) found held
  refine ⟨_, released, ?_⟩
  obtain ⟨waiters, -, -, after⟩ := release_hands released
  have hands := after lock
  rw [if_pos rfl] at hands
  exact (holder?_of_hands? hands).1

/-- A lock without holder has no waiters, a thread is in one line at most, the one that its state names, and not in the
line of a lock that it holds, and with donation its state lists the locks that it holds. Whoever releases a lock hands it
to the one in its line who asked first. -/
theorem ownership_agrees (after : s.After ops) :
    (∀ lock, s.locks.holder? lock = none → s.locks.waitersOf lock = []) ∧
    (s.locks.ids.flatMap s.locks.waitersOf).Nodup ∧
    (∀ lock thread, thread ∈ s.locks.waitersOf lock ↔ s.threads.blockedOn? thread = some lock) ∧
    (∀ lock holder, s.locks.holder? lock = some holder → holder ∉ s.locks.waitersOf lock) ∧
    (∀ thread state, s.threads.get? thread = some state →
      if s.locks.donation then state.held.Nodup ∧ ∀ lock, lock ∈ state.held ↔ lock ∈ s.locks.heldBy thread
      else state.held = []) ∧
    ∀ lock holder, s.locks.holder? lock = some holder →
      ∃ next w, s.locks.release lock holder s.threads = .ok (next, w) ∧ w.locks.holder? lock = next ∧
        (next = none → s.locks.waitersOf lock = []) ∧
        ∀ heir, next = some heir → heir ∈ s.locks.waitersOf lock ∧
          ∀ other ∈ s.locks.waitersOf lock, other ≠ heir → waited ops other < waited ops heir := by
  have linked := (sound_of_reachable after.reachable).linked
  refine ⟨linked.free, nodup_lines linked, fun lock thread => linked.waiting lock thread, fun lock holder holds waits => ?_,
    fun thread state found => held_of_linked linked found, fun lock holder holds => ?_⟩
  · exact linked.apart lock holder holds ((linked.waiting lock holder).mp waits)
  · obtain ⟨w, released, after'⟩ := exists_release s.threads holds
    refine ⟨_, w, released, after', List.head?_eq_none_iff.mp, fun heir first => ⟨List.mem_of_mem_head? first, ?_⟩⟩
    intro other waits apart
    have ordered := pairwise_waited after lock
    obtain ⟨rest, line⟩ := List.head?_eq_some_iff.mp first
    rw [line] at ordered waits
    exact (List.pairwise_cons.mp ordered).1 other ((List.mem_cons.mp waits).resolve_left apart)

def contested : Option LockSystem :=
  (staffed {} [(⟨⟨1⟩, "first", .ordinary⟩, 5), (⟨⟨2⟩, "second", .ordinary⟩, 3), (⟨⟨3⟩, "third", .ordinary⟩, 1)]).play
    [.create, .acquire ⟨1⟩ ⟨1⟩, .acquire ⟨1⟩ ⟨2⟩, .acquire ⟨1⟩ ⟨3⟩]

/-- The third thread is more urgent, but the second has waited longer. -/
theorem ownership_agrees_contested :
    ∃ s w, contested = some s ∧ s.locks.waitersOf ⟨1⟩ = [⟨2⟩, ⟨3⟩] ∧ s.threads.blockedOn? ⟨3⟩ = some ⟨1⟩ ∧
      s.locks.release ⟨1⟩ ⟨1⟩ s.threads = .ok (some ⟨2⟩, w) ∧ w.locks.holder? ⟨1⟩ = some ⟨2⟩ := by
  have played : contested = some (contested.get (by decide)) := (Option.some_get _).symm
  have after := (After.start (fresh_staffed _ _)).play played
  obtain ⟨-, -, waiting, -, -, released⟩ := ownership_agrees after
  obtain ⟨next, w, done, holder, -, -⟩ := released ⟨1⟩ ⟨1⟩ (by decide)
  have second : next = some ⟨2⟩ := by
    obtain ⟨waiters, hands, first, -⟩ := release_hands done
    rw [first, ← (holder?_of_hands? hands).2]
    decide
  subst second
  exact ⟨_, w, played, by decide, (waiting ⟨1⟩ ⟨3⟩).mp (by decide), done, holder⟩

end LockSystem

end PriorityScheduler
