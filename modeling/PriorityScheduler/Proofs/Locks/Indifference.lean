import Mathlib.Data.List.Sort
import PriorityScheduler.Proofs.Abreast
import PriorityScheduler.Proofs.Locks.Hands
import PriorityScheduler.Proofs.Locks.Runs

/-!
# Locks with and without donation

Who holds a lock, who is in line for it and who gets it next does not depend on priorities. Two systems are `Akin` if
they differ at most in effective priorities, in donations and in the lists of held locks, which only donation reads. Akin
systems answer every request alike and stay akin, whether they donate or not.

Main statement: `serve_donating`, the same requests to a system that donates and to one that does not.
-/

namespace PriorityScheduler

open PriorityScheduler.LockRegistry

/-- A request to a system of locks. Whoever changes a base priority tells of the change in a request of its own. -/
inductive LockRequest where
  | create
  | acquire (lock : LockId) (thread : ThreadId)
  | release (lock : LockId) (thread : ThreadId)
  | withdraw (thread : ThreadId)
  | priorityChanged (thread : ThreadId)
  | rebase (thread : ThreadId) (r : Repricing)
  deriving DecidableEq, Repr, Inhabited

inductive LockAnswer where
  | created (lock : LockId)
  | outcome (outcome : LockOutcome)
  | handedTo (next : Option ThreadId)
  | done
  | refused (error : Error)
  deriving DecidableEq, Repr, Inhabited

namespace LockSystem

def respond (s : LockSystem) : LockRequest → Except Failure (LockAnswer × LockSystem)
  | .create => .ok (.created s.locks.create.1, ⟨s.locks.create.2, s.threads⟩)
  | .acquire lock thread => (s.locks.acquire lock thread s.threads).map fun (outcome, w) => (.outcome outcome, w.system)
  | .release lock thread => (s.locks.release lock thread s.threads).map fun (next, w) => (.handedTo next, w.system)
  | .withdraw thread => .ok (.done, (s.locks.withdraw thread s.threads).system)
  | .priorityChanged thread => .ok (.done, (s.locks.priorityChanged thread s.threads).system)
  | .rebase thread r =>
      match s.threads.get? thread with
      | none => .error (.refused (.threadNotFound thread))
      | some state =>
          match r.apply state s.threads.config with
          | .error f => .error (.fatal f)
          | .ok change => .ok (.done, ⟨s.locks, s.threads.put thread change.state⟩)

def serve : List LockRequest → LockSystem → Except Fault (List LockAnswer × LockSystem)
  | [], s => .ok ([], s)
  | request :: rest, s =>
      match s.respond request with
      | .ok (answer, s') => (serve rest s').map fun r => (answer :: r.1, r.2)
      | .error (.refused e) => (serve rest s).map fun r => (.refused e :: r.1, r.2)
      | .error (.fatal f) => .error f

def donating (s : LockSystem) (on : Bool) : LockSystem := { s with locks := { s.locks with donation := on } }

end LockSystem

/-! ## Systems that are akin -/

def ThreadState.undonated (s : ThreadState) : ThreadState := { s with effective := s.base, donation := none, held := [] }

theorem ThreadState.undonated_addHeld (s : ThreadState) (lock : LockId) : (s.addHeld lock).undonated = s.undonated := by
  unfold addHeld
  split <;> rfl

theorem ThreadState.undonated_inherit (s : ThreadState) (donation : Bool) (lock : LockId) :
    (s.inherit donation lock).undonated = { s with blockedOn := none }.undonated := by
  cases donation with
  | false => rfl
  | true => exact undonated_addHeld { s with blockedOn := none } lock

theorem matches_blocked {a b : ThreadRegistry} (same : ThreadRegistry.Matches ThreadState.undonated a b) (thread : ThreadId)
    (lock : Option LockId) : ThreadRegistry.Matches ThreadState.undonated
      (a.modify thread fun state => { state with blockedOn := lock })
      (b.modify thread fun state => { state with blockedOn := lock }) :=
  same.both thread fun _ _ alike => congrArg (fun state : ThreadState => { state with blockedOn := lock }) alike

namespace LockSystem

structure Akin (s v : LockSystem) : Prop where
  nextId : v.locks.nextId = s.locks.nextId
  get? : ∀ lock, (v.locks.get? lock).map Lock.bare = (s.locks.get? lock).map Lock.bare
  threads : ThreadRegistry.Matches ThreadState.undonated s.threads v.threads

namespace Akin

variable {s v u : LockSystem} {t : LockRegistry} {a b : ThreadRegistry} {w : Walk} {lock : LockId} {l m : Lock}

theorem refl (s : LockSystem) : s.Akin s := ⟨rfl, fun _ => rfl, .refl _⟩

theorem symm (akin : s.Akin v) : v.Akin s :=
  ⟨akin.nextId.symm, fun lock => (akin.get? lock).symm, akin.threads.symm⟩

theorem trans (first : s.Akin v) (second : v.Akin u) : s.Akin u :=
  ⟨second.nextId.trans first.nextId, fun lock => (second.get? lock).trans (first.get? lock),
    first.threads.trans second.threads⟩

theorem walked (onward : (Walk.start t a).Onward w) : Akin ⟨t, a⟩ w.system :=
  ⟨onward.locks.nextId, onward.locks.get?, onward.threads.weaken fun _ => rfl⟩

theorem between {w' : Walk} {t' : LockRegistry} {a' : ThreadRegistry} (akin : Akin ⟨t, a⟩ ⟨t', a'⟩)
    (onward : (Walk.start t a).Onward w) (onward' : (Walk.start t' a').Onward w') : w.system.Akin w'.system :=
  ((walked onward).symm.trans akin).trans (walked onward')

theorem blockedOn? (akin : s.Akin v) (thread : ThreadId) : v.threads.blockedOn? thread = s.threads.blockedOn? thread :=
  akin.threads.bind ThreadState.blockedOn (fun _ => rfl) thread

theorem missing (akin : s.Akin v) (absent : s.locks.get? lock = none) : v.locks.get? lock = none := by
  have same := akin.get? lock
  rwa [absent, Option.map_none, Option.map_eq_none_iff] at same

theorem present (akin : s.Akin v) (found : s.locks.get? lock = some l) :
    ∃ m, v.locks.get? lock = some m ∧ m.holder = l.holder ∧ m.waiters = l.waiters := by
  have same := akin.get? lock
  rw [found, Option.map_some, Option.map_eq_some_iff] at same
  obtain ⟨m, found', bare⟩ := same
  simp only [Lock.bare, Lock.mk.injEq, and_true] at bare
  exact ⟨m, found', bare⟩

theorem put (akin : s.Akin v) (lock : LockId) (holder : m.holder = l.holder) (waiters : m.waiters = l.waiters)
    (threads : ThreadRegistry.Matches ThreadState.undonated a b) :
    Akin ⟨s.locks.put lock l, a⟩ ⟨v.locks.put lock m, b⟩ where
  nextId := akin.nextId
  get? j := by
    rw [get?_put, get?_put]
    split
    · rw [Option.map_some, Option.map_some, Lock.bare, Lock.bare, holder, waiters]
    · exact akin.get? j
  threads := threads

/-! ## Requests -/

theorem create (akin : s.Akin v) :
    v.locks.create.1 = s.locks.create.1 ∧ Akin ⟨s.locks.create.2, s.threads⟩ ⟨v.locks.create.2, v.threads⟩ := by
  have get? (t : LockRegistry) (j : LockId) : t.create.2.get? j = if j = ⟨t.nextId⟩ then some {} else t.get? j :=
    t.locks.get?_insert_eq ⟨t.nextId⟩ j {}
  refine ⟨congrArg LockId.mk akin.nextId, congrArg (· + 1) akin.nextId, fun j => ?_, akin.threads⟩
  simp only [get?, akin.nextId]
  split
  · rfl
  · exact akin.get? j

/-- The answers are the same and so is, but for priorities, what the request leaves behind. -/
def Alike {α : Type} (x y : α × Walk) : Prop := y.1 = x.1 ∧ x.2.system.Akin y.2.system

theorem taken (on : Bool) (t : LockRegistry) (thread : ThreadId) (lock : LockId) (a : ThreadRegistry) :
    Akin ⟨t, a⟩ (if on then t.taken thread (a.modify thread (·.addHeld lock)) else .start t a).system := by
  split
  · refine .trans (v := ⟨t, a.modify thread (·.addHeld lock)⟩) ⟨rfl, fun _ => rfl, ?_⟩ (walked (onward_taken t thread _))
    exact .modify a thread (ThreadState.undonated_addHeld · lock)
  · exact .refl _

theorem acquire (akin : s.Akin v) (lock : LockId) (thread : ThreadId) :
    Abreast (fun _ => False) Alike (s.locks.acquire lock thread s.threads) (v.locks.acquire lock thread v.threads) := by
  cases found : s.locks.get? lock with
  | none =>
      simp only [LockRegistry.acquire, found, akin.missing found]
      exact .error _
  | some l =>
      obtain ⟨m, found', holder', waiters'⟩ := akin.present found
      cases holder : l.holder with
      | none =>
          rw [holder] at holder'
          rw [acquire_vacant found holder, acquire_vacant found' holder']
          refine .ok ⟨rfl, ?_⟩
          have regraphed := akin.put (l := { l with holder := some thread }) (m := { m with holder := some thread }) lock
            rfl waiters' akin.threads
          exact ((taken _ _ thread lock _).symm.trans regraphed).trans (taken _ _ thread lock _)
      | some h =>
          rw [holder] at holder'
          by_cases same : h = thread
          · simp only [LockRegistry.acquire, found, found', holder, holder', same, if_true]
            exact .error _
          · rw [acquire_held found holder same, acquire_held found' holder' same]
            refine .ok ⟨rfl, between ?_ (Walk.onward_propagated _ _ lock) (Walk.onward_propagated _ _ lock)⟩
            exact akin.put lock (holder'.trans holder.symm) (congrArg (· ++ [thread]) waiters')
              (matches_blocked akin.threads thread (some lock))

theorem passedOn (a : ThreadRegistry) (on : Bool) (lock : LockId) (thread : ThreadId) (next : Option ThreadId) :
    ThreadRegistry.Matches ThreadState.undonated
      (next.elim a fun id => a.modify id fun state => { state with blockedOn := none }) (a.passOn on lock thread next) := by
  have given : ThreadRegistry.Matches ThreadState.undonated a (a.modify thread (·.removeHeld lock)) :=
    .modify a thread fun _ => rfl
  cases next with
  | none => exact given
  | some id =>
      refine given.both id fun state state' same => (state'.undonated_inherit on lock).trans ?_
      exact congrArg (fun state : ThreadState => { state with blockedOn := none }) same

theorem release (akin : s.Akin v) (lock : LockId) (thread : ThreadId) :
    Abreast (fun _ => False) Alike (s.locks.release lock thread s.threads) (v.locks.release lock thread v.threads) := by
  cases found : s.locks.get? lock with
  | none =>
      simp only [LockRegistry.release, found, akin.missing found]
      exact .error _
  | some l =>
      obtain ⟨m, found', holder', waiters'⟩ := akin.present found
      by_cases holder : l.holder = some thread
      · rw [holder] at holder'
        have done := release_held (a := s.threads) found holder
        have done' := release_held (a := v.threads) found' holder'
        obtain ⟨l₁, found₁, -, onward⟩ := onward_release done
        obtain ⟨m₁, found₂, -, onward'⟩ := onward_release done'
        cases found.symm.trans found₁
        cases found'.symm.trans found₂
        rw [done, done']
        refine .ok ⟨congrArg List.head? waiters', between ?_ onward onward'⟩
        refine akin.put lock (congrArg List.head? waiters') (congrArg List.tail waiters') ?_
        rw [waiters']
        refine ((passedOn _ _ lock thread _).symm.trans ?_).trans (passedOn _ _ lock thread _)
        cases l.waiters.head? with
        | none => exact akin.threads
        | some id =>
            exact matches_blocked akin.threads id none
      · have holder' : m.holder ≠ some thread := fun same => holder (by rw [← holder', same])
        simp only [LockRegistry.release, found, found', if_neg holder, if_neg holder']
        rw [show m.holder = l.holder from ‹_›]
        exact .error _

theorem withdraw (akin : s.Akin v) (thread : ThreadId) :
    (s.locks.withdraw thread s.threads).system.Akin (v.locks.withdraw thread v.threads).system := by
  have waits' := akin.blockedOn? thread
  have awoken := matches_blocked akin.threads thread none
  cases waits : s.threads.blockedOn? thread with
  | none =>
      rw [waits] at waits'
      rw [withdraw_awake waits, withdraw_awake waits']
      exact akin
  | some lock =>
      rw [waits] at waits'
      cases found : s.locks.get? lock with
      | none =>
          rw [withdraw_missing found waits, withdraw_missing (akin.missing found) waits']
          refine between ?_ (Walk.onward_propagated _ _ lock) (Walk.onward_propagated _ _ lock)
          exact ⟨akin.nextId, akin.get?, awoken⟩
      | some l =>
          obtain ⟨m, found', holder', waiters'⟩ := akin.present found
          rw [withdraw_waiting found waits, withdraw_waiting found' waits']
          refine between ?_ (Walk.onward_propagated _ _ lock) (Walk.onward_propagated _ _ lock)
          exact akin.put lock holder' (congrArg (List.filter (· ≠ thread)) waiters') awoken

theorem priorityChanged (akin : s.Akin v) (thread : ThreadId) :
    (s.locks.priorityChanged thread s.threads).system.Akin (v.locks.priorityChanged thread v.threads).system :=
  between akin (onward_priorityChanged _ thread _) (onward_priorityChanged _ thread _)

end Akin

end LockSystem

/-! ## Base priorities -/

namespace ThreadState

variable {s s' : ThreadState} {config : Config}

theorem exists_of_undonated (same : s'.undonated = s.undonated) :
    ∃ e d h, s' = { s with effective := e, donation := d, held := h } := by
  obtain ⟨thread, base, e, d, accounts, runDrift, waitDrift, h, blockedOn, queuedOn⟩ := s'
  refine ⟨e, d, h, ?_⟩
  simp only [undonated, mk.injEq] at same
  simp only [same]

abbrev Undonated (x y : Change) : Prop := y.state.undonated = x.state.undonated

theorem setPriority_undonated (same : s'.undonated = s.undonated) (p : Priority) :
    Abreast (fun _ => False) Undonated (s.setPriority config p) (s'.setPriority config p) := by
  obtain ⟨e, d, h, rfl⟩ := exists_of_undonated same
  unfold setPriority
  split
  · exact .ok rfl
  · exact .error _

theorem ageRunning_undonated (same : s'.undonated = s.undonated) (interval now : Ticks) :
    Abreast (fun _ => False) (fun x y => Undonated x.value y.value) (s.ageRunning interval config now)
      (s'.ageRunning interval config now) := by
  obtain ⟨e, d, h, rfl⟩ := exists_of_undonated same
  have ages : ({ s with effective := e, donation := d, held := h } : ThreadState).ages interval = s.ages interval := rfl
  unfold ageRunning
  rw [ages]
  split
  · exact .ok rfl
  · cases s.accounts.lastScheduled with
    | none => exact .ok rfl
    | some scheduled =>
        refine (Abreast.of_eq rfl).bind fun r _ equal => ?_
        cases equal
        dsimp only
        split
        · exact .ok rfl
        · refine (Abreast.of_eq rfl).bind fun p _ equal => ?_
          cases equal
          refine (setPriority_undonated (by rfl) p).bind fun x y alike => ?_
          exact .ok alike

theorem ageWaiting_undonated (same : s'.undonated = s.undonated) (interval now : Ticks) :
    Abreast (fun _ => False) (fun x y => Undonated x.value y.value) (s.ageWaiting interval config now)
      (s'.ageWaiting interval config now) := by
  obtain ⟨e, d, h, rfl⟩ := exists_of_undonated same
  have ages : ({ s with effective := e, donation := d, held := h } : ThreadState).ages interval = s.ages interval := rfl
  unfold ageWaiting
  rw [ages]
  split
  · exact .ok rfl
  · cases s.accounts.lastEnqueued with
    | none => exact .ok rfl
    | some enqueued =>
        refine (Abreast.of_eq rfl).bind fun r _ equal => ?_
        cases equal
        dsimp only
        split
        · exact .ok rfl
        · refine (Abreast.of_eq rfl).bind fun p _ equal => ?_
          cases equal
          refine (setPriority_undonated (by rfl) p).bind fun x y alike => ?_
          exact .ok alike

theorem apply_undonated (same : s'.undonated = s.undonated) (r : Repricing) (config : Config) :
    Abreast (fun _ => False) Undonated (r.apply s config) (r.apply s' config) := by
  cases r with
  | set p => exact setPriority_undonated same p
  | nearest p =>
      refine (Abreast.of_eq rfl).bind fun nearest _ equal => ?_
      cases equal
      exact setPriority_undonated same nearest
  | running interval now => exact (ageRunning_undonated same interval now).map fun _ _ alike => alike
  | waiting interval now => exact (ageWaiting_undonated same interval now).map fun _ _ alike => alike

end ThreadState

namespace LockSystem

variable {s v : LockSystem}

theorem Akin.respond (akin : s.Akin v) (request : LockRequest) :
    Abreast (fun _ => False) (fun x y => y.1 = x.1 ∧ x.2.Akin y.2) (s.respond request) (v.respond request) := by
  cases request with
  | create => exact .ok ⟨congrArg LockAnswer.created akin.create.1, akin.create.2⟩
  | acquire lock thread =>
      exact (akin.acquire lock thread).map fun _ _ both => ⟨congrArg LockAnswer.outcome both.1, both.2⟩
  | release lock thread =>
      exact (akin.release lock thread).map fun _ _ both => ⟨congrArg LockAnswer.handedTo both.1, both.2⟩
  | withdraw thread => exact .ok ⟨rfl, akin.withdraw thread⟩
  | priorityChanged thread => exact .ok ⟨rfl, akin.priorityChanged thread⟩
  | rebase thread r =>
      have shown := akin.threads.get? thread
      simp only [LockSystem.respond]
      cases found : s.threads.get? thread with
      | none =>
          rw [found, Option.map_none, Option.map_eq_none_iff] at shown
          rw [shown]
          exact .error _
      | some state =>
          rw [found, Option.map_some, Option.map_eq_some_iff] at shown
          obtain ⟨state', found', same⟩ := shown
          have rebased := ThreadState.apply_undonated same r s.threads.config
          simp only [found', akin.threads.config]
          generalize r.apply state s.threads.config = x, r.apply state' s.threads.config = y at rebased
          cases rebased with
          | ok alike => exact .ok ⟨rfl, akin.nextId, akin.get?, akin.threads.putBoth thread alike⟩
          | error f => exact .error _
          | left excuse => exact excuse.elim
          | right excuse => exact excuse.elim

theorem Akin.serve (akin : s.Akin v) (requests : List LockRequest) :
    Abreast (fun _ => False) (fun x y => y.1 = x.1 ∧ x.2.Akin y.2) (s.serve requests) (v.serve requests) := by
  induction requests generalizing s v with
  | nil => exact .ok ⟨rfl, akin⟩
  | cons request rest ih =>
      have responded := akin.respond request
      rw [LockSystem.serve, LockSystem.serve]
      generalize s.respond request = x, v.respond request = y at responded
      cases responded with
      | @ok a b both =>
          exact (ih both.2).map fun p q after => ⟨by rw [both.1, after.1], after.2⟩
      | error f =>
          cases f with
          | refused e => exact (ih akin).map fun p q after => ⟨by rw [after.1], after.2⟩
          | fatal f => exact .error f
      | left excuse => exact excuse.elim
      | right excuse => exact excuse.elim

/-! ## A system that does not donate -/

structure Plain (s : LockSystem) : Prop where
  off : s.locks.donation = false
  donated? : ∀ lock, s.locks.donated? lock = none
  states : ∀ thread state, s.threads.get? thread = some state → state.effective = state.base ∧ state.donation = none

namespace Plain

variable {lock : LockId} {l m : Lock} {thread : ThreadId} {f : ThreadState → ThreadState}

theorem put (plain : s.Plain) (found : s.locks.get? lock = some l) (same : m.donated = l.donated) :
    Plain ⟨s.locks.put lock m, s.threads⟩ :=
  ⟨plain.off, fun j => (donated?_put_of_donated found same j).trans (plain.donated? j), plain.states⟩

theorem modify (plain : s.Plain) (thread : ThreadId)
    (same : ∀ state, (f state).effective = state.effective ∧ (f state).base = state.base ∧
      (f state).donation = state.donation) : Plain ⟨s.locks, s.threads.modify thread f⟩ where
  off := plain.off
  donated? := plain.donated?
  states id state after := by
    rw [ThreadRegistry.get?_modify] at after
    split at after
    · obtain ⟨before, found, rfl⟩ := Option.map_eq_some_iff.mp after
      obtain ⟨effective, base, donation⟩ := same before
      rw [effective, base, donation]
      exact plain.states thread before found
    · exact plain.states id state after

theorem passOn (plain : s.Plain) (lock : LockId) (thread : ThreadId) (next : Option ThreadId) :
    Plain ⟨s.locks, s.threads.passOn false lock thread next⟩ := by
  have given := plain.modify (f := (·.removeHeld lock)) thread fun _ => ⟨rfl, rfl, rfl⟩
  cases next with
  | none => exact given
  | some id => exact given.modify id fun _ => ⟨rfl, rfl, rfl⟩

theorem respond (plain : s.Plain) {request : LockRequest} {answer : LockAnswer} {s' : LockSystem}
    (done : s.respond request = .ok (answer, s')) : s'.Plain := by
  have off := plain.off
  cases request with
  | create =>
      cases done
      refine ⟨off, fun lock => ?_, plain.states⟩
      have get? : s.locks.create.2.get? lock = if lock = ⟨s.locks.nextId⟩ then some {} else s.locks.get? lock :=
        s.locks.locks.get?_insert_eq ⟨s.locks.nextId⟩ lock {}
      show (s.locks.create.2.get? lock).bind (·.donated) = none
      rw [get?]
      split
      · rfl
      · exact plain.donated? lock
  | acquire lock thread =>
      obtain ⟨⟨outcome, w⟩, acquired, same⟩ := map_eq_ok.mp done
      cases same
      obtain ⟨l, found, other⟩ := acquire_ok acquired
      cases holder : l.holder with
      | none =>
          rw [acquire_vacant found holder, off] at acquired
          cases acquired
          exact plain.put found rfl
      | some h =>
          have others : h ≠ thread := fun same => other (same ▸ holder)
          rw [acquire_held found holder others, off] at acquired
          cases acquired
          exact (plain.modify (f := fun state => { state with blockedOn := some lock }) thread fun _ => ⟨rfl, rfl, rfl⟩).put
            found rfl
  | release lock thread =>
      obtain ⟨⟨next, w⟩, released, same⟩ := map_eq_ok.mp done
      cases same
      obtain ⟨l, found, holder⟩ := release_ok released
      rw [release_held found holder] at released
      obtain ⟨-, rfl⟩ := Prod.mk.inj (Except.ok.inj released)
      rw [off]
      have passedOn := plain.passOn lock thread l.waiters.head?
      exact passedOn.put (m := { l with holder := l.waiters.head?, waiters := l.waiters.tail }) found rfl
  | withdraw thread =>
      cases done
      have awoken := plain.modify (f := fun state => { state with blockedOn := none }) thread fun _ => ⟨rfl, rfl, rfl⟩
      cases waits : s.threads.blockedOn? thread with
      | none =>
          rw [withdraw_awake waits]
          exact plain
      | some lock =>
          cases found : s.locks.get? lock with
          | none =>
              rw [withdraw_missing found waits, off]
              exact awoken
          | some l =>
              rw [withdraw_waiting found waits, off]
              exact awoken.put (m := { l with waiters := l.waiters.filter (· ≠ thread) }) found rfl
  | priorityChanged thread =>
      cases done
      rw [priorityChanged_eq, off]
      exact plain
  | rebase thread r =>
      rw [LockSystem.respond] at done
      cases found : s.threads.get? thread with
      | none => simp [found] at done
      | some state =>
          simp only [found] at done
          split at done
          · cases done
          · rename_i change applied
            cases done
            have repriced := repriced_apply applied
            obtain ⟨effective, donation⟩ := plain.states thread state found
            refine ⟨off, plain.donated?, fun id after found' => ?_⟩
            rw [ThreadRegistry.get?_put] at found'
            split at found'
            · cases found'
              have donation' := repriced.donation.trans donation
              have floor := repriced.floor (by rw [effective, ThreadState.floor, donation])
              rw [ThreadState.floor, donation'] at floor
              exact ⟨floor, donation'⟩
            · exact plain.states id after found'

theorem serve (plain : s.Plain) {requests : List LockRequest} {answers : List LockAnswer} {v : LockSystem}
    (done : s.serve requests = .ok (answers, v)) : v.Plain := by
  induction requests generalizing s answers v with
  | nil =>
      cases done
      exact plain
  | cons request rest ih =>
      rw [LockSystem.serve] at done
      cases answered : s.respond request with
      | ok r =>
          rw [answered] at done
          obtain ⟨⟨answers', v'⟩, served, same⟩ := map_eq_ok.mp done
          cases same
          exact ih (plain.respond answered) served
      | error f =>
          rw [answered] at done
          cases f with
          | refused e =>
              obtain ⟨⟨answers', v'⟩, served, same⟩ := map_eq_ok.mp done
              cases same
              exact ih plain served
          | fatal f => cases done

end Plain

/-! ## Side by side -/

structure SameOwners (s v : LockSystem) : Prop where
  known : ∀ lock, (v.locks.get? lock).isSome = (s.locks.get? lock).isSome
  holder? : ∀ lock, v.locks.holder? lock = s.locks.holder? lock
  waitersOf : ∀ lock, v.locks.waitersOf lock = s.locks.waitersOf lock
  heldBy : ∀ thread, v.locks.heldBy thread = s.locks.heldBy thread
  blockedOn? : ∀ thread, v.threads.blockedOn? thread = s.threads.blockedOn? thread

theorem heldBy_of_holder? {t u : LockRegistry} (same : ∀ lock, u.holder? lock = t.holder? lock) (thread : ThreadId) :
    u.heldBy thread = t.heldBy thread := by
  have sorted (t : LockRegistry) : (t.heldBy thread).Pairwise fun l m => compare l m = .lt :=
    (t.locks.sorted.filter _).map _ fun _ _ => id
  have irreflexive : Std.Irrefl fun l m : LockId => compare l m = .lt := ⟨fun l => by simp [Std.ReflCmp.compare_self]⟩
  have antisymmetric : Std.Antisymm fun l m : LockId => compare l m = .lt := by
    refine ⟨fun l m before after => ?_⟩
    rw [Std.OrientedCmp.gt_of_lt before] at after
    cases after
  refine (sorted u).eq_of_mem_iff (sorted t) fun lock => ?_
  rw [LockRegistry.mem_heldBy, LockRegistry.mem_heldBy, same]

theorem Akin.sameOwners (akin : s.Akin v) : s.SameOwners v where
  known lock := by simpa only [Option.isSome_map] using congrArg Option.isSome (akin.get? lock)
  holder? lock := holder?_of_bare (akin.get? lock)
  waitersOf lock := waitersOf_of_bare (akin.get? lock)
  heldBy := heldBy_of_holder? fun lock => holder?_of_bare (akin.get? lock)
  blockedOn? := akin.blockedOn?

theorem Fresh.plain (fresh : s.Fresh) : (s.donating false).Plain where
  off := rfl
  donated? lock := by
    cases found : (s.donating false).locks.get? lock with
    | none => rw [LockRegistry.donated?, found, Option.bind_none]
    | some l => rw [LockRegistry.donated?_of_get? found, fresh.free lock l found]
  states thread state found := ⟨(fresh.loose thread state found).1, (fresh.loose thread state found).2.1⟩

/-- Served the same requests, a system that donates and one that does not give the same answers, or both end in the same
fault. After every request the locks have the same holders and lines, and in the second system all threads run at their base
priorities. -/
theorem serve_donating (fresh : s.Fresh) (requests : List LockRequest) :
    Abreast (fun _ => False) (fun on off => off.1 = on.1 ∧ on.2.SameOwners off.2 ∧ off.2.Plain)
      ((s.donating true).serve requests) ((s.donating false).serve requests) := by
  have akin : (s.donating true).Akin (s.donating false) := ⟨rfl, fun _ => rfl, .refl _⟩
  refine ((akin.serve requests).withRight fun off served => fresh.plain.serve served).imp fun on off all => ?_
  exact ⟨all.1.1, all.1.2.sameOwners, all.2⟩

def lending : List LockRequest :=
  [.create, .acquire ⟨1⟩ ⟨1⟩, .acquire ⟨1⟩ ⟨2⟩, .rebase ⟨2⟩ (.set 3), .priorityChanged ⟨2⟩, .release ⟨7⟩ ⟨1⟩]

def lenders : LockSystem := staffed {} [(⟨⟨1⟩, "first", .ordinary⟩, 30), (⟨⟨2⟩, "second", .ordinary⟩, 5)]

theorem serve_donating_lending :
    ∃ answers on off, (lenders.donating true).serve lending = .ok (answers, on) ∧
      (lenders.donating false).serve lending = .ok (answers, off) ∧ on.SameOwners off ∧ off.Plain ∧
      on.threads.effective ⟨1⟩ = 3 ∧ off.threads.effective ⟨1⟩ = 30 := by
  have both := serve_donating (s := lenders) (fresh_staffed _ _) lending
  exact ⟨_, _, _, rfl, rfl, both.of_ok.2.1, both.of_ok.2.2, by decide, by decide⟩

end LockSystem

end PriorityScheduler
