import PriorityScheduler.Proofs.Locks.Single
import PriorityScheduler.Proofs.Scheduler.Attainable

namespace PriorityScheduler

open PriorityScheduler.Action PriorityScheduler.Scheduler PriorityScheduler.LockRegistry

def LockRegistry.Grantable (t : LockRegistry) (names : ThreadId → Option Thread) (lock : LockId) : Prop :=
  ∀ heir thread, (t.waitersOf lock).head? = some heir → names heir = some thread → thread.isIdle = false

namespace Scheduler

variable {roster : Roster} {config : Config} {s s' : Scheduler} {t : LockRegistry} {lock : LockId} {thread : Thread}

structure Lasting (P : LockRegistry → Prop) : Prop where
  repriced : ∀ {t : LockRegistry} (id : ThreadId) (c : Change) (a : ThreadRegistry), P t → P (t.reprice id c a).locks
  created : ∀ {t : LockRegistry}, P t → P t.create.2
  released : ∀ {t : LockRegistry} {lock : LockId} {id : ThreadId} {a : ThreadRegistry} {next : Option ThreadId} {w : Walk},
    t.release lock id a = .ok (next, w) → P t → P w.locks
  withdrawn : ∀ {t : LockRegistry} (id : ThreadId) (a : ThreadRegistry), P t → P (t.withdraw id a).locks

variable {P : LockRegistry → Prop} {call : Call}

theorem lasting_of_shrinks (anti : ∀ {t u : LockRegistry}, t.Shrinks u → P t → P u) : Lasting P where
  repriced id c a := anti (shrinks_reprice _ id c a)
  created := anti (shrinks_create _)
  released done := anti (shrinks_release done)
  withdrawn id a := anti (shrinks_withdraw _ id a)

theorem kept_lasting (lasting : Lasting P) (target : QueueId) : Kept (fun _ => True) target fun s => P s.locks where
  quiet same holds := same.locks ▸ holds
  told _ holds := holds
  known _ _ := trivial
  ensured _ _ holds := holds
  joined _ _ _ _ _ holds := holds
  running _ _ := trivial
  interrupted _ holds := holds
  repriced _ _ holds := lasting.repriced _ _ _ holds
  claimed _ holds := holds
  queueMade holds := holds
  lockMade holds := lasting.created holds
  emitted holds := holds
  released done holds := lasting.released done holds

theorem ends_lasting (lasting : Lasting P)
    (acquired : ∀ lock outcome w a, call = .acquire lock →
      s.locks.acquire lock s.processor.current.id a = .ok (outcome, w) → P w.locks)
    (holds : P s.locks) : Ends call.action s (fun _ s' => P s'.locks) fun s' => P s'.locks := by
  have books := (kept_lasting lasting .ready).toBookkept
  refine ends_call (fun _ _ => trivial) (kept_lasting lasting call.target) id ⟨⟨books, ?_⟩, fun _ => id, fun _ => id⟩ ?_
    (fun _ => trivial) ?_ (fun _ after _ => after) (fun _ after _ _ => after) holds
  · intro s' s₁ t p _ _ charged holds
    obtain ⟨threads, rfl, -⟩ := charged.exists_threads
    exact holds
  · rintro lock s' outcome w taking locks - - done -
    exact acquired lock outcome w s'.threads taking (locks ▸ done)
  · rintro rfl
    have left (s' : Scheduler) (after : P s'.locks) : P (s'.left s.processor.current.id).locks :=
      (s'.locks_left _).symm ▸ after
    exact (kept_lasting lasting .ready).ends_depart books id (lasting.withdrawn _ _ holds) (left _) fun after =>
      ends_retire books _ id (fun _ => after) after

def Alert (s : Scheduler) (input : Input) : Prop :=
  ∀ lock ∈ input.acquired?, s.processor.current.isIdle = true → s.locks.holder? lock = none

instance (s : Scheduler) (input : Input) : Decidable (Alert s input) :=
  inferInstanceAs (Decidable (∀ lock ∈ input.acquired?, _ → _))

def Wakeful (roster : Roster) (t : LockRegistry) : Prop :=
  ∀ lock hands, t.hands? lock = some hands → ∀ w ∈ hands.2, (roster.thread w).isIdle = false

theorem Wakeful.busy {id : ThreadId} (wakeful : Wakeful roster t) (waits : id ∈ t.waitersOf lock) :
    (roster.thread id).isIdle = false := by
  rw [waitersOf_eq_hands?] at waits
  cases found : t.hands? lock with
  | none =>
      rw [found] at waits
      cases waits
  | some hands =>
      rw [found] at waits
      exact wakeful lock hands found id waits

theorem Wakeful.grantable (wakeful : Wakeful roster t) (registered : s.Registered roster.Lists config) (lock : LockId) :
    t.Grantable s.thread? lock := by
  intro heir thread first known
  obtain ⟨rfl, listed⟩ := registered.thread? roster.lists_main known
  rw [← listed]
  exact wakeful.busy (List.mem_of_mem_head? first)

theorem lasting_wakeful (roster : Roster) : Lasting (Wakeful roster) :=
  lasting_of_shrinks fun shrinks wakeful lock _ found _ waits =>
    wakeful.busy ((shrinks lock).subset ((sublist_waitersOf found).subset waits))

theorem Wakeful.acquired {outcome : LockOutcome} {w : Walk} {a : ThreadRegistry} (wakeful : Wakeful roster t)
    (listed : roster.Lists thread) (alert : thread.isIdle = true → t.holder? lock = none)
    (done : t.acquire lock thread.id a = .ok (outcome, w)) : Wakeful roster w.locks := by
  obtain ⟨holder, waiters, before, -, -, after⟩ := acquire_hands done
  intro j hands found v waits
  rw [after] at found
  split at found
  · cases found
    split at waits
    · exact wakeful lock _ before v waits
    · rename_i held
      rcases List.mem_append.mp waits with waits | last
      · exact wakeful lock _ before v waits
      · -- who queues up finds the lock held
        rw [List.mem_singleton.mp last, listed, Bool.eq_false_iff]
        exact fun idle => held ((holder?_of_hands? before).1.symm.trans (alert idle))
  · exact wakeful j hands found v waits

theorem wakeful_of_alert (obeying : s.Obeying Alert roster config) : Wakeful roster s.locks := by
  induction obeying with
  | boot booted _ _ =>
      obtain ⟨idle, start, -, rfl⟩ := booted.eq
      intro lock hands found
      cases found
  | @feed s s' input obeying fits obeys fed ih =>
      cases input with
      | call call =>
          refine of_perform (ends_lasting (lasting_wakeful roster) ?_ ih) fed
          rintro lock outcome w a rfl done
          exact ih.acquired (staffed_of_attainable obeying.attainable).2.1 (obeys lock rfl) done
      | clock time =>
          cases fed
          exact ih
      | interrupts interrupts =>
          cases fed
          exact ih
      | processor processor =>
          cases fed
          exact ih

end Scheduler

end PriorityScheduler
