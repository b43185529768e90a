import PriorityScheduler.Proofs.Locks.Effects
import PriorityScheduler.Proofs.Locks.Unseen
import PriorityScheduler.Proofs.Scheduler.Steps

namespace PriorityScheduler

open PriorityScheduler.Action PriorityScheduler.Scheduler

namespace Scheduler

variable {named : Thread → Prop} {target : QueueId} {inv start : Scheduler → Prop} {s s' : Scheduler} {id : ThreadId}
  {held : LockId → Prop}

/-- A thread waits for no lock, and the locks that it holds are among some. -/
def Awake (id : ThreadId) (held : LockId → Prop) (s : Scheduler) : Prop :=
  s.threads.blockedOn? id = none ∧ ∀ lock, s.locks.holder? lock = some id → held lock

theorem Awake.unseen (awake : s.Awake id held) (threads : s.threads.Unseen s'.threads) (same : s'.locks = s.locks) :
    s'.Awake id held := by
  refine ⟨(threads.blockedOn? id).trans awake.1, ?_⟩
  rw [same]
  exact awake.2

theorem lockless_awake (target : QueueId) (id : ThreadId) (held : LockId → Prop) :
    Lockless (fun _ => True) target (Awake id held) where
  quiet same awake := awake.unseen (same.threads ▸ .refl _) same.locks
  told _ awake := awake
  known _ _ := trivial
  ensured {s thread} _ absent awake := by
    refine ⟨?_, awake.2⟩
    show ((s.threads.put thread.id _).get? id).bind (·.blockedOn) = none
    rw [ThreadRegistry.get?_put]
    split
    · rfl
    · exact awake.1
  joined _ _ found _ _ awake := awake.unseen (.put found rfl) rfl
  running _ _ := trivial
  interrupted _ awake := awake
  repriced {s j state c} found repriced awake := by
    refine ⟨awake_reprice found repriced awake.1, fun lock holder => awake.2 lock ?_⟩
    rw [← holder]
    exact ((onward_reprice s.locks j c s.threads).locks.holder? lock).symm
  claimed _ awake := awake
  queueMade awake := awake
  lockMade {s} awake := by
    refine ⟨awake.1, fun lock holder => ?_⟩
    have made : s.locks.create.2.get? lock = if lock = ⟨s.locks.nextId⟩ then some {} else s.locks.get? lock :=
      s.locks.locks.get?_insert_eq ⟨s.locks.nextId⟩ lock {}
    rw [LockRegistry.holder?, made] at holder
    split at holder
    · cases holder
    · exact awake.2 lock holder

theorem unseen_left (s : Scheduler) (id : ThreadId) : s.threads.Unseen (s.left id).threads := by
  obtain ⟨queues, threads, left, same⟩ := s.exists_left id
  rw [left]
  exact same.weaken fun _ => rfl

theorem ends_depart_awake (kept : Lockless named .ready inv) (linked : ∀ {s}, inv s → Linked s.locks s.threads)
    (withdrawn :
      let w := s.locks.withdraw s.processor.current.id s.threads
      inv (s.follow w w.changed))
    (handed : ∀ {s' : Scheduler} {lock next w} (time : Ticks) (p : Priority),
      let id := s.processor.current.id
      s'.locks.release lock id s'.threads = .ok (next, w) → inv s' →
      inv ((s'.follow w w.changed).tell
        (w.notices.map .notice ++ Output.handOver lock time id (s'.threads.effective id) next p)))
    (left : ∀ {s' : Scheduler}, inv s' → inv (s'.left s.processor.current.id))
    (finished : ∀ {s' : Scheduler} {record}, inv s' → inv (s'.tell [.event (.finished s.processor.current record)]))
    (retired : ∀ {s' : Scheduler}, inv s' → s'.Awake s.processor.current.id (fun _ => False) →
      inv { s' with threads := s'.threads.remove s.processor.current.id }) :
    let awake (s' : Scheduler) := inv s' ∧ s'.Awake s.processor.current.id fun _ => True
    Ends depart s (fun _ => awake) awake := by
  intro awake
  let id := s.processor.current.id
  have weaken {held : LockId → Prop} {s' : Scheduler} (both : inv s' ∧ s'.Awake id held) : awake s' :=
    ⟨both.1, both.2.1, fun _ _ => trivial⟩
  have books (held : LockId → Prop) : Bookkept fun s' => inv s' ∧ s'.Awake id held :=
    (kept.and (lockless_awake .ready id held)).toBookkept
  have departs : Departs (· = s) awake awake s.processor.current s.clock.now
      (fun locks s' => inv s' ∧ s'.Awake id (· ∈ locks)) fun s' => inv s' ∧ s'.Awake id fun _ => False := by
    refine ⟨fun locks => (books (· ∈ locks)).toRecorded, weaken, fun {s'} same => ?_, fun {lock locks s'} both => ?_,
      fun {s'} both => ?_, fun {s'} both => ends_retire (books fun _ => True) _ (fun both => ⟨finished both.1, both.2⟩)
        (fun _ => weaken both) ⟨retired both.1 both.2, ?_, fun _ _ => trivial⟩⟩
    · rw [same]
      refine ⟨withdrawn, awake_withdraw s.locks id s.threads, fun lock holder => ?_⟩
      exact (LockRegistry.mem_heldBy _ id lock).mpr holder
    · have kept := kept.and (lockless_awake .ready id (· ∈ locks))
      refine kept.handOn _ (weaken both) (fun next w p done => ⟨handed _ p done both.1, ?_⟩) fun _ => weaken
      have after := awake_release (linked both.1) done both.2.1
      refine ⟨after.1, fun j holder => ?_⟩
      obtain ⟨other, before⟩ := after.2 j holder
      exact (List.mem_cons.mp (both.2.2 j before)).resolve_left other
    · have awake := both.2.unseen (s'.unseen_left id) (s'.locks_left id)
      exact ⟨left both.1, awake.1, fun lock holder => List.not_mem_nil (awake.2 lock holder)⟩
    · show ((s'.threads.remove id).get? id).bind (·.blockedOn) = none
      rw [ThreadRegistry.get?_remove, if_pos rfl]
      rfl
  exact ends_depart (books fun _ => True) (fun _ => departs) rfl

end Scheduler

end PriorityScheduler
