import PriorityScheduler.Proofs.Locks.Ranges
import PriorityScheduler.Proofs.Scheduler.Regular

namespace PriorityScheduler

open PriorityScheduler.Action PriorityScheduler.Scheduler

namespace Scheduler

variable {roster : Roster} {config : Config} {s s' : Scheduler} {id : ThreadId} {call : Call}

def Ranged (config : Config) (s : Scheduler) : Prop := Within config s.locks s.threads

theorem Ranged.congr (ranged : s.Ranged config) (threads : s.threads.Matches ThreadState.priced s'.threads)
    (locks : s'.locks = s.locks) : s'.Ranged config :=
  Within.congr ranged threads fun _ => by rw [locks]

theorem Ranged.left (ranged : s.Ranged config) (id : ThreadId) : (s.left id).Ranged config := by
  obtain ⟨queues, threads, left, same⟩ := s.exists_left id
  rw [left]
  exact ranged.congr (same.weaken fun _ => rfl) rfl

theorem Ranged.selected (ranged : s.Ranged config) {queue : QueueId} {q : WaitQueue} {n : Noted (Selection WaitQueue)}
    (taken : q.next s.threads s.clock.now = .ok n) : (s.selected queue n).Ranged config := by
  have aged : Within config s.locks (q.discipline.aged s.threads s.clock.now) :=
    q.discipline.aged_cases ranged fun _ => within_aged ranged
  exact aged.congr ((WaitQueue.unqueued_next taken).weaken fun _ => rfl) fun _ => rfl

theorem kept_ranged (initial : config.inRange config.initial = true) (target : QueueId) :
    Kept (fun _ => True) target (Ranged config) where
  quiet same ranged := ranged.congr (same.threads ▸ .refl _) same.locks
  told _ ranged := ranged
  known _ _ := trivial
  ensured {s thread} _ _ ranged := by
    refine Within.put ranged thread.id (.new ?_ thread)
    rw [ranged.configured]
    exact initial
  joined _ _ found _ _ ranged := ranged.congr (.put found rfl) rfl
  running _ _ := trivial
  interrupted _ ranged := ranged
  repriced found repriced ranged := within_reprice initial ranged found (ranged.configured ▸ repriced)
  claimed _ ranged := ranged
  queueMade ranged := ranged
  lockMade ranged := Within.create ranged
  emitted ranged := ranged
  released done ranged := within_release initial ranged done

theorem dispatched_ranged (config : Config) : Dispatched (Ranged config) where
  quiet same ranged := ranged.congr (same.threads ▸ .refl _) same.locks
  told _ ranged := ranged
  dispatched p _ _ charged ranged := by
    obtain ⟨threads, rfl, same⟩ := charged.exists_threads
    exact ranged.congr (same.weaken fun _ => rfl) rfl
  interrupted _ ranged := ranged
  switched _ ranged := ranged

theorem ends_ranged (initial : config.inRange config.initial = true) (ranged : s.Ranged config) :
    Ends call.action s (fun _ => Ranged config) (Ranged config) := by
  refine ends_call (fun _ _ => trivial) (kept_ranged initial call.target) id (dispatched_ranged config) ?_
    (fun _ => trivial) ?_ (fun _ after _ => after) (fun _ after _ taken => after.selected taken) ranged
  · intro lock s' outcome w _ _ _ _ done after
    exact within_acquire initial after done
  · rintro rfl
    have kept := kept_ranged initial .ready
    refine kept.ends_depart kept.toBookkept id (within_withdraw initial ranged _) (fun after => after.left _) fun after => ?_
    exact ends_retire kept.toBookkept _ id (fun _ => after) (Within.remove after _)

theorem ranged_of_attainable (attainable : s.Attainable roster config) : s.Ranged config := by
  have initial := attainable.initial
  induction attainable with
  | boot booted _ _ =>
      obtain ⟨idle, start, -, rfl⟩ := booted.eq
      refine ⟨rfl, fun id state found => ?_, fun lock p gives => ?_⟩
      · cases (SortedMap.get?_empty id).symm.trans found
      · cases gives
  | @feed s s' input _ _ fed ih =>
      cases input with
      | call call => exact of_perform (ends_ranged initial ih) fed
      | clock time =>
          cases fed
          exact ih
      | interrupts interrupts =>
          cases fed
          exact ih
      | processor processor =>
          cases fed
          exact ih

end Scheduler

end PriorityScheduler
