import PriorityScheduler.Proofs.Aging
import PriorityScheduler.Queue.Wait
import PriorityScheduler.Idle

namespace PriorityScheduler

variable {α β : Type} {x : Except Fault α}

def Overflows (x : Except Fault α) : Prop := ∀ f, x = .error f → f = .sumTooLarge

theorem overflows_ok (a : α) : Overflows (.ok a) := nofun

theorem overflows_add (a b : Ticks) : Overflows (Ticks.add a b) := by
  intro f failed
  unfold Ticks.add at failed
  split at failed
  · cases failed
  · cases failed
    rfl

theorem Overflows.bind {f : α → Except Fault β} (first : Overflows x) (next : ∀ a, x = .ok a → Overflows (f a)) :
    Overflows (x >>= f) := by
  cases x with
  | ok a => exact next a rfl
  | error e =>
      intro e' failed
      cases failed
      exact first e rfl

theorem Overflows.map (first : Overflows x) (f : α → β) : Overflows (x.map f) := by
  cases x with
  | ok a => exact overflows_ok (f a)
  | error e =>
      intro e' failed
      cases failed
      exact first e rfl

theorem Config.exists_clamp {config : Config} (nonempty : config.mostUrgent ≤ config.leastUrgent) (p : Priority) :
    ∃ q, config.clamp p = .ok q ∧ config.inRange q = true := by
  refine ⟨_, if_neg (Int.not_lt.mpr nonempty), ?_⟩
  simp only [inRange, Bool.and_eq_true, decide_eq_true_eq]
  exact ⟨Int.le_max_left _ _, Int.max_le.mpr ⟨nonempty, Int.min_le_left _ _⟩⟩

theorem Drift.overflows_advance (d : Drift) (interval now since : Ticks) : Overflows (d.advance interval now since) :=
  (overflows_add _ _).bind fun _ _ => overflows_ok _

variable {config : Config}

theorem ThreadState.overflows_clamped (s : ThreadState) (nonempty : config.mostUrgent ≤ config.leastUrgent) (p : Priority)
    (told : Priority → List Notice) :
    Overflows (do
      let p ← config.clamp p
      let change ← s.setPriority config p
      pure (⟨change, told p⟩ : Noted Change)) := by
  obtain ⟨q, clamped, inside⟩ := Config.exists_clamp nonempty p
  rw [clamped]
  show Overflows (setPriority _ config q >>= _)
  rw [setPriority, if_pos inside]
  exact overflows_ok _

theorem ThreadState.overflows_ageRunning (s : ThreadState) (interval : Ticks)
    (nonempty : config.mostUrgent ≤ config.leastUrgent) (now : Ticks) : Overflows (s.ageRunning interval config now) := by
  unfold ageRunning
  split
  · exact overflows_ok _
  · split
    · exact overflows_ok _
    · refine (Drift.overflows_advance _ _ _ _).bind fun ⟨steps, drift⟩ _ => ?_
      dsimp only
      split
      · exact overflows_ok _
      · exact overflows_clamped _ nonempty _ fun p => [.agedUp s.thread steps p]

theorem ThreadState.overflows_ageWaiting (s : ThreadState) (interval : Ticks)
    (nonempty : config.mostUrgent ≤ config.leastUrgent) (now : Ticks) : Overflows (s.ageWaiting interval config now) := by
  unfold ageWaiting
  split
  · exact overflows_ok _
  · split
    · exact overflows_ok _
    · refine (Drift.overflows_advance _ _ _ _).bind fun ⟨steps, drift⟩ _ => ?_
      dsimp only
      split
      · exact overflows_ok _
      · exact overflows_clamped _ nonempty _ fun p => [.agedDown s.thread steps p]

theorem ThreadRegistry.overflows_ageRunning {t : ThreadRegistry} (nonempty : t.config.mostUrgent ≤ t.config.leastUrgent)
    (id : ThreadId) (now : Ticks) : Overflows (t.ageRunning id now) := by
  unfold ageRunning
  split
  · exact overflows_ok _
  · exact (ThreadState.overflows_ageRunning _ _ nonempty now).bind fun _ _ => overflows_ok _

theorem ThreadRegistry.overflows_ageAll {t : ThreadRegistry} (nonempty : t.config.mostUrgent ≤ t.config.leastUrgent)
    (now : Ticks) (ids : List ThreadId) : Overflows (ageAll now ids t) := by
  induction ids generalizing t with
  | nil => exact overflows_ok _
  | cons id rest ih =>
      have one : Overflows (t.ageWaiting id now) := by
        unfold ageWaiting
        split
        · exact overflows_ok _
        · exact (ThreadState.overflows_ageWaiting _ _ nonempty now).bind fun _ _ => overflows_ok _
      refine one.bind fun first done => ?_
      have config : first.value.threads.config = t.config := by
        obtain ⟨-, same⟩ | ⟨s, m, -, -, put⟩ := ageWaiting_ok done
        · rw [same]
        · rw [put]
          rfl
      exact (ih (config ▸ nonempty)).bind fun _ _ => overflows_ok _

theorem Discipline.overflows_select (d : Discipline) {t : ThreadRegistry}
    (nonempty : t.config.mostUrgent ≤ t.config.leastUrgent) (now : Ticks) : Overflows (d.select t now) := by
  have aged (ids : List ThreadId) := ThreadRegistry.overflows_ageAll nonempty now ids
  cases d with
  | strict q => exact overflows_ok _
  | aging q => exact ((aged q.waiters).bind fun _ _ => overflows_ok _).map _
  | banded q => exact ((aged q.waiters).bind fun _ _ => overflows_ok _).map _

theorem WaitQueue.overflows_next (q : WaitQueue) {t : ThreadRegistry}
    (nonempty : t.config.mostUrgent ≤ t.config.leastUrgent) (now : Ticks) : Overflows (q.next t now) :=
  (q.discipline.overflows_select nonempty now).bind fun _ _ => overflows_ok _

theorem ThreadState.overflows_enqueued (s : ThreadState) (now : Ticks) : Overflows (s.enqueued now) := by
  refine .bind ?_ fun _ _ => overflows_ok _
  unfold Accounts.enqueued
  split
  · exact overflows_ok _
  · split
    · exact (overflows_add _ _).bind fun _ _ => overflows_ok _
    · exact overflows_ok _
  · exact overflows_ok _

theorem ThreadState.overflows_scheduled (s : ThreadState) (now : Ticks) : Overflows (s.scheduled now) := by
  refine .bind ?_ fun _ _ => overflows_ok _
  unfold Accounts.scheduled
  split
  · split
    · exact (overflows_add _ _).bind fun _ _ => overflows_ok _
    · exact overflows_ok _
  · exact overflows_ok _

theorem Statistics.overflows_report (s : Statistics) : Overflows s.report := by
  have average (total count : Nat) : Overflows (average total count) := by
    unfold Statistics.average
    split
    · exact overflows_ok _
    · exact (overflows_add _ _).bind fun _ _ => overflows_ok _
  exact (average _ _).bind fun _ _ => (average _ _).bind fun _ _ => overflows_ok _

theorem Statistics.overflows_countUnarrived (s : Statistics) : Overflows s.countUnarrived :=
  (overflows_add _ _).bind fun _ _ => overflows_ok _

theorem ThreadState.overflows_finished (s : ThreadState) (now : Ticks) (stats : Statistics) :
    Overflows (s.finished now stats) := by
  unfold finished
  split
  · exact overflows_ok _
  · split
    · exact stats.overflows_countUnarrived.bind fun _ _ => overflows_ok _
    · refine .bind ?_ fun _ _ => .bind ?_ fun _ _ => overflows_ok _
      · exact (overflows_add _ _).bind fun _ _ => (overflows_add _ _).bind fun _ _ =>
          (overflows_add _ _).bind fun _ _ => overflows_ok _
      · exact (overflows_add _ _).bind fun _ _ => overflows_ok _

theorem Idle.overflows_dispatch (t : Idle) : Overflows t.dispatch :=
  (overflows_add _ _).bind fun _ _ => overflows_ok _

end PriorityScheduler
