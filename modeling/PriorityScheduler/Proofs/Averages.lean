import Mathlib.Algebra.Order.Round
import Mathlib.Data.Rat.Floor
import PriorityScheduler.Proofs.Overflow

namespace PriorityScheduler

inductive Ending where
  | unarrived
  | finished (wait turnaround : Ticks)
  deriving DecidableEq, Repr, Inhabited

namespace Ending

def wait? : Ending → Option Nat
  | .unarrived => none
  | .finished wait _ => some wait

def turnaround? : Ending → Option Nat
  | .unarrived => none
  | .finished _ turnaround => some turnaround

def waits (endings : List Ending) : List Nat := endings.filterMap (·.wait?)

def turnarounds (endings : List Ending) : List Nat := endings.filterMap (·.turnaround?)

end Ending

open Ending

namespace Statistics

def count (s : Statistics) : Ending → Except Fault Statistics
  | .unarrived => s.countUnarrived
  | .finished wait turnaround => s.countFinished wait turnaround

def reportAll (endings : List Ending) : Except Fault Report := do
  let s ← endings.foldlM count {}
  s.report

def after (s : Statistics) : Ending → Statistics
  | .unarrived => { s with finished := s.finished + 1 }
  | .finished wait turnaround =>
      ⟨s.finished + 1, s.totalWait + wait, s.totalTurnaround + turnaround, max s.maxWait wait⟩

structure Fits (s : Statistics) : Prop where
  finished : s.finished < Ticks.bound
  totalWait : s.totalWait < Ticks.bound
  totalTurnaround : s.totalTurnaround < Ticks.bound

instance (s : Statistics) : Decidable s.Fits :=
  decidable_of_iff (s.finished < Ticks.bound ∧ s.totalWait < Ticks.bound ∧ s.totalTurnaround < Ticks.bound)
    ⟨fun ⟨finished, wait, turnaround⟩ => ⟨finished, wait, turnaround⟩,
      fun ⟨finished, wait, turnaround⟩ => ⟨finished, wait, turnaround⟩⟩

variable {s : Statistics} {x : Ending} {endings : List Ending}

theorem fits_new : Fits {} := by constructor <;> decide

theorem Fits.of_after (fits : (s.after x).Fits) : s.Fits := by
  obtain ⟨finished, totalWait, totalTurnaround⟩ := fits
  cases x with
  | unarrived => exact ⟨Nat.lt_of_succ_lt finished, totalWait, totalTurnaround⟩
  | finished wait turnaround =>
      exact ⟨Nat.lt_of_succ_lt finished, Nat.lt_of_le_of_lt (Nat.le_add_right _ _) totalWait,
        Nat.lt_of_le_of_lt (Nat.le_add_right _ _) totalTurnaround⟩

theorem Fits.of_foldl (fits : (endings.foldl after s).Fits) : s.Fits := by
  induction endings generalizing s with
  | nil => exact fits
  | cons x rest ih => exact (ih fits).of_after

theorem count_of_fits (fits : (s.after x).Fits) : s.count x = .ok (s.after x) := by
  obtain ⟨finished, totalWait, totalTurnaround⟩ := fits
  cases x with
  | unarrived => exact bind_eq_ok.mpr ⟨_, Ticks.add_eq_ok.mpr ⟨rfl, finished⟩, rfl⟩
  | finished wait turnaround =>
      have sums (a b : Ticks) (fits : a + b < Ticks.bound) : Ticks.add a b = .ok (a + b) := Ticks.add_eq_ok.mpr ⟨rfl, fits⟩
      simp only [count, countFinished]
      rw [sums _ _ finished, sums _ _ totalWait, sums _ _ totalTurnaround]
      rfl

theorem fits_after_of_count {s' : Statistics} (fits : s.Fits) (done : s.count x = .ok s') : (s.after x).Fits := by
  cases x with
  | unarrived =>
      obtain ⟨_, finished, -⟩ := bind_eq_ok.mp done
      exact ⟨(Ticks.add_eq_ok.mp finished).2, fits.totalWait, fits.totalTurnaround⟩
  | finished wait turnaround =>
      obtain ⟨_, finished, rest⟩ := bind_eq_ok.mp done
      obtain ⟨_, totalWait, rest⟩ := bind_eq_ok.mp rest
      obtain ⟨_, totalTurnaround, -⟩ := bind_eq_ok.mp rest
      exact ⟨(Ticks.add_eq_ok.mp finished).2, (Ticks.add_eq_ok.mp totalWait).2, (Ticks.add_eq_ok.mp totalTurnaround).2⟩

theorem overflows_count (s : Statistics) (x : Ending) : Overflows (s.count x) := by
  cases x with
  | unarrived => exact s.overflows_countUnarrived
  | finished wait turnaround =>
      exact (overflows_add _ _).bind fun _ _ => (overflows_add _ _).bind fun _ _ =>
        (overflows_add _ _).bind fun _ _ => overflows_ok _

theorem foldlM_count (fits : s.Fits) : endings.foldlM count s =
    if (endings.foldl after s).Fits then .ok (endings.foldl after s) else .error .sumTooLarge := by
  induction endings generalizing s with
  | nil => exact (if_pos fits).symm
  | cons x rest ih =>
      rw [List.foldlM_cons, List.foldl_cons]
      by_cases next : (s.after x).Fits
      · rw [count_of_fits next]
        exact ih next
      · rw [if_neg fun last => next last.of_foldl]
        cases done : s.count x with
        | ok s' => exact absurd (fits_after_of_count fits done) next
        | error f =>
            rw [overflows_count s x f done]
            rfl

theorem foldl_after (s : Statistics) (endings : List Ending) : endings.foldl after s =
    ⟨s.finished + endings.length, s.totalWait + (waits endings).sum, s.totalTurnaround + (turnarounds endings).sum,
      (waits endings).foldl max s.maxWait⟩ := by
  induction endings generalizing s with
  | nil => rfl
  | cons x rest ih =>
      rw [List.foldl_cons, ih]
      cases x with
      | unarrived => simp [after, waits, turnarounds, wait?, turnaround?, Nat.add_assoc, Nat.add_comm 1]
      | finished wait turnaround =>
          simp [after, waits, turnarounds, wait?, turnaround?, Nat.add_assoc, Nat.add_comm 1]

def nearest (total count : Nat) : Nat := (total + count / 2) / count

theorem cast_nearest (total count : Nat) : (nearest total count : ℤ) = round ((total : ℚ) / count) := by
  rcases Nat.eq_zero_or_pos count with rfl | positive
  · simp [nearest]
  · have halves : nearest total count = (2 * total + count) / (2 * count) := by
      rw [nearest, ← Nat.div_div_eq_div_mul, Nat.mul_add_div (by decide)]
    have shifted : (total : ℚ) / count + 1 / 2 = ((2 * total + count : ℕ) : ℚ) / (2 * count : ℕ) := by
      have nonzero : (count : ℚ) ≠ 0 := by positivity
      push_cast
      field_simp
    rw [round_eq, shifted, Rat.floor_natCast_div_natCast, halves]
    push_cast
    rfl

theorem average_eq {total count : Nat} (fits : total < Ticks.bound) : average total count =
    if total + count / 2 < Ticks.bound then .ok (nearest total count) else .error .sumTooLarge := by
  unfold average
  split
  · rename_i none
    simp [none, nearest, fits]
  · unfold Ticks.add
    split <;> rfl

def Averageable (s : Statistics) : Prop :=
  s.totalWait + s.finished / 2 < Ticks.bound ∧ s.totalTurnaround + s.finished / 2 < Ticks.bound

instance (s : Statistics) : Decidable s.Averageable := inferInstanceAs (Decidable (_ ∧ _))

theorem report_eq (fits : s.Fits) : s.report = if s.Averageable then
    .ok ⟨s.finished, nearest s.totalWait s.finished, s.maxWait, nearest s.totalTurnaround s.finished⟩
    else .error .sumTooLarge := by
  unfold report meanWait meanTurnaround Averageable
  rw [average_eq fits.totalWait, average_eq fits.totalTurnaround]
  by_cases wait : s.totalWait + s.finished / 2 < Ticks.bound
  · by_cases turnaround : s.totalTurnaround + s.finished / 2 < Ticks.bound
    · simp [wait, turnaround, bind, Except.bind, pure, Except.pure]
    · simp [wait, turnaround, bind, Except.bind]
  · simp [wait, bind, Except.bind]

/-- The threads can be counted, and half their count fits above both sums. -/
structure Roomy (endings : List Ending) : Prop where
  length : endings.length < Ticks.bound
  waits : (waits endings).sum + endings.length / 2 < Ticks.bound
  turnarounds : (turnarounds endings).sum + endings.length / 2 < Ticks.bound

/-- A report that is exact but for the rounding of the means. -/
structure Exact (endings : List Ending) (r : Report) : Prop where
  finished : r.finished = endings.length
  maxWait : r.maxWait = (waits endings).max?.getD 0
  meanWait : (r.meanWait : ℤ) = round (((waits endings).sum : ℚ) / endings.length)
  meanTurnaround : (r.meanTurnaround : ℤ) = round (((turnarounds endings).sum : ℚ) / endings.length)

theorem roomy_iff : Roomy endings ↔ (endings.foldl after {}).Fits ∧ (endings.foldl after {}).Averageable := by
  rw [foldl_after]
  constructor
  · rintro ⟨length, wait, turnaround⟩
    have sums {total half : Nat} (fits : total + half < Ticks.bound) : total < Ticks.bound :=
      Nat.lt_of_le_of_lt (Nat.le_add_right total half) fits
    constructor
    · constructor
      · simpa using length
      · simpa using sums wait
      · simpa using sums turnaround
    · simpa [Averageable] using And.intro wait turnaround
  · rintro ⟨⟨length, -, -⟩, averageable⟩
    simp only [Averageable, Nat.zero_add] at length averageable
    exact ⟨length, averageable.1, averageable.2⟩

/-- The report that is drawn is exact, and it is drawn exactly if there is room for it. -/
theorem exact_or_large (endings : List Ending) :
    (Roomy endings ∧ ∃ r, reportAll endings = .ok r ∧ Exact endings r) ∨
      ¬Roomy endings ∧ reportAll endings = .error .sumTooLarge := by
  unfold reportAll
  rw [foldlM_count fits_new]
  by_cases fits : (endings.foldl after {}).Fits
  · rw [if_pos fits]
    show (_ ∧ ∃ r, report _ = .ok r ∧ _) ∨ _ ∧ report _ = _
    rw [report_eq fits]
    by_cases averageable : (endings.foldl after {}).Averageable
    · left
      rw [if_pos averageable]
      refine ⟨roomy_iff.mpr ⟨fits, averageable⟩, _, rfl, ?_⟩
      rw [foldl_after]
      constructor
      · simp
      · simp [List.foldl_max]
      · simp [cast_nearest]
      · simp [cast_nearest]
    · right
      rw [if_neg averageable]
      exact ⟨fun roomy => averageable (roomy_iff.mp roomy).2, rfl⟩
  · right
    rw [if_neg fits]
    exact ⟨fun roomy => fits (roomy_iff.mp roomy).1, rfl⟩

/-- The sums of these waits and turnarounds fit, and yet no report is drawn: half a tick above them is too much. -/
theorem exists_unreported : ∃ endings, (waits endings).sum < Ticks.bound ∧ (turnarounds endings).sum < Ticks.bound ∧
    ∀ r, reportAll endings ≠ .ok r := by
  have failed : reportAll [.finished 18446744073709551615 0, .finished 0 0] = .error .sumTooLarge := rfl
  exact ⟨_, by decide, by decide, fun r done => nomatch failed.symm.trans done⟩

end Statistics

end PriorityScheduler
