import PriorityScheduler.Proofs.Accounts
import PriorityScheduler.Thread.State

namespace PriorityScheduler

inductive Entry where
  | admission (time : Ticks)
  | dispatch (time : Ticks)
  deriving DecidableEq, Repr, Inhabited

def Entry.time : Entry → Ticks
  | .admission time | .dispatch time => time

abbrev History := List Entry

inductive Phase where
  | unborn
  | waiting (since : Ticks)
  | running (since : Ticks)
  deriving DecidableEq, Repr, Inhabited

namespace History

def Ordered (h : History) : Prop := h.Pairwise fun later earlier => earlier.time ≤ later.time

instance (h : History) : Decidable h.Ordered := inferInstanceAs (Decidable (List.Pairwise _ _))

def admission? : History → Option Ticks
  | [] => none
  | .admission time :: _ => some time
  | .dispatch _ :: past => admission? past

/-- The last dispatch. The first admission counts as one. -/
def dispatch? : History → Option Ticks
  | [] => none
  | .admission time :: past => if admission? past = none then some time else dispatch? past
  | .dispatch time :: _ => some time

/-- A thread that has been admitted waits from an admission on and runs from a dispatch on. -/
def phase : History → Phase
  | [] => .unborn
  | .admission time :: _ => .waiting time
  | .dispatch time :: past => if admission? past = none then .unborn else .running time

/-- The sum of what every entry adds, given the entries before it. -/
def tally (amount : History → Entry → Ticks) : History → Ticks
  | [] => 0
  | e :: past => tally amount past + amount past e

def ran (past : History) : Entry → Ticks
  | .admission now => match phase past with
      | .running since => now - since
      | _ => 0
  | .dispatch _ => 0

def waited (past : History) : Entry → Ticks
  | .admission _ => 0
  | .dispatch now => match phase past with
      | .waiting since => now - since
      | _ => 0

/-- What an admission of a waiting thread books as a run. -/
def overran (past : History) : Entry → Ticks
  | .admission now => match phase past with
      | .waiting since => if dispatch? past = some since then now - since else 0
      | _ => 0
  | .dispatch _ => 0

/-- What a dispatch of a running thread books as a wait. -/
def overwaited (past : History) : Entry → Ticks
  | .admission _ => 0
  | .dispatch now => match phase past with
      | .running since => if admission? past = some since then now - since else 0
      | _ => 0

variable {h past : History} {e : Entry} {time now : Ticks}

theorem tally_eq_zero_iff {amount : History → Entry → Ticks} :
    tally amount h = 0 ↔ ∀ e past, e :: past <:+ h → amount past e = 0 := by
  induction h with
  | nil => exact iff_of_true rfl fun e past suffix => absurd (List.suffix_nil.mp suffix) (List.cons_ne_nil e past)
  | cons last rest ih =>
      rw [tally, Nat.add_eq_zero_iff, ih]
      constructor
      · rintro ⟨before, here⟩ e past suffix
        rcases List.suffix_cons_iff.mp suffix with same | earlier
        · cases same
          exact here
        · exact before e past earlier
      · intro all
        exact ⟨fun e past suffix => all e past (suffix.trans (List.suffix_cons last rest)), all last rest List.suffix_rfl⟩

theorem admission?_le (upTo : ∀ e ∈ h, e.time ≤ now) (admitted : admission? h = some time) : time ≤ now := by
  induction h with
  | nil => cases admitted
  | cons e past ih =>
      obtain ⟨last, before⟩ := List.forall_mem_cons.mp upTo
      cases e with
      | admission t =>
          cases admitted
          exact last
      | dispatch t => exact ih before admitted

theorem dispatch?_le (upTo : ∀ e ∈ h, e.time ≤ now) (dispatched : dispatch? h = some time) : time ≤ now := by
  induction h with
  | nil => cases dispatched
  | cons e past ih =>
      obtain ⟨last, before⟩ := List.forall_mem_cons.mp upTo
      cases e with
      | admission t =>
          rw [dispatch?] at dispatched
          split at dispatched
          · cases dispatched
            exact last
          · exact ih before dispatched
      | dispatch t =>
          cases dispatched
          exact last

theorem exists_dispatch? (admitted : admission? h = some time) : ∃ d, dispatch? h = some d := by
  induction h generalizing time with
  | nil => cases admitted
  | cons e past ih =>
      cases e with
      | dispatch t => exact ⟨t, rfl⟩
      | admission t =>
          rw [dispatch?]
          split
          · exact ⟨t, rfl⟩
          · rename_i born
            obtain ⟨before, admitted⟩ := Option.ne_none_iff_exists'.mp born
            exact ih admitted

theorem phase_eq_unborn (unborn : admission? h = none) : phase h = .unborn := by
  cases h with
  | nil => rfl
  | cons e past =>
      cases e with
      | admission t => cases unborn
      | dispatch t => exact if_pos unborn

theorem phase_dispatch (born : admission? past = some time) (now : Ticks) : phase (.dispatch now :: past) = .running now :=
  if_neg (born ▸ Option.some_ne_none time)

theorem Ordered.upTo (ordered : Ordered (e :: past)) : ∀ e' ∈ e :: past, e'.time ≤ e.time :=
  List.forall_mem_cons.mpr ⟨Nat.le_refl _, (List.pairwise_cons.mp ordered).1⟩

variable {admitted dispatched : Ticks}

theorem ran_add_overran (now : Ticks) (ordered : Ordered h) (last : admission? h = some admitted)
    (on : dispatch? h = some dispatched) :
    ran h (.admission now) + overran h (.admission now) = if admitted ≤ dispatched then now - dispatched else 0 := by
  cases h with
  | nil => cases last
  | cons e past =>
      cases e with
      | admission t =>
          cases last
          have before := dispatch?_le ordered.upTo on
          simp only [ran, overran, phase, on, Nat.zero_add, Option.some.injEq]
          by_cases tie : dispatched = admitted
          · rw [tie, if_pos rfl, if_pos (Nat.le_refl admitted)]
          · rw [if_neg tie, if_neg fun late => tie (Nat.le_antisymm before late)]
      | dispatch t =>
          cases on
          have before := admission?_le ordered.upTo last
          have running := phase_dispatch (show admission? past = _ from last) dispatched
          simp only [ran, overran, running, Nat.add_zero]
          exact (if_pos before).symm

theorem waited_add_overwaited (now : Ticks) (ordered : Ordered h) (last : admission? h = some admitted)
    (on : dispatch? h = some dispatched) :
    waited h (.dispatch now) + overwaited h (.dispatch now) = if dispatched ≤ admitted then now - admitted else 0 := by
  cases h with
  | nil => cases last
  | cons e past =>
      cases e with
      | admission t =>
          cases last
          have before := dispatch?_le ordered.upTo on
          simp only [waited, overwaited, phase, Nat.add_zero]
          exact (if_pos before).symm
      | dispatch t =>
          cases on
          have before := admission?_le ordered.upTo last
          have running := phase_dispatch (show admission? past = _ from last) dispatched
          simp only [waited, overwaited, running, last, Nat.zero_add, Option.some.injEq]
          by_cases tie : admitted = dispatched
          · rw [tie, if_pos rfl, if_pos (Nat.le_refl dispatched)]
          · rw [if_neg tie, if_neg fun late => tie (Nat.le_antisymm before late)]

end History

open History

namespace Accounts

variable {a a' : Accounts} {h : History} {time : Ticks}

structure Tracking (a : Accounts) (h : History) : Prop where
  arrival : a.arrival = none ↔ admission? h = none
  lastEnqueued : a.lastEnqueued = admission? h
  lastScheduled : a.lastScheduled = dispatch? h
  run : a.run = tally ran h + tally overran h
  wait : a.wait = tally waited h + tally overwaited h

theorem tracking_new : Tracking {} [] := ⟨Iff.rfl, rfl, rfl, rfl, rfl⟩

theorem Tracking.admission (tracking : a.Tracking h) (ordered : Ordered h) (done : a.enqueued time = .ok a') :
    a'.Tracking (.admission time :: h) := by
  have run := tracking.run
  have wait := tracking.wait
  cases last : admission? h with
  | none =>
      have unborn := phase_eq_unborn last
      simp only [enqueued, tracking.arrival.mpr last] at done
      cases done
      refine ⟨iff_of_false (Option.some_ne_none time) (Option.some_ne_none time), rfl, ?_, ?_, ?_⟩
      · rw [dispatch?, if_pos last]
      · simp only [tally, ran, overran, unborn, Nat.add_zero]
        exact run
      · simp only [tally, waited, overwaited, Nat.add_zero]
        exact wait
  | some admitted =>
      obtain ⟨dispatched, on⟩ := exists_dispatch? last
      have born : admission? h ≠ none := last ▸ Option.some_ne_none admitted
      have begun : a.arrival ≠ none := mt tracking.arrival.mp born
      obtain ⟨first, arrived⟩ := Option.ne_none_iff_exists'.mp begun
      have booked := ran_add_overran time ordered last on
      cases enqueued_ok done arrived (tracking.lastScheduled.trans on) (tracking.lastEnqueued.trans last)
      refine ⟨iff_of_false begun (Option.some_ne_none time), rfl, ?_, ?_, ?_⟩
      · rw [dispatch?, if_neg born]
        exact tracking.lastScheduled
      · simp only [tally]
        grind
      · simp only [tally, waited, overwaited, Nat.add_zero]
        exact wait

theorem Tracking.dispatch (tracking : a.Tracking h) (ordered : Ordered h) (done : a.scheduled time = .ok a') :
    a'.Tracking (.dispatch time :: h) := by
  have run := tracking.run
  have wait := tracking.wait
  cases last : admission? h with
  | none =>
      have unborn := phase_eq_unborn last
      simp only [Accounts.scheduled, tracking.lastEnqueued, last] at done
      cases done
      refine ⟨tracking.arrival, ?_, rfl, ?_, ?_⟩
      · exact last.symm
      · simp only [tally, ran, overran, Nat.add_zero]
        exact run
      · simp only [tally, waited, overwaited, unborn, Nat.add_zero]
        exact wait
  | some admitted =>
      obtain ⟨dispatched, on⟩ := exists_dispatch? last
      have booked := waited_add_overwaited time ordered last on
      cases scheduled_ok done (tracking.lastScheduled.trans on) (tracking.lastEnqueued.trans last)
      refine ⟨tracking.arrival, tracking.lastEnqueued, rfl, ?_, ?_⟩
      · simp only [tally, ran, overran, Nat.add_zero]
        exact run
      · simp only [tally]
        grind

end Accounts

namespace ThreadState

open Accounts

def lived (thread : Thread) (p : Priority) : History → Except Fault ThreadState
  | [] => .ok (.new thread p)
  | .admission time :: past => do
      let s ← lived thread p past
      s.enqueued time
  | .dispatch time :: past => do
      let s ← lived thread p past
      s.scheduled time

theorem exists_lived (thread : Thread) (p : Priority) {h : History} (ordered : h.Ordered)
    (early : ∀ e ∈ h, e.time < Ticks.bound) : ∃ s, lived thread p h = .ok s ∧ s.accounts.Tracking h ∧
      ∃ life : Life, Course life s.accounts ∧ ∀ now, (∀ e ∈ h, e.time ≤ now) → life.Until now := by
  induction h with
  | nil => exact ⟨_, rfl, tracking_new, [], .unborn blank_new, fun _ _ => nofun⟩
  | cons e past ih =>
      obtain ⟨later, before⟩ := List.pairwise_cons.mp ordered
      obtain ⟨soon, early⟩ := List.forall_mem_cons.mp early
      obtain ⟨s, done, tracking, life, course, upTo⟩ := ih before early
      have upTo := upTo e.time later
      have lasts {life : Life} (upTo : life.Until e.time) (now : Ticks) (passed : ∀ e' ∈ e :: past, e'.time ≤ now) :
          life.Until now := upTo.later (passed e List.mem_cons_self)
      cases e with
      | admission time =>
          obtain ⟨a, enqueued⟩ := course.exists_enqueued upTo soon
          exact ⟨_, bind_eq_ok.mpr ⟨s, done, bind_eq_ok.mpr ⟨a, enqueued, rfl⟩⟩, tracking.admission before enqueued, _,
            course.admitted upTo enqueued, lasts (Life.until_prolong (m := .admitted time) upTo)⟩
      | dispatch time =>
          obtain ⟨a, scheduled⟩ := course.exists_scheduled upTo soon
          exact ⟨_, bind_eq_ok.mpr ⟨s, done, bind_eq_ok.mpr ⟨a, scheduled, rfl⟩⟩, tracking.dispatch before scheduled, _,
            course.prolong_dispatched upTo scheduled, lasts (Life.until_prolong upTo)⟩

/-- The accounts hold what the ledger holds and what was booked in the wrong phase. They match the ledger exactly if nothing
was. -/
theorem accounts_lived (thread : Thread) (p : Priority) {h : History} (ordered : h.Ordered)
    (early : ∀ e ∈ h, e.time < Ticks.bound) : ∃ s, lived thread p h = .ok s ∧
      s.accounts.run = tally ran h + tally overran h ∧ s.accounts.wait = tally waited h + tally overwaited h ∧
      (s.accounts.run = tally ran h ∧ s.accounts.wait = tally waited h ↔
        ∀ e past, e :: past <:+ h → overran past e = 0 ∧ overwaited past e = 0) := by
  obtain ⟨s, done, tracking, -⟩ := exists_lived thread p ordered early
  refine ⟨s, done, tracking.run, tracking.wait, ?_⟩
  rw [tracking.run, tracking.wait, Nat.add_eq_left, Nat.add_eq_left, tally_eq_zero_iff, tally_eq_zero_iff]
  exact ⟨fun both e past suffix => ⟨both.1 e past suffix, both.2 e past suffix⟩,
    fun all => ⟨fun e past suffix => (all e past suffix).1, fun e past suffix => (all e past suffix).2⟩⟩

def readmitted : History := [.admission 30, .admission 20, .dispatch 20, .admission 10, .admission 0]

theorem accounts_lived_readmitted : ∃ s, lived ⟨⟨1⟩, "a", .ordinary⟩ 5 readmitted = .ok s ∧
    s.accounts.run = 20 ∧ s.accounts.wait = 10 := by
  obtain ⟨s, done, run, wait, -⟩ := accounts_lived ⟨⟨1⟩, "a", .ordinary⟩ 5 (h := readmitted) (by decide) (by decide)
  exact ⟨s, done, run, wait⟩

/-- No admission of these comes after a run that took any time, and yet a run is booked. -/
theorem exists_overrun : ∃ s, readmitted.Ordered ∧ lived ⟨⟨1⟩, "a", .ordinary⟩ 5 readmitted = .ok s ∧
    tally ran readmitted = 0 ∧ s.accounts.run ≠ tally ran readmitted :=
  ⟨_, by decide, rfl, rfl, by decide⟩

end ThreadState

end PriorityScheduler
