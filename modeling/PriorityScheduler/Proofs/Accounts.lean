import PriorityScheduler.Proofs.Repricing
import PriorityScheduler.Thread.Accounts

/-!
# Lives and their accounts

A thread lives from its first admission to a queue until it finishes, and is admitted and dispatched on the way. `Course`
says that accounts were kept through a life; `Closes`, that a record was drawn from them at its end.

Main statement: `Closes.counted_le`, no time is counted twice but what passed between the last dispatch and the first
admission after it.
-/

namespace PriorityScheduler

inductive Milestone where
  | admitted (time : Ticks)
  | dispatched (time : Ticks)
  | finished (record : Lifetime)
  deriving DecidableEq, Repr, Inhabited

namespace Milestone

def time : Milestone → Ticks
  | .admitted time | .dispatched time => time
  | .finished record => record.finish

def admission? : Milestone → Option Ticks
  | .admitted time => some time
  | _ => none

def dispatch? : Milestone → Option Ticks
  | .dispatched time => some time
  | _ => none

end Milestone

abbrev Life := List Milestone

namespace Life

variable {life : Life} {time e : Ticks}

def prolong (life : Life) : Milestone → Life
  | .admitted time => life ++ [.admitted time]
  | .dispatched time => if life = [] then [] else life ++ [.dispatched time]
  | .finished _ => []

def admissions (life : Life) : List Ticks := life.filterMap (·.admission?)

def dispatches (life : Life) : List Ticks := life.filterMap (·.dispatch?)

/-- When the thread was last dispatched. Its arrival counts as a dispatch. -/
def since (life : Life) : Ticks := life.dispatches.getLast?.getD (life.admissions.headD 0)

/-- How long after the last dispatch the first later admission came, if there was one. -/
def doubled (life : Life) : Ticks := (life.admissions.find? (life.since < ·)).getD life.since - life.since

def Until (life : Life) (time : Ticks) : Prop := ∀ m ∈ life, m.time ≤ time

theorem Until.later (upTo : life.Until time) {now : Ticks} (later : time ≤ now) : life.Until now :=
  fun m member => Nat.le_trans (upTo m member) later

def Ordered (life : Life) : Prop := life.Pairwise fun m m' => m.time ≤ m'.time

theorem Ordered.concat (ordered : life.Ordered) {m : Milestone} (later : life.Until m.time) :
    Life.Ordered (life ++ [m]) := by
  refine List.pairwise_append.mpr ⟨ordered, List.pairwise_singleton _ m, fun m' member _ last => ?_⟩
  rw [List.mem_singleton.mp last]
  exact later m' member

theorem until_prolong {m : Milestone} (upTo : life.Until m.time) : (life.prolong m).Until m.time := by
  have appended : Life.Until (life ++ [m]) m.time := by
    intro m' member
    rcases List.mem_append.mp member with before | last
    · exact upTo m' before
    · cases List.mem_singleton.mp last
      exact Nat.le_refl _
  cases m with
  | admitted time => exact appended
  | dispatched time =>
      rw [prolong]
      split
      · exact nofun
      · exact appended
  | finished record => exact nofun

theorem Until.admissions (upTo : life.Until time) (member : e ∈ life.admissions) : e ≤ time := by
  obtain ⟨m, before, admits⟩ := List.mem_filterMap.mp member
  cases m with
  | admitted time =>
      cases admits
      exact upTo _ before
  | dispatched _ => cases admits
  | finished _ => cases admits

theorem Until.since (upTo : life.Until time) : life.since ≤ time := by
  unfold Life.since
  cases last : life.dispatches.getLast? with
  | some d =>
      obtain ⟨m, member, dispatches⟩ := List.mem_filterMap.mp (List.mem_of_getLast? last)
      cases m with
      | admitted _ => cases dispatches
      | dispatched _ =>
          cases dispatches
          exact upTo _ member
      | finished _ => cases dispatches
  | none =>
      cases first : life.admissions with
      | nil => exact Nat.zero_le time
      | cons e rest =>
          have arrived : e ∈ life.admissions := by rw [first]; exact List.mem_cons_self
          exact upTo.admissions arrived

@[simp] theorem admissions_admitted (life : Life) (time : Ticks) :
    admissions (life ++ [.admitted time]) = life.admissions ++ [time] := by
  simp [admissions, Milestone.admission?]

@[simp] theorem admissions_dispatched (life : Life) (time : Ticks) :
    admissions (life ++ [.dispatched time]) = life.admissions := by
  simp [admissions, Milestone.admission?]

@[simp] theorem dispatches_admitted (life : Life) (time : Ticks) :
    dispatches (life ++ [.admitted time]) = life.dispatches := by
  simp [dispatches, Milestone.dispatch?]

@[simp] theorem since_dispatched (life : Life) (time : Ticks) : since (life ++ [.dispatched time]) = time := by
  simp [since, dispatches, Milestone.dispatch?]

theorem since_admitted (begun : life.admissions ≠ []) (time : Ticks) : since (life ++ [.admitted time]) = life.since := by
  obtain ⟨first, rest, admissions⟩ := List.exists_cons_of_ne_nil begun
  simp [since, admissions]

theorem doubled_eq_zero_iff : life.doubled = 0 ↔ ∀ e ∈ life.admissions, e ≤ life.since := by
  unfold doubled
  cases found : life.admissions.find? (life.since < ·) with
  | none => simpa using found
  | some e =>
      have later : life.since < e := by simpa using List.find?_some found
      have member := List.mem_of_find?_eq_some found
      rw [Option.getD_some, Nat.sub_eq_zero_iff_le]
      exact ⟨fun early => absurd later (Nat.not_lt_of_le early), fun all => all e member⟩

theorem since_add_doubled_le (upTo : ∀ e ∈ life.admissions, e ≤ time) :
    life.since + life.doubled ≤ max life.since time := by
  unfold doubled
  cases found : life.admissions.find? (life.since < ·) with
  | none =>
      rw [Option.getD_none, Nat.sub_self]
      exact Nat.le_max_left _ _
  | some e =>
      have before : e ≤ time := upTo e (List.mem_of_find?_eq_some found)
      rw [Option.getD_some]
      grind

theorem doubled_dispatched (upTo : life.Until time) : doubled (life ++ [.dispatched time]) = 0 := by
  rw [doubled_eq_zero_iff, admissions_dispatched, since_dispatched]
  exact fun e => upTo.admissions

theorem doubled_admitted (begun : life.admissions ≠ []) (time : Ticks) :
    doubled (life ++ [.admitted time]) = if life.doubled = 0 then time - life.since else life.doubled := by
  rw [doubled, since_admitted begun, admissions_admitted, List.find?_append, List.find?_singleton, doubled]
  cases found : life.admissions.find? (life.since < ·) with
  | none =>
      simp only [Option.none_or, Option.getD_none, Nat.sub_self, if_true]
      split
      · rfl
      · rename_i early
        simpa using (Nat.sub_eq_zero_iff_le.mpr (by simpa using early)).symm
  | some e =>
      have later : life.since < e := by simpa using List.find?_some found
      rw [Option.some_or, Option.getD_some, if_neg (Nat.sub_ne_zero_iff_lt.mpr later)]

end Life

namespace Accounts

variable {a a' : Accounts} {life : Life} {time first last dispatch : Ticks}

theorem enqueued_ok (done : a.enqueued time = .ok a') (arrival : a.arrival = some first)
    (lastScheduled : a.lastScheduled = some dispatch) (lastEnqueued : a.lastEnqueued = some last) :
    a' = { a with run := a.run + (if last ≤ dispatch then time - dispatch else 0), lastEnqueued := some time } := by
  obtain ⟨_, _, _, run, wait⟩ := a
  cases arrival
  cases lastScheduled
  cases lastEnqueued
  simp only [enqueued, ranSince, decide_eq_true_eq] at done
  split at done
  · obtain ⟨run, sum, made⟩ := bind_eq_ok.mp done
    cases (Ticks.add_eq_ok.mp sum).1
    rw [if_pos ‹_›]
    cases made
    rfl
  · rw [if_neg ‹_›]
    cases done
    rfl

theorem lastEnqueued_enqueued (done : a.enqueued time = .ok a') : a'.lastEnqueued = some time := by
  unfold enqueued at done
  split at done
  · cases done
    rfl
  · split at done
    · obtain ⟨run, -, made⟩ := bind_eq_ok.mp done
      cases made
      rfl
    · cases done
      rfl
  · cases done
    rfl

theorem scheduled_ok (done : a.scheduled time = .ok a') (lastScheduled : a.lastScheduled = some dispatch)
    (lastEnqueued : a.lastEnqueued = some last) :
    a' = { a with wait := a.wait + (if dispatch ≤ last then time - last else 0), lastScheduled := some time } := by
  obtain ⟨_, _, _, run, wait⟩ := a
  cases lastScheduled
  cases lastEnqueued
  simp only [Accounts.scheduled, waitedSince, decide_eq_true_eq] at done
  split at done
  · obtain ⟨wait, sum, made⟩ := bind_eq_ok.mp done
    cases (Ticks.add_eq_ok.mp sum).1
    rw [if_pos ‹_›]
    cases made
    rfl
  · rw [if_neg ‹_›]
    cases done
    rfl

theorem lastScheduled_scheduled (done : a.scheduled time = .ok a') : a'.lastScheduled = some time := by
  unfold Accounts.scheduled at done
  split at done
  · split at done
    · obtain ⟨wait, -, made⟩ := bind_eq_ok.mp done
      cases made
      rfl
    · cases done
      rfl
  · cases done
    rfl

theorem close_ok {arrival finish : Ticks} {record : Lifetime} (done : a.close arrival finish = .ok record)
    (lastScheduled : a.lastScheduled = some dispatch) :
    record = ⟨arrival, a.run + (finish - dispatch), a.wait, finish⟩ := by
  rw [close, lastScheduled] at done
  obtain ⟨run, sum, made⟩ := bind_eq_ok.mp done
  cases (Ticks.add_eq_ok.mp sum).1
  cases made
  rfl

structure Blank (a : Accounts) : Prop where
  arrival : a.arrival = none
  lastEnqueued : a.lastEnqueued = none
  run : a.run = 0
  wait : a.wait = 0

inductive Course : Life → Accounts → Prop where
  | unborn {a : Accounts} (blank : a.Blank) : Course [] a
  | admitted {life : Life} {a a' : Accounts} {time : Ticks} (course : Course life a) (later : life.Until time)
      (done : a.enqueued time = .ok a') : Course (life ++ [.admitted time]) a'
  | dispatched {life : Life} {a a' : Accounts} {time : Ticks} (course : Course life a) (born : life ≠ [])
      (later : life.Until time) (done : a.scheduled time = .ok a') : Course (life ++ [.dispatched time]) a'

theorem blank_new : Blank {} := ⟨rfl, rfl, rfl, rfl⟩

theorem Blank.scheduled (blank : a.Blank) (done : a.scheduled time = .ok a') : a'.Blank := by
  simp only [Accounts.scheduled, blank.lastEnqueued] at done
  cases done
  exact ⟨blank.arrival, rfl, blank.run, blank.wait⟩

theorem Course.blank (course : Course [] a) : a.Blank := by
  generalize unborn : ([] : Life) = life at course
  cases course with
  | unborn blank => exact blank
  | admitted _ _ _ => simp at unborn
  | dispatched _ _ _ _ => simp at unborn

theorem Course.prolong_dispatched (course : Course life a) (later : life.Until time) (done : a.scheduled time = .ok a') :
    Course (life.prolong (.dispatched time)) a' := by
  rw [Life.prolong]
  split
  · rename_i unborn
    subst unborn
    exact .unborn (course.blank.scheduled done)
  · rename_i born
    exact course.dispatched born later done

/-- What the accounts of a life hold that began with an admission at `first` and saw the last one at `last`. -/
structure Tallied (life : Life) (first last : Ticks) (a : Accounts) : Prop where
  begun : life.admissions.head? = some first
  member : last ∈ life.admissions
  latest : ∀ e ∈ life.admissions, e ≤ last
  arrival : a.arrival = some first
  lastEnqueued : a.lastEnqueued = some last
  lastScheduled : a.lastScheduled = some life.since
  counted : a.run + a.wait + first ≤ life.since + life.doubled

theorem Tallied.doubled_eq_zero_iff (tallied : Tallied life first last a) : life.doubled = 0 ↔ last ≤ life.since := by
  rw [Life.doubled_eq_zero_iff]
  exact ⟨fun all => all last tallied.member, fun ran e member => Nat.le_trans (tallied.latest e member) ran⟩

theorem tallied_first (blank : a.Blank) (done : a.enqueued time = .ok a') : Tallied [.admitted time] time time a' := by
  simp only [enqueued, blank.arrival] at done
  cases done
  refine ⟨rfl, List.mem_singleton_self time, fun e member => ?_, rfl, rfl, rfl, ?_⟩
  · exact Nat.le_of_eq (List.mem_singleton.mp member)
  · show a.run + a.wait + time ≤ time + _
    rw [blank.run, blank.wait, Nat.zero_add]
    exact Nat.le_add_right _ _

theorem Tallied.admitted (tallied : Tallied life first last a) (later : life.Until time)
    (done : a.enqueued time = .ok a') : Tallied (life ++ [.admitted time]) first time a' := by
  have begun : life.admissions ≠ [] := List.ne_nil_of_mem tallied.member
  have counted := tallied.counted
  cases enqueued_ok done tallied.arrival tallied.lastScheduled tallied.lastEnqueued
  refine ⟨?_, ?_, fun e member => ?_, tallied.arrival, rfl, ?_, ?_⟩
  · simp [tallied.begun]
  · simp
  · rw [Life.admissions_admitted] at member
    rcases List.mem_append.mp member with before | now
    · exact later.admissions before
    · exact Nat.le_of_eq (List.mem_singleton.mp now)
  · rw [Life.since_admitted begun]
    exact tallied.lastScheduled
  · rw [Life.since_admitted begun, Life.doubled_admitted begun]
    simp only [← tallied.doubled_eq_zero_iff]
    split
    · grind
    · exact counted

theorem Tallied.dispatched (tallied : Tallied life first last a) (later : life.Until time)
    (done : a.scheduled time = .ok a') : Tallied (life ++ [.dispatched time]) first last a' := by
  have counted := tallied.counted
  have reached : life.since + life.doubled ≤ max life.since last := Life.since_add_doubled_le tallied.latest
  have before : max life.since last ≤ time := Nat.max_le.mpr ⟨later.since, later.admissions tallied.member⟩
  cases scheduled_ok done tallied.lastScheduled tallied.lastEnqueued
  refine ⟨?_, ?_, ?_, tallied.arrival, tallied.lastEnqueued, ?_, ?_⟩
  · simpa using tallied.begun
  · simpa using tallied.member
  · simpa using tallied.latest
  · rw [Life.since_dispatched]
  · rw [Life.since_dispatched, Life.doubled_dispatched later]
    split
    · grind
    · grind

theorem Course.tallied (course : Course life a) :
    life = [] ∧ a.Blank ∨ ∃ first last, Tallied life first last a := by
  induction course with
  | unborn blank => exact .inl ⟨rfl, blank⟩
  | admitted _ later done ih =>
      rcases ih with ⟨rfl, blank⟩ | ⟨first, last, tallied⟩
      · exact .inr ⟨_, _, tallied_first blank done⟩
      · exact .inr ⟨first, _, tallied.admitted later done⟩
  | dispatched _ born later done ih =>
      rcases ih with ⟨rfl, _⟩ | ⟨first, last, tallied⟩
      · exact absurd rfl born
      · exact .inr ⟨first, last, tallied.dispatched later done⟩

theorem Course.exists_enqueued (course : Course life a) (later : life.Until time) (early : time < Ticks.bound) :
    ∃ a', a.enqueued time = .ok a' := by
  rcases course.tallied with ⟨-, blank⟩ | ⟨first, last, tallied⟩
  · unfold enqueued
    rw [blank.arrival]
    exact ⟨_, rfl⟩
  · simp only [enqueued, tallied.arrival, tallied.lastScheduled, tallied.lastEnqueued, ranSince, decide_eq_true_eq]
    split
    · rename_i ran
      have counted := tallied.counted
      rw [tallied.doubled_eq_zero_iff.mpr ran] at counted
      have since : life.since ≤ time := later.since
      have fits : a.run + Ticks.elapsed life.since time < Ticks.bound := by
        unfold Ticks.elapsed
        grind
      exact ⟨_, bind_eq_ok.mpr ⟨_, Ticks.add_eq_ok.mpr ⟨rfl, fits⟩, rfl⟩⟩
    · exact ⟨_, rfl⟩

theorem Course.exists_scheduled (course : Course life a) (later : life.Until time) (early : time < Ticks.bound) :
    ∃ a', a.scheduled time = .ok a' := by
  rcases course.tallied with ⟨-, blank⟩ | ⟨first, last, tallied⟩
  · unfold Accounts.scheduled
    rw [blank.lastEnqueued]
    exact ⟨_, rfl⟩
  · simp only [Accounts.scheduled, tallied.lastScheduled, tallied.lastEnqueued, waitedSince, decide_eq_true_eq]
    split
    · rename_i waited
      have counted := tallied.counted
      have reached : life.since + life.doubled ≤ max life.since last := Life.since_add_doubled_le tallied.latest
      have before : last ≤ time := later.admissions tallied.member
      have fits : a.wait + Ticks.elapsed last time < Ticks.bound := by
        unfold Ticks.elapsed
        grind
      exact ⟨_, bind_eq_ok.mpr ⟨_, Ticks.add_eq_ok.mpr ⟨rfl, fits⟩, rfl⟩⟩
    · exact ⟨_, rfl⟩

theorem Course.ordered (course : Course life a) : life.Ordered := by
  induction course with
  | unborn _ => exact .nil
  | admitted _ later _ ih => exact ih.concat later
  | dispatched _ _ later _ ih => exact ih.concat later

theorem Course.eq_nil (course : Course life a) (arrival : a.arrival = none) : life = [] := by
  rcases course.tallied with ⟨unborn, -⟩ | ⟨first, last, tallied⟩
  · exact unborn
  · cases arrival.symm.trans tallied.arrival

end Accounts

open Accounts

def Lifetime.Closes (record : Lifetime) (life : Life) : Prop :=
  life.Until record.finish ∧ ∃ a, Course life a ∧ a.arrival = some record.arrival ∧
    a.close record.arrival record.finish = .ok record

namespace Lifetime

variable {record : Lifetime} {life : Life}

/-- A life was counted up to the end of the thread, and the time after the last dispatch twice up to the next admission. -/
theorem Closes.counted_le (closes : record.Closes life) :
    record.arrival ≤ record.finish ∧ record.run + record.wait ≤ record.finish - record.arrival + life.doubled := by
  obtain ⟨upTo, a, course, arrival, closed⟩ := closes
  rcases course.tallied with ⟨-, blank⟩ | ⟨first, last, tallied⟩
  · cases blank.arrival.symm.trans arrival
  · obtain rfl : first = record.arrival := Option.some.inj (tallied.arrival.symm.trans arrival)
    have arrived : record.arrival ∈ life.admissions := List.mem_of_mem_head? tallied.begun
    have early : record.arrival ≤ record.finish := upTo.admissions arrived
    have counted := tallied.counted
    have dispatched : life.since ≤ record.finish := upTo.since
    have drawn := close_ok closed tallied.lastScheduled
    have run : record.run = a.run + (record.finish - life.since) := congrArg Lifetime.run drawn
    have wait : record.wait = a.wait := congrArg Lifetime.wait drawn
    exact ⟨early, by grind⟩

end Lifetime

namespace ThreadState

variable {s : ThreadState} {now : Ticks} {before after : Statistics} {record : Lifetime}

theorem finished_eq_some (done : s.finished now before = .ok (some record, after)) :
    s.thread.isExempt = false ∧ s.accounts.arrival = some record.arrival ∧ record.finish = now ∧
      s.accounts.close record.arrival now = .ok record := by
  unfold finished at done
  cases exempt : s.thread.isExempt with
  | true =>
      rw [exempt] at done
      cases done
  | false =>
      cases arrived : s.accounts.arrival with
      | none =>
          simp only [exempt, arrived, Bool.false_eq_true, if_false] at done
          obtain ⟨_, _, made⟩ := bind_eq_ok.mp done
          cases made
      | some arrival =>
          simp only [exempt, arrived, Bool.false_eq_true, if_false] at done
          obtain ⟨_, -, rest⟩ := bind_eq_ok.mp done
          obtain ⟨drawn, closed, made⟩ := bind_eq_ok.mp rest
          cases made
          obtain ⟨run, -, made⟩ := bind_eq_ok.mp closed
          cases made
          exact ⟨rfl, rfl, rfl, closed⟩

theorem finished_eq_none (done : s.finished now before = .ok (none, after)) :
    s.thread.isExempt = true ∨ s.accounts.arrival = none := by
  unfold finished at done
  cases exempt : s.thread.isExempt with
  | true => exact .inl rfl
  | false =>
      cases arrived : s.accounts.arrival with
      | none => exact .inr rfl
      | some arrival =>
          simp only [exempt, arrived, Bool.false_eq_true, if_false] at done
          obtain ⟨_, -, rest⟩ := bind_eq_ok.mp done
          obtain ⟨_, -, made⟩ := bind_eq_ok.mp rest
          cases made

end ThreadState

end PriorityScheduler
