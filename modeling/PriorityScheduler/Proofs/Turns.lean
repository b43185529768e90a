import Mathlib.Algebra.GroupWithZero.Nat
import Mathlib.Data.List.Induction
import PriorityScheduler.Proofs.Accounts

namespace PriorityScheduler

structure Turn where
  admitted : Ticks
  dispatched : Ticks
  deriving DecidableEq, Repr, Inhabited

namespace Life

def ofTurns (turns : List Turn) : Life := turns.flatMap fun x => [.admitted x.admitted, .dispatched x.dispatched]

def InTurns (life : Life) : Prop := ∃ turns, life = ofTurns turns

/-- The last turn has only begun. -/
def InTurn (life : Life) : Prop := ∃ turns time, life = ofTurns turns ++ [.admitted time]

def Begun (life : Life) : Prop := ∃ before time, life = before ++ [.admitted time]

theorem ofTurns_concat (turns : List Turn) (x : Turn) :
    ofTurns (turns ++ [x]) = ofTurns turns ++ [.admitted x.admitted] ++ [.dispatched x.dispatched] := by
  simp [ofTurns]

theorem inTurns_nil : InTurns [] := ⟨[], rfl⟩

theorem begun_admitted (life : Life) (time : Ticks) : (life.prolong (.admitted time)).Begun := ⟨life, time, rfl⟩

theorem Begun.ne_nil {life : Life} (begun : life.Begun) : life ≠ [] := by
  obtain ⟨before, time, rfl⟩ := begun
  simp

theorem InTurns.admitted {life : Life} (inTurns : life.InTurns) (time : Ticks) :
    (life.prolong (.admitted time)).InTurn := by
  obtain ⟨turns, rfl⟩ := inTurns
  exact ⟨turns, time, rfl⟩

theorem InTurn.dispatched {life : Life} (inTurn : life.InTurn) (time : Ticks) :
    (life.prolong (.dispatched time)).InTurns := by
  obtain ⟨turns, start, rfl⟩ := inTurn
  rw [prolong, if_neg (by simp)]
  exact ⟨turns ++ [⟨start, time⟩], (ofTurns_concat turns ⟨start, time⟩).symm⟩

end Life

namespace Turn

def waited (turns : List Turn) : Ticks := (turns.map fun x => x.dispatched - x.admitted).sum

/-- How long a thread ran in its turns, each of them up to the next admission, and the last one up to `finish`. -/
def ran (turns : List Turn) (finish : Ticks) : Ticks :=
  (List.zipWith (fun x next => next - x.dispatched) turns (turns.tail.map (·.admitted) ++ [finish])).sum

theorem waited_concat (turns : List Turn) (x : Turn) :
    waited (turns ++ [x]) = waited turns + (x.dispatched - x.admitted) := by
  simp [waited]

theorem ran_concat {turns : List Turn} (nonempty : turns ≠ []) (x : Turn) (finish : Ticks) :
    ran (turns ++ [x]) finish = ran turns x.admitted + (finish - x.dispatched) := by
  have lengths : turns.length = (turns.tail.map (·.admitted) ++ [x.admitted]).length := by
    have positive := List.length_pos_iff.mpr nonempty
    simp only [List.length_append, List.length_map, List.length_tail, List.length_singleton]
    omega
  rw [ran, List.tail_append_of_ne_nil nonempty, List.map_append, List.map_singleton, List.zipWith_append lengths,
    List.sum_append, ran]
  simp

end Turn

namespace Accounts

variable {a : Accounts} {life : Life} {time : Ticks}

theorem Course.of_admitted (course : Course (life ++ [.admitted time]) a) :
    ∃ before, Course life before ∧ life.Until time ∧ before.enqueued time = .ok a := by
  generalize told : life ++ [.admitted time] = whole at course
  cases course with
  | unborn blank => simp at told
  | admitted course later done =>
      obtain ⟨rfl, same⟩ := List.append_inj' told rfl
      cases same
      exact ⟨_, course, later, done⟩
  | dispatched course born later done =>
      obtain ⟨rfl, same⟩ := List.append_inj' told rfl
      cases same

theorem Course.of_dispatched (course : Course (life ++ [.dispatched time]) a) :
    ∃ before, Course life before ∧ life.Until time ∧ before.scheduled time = .ok a := by
  generalize told : life ++ [.dispatched time] = whole at course
  cases course with
  | unborn blank => simp at told
  | admitted course later done =>
      obtain ⟨rfl, same⟩ := List.append_inj' told rfl
      cases same
  | dispatched course born later done =>
      obtain ⟨rfl, same⟩ := List.append_inj' told rfl
      cases same
      exact ⟨_, course, later, done⟩

theorem wait_enqueued {b : Accounts} (done : a.enqueued time = .ok b) : b.wait = a.wait := by
  unfold enqueued at done
  split at done
  · cases done
    rfl
  · split at done
    · obtain ⟨run, -, made⟩ := bind_eq_ok.mp done
      cases made
      rfl
    · cases done
      rfl
  · cases done
    rfl

theorem Course.unique {b : Accounts} (course : Course life a) (course' : Course life b) :
    a.Blank ∧ b.Blank ∨ a = b := by
  induction course generalizing b with
  | unborn blank => exact .inl ⟨blank, course'.blank⟩
  | admitted _ _ done ih =>
      obtain ⟨b₀, before, -, done'⟩ := course'.of_admitted
      right
      rcases ih before with ⟨blank, blank'⟩ | same
      · simp only [enqueued, blank.arrival] at done
        simp only [enqueued, blank'.arrival] at done'
        cases done
        cases done'
        rw [blank.run, blank'.run, blank.wait, blank'.wait]
      · subst same
        exact Except.ok.inj (done.symm.trans done')
  | dispatched course born _ done ih =>
      obtain ⟨b₀, before, -, done'⟩ := course'.of_dispatched
      rcases ih before with ⟨blank, -⟩ | same
      · exact absurd (course.eq_nil blank.arrival) born
      · subst same
        exact .inr (Except.ok.inj (done.symm.trans done'))

/-- A thread that is admitted twice before it is dispatched waits from the second admission on. Nothing is run in between,
unless it was dispatched at the very time of the first admission or later. -/
theorem Course.readmitted {b c : Accounts} {first second last : Ticks}
    (course : Course (life ++ [.admitted first] ++ [.admitted second] ++ [.dispatched last]) c) (before : Course life a)
    (between : Course (life ++ [.admitted first]) b) :
    c.wait = a.wait + (last - second) ∧ ((∀ time ∈ b.lastScheduled, time < first) → c.run = b.run) := by
  obtain ⟨c₂, course₂, -, dispatched⟩ := course.of_dispatched
  obtain ⟨c₁, course₁, later, readmitted⟩ := course₂.of_admitted
  obtain ⟨c₀, course₀, -, admitted⟩ := course₁.of_admitted
  have waited : c₀.wait = a.wait := by
    rcases course₀.unique before with ⟨blank, blank'⟩ | same
    · rw [blank.wait, blank'.wait]
    · rw [same]
  have same : c₁ = b := by
    rcases course₁.unique between with ⟨blank, -⟩ | same
    · have begun := course₁.eq_nil blank.arrival
      simp at begun
    · exact same
  subst same
  have enqueued := lastEnqueued_enqueued admitted
  rcases course₁.tallied with ⟨begun, -⟩ | ⟨arrival, _, tallied⟩
  · simp at begun
  · cases enqueued_ok readmitted tallied.arrival tallied.lastScheduled enqueued
    cases scheduled_ok dispatched tallied.lastScheduled rfl
    refine ⟨?_, fun early => ?_⟩
    · rw [if_pos later.since, wait_enqueued admitted, waited]
    · have earlier := early _ tallied.lastScheduled
      simp [Nat.not_le_of_lt earlier]

structure Turned (turns : List Turn) (x : Turn) (first : Ticks) (a : Accounts) : Prop where
  head : (turns ++ [x]).head?.map (·.admitted) = some first
  arrival : a.arrival = some first
  lastEnqueued : a.lastEnqueued = some x.admitted
  lastScheduled : a.lastScheduled = some x.dispatched
  order : x.admitted ≤ x.dispatched
  wait : a.wait = Turn.waited (turns ++ [x])
  run : ∀ finish, a.run + (finish - x.dispatched) = Turn.ran (turns ++ [x]) finish
  total : a.run + a.wait + first = x.dispatched

theorem turned_first {x : Turn} (blank : a.Blank) {b c : Accounts} (admitted : a.enqueued x.admitted = .ok b)
    (order : x.admitted ≤ x.dispatched) (dispatched : b.scheduled x.dispatched = .ok c) :
    Turned [] x x.admitted c := by
  have nothing : a.run + a.wait = 0 := by rw [blank.run, blank.wait]
  simp only [enqueued, blank.arrival] at admitted
  cases admitted
  cases scheduled_ok dispatched rfl rfl
  refine ⟨rfl, rfl, rfl, rfl, order, ?_, fun finish => ?_, ?_⟩
  · simp [Turn.waited, blank.wait]
  · simp [Turn.ran, blank.run]
  · simp only [Nat.le_refl, if_true, blank.run, blank.wait]
    grind

theorem Turned.next {turns : List Turn} {x y : Turn} {first : Ticks} {b c : Accounts}
    (turned : Turned turns x first a) (between : x.dispatched ≤ y.admitted) (order : y.admitted ≤ y.dispatched)
    (admitted : a.enqueued y.admitted = .ok b) (dispatched : b.scheduled y.dispatched = .ok c) :
    Turned (turns ++ [x]) y first c := by
  have nonempty : turns ++ [x] ≠ [] := by simp
  have total := turned.total
  have ran := turned.run y.admitted
  cases enqueued_ok admitted turned.arrival turned.lastScheduled turned.lastEnqueued
  cases scheduled_ok dispatched turned.lastScheduled rfl
  simp only [if_pos turned.order, if_pos between]
  refine ⟨?_, turned.arrival, rfl, rfl, order, ?_, fun finish => ?_, ?_⟩
  · rw [List.head?_append, Option.or_of_isSome (by simp)]
    exact turned.head
  · rw [Turn.waited_concat, turned.wait]
  · rw [Turn.ran_concat nonempty, ← ran]
  · grind

theorem Course.turned {turns : List Turn} {x : Turn} (course : Course (Life.ofTurns (turns ++ [x])) a) :
    ∃ first, Turned turns x first a := by
  induction turns using List.reverseRecOn generalizing x a with
  | nil =>
      rw [Life.ofTurns_concat] at course
      obtain ⟨b, admitted, later, dispatched⟩ := course.of_dispatched
      obtain ⟨a₀, unborn, -, begun⟩ := admitted.of_admitted
      have order : x.admitted ≤ x.dispatched := later _ (List.mem_append_right _ (List.mem_singleton_self _))
      exact ⟨_, turned_first unborn.blank begun order dispatched⟩
  | append_singleton turns y ih =>
      rw [Life.ofTurns_concat] at course
      obtain ⟨b, admitted, later, dispatched⟩ := course.of_dispatched
      obtain ⟨a₀, before, earlier, begun⟩ := admitted.of_admitted
      have order : x.admitted ≤ x.dispatched := later _ (List.mem_append_right _ (List.mem_singleton_self _))
      have between : y.dispatched ≤ x.admitted := by
        refine earlier (.dispatched y.dispatched) ?_
        rw [Life.ofTurns_concat]
        exact List.mem_append_right _ (List.mem_singleton_self _)
      obtain ⟨first, turned⟩ := ih before
      exact ⟨first, turned.next between order begun dispatched⟩

end Accounts

open Accounts

/-- The record of a life in turns: its times add up to the life. -/
theorem Lifetime.Closes.balanced {record : Lifetime} {turns : List Turn} (closes : record.Closes (Life.ofTurns turns)) :
    turns.head?.map (·.admitted) = some record.arrival ∧ record.wait = Turn.waited turns ∧
      record.run = Turn.ran turns record.finish ∧ record.run + record.wait = record.finish - record.arrival := by
  obtain ⟨upTo, a, course, arrival, closed⟩ := closes
  cases turns using List.reverseRecOn with
  | nil => cases course.blank.arrival.symm.trans arrival
  | append_singleton rest x =>
      have last : x.dispatched ≤ record.finish := by
        refine upTo (.dispatched x.dispatched) ?_
        rw [Life.ofTurns_concat]
        exact List.mem_append_right _ (List.mem_singleton_self _)
      obtain ⟨first, turned⟩ := course.turned
      obtain rfl : first = record.arrival := Option.some.inj (turned.arrival.symm.trans arrival)
      have drawn := close_ok closed turned.lastScheduled
      have run : record.run = a.run + (record.finish - x.dispatched) := congrArg Lifetime.run drawn
      have wait : record.wait = a.wait := congrArg Lifetime.wait drawn
      have total := turned.total
      exact ⟨turned.head, wait.trans turned.wait, run.trans (turned.run record.finish), by grind⟩

end PriorityScheduler
