import Mathlib.Algebra.GroupWithZero.Nat
import PriorityScheduler.Proofs.Accounts
import PriorityScheduler.Proofs.Drifts

/-!
# Aging through many stretches

A thread waits from an admission, or runs from a dispatch, up to the last look at it. However many such stretches there
are and however often the thread is looked at in each, the base has moved by the whole intervals of the time of all
stretches together, unless it came to the end of the range, and the rest is carried over. Looks in between leave no trace.
This takes a range that is no wider than the numbers that count up: across a wider one a look may be due more steps than it
can count, and those beyond are lost.

Main statements: `look_exact_iff`, `Drifted.look`, `Drifted.through` and `throughAll_eq`.
-/

namespace PriorityScheduler

open Accounts

/-- What a thread does meanwhile. A wait ages it toward the more urgent end, a run toward the less urgent. -/
inductive Pursuit where
  | waiting
  | running
  deriving DecidableEq, Repr, Inhabited

def Pursuit.other : Pursuit → Pursuit
  | .waiting => .running
  | .running => .waiting

/-- A priority after some steps, with no regard to the limits of numbers. -/
def Config.drifted (config : Config) (p : Priority) (steps : Nat) : Pursuit → Priority
  | .waiting => max config.mostUrgent (p - steps)
  | .running => min config.leastUrgent (p + steps)

def Config.room (config : Config) (p : Priority) : Pursuit → Int
  | .waiting => p - config.mostUrgent
  | .running => config.leastUrgent - p

/-- Priorities as they can be written down, with a range of any width. -/
structure Config.Bounded (config : Config) : Prop where
  lowest : Priority.lowest ≤ config.mostUrgent
  highest : config.leastUrgent ≤ Priority.highest

def Config.unlimited : Config := { mostUrgent := Priority.lowest, leastUrgent := Priority.highest }

theorem Config.bounded_unlimited : Config.unlimited.Bounded := ⟨Int.le_refl _, Int.le_refl _⟩

structure Config.Narrow (config : Config) : Prop where
  lowest : Priority.lowest ≤ config.mostUrgent
  highest : config.leastUrgent ≤ Priority.highest
  width : config.leastUrgent - config.mostUrgent ≤ Priority.highest

theorem Config.drifted_zero {config : Config} {p : Priority} (inside : config.inRange p = true) (pursuit : Pursuit) :
    config.drifted p 0 pursuit = p := by
  obtain ⟨most, least⟩ := Config.inRange_iff.mp inside
  cases pursuit <;> unfold drifted <;> grind

theorem Config.drifted_drifted (config : Config) (p : Priority) (m n : Nat) (pursuit : Pursuit) :
    config.drifted (config.drifted p m pursuit) n pursuit = config.drifted p (m + n) pursuit := by
  cases pursuit <;> unfold drifted <;> grind

theorem Config.inRange_drifted {config : Config} {p : Priority} (inside : config.inRange p = true) (n : Nat)
    (pursuit : Pursuit) : config.inRange (config.drifted p n pursuit) = true := by
  obtain ⟨most, least⟩ := Config.inRange_iff.mp inside
  rw [Config.inRange_iff]
  cases pursuit <;> unfold drifted <;> grind

/-- A count that is cut where the numbers end leads to the same place only if the end of the range is no further off. -/
theorem Config.drifted_min_eq_iff {config : Config} {p : Priority} {n : Nat} (inside : config.inRange p = true)
    (pursuit : Pursuit) :
    config.drifted p (min n Priority.highest.toNat) pursuit = config.drifted p n pursuit ↔
      n ≤ Priority.highest.toNat ∨ config.room p pursuit ≤ Priority.highest := by
  cases pursuit with
  | waiting => exact sub_min_eq_iff inside
  | running => exact add_min_eq_iff inside

theorem Config.Narrow.bounded {config : Config} (narrow : config.Narrow) : config.Bounded :=
  ⟨narrow.lowest, narrow.highest⟩

theorem Config.Narrow.drifted_min {config : Config} {p : Priority} (narrow : config.Narrow)
    (inside : config.inRange p = true) (n : Nat) (pursuit : Pursuit) :
    config.drifted p (min n Priority.highest.toNat) pursuit = config.drifted p n pursuit := by
  obtain ⟨most, least⟩ := Config.inRange_iff.mp inside
  refine (drifted_min_eq_iff inside pursuit).mpr (.inr (Int.le_trans ?_ narrow.width))
  cases pursuit with
  | waiting => exact Int.sub_le_sub_right least config.mostUrgent
  | running => exact Int.sub_le_sub_left most config.leastUrgent

def Accounts.opened? (a : Accounts) : Pursuit → Option Ticks
  | .waiting => a.lastEnqueued
  | .running => a.lastScheduled

namespace ThreadState

def drift (s : ThreadState) : Pursuit → Drift
  | .waiting => s.waitDrift
  | .running => s.runDrift

def begin (s : ThreadState) (now : Ticks) : Pursuit → Except Fault ThreadState
  | .waiting => s.enqueued now
  | .running => s.scheduled now

def look (s : ThreadState) (interval : Ticks) (config : Config) (now : Ticks) : Pursuit → Except Fault ThreadState
  | .waiting => (s.ageWaiting interval config now).map (·.value.state)
  | .running => (s.ageRunning interval config now).map (·.value.state)

variable {s : ThreadState} {config : Config} {interval now start : Ticks} {pursuit : Pursuit} {life : Life}

theorem exists_begin (course : Course life s.accounts) (later : life.Until now) (early : now < Ticks.bound)
    (pursuit : Pursuit) : ∃ a, s.begin now pursuit = .ok { s with accounts := a } ∧ a.opened? pursuit = some now ∧
      ∃ life' : Life, Course life' a ∧ life'.Until now := by
  cases pursuit with
  | waiting =>
      obtain ⟨a, done⟩ := course.exists_enqueued later early
      exact ⟨a, bind_eq_ok.mpr ⟨a, done, rfl⟩, lastEnqueued_enqueued done, _, course.admitted later done,
        Life.until_prolong (m := .admitted now) later⟩
  | running =>
      obtain ⟨a, done⟩ := course.exists_scheduled later early
      exact ⟨a, bind_eq_ok.mpr ⟨a, done, rfl⟩, lastScheduled_scheduled done, _, course.prolong_dispatched later done,
        Life.until_prolong later⟩

theorem exists_look (positive : 0 < interval) (ordinary : s.thread.isExempt = false) (bounded : config.Bounded)
    (inside : config.inRange s.base = true) (opened : s.accounts.opened? pursuit = some start)
    (short : (s.drift pursuit).span start now < Ticks.bound) : ∃ s', s.look interval config now pursuit = .ok s' ∧
      s'.thread = s.thread ∧ s'.accounts = s.accounts ∧
      s'.base = config.drifted s.base (min ((s.drift pursuit).span start now / interval) Priority.highest.toNat) pursuit ∧
      s'.drift pursuit = (s.drift pursuit).looked interval start now := by
  obtain ⟨most, least⟩ := Config.inRange_iff.mp inside
  have range := Int.le_trans most least
  have ages : s.ages interval = true := by
    rw [ThreadState.ages, ordinary, Bool.not_false, Bool.and_true]
    exact decide_eq_true positive
  have still {n : Nat} (none : Priority.ofCount n = 0) :
      s.base = config.drifted s.base (min n Priority.highest.toNat) pursuit := by
    rw [Priority.ofCount_eq_zero.mp none, Nat.zero_min, Config.drifted_zero inside]
  cases pursuit with
  | waiting =>
      have total : (∃ n, s.ageWaiting interval config now = .ok n) ∨ _ := ageWaiting_total range
      rcases total with ⟨n, done⟩ | ⟨-, start', admitted, large⟩
      · obtain ⟨-, stepped⟩ := ageWaiting_eq_ok ages opened done
        refine ⟨_, map_eq_ok.mpr ⟨n, done, rfl⟩, stepped.thread, stepped.accounts, ?_, stepped.waitDrift⟩
        rcases stepped.base range with ⟨none, same⟩ | moved
        · exact same.trans (still none)
        · exact moved.trans (minus_ofCount bounded.lowest bounded.highest inside)
      · cases opened.symm.trans admitted
        exact absurd short (Nat.not_lt.mpr large)
  | running =>
      have total : (∃ n, s.ageRunning interval config now = .ok n) ∨ _ := ageRunning_total range
      rcases total with ⟨n, done⟩ | ⟨-, start', dispatched, large⟩
      · obtain ⟨-, stepped⟩ := ageRunning_eq_ok ages opened done
        refine ⟨_, map_eq_ok.mpr ⟨n, done, rfl⟩, stepped.thread, stepped.accounts, ?_, stepped.runDrift⟩
        rcases stepped.base range with ⟨none, same⟩ | moved
        · exact same.trans (still none)
        · exact moved.trans (plus_ofCount bounded.lowest bounded.highest inside)
      · cases opened.symm.trans dispatched
        exact absurd short (Nat.not_lt.mpr large)

/-- A look takes all steps that are due, unless they are more than numbers count up to and the end of the range is even
further off than that. The steps that it leaves out are not carried over. -/
theorem look_exact_iff (pursuit : Pursuit) (positive : 0 < interval) (ordinary : s.thread.isExempt = false)
    (bounded : config.Bounded) (inside : config.inRange s.base = true) (opened : s.accounts.opened? pursuit = some start)
    (short : (s.drift pursuit).span start now < Ticks.bound) :
    let steps := (s.drift pursuit).span start now / interval
    ∃ s', s.look interval config now pursuit = .ok s' ∧
      s'.base = config.drifted s.base (min steps Priority.highest.toNat) pursuit ∧
      (s'.drift pursuit).carry = (s.drift pursuit).span start now % interval ∧
      (s'.base = config.drifted s.base steps pursuit ↔
        steps ≤ Priority.highest.toNat ∨ config.room s.base pursuit ≤ Priority.highest) := by
  intro steps
  obtain ⟨s', done, -, -, base, drift⟩ := exists_look positive ordinary bounded inside opened short
  refine ⟨s', done, base, ?_, ?_⟩
  · rw [drift]
    rfl
  · rw [base]
    exact Config.drifted_min_eq_iff inside pursuit

def beginner (p : Priority) (time : Ticks) : ThreadState :=
  { new ⟨⟨2⟩, "worker", .ordinary⟩ p with accounts := ⟨some time, some time, some time, 0, 0⟩ }

/-- There is one step more from 0 to the lowest number than to the highest. When that many are due, a run takes all that
the range has, and a wait does not. -/
theorem look_exact_iff_unlimited :
    (∃ s', (beginner 0 5).look 10 .unlimited 21474836492 .waiting = .ok s' ∧ s'.base = -2147483647 ∧
      s'.waitDrift.carry = 7 ∧ s'.base ≠ Config.unlimited.drifted 0 2147483648 .waiting) ∧
      ∃ s', (beginner 0 5).look 10 .unlimited 21474836492 .running = .ok s' ∧ s'.base = 2147483647 ∧
        s'.runDrift.carry = 7 ∧ s'.base = Config.unlimited.drifted 0 2147483648 .running := by
  have ordinary : (beginner 0 5).thread.isExempt = false := rfl
  have inside : Config.unlimited.inRange (beginner 0 5).base = true := by decide
  constructor
  · have short : ((beginner 0 5).drift .waiting).span 5 21474836492 < Ticks.bound := by decide
    have due : ((beginner 0 5).drift .waiting).span 5 21474836492 / 10 = 2147483648 := rfl
    obtain ⟨s', done, base, carry, all⟩ :=
      look_exact_iff .waiting (by decide : 0 < 10) ordinary Config.bounded_unlimited inside rfl short
    rw [due] at base all
    exact ⟨s', done, base, carry, fun same => absurd (all.mp same) (by decide)⟩
  · have short : ((beginner 0 5).drift .running).span 5 21474836492 < Ticks.bound := by decide
    have due : ((beginner 0 5).drift .running).span 5 21474836492 / 10 = 2147483648 := rfl
    obtain ⟨s', done, base, carry, all⟩ :=
      look_exact_iff .running (by decide : 0 < 10) ordinary Config.bounded_unlimited inside rfl short
    rw [due] at base all
    exact ⟨s', done, base, carry, all.mpr (by decide)⟩

theorem exists_shortfall : ∃ (config : Config) (s s' : ThreadState) (now : Ticks),
    config.validate = .ok () ∧ config.Bounded ∧ s.thread.isExempt = false ∧ config.inRange s.base = true ∧
      s.accounts.lastEnqueued = some 0 ∧ s.waitDrift.carry < 1 ∧ s.waitDrift.span 0 now < Ticks.bound ∧
      s.look 1 config now .waiting = .ok s' ∧
      s'.base ≠ config.drifted s.base (s.waitDrift.span 0 now / 1) .waiting ∧
      ∃ s'', [2147483647, 4294967294, now].foldlM (fun s time => s.look 1 config time .waiting) s = .ok s'' ∧
        s''.base = config.drifted s.base (s.waitDrift.span 0 now / 1) .waiting := by
  have once : (beginner Priority.highest 0).look 1 .unlimited 4294967295 .waiting =
      .ok { beginner 0 0 with waitDrift := ⟨0, some 4294967295⟩ } := rfl
  have often : [2147483647, 4294967294, 4294967295].foldlM (fun s time => s.look 1 .unlimited time .waiting)
      (beginner Priority.highest 0) = .ok { beginner Priority.lowest 0 with waitDrift := ⟨0, some 4294967295⟩ } := rfl
  exact ⟨.unlimited, beginner Priority.highest 0, _, 4294967295, rfl, Config.bounded_unlimited, rfl, by decide, rfl,
    by decide, by decide, once, by decide, _, often, by decide⟩

/-- Where a thread stands that has pursued one thing for some time in all and was looked at no later than now. -/
structure Drifted (s : ThreadState) (interval : Ticks) (config : Config) (pursuit : Pursuit) (b : Priority)
    (total now : Ticks) : Prop where
  ordinary : s.thread.isExempt = false
  base : s.base = config.drifted b (total / interval) pursuit
  carry : (s.drift pursuit).carry = total % interval
  marked : ∀ m ∈ (s.drift pursuit).mark, m ≤ now
  within : total ≤ now
  course : ∃ life : Life, Course life s.accounts ∧ life.Until now

namespace Drifted

variable {b : Priority} {total now' : Ticks}

theorem begin (drifted : s.Drifted interval config pursuit b total now) (passed : now ≤ now') (early : now' < Ticks.bound)
    (pursuit' : Pursuit) : ∃ s', s.begin now' pursuit' = .ok s' ∧ s'.Drifted interval config pursuit b total now' ∧
      s'.accounts.opened? pursuit' = some now' ∧ s'.drift pursuit = s.drift pursuit := by
  obtain ⟨life, course, upTo⟩ := drifted.course
  obtain ⟨a, done, opened, life', course', upTo'⟩ := exists_begin course (upTo.later passed) early pursuit'
  have drift : { s with accounts := a }.drift pursuit = s.drift pursuit := by cases pursuit <;> rfl
  refine ⟨_, done, ⟨drifted.ordinary, drifted.base, ?_, ?_, ?_, life', course', upTo'⟩, opened, drift⟩
  · rw [drift]
    exact drifted.carry
  · rw [drift]
    exact fun m marked => Nat.le_trans (drifted.marked m marked) passed
  · exact Nat.le_trans drifted.within passed

theorem look (drifted : s.Drifted interval config pursuit b total now) (positive : 0 < interval) (narrow : config.Narrow)
    (inside : config.inRange b = true) (opened : s.accounts.opened? pursuit = some start)
    (since : (s.drift pursuit).since start = now) (passed : now ≤ now') (early : now' < Ticks.bound) :
    ∃ s', s.look interval config now' pursuit = .ok s' ∧
      s'.Drifted interval config pursuit b (total + (now' - now)) now' ∧
      s'.accounts.opened? pursuit = some start ∧ (s'.drift pursuit).since start = now' := by
  have within := drifted.within
  have carry := drifted.carry
  have span : (s.drift pursuit).span start now' = total % interval + (now' - now) := by
    rw [Drift.span, since, carry, Nat.add_comm]
    rfl
  have rest : total % interval ≤ total := Nat.mod_le total interval
  have short : (s.drift pursuit).span start now' < Ticks.bound := by
    rw [span]
    grind
  have inside' : config.inRange s.base = true := drifted.base ▸ Config.inRange_drifted inside _ pursuit
  obtain ⟨s', done, thread, accounts, base, drift⟩ :=
    exists_look positive drifted.ordinary narrow.bounded inside' opened short
  refine ⟨s', done, ⟨thread ▸ drifted.ordinary, ?_, ?_, ?_, ?_, ?_⟩, accounts ▸ opened, ?_⟩
  · rw [base, narrow.drifted_min inside', drifted.base, Config.drifted_drifted, span]
    congr 1
    symm
    calc (total + (now' - now)) / interval
      _ = (interval * (total / interval) + (total % interval + (now' - now))) / interval := by
        rw [← Nat.add_assoc, Nat.div_add_mod]
      _ = total / interval + (total % interval + (now' - now)) / interval := Nat.mul_add_div positive _ _
  · rw [drift, Drift.carry_looked carry, since]
  · rw [drift]
    rintro m ⟨⟩
    exact Nat.le_refl now'
  · grind
  · obtain ⟨life, course, upTo⟩ := drifted.course
    exact ⟨life, accounts ▸ course, upTo.later passed⟩
  · rw [drift]
    have started : start ≤ now := since ▸ Drift.le_since _ start
    exact Nat.max_eq_left (Nat.le_trans started passed)

theorem looks {looks : List Ticks} (drifted : s.Drifted interval config pursuit b total now) (positive : 0 < interval)
    (narrow : config.Narrow) (inside : config.inRange b = true) (opened : s.accounts.opened? pursuit = some start)
    (since : (s.drift pursuit).since start = now) (ordered : (now :: (looks ++ [now'])).Pairwise (· ≤ ·))
    (early : now' < Ticks.bound) :
    ∃ s', (looks ++ [now']).foldlM (fun s time => s.look interval config time pursuit) s = .ok s' ∧
      s'.Drifted interval config pursuit b (total + (now' - now)) now' := by
  induction looks generalizing s now total with
  | nil =>
      obtain ⟨passed, -⟩ := List.pairwise_cons.mp ordered
      obtain ⟨s', done, drifted', -⟩ :=
        drifted.look positive narrow inside opened since (passed now' (List.mem_singleton_self now')) early
      exact ⟨s', bind_eq_ok.mpr ⟨s', done, rfl⟩, drifted'⟩
  | cons time rest ih =>
      obtain ⟨passed, later⟩ := List.pairwise_cons.mp ordered
      have first : now ≤ time := passed time List.mem_cons_self
      have last : time ≤ now' := (List.pairwise_cons.mp later).1 now' (List.mem_append_right rest List.mem_cons_self)
      obtain ⟨s', done, drifted', opened', since'⟩ :=
        drifted.look positive narrow inside opened since first (Nat.lt_of_le_of_lt last early)
      obtain ⟨s'', all, drifted''⟩ := ih drifted' opened' since' later
      refine ⟨s'', bind_eq_ok.mpr ⟨s', done, all⟩, ?_⟩
      rwa [Nat.add_assoc, Nat.add_comm (time - now), Nat.sub_add_sub_cancel last first] at drifted''

theorem rests {times : List Ticks} (drifted : s.Drifted interval config pursuit b total now)
    (ordered : (now :: times).Pairwise (· ≤ ·)) (early : ∀ time ∈ times, time < Ticks.bound) (pursuit' : Pursuit) :
    ∃ s', times.foldlM (fun s time => s.begin time pursuit') s = .ok s' ∧
      ∃ now' ∈ now :: times, s'.Drifted interval config pursuit b total now' := by
  induction times generalizing s now with
  | nil => exact ⟨s, rfl, now, List.mem_cons_self, drifted⟩
  | cons time rest ih =>
      obtain ⟨passed, later⟩ := List.pairwise_cons.mp ordered
      obtain ⟨early, early'⟩ := List.forall_mem_cons.mp early
      obtain ⟨s', done, drifted', -⟩ := drifted.begin (passed time List.mem_cons_self) early pursuit'
      obtain ⟨s'', all, now', member, drifted''⟩ := ih drifted' later early'
      exact ⟨s'', bind_eq_ok.mpr ⟨s', done, all⟩, now', List.mem_cons_of_mem now member, drifted''⟩

end Drifted

end ThreadState

/-! ## Stretches -/

/-- A stretch of one pursuit with the looks that fell into it, the last one at its end, and when the thread turned to the
other pursuit before the next stretch. -/
structure Stretch where
  start : Ticks
  looks : List Ticks
  finish : Ticks
  rests : List Ticks := []
  deriving DecidableEq, Repr, Inhabited

namespace Stretch

def times (x : Stretch) : List Ticks := x.start :: (x.looks ++ [x.finish]) ++ x.rests

def total (stretches : List Stretch) : Ticks := (stretches.map fun x => x.finish - x.start).sum

def unwatched (x : Stretch) : Stretch := { x with looks := [] }

theorem sublist_unwatched (stretches : List Stretch) :
    List.Sublist ((stretches.map unwatched).flatMap times) (stretches.flatMap times) := by
  induction stretches with
  | nil => exact .refl []
  | cons x rest ih =>
      refine List.Sublist.append (List.Sublist.append ?_ (.refl x.rests)) ih
      exact (List.sublist_append_right x.looks [x.finish]).cons_cons x.start

theorem total_unwatched (stretches : List Stretch) : total (stretches.map unwatched) = total stretches := by
  rw [total, List.map_map]
  rfl

end Stretch

namespace ThreadState

def through (interval : Ticks) (config : Config) (pursuit : Pursuit) (s : ThreadState) (x : Stretch) :
    Except Fault ThreadState := do
  let s ← s.begin x.start pursuit
  let s ← (x.looks ++ [x.finish]).foldlM (fun s time => s.look interval config time pursuit) s
  x.rests.foldlM (fun s time => s.begin time pursuit.other) s

def throughAll (s : ThreadState) (interval : Ticks) (config : Config) (pursuit : Pursuit) (stretches : List Stretch) :
    Except Fault ThreadState :=
  stretches.foldlM (through interval config pursuit) s

variable {s : ThreadState} {config : Config} {interval now : Ticks} {pursuit : Pursuit} {b : Priority} {total : Ticks}

theorem Drifted.through {x : Stretch} (drifted : s.Drifted interval config pursuit b total now) (positive : 0 < interval)
    (narrow : config.Narrow) (inside : config.inRange b = true) (ordered : (now :: x.times).Pairwise (· ≤ ·))
    (early : ∀ time ∈ x.times, time < Ticks.bound) :
    ∃ s', s.through interval config pursuit x = .ok s' ∧
      ∃ now' ∈ x.times, s'.Drifted interval config pursuit b (total + (x.finish - x.start)) now' := by
  obtain ⟨passed, within⟩ := List.pairwise_cons.mp ordered
  obtain ⟨watched, rests, between⟩ := List.pairwise_append.mp within
  have start : x.start ∈ x.times := List.mem_cons_self
  have finish : x.finish ∈ x.start :: (x.looks ++ [x.finish]) :=
    List.mem_cons_of_mem x.start (List.mem_append_right x.looks List.mem_cons_self)
  obtain ⟨s₁, begun, drifted₁, opened, drift⟩ := drifted.begin (passed x.start start) (early x.start start) pursuit
  have since : (s₁.drift pursuit).since x.start = x.start := by
    rw [drift]
    exact Drift.since_eq_start fun m marked => Nat.le_trans (drifted.marked m marked) (passed x.start start)
  obtain ⟨s₂, looked, drifted₂⟩ := drifted₁.looks positive narrow inside opened since watched
    (early x.finish (List.mem_append_left x.rests finish))
  obtain ⟨s₃, rested, now', member, drifted₃⟩ := drifted₂.rests
    (List.pairwise_cons.mpr ⟨between x.finish finish, rests⟩)
    (fun time member => early time (List.mem_append_right _ member)) pursuit.other
  refine ⟨s₃, bind_eq_ok.mpr ⟨s₁, begun, bind_eq_ok.mpr ⟨s₂, looked, rested⟩⟩, now', ?_, drifted₃⟩
  rcases List.mem_cons.mp member with rfl | later
  · exact List.mem_append_left x.rests finish
  · exact List.mem_append_right _ later

theorem Drifted.throughAll {stretches : List Stretch} (drifted : s.Drifted interval config pursuit b total now)
    (positive : 0 < interval) (narrow : config.Narrow) (inside : config.inRange b = true)
    (ordered : (now :: stretches.flatMap Stretch.times).Pairwise (· ≤ ·))
    (early : ∀ time ∈ stretches.flatMap Stretch.times, time < Ticks.bound) :
    ∃ s' now', s.throughAll interval config pursuit stretches = .ok s' ∧
      s'.Drifted interval config pursuit b (total + Stretch.total stretches) now' := by
  induction stretches generalizing s now total with
  | nil => exact ⟨s, now, rfl, drifted⟩
  | cons x rest ih =>
      rw [List.flatMap_cons] at ordered early
      obtain ⟨passed, within⟩ := List.pairwise_cons.mp ordered
      obtain ⟨first, later, between⟩ := List.pairwise_append.mp within
      obtain ⟨s', done, now', member, drifted'⟩ := drifted.through positive narrow inside
        (List.pairwise_cons.mpr ⟨fun time member => passed time (List.mem_append_left _ member), first⟩)
        fun time member => early time (List.mem_append_left _ member)
      obtain ⟨s'', now'', all, drifted''⟩ := ih drifted' (List.pairwise_cons.mpr ⟨between now' member, later⟩)
        fun time member => early time (List.mem_append_right _ member)
      refine ⟨s'', now'', bind_eq_ok.mpr ⟨s', done, all⟩, ?_⟩
      rw [Stretch.total, List.map_cons, List.sum_cons, ← Nat.add_assoc]
      exact drifted''

/-- However a thread that never aged is looked at in its stretches, its base has moved by the whole intervals of their time
and the rest is carried over, which is what one look at the end of each stretch leads to. -/
theorem throughAll_eq {life : Life} (pursuit : Pursuit) (stretches : List Stretch) (positive : 0 < interval)
    (narrow : config.Narrow) (ordinary : s.thread.isExempt = false) (inside : config.inRange s.base = true)
    (fresh : s.drift pursuit = {}) (course : Course life s.accounts) (upTo : life.Until now)
    (ordered : (now :: stretches.flatMap Stretch.times).Pairwise (· ≤ ·))
    (early : ∀ time ∈ stretches.flatMap Stretch.times, time < Ticks.bound) :
    ∃ s', s.throughAll interval config pursuit stretches = .ok s' ∧
      s'.base = config.drifted s.base (Stretch.total stretches / interval) pursuit ∧
      (s'.drift pursuit).carry = Stretch.total stretches % interval ∧
      ∃ s'', s.throughAll interval config pursuit (stretches.map Stretch.unwatched) = .ok s'' ∧
        s''.base = s'.base ∧ (s''.drift pursuit).carry = (s'.drift pursuit).carry := by
  have start : s.Drifted interval config pursuit s.base 0 now := by
    refine ⟨ordinary, ?_, ?_, ?_, Nat.zero_le now, life, course, upTo⟩
    · rw [Nat.zero_div, Config.drifted_zero inside]
    · rw [fresh, Nat.zero_mod]
    · rw [fresh]
      exact nofun
  have sublist := Stretch.sublist_unwatched stretches
  obtain ⟨s', _, done, drifted⟩ := start.throughAll positive narrow inside ordered early
  obtain ⟨s'', _, done', drifted'⟩ := start.throughAll positive narrow inside (ordered.sublist (sublist.cons_cons now))
    fun time member => early time (sublist.subset member)
  rw [Nat.zero_add] at drifted drifted'
  rw [Stretch.total_unwatched] at drifted'
  exact ⟨s', done, drifted.base, drifted.carry, s'', done', drifted'.base.trans drifted.base.symm,
    drifted'.carry.trans drifted.carry.symm⟩

theorem throughAll_eq_twice :
    let s : ThreadState := .new ⟨⟨2⟩, "worker", .ordinary⟩ 20
    (∃ s', s.throughAll 10 {} .waiting [⟨0, [3, 7], 14, [14]⟩, ⟨30, [], 41, []⟩] = .ok s' ∧ s'.base = 18 ∧
      s'.waitDrift.carry = 5) ∧
      ∃ s', s.throughAll 10 {} .running [⟨0, [99, 101], 200, []⟩, ⟨200, [], 405, []⟩] = .ok s' ∧ s'.base = 40 ∧
        s'.runDrift.carry = 5 := by
  intro s
  have narrow : Config.Narrow {} := ⟨by decide, by decide, by decide⟩
  have course : Course [] s.accounts := .unborn blank_new
  have upTo : Life.Until [] 0 := nofun
  constructor
  · obtain ⟨s', done, base, carry, -⟩ := throughAll_eq .waiting [⟨0, [3, 7], 14, [14]⟩, ⟨30, [], 41, []⟩]
      (by decide : 0 < 10) narrow rfl (by decide) rfl course upTo (by decide) (by decide)
    exact ⟨s', done, base, carry⟩
  · obtain ⟨s', done, base, carry, -⟩ := throughAll_eq .running [⟨0, [99, 101], 200, []⟩, ⟨200, [], 405, []⟩]
      (by decide : 0 < 10) narrow rfl (by decide) rfl course upTo (by decide) (by decide)
    exact ⟨s', done, base, carry⟩

end ThreadState

end PriorityScheduler
