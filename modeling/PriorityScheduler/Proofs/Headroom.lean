import PriorityScheduler.Proofs.Overflow
import PriorityScheduler.Proofs.Stretches

namespace PriorityScheduler

open Accounts

def Accounts.latest (a : Accounts) : Ticks := max (a.lastEnqueued.getD 0) (a.lastScheduled.getD 0)

namespace Accounts

variable {a : Accounts} {life : Life} {now first : Ticks}

theorem Course.counted_le (course : Course life a) (upTo : life.Until now) (arrived : a.arrival = some first) :
    first + (a.run + a.wait) ≤ a.latest ∧ a.latest ≤ now := by
  rcases course.tallied with ⟨-, blank⟩ | ⟨first', last, tallied⟩
  · cases blank.arrival.symm.trans arrived
  · cases tallied.arrival.symm.trans arrived
    have latest : a.latest = max last life.since := by
      simp [latest, tallied.lastEnqueued, tallied.lastScheduled]
    have counted := tallied.counted
    have reached : life.since + life.doubled ≤ max life.since last := Life.since_add_doubled_le tallied.latest
    have dispatched : life.since ≤ now := upTo.since
    have admitted : last ≤ now := upTo.admissions tallied.member
    rw [latest]
    grind

theorem Course.nothing (course : Course life a) (unborn : a.arrival = none) : a.run + a.wait = 0 := by
  cases course.eq_nil unborn
  have blank := course.blank
  simp [blank.run, blank.wait]

theorem Course.run_le {dispatched : Ticks} (course : Course life a) (upTo : life.Until now)
    (on : a.lastScheduled = some dispatched) (ran : ranSince dispatched a.lastEnqueued = true) :
    a.run + Ticks.elapsed dispatched now ≤ now := by
  unfold Ticks.elapsed
  cases arrived : a.arrival with
  | none =>
      have nothing := course.nothing arrived
      grind
  | some first =>
      rcases course.tallied with ⟨-, blank⟩ | ⟨_, last, tallied⟩
      · cases blank.arrival.symm.trans arrived
      · obtain ⟨counted, reached⟩ := course.counted_le upTo arrived
        have before : last ≤ dispatched := by simpa [ranSince, tallied.lastEnqueued] using ran
        rw [latest, on, tallied.lastEnqueued, Option.getD_some, Option.getD_some, Nat.max_eq_right before] at counted reached
        grind

theorem Course.wait_le {admitted : Ticks} (course : Course life a) (upTo : life.Until now)
    (last : a.lastEnqueued = some admitted) (waited : waitedSince admitted a.lastScheduled = true) :
    a.wait + Ticks.elapsed admitted now ≤ now := by
  unfold Ticks.elapsed
  cases arrived : a.arrival with
  | none =>
      have nothing := course.nothing arrived
      grind
  | some first =>
      rcases course.tallied with ⟨-, blank⟩ | ⟨_, _, tallied⟩
      · cases blank.arrival.symm.trans arrived
      · obtain ⟨counted, reached⟩ := course.counted_le upTo arrived
        have before : life.since ≤ admitted := by simpa [waitedSince, tallied.lastScheduled] using waited
        rw [latest, last, tallied.lastScheduled, Option.getD_some, Option.getD_some, Nat.max_eq_left before] at counted reached
        grind

end Accounts

def Priority.shift (p : Priority) (steps : Int) : Pursuit → Priority
  | .waiting => p.minus steps
  | .running => p.plus steps

namespace ThreadState

variable {s s' : ThreadState} {config : Config} {interval now : Ticks} {pursuit : Pursuit}

def withDrift (s : ThreadState) (d : Drift) : Pursuit → ThreadState
  | .waiting => { s with waitDrift := d }
  | .running => { s with runDrift := d }

@[simp] theorem accounts_withDrift (s : ThreadState) (d : Drift) (pursuit : Pursuit) :
    (s.withDrift d pursuit).accounts = s.accounts := by cases pursuit <;> rfl

theorem drift_withDrift (s : ThreadState) (d : Drift) (pursuit pursuit' : Pursuit) :
    (s.withDrift d pursuit).drift pursuit' = if pursuit' = pursuit then d else s.drift pursuit' := by
  cases pursuit <;> cases pursuit' <;> rfl

theorem map_moved (s : ThreadState) (config : Config) (steps : Int) (p : Priority) (note : Priority → Notice) :
    (if steps = 0 then pure s.unchanged else do
      let p ← config.clamp p
      let change ← s.setPriority config p
      pure ⟨change, [note p]⟩ : Except Fault (Noted Change)).map (·.value.state) =
    if steps = 0 then .ok s else (s.setNearestPriority config p).map (·.state) := by
  split
  · rfl
  · unfold setNearestPriority
    cases config.clamp p with
    | error f => rfl
    | ok q =>
        show Except.map _ (s.setPriority config q >>= _) = (s.setPriority config q).map _
        cases s.setPriority config q <;> rfl

theorem look_eq (s : ThreadState) (interval : Ticks) (config : Config) (now : Ticks) (pursuit : Pursuit) :
    s.look interval config now pursuit =
      if s.ages interval = false then .ok s
      else match s.accounts.opened? pursuit with
        | none => .ok s
        | some start => (do
            let (steps, d) ← (s.drift pursuit).advance interval now ((s.drift pursuit).since start)
            if steps = 0 then .ok (s.withDrift d pursuit)
            else ((s.withDrift d pursuit).setNearestPriority config (s.base.shift steps pursuit)).map (·.state)) := by
  cases pursuit with
  | waiting =>
      unfold look ageWaiting
      cases s.ages interval with
      | false => rfl
      | true =>
          simp only [Bool.not_true, Bool.true_eq_false, Bool.false_eq_true, if_false, opened?, drift]
          cases s.accounts.lastEnqueued with
          | none => rfl
          | some start =>
              dsimp only
              cases s.waitDrift.advance interval now (s.waitDrift.since start) with
              | error f => rfl
              | ok r => exact map_moved _ config r.1 _ (.agedDown s.thread r.1)
  | running =>
      unfold look ageRunning
      cases s.ages interval with
      | false => rfl
      | true =>
          simp only [Bool.not_true, Bool.true_eq_false, Bool.false_eq_true, if_false, opened?, drift]
          cases s.accounts.lastScheduled with
          | none => rfl
          | some start =>
              dsimp only
              cases s.runDrift.advance interval now (s.runDrift.since start) with
              | error f => rfl
              | ok r => exact map_moved _ config r.1 _ (.agedUp s.thread r.1)

theorem setNearestPriority_cases (s : ThreadState) (config : Config) (p : Priority) :
    (∃ c, s.setNearestPriority config p = .ok c) ∨ config.leastUrgent < config.mostUrgent ∧
      s.setNearestPriority config p = .error (.emptyRange config.mostUrgent config.leastUrgent) := by
  unfold setNearestPriority
  by_cases empty : config.leastUrgent < config.mostUrgent
  · simp [Config.clamp, empty, bind, Except.bind]
  · obtain ⟨q, clamped, inside⟩ := Config.exists_clamp (Int.not_lt.mp empty) p
    simp [clamped, setPriority, inside, bind, Except.bind]

/-- A thread that was last touched at `now` or before: the time booked is the time that passed, at most, and no look carries
over more than had passed. -/
structure Sheltered (s : ThreadState) (now : Ticks) : Prop where
  course : ∃ life : Life, Accounts.Course life s.accounts ∧ life.Until now
  backed : ∀ pursuit, (s.drift pursuit).Backed now

namespace Sheltered

variable {now' : Ticks}

theorem later (sheltered : s.Sheltered now) (passed : now ≤ now') : s.Sheltered now' := by
  obtain ⟨life, course, upTo⟩ := sheltered.course
  exact ⟨⟨life, course, upTo.later passed⟩, fun pursuit => (sheltered.backed pursuit).later passed⟩

theorem begin (sheltered : s.Sheltered now) (early : now < Ticks.bound) (pursuit : Pursuit) :
    ∃ s', s.begin now pursuit = .ok s' ∧ s'.Sheltered now := by
  obtain ⟨life, course, upTo⟩ := sheltered.course
  obtain ⟨a, done, -, life', course', upTo'⟩ := exists_begin course upTo early pursuit
  refine ⟨_, done, ⟨life', course', upTo'⟩, ?_⟩
  intro pursuit'
  cases pursuit' with
  | waiting => exact sheltered.backed .waiting
  | running => exact sheltered.backed .running

theorem withDrift (sheltered : s.Sheltered now) {d : Drift} (backed : d.Backed now) (pursuit : Pursuit) :
    (s.withDrift d pursuit).Sheltered now := by
  constructor
  · simpa using sheltered.course
  · intro pursuit'
    rw [drift_withDrift]
    split
    · exact backed
    · exact sheltered.backed pursuit'

theorem setNearestPriority {p : Priority} {c : Change} (sheltered : s.Sheltered now)
    (done : s.setNearestPriority config p = .ok c) : c.state.Sheltered now := by
  obtain ⟨q, -, set⟩ := bind_eq_ok.mp done
  obtain ⟨-, rfl⟩ := setPriority_ok set
  constructor
  · exact sheltered.course
  · intro pursuit'
    cases pursuit' with
    | waiting => exact sheltered.backed .waiting
    | running => exact sheltered.backed .running

theorem look (sheltered : s.Sheltered now) (early : now < Ticks.bound) (interval : Ticks) (config : Config)
    (pursuit : Pursuit) : (∃ s', s.look interval config now pursuit = .ok s' ∧ s'.Sheltered now) ∨
      config.leastUrgent < config.mostUrgent ∧
        s.look interval config now pursuit = .error (.emptyRange config.mostUrgent config.leastUrgent) := by
  rw [look_eq]
  split
  · exact .inl ⟨s, rfl, sheltered⟩
  · cases s.accounts.opened? pursuit with
    | none => exact .inl ⟨s, rfl, sheltered⟩
    | some start =>
        have backed := sheltered.backed pursuit
        have fits : (s.drift pursuit).span start now < Ticks.bound := Nat.lt_of_le_of_lt (backed.span_le start) early
        have looked := sheltered.withDrift (backed.looked interval start) pursuit
        simp only [Drift.advance_eq_ok.mpr ⟨fits, rfl⟩, bind, Except.bind]
        split
        · exact .inl ⟨_, rfl, looked⟩
        · rcases setNearestPriority_cases _ config (s.base.shift _ pursuit) with ⟨c, done⟩ | ⟨empty, failed⟩
          · left
            exact ⟨c.state, map_eq_ok.mpr ⟨c, done, rfl⟩, looked.setNearestPriority done⟩
          · right
            rw [failed]
            exact ⟨empty, rfl⟩

end Sheltered

structure Covered (s : ThreadState) (now : Ticks) : Prop where
  nothing : s.accounts.arrival = none → s.accounts.run + s.accounts.wait = 0
  counted : ∀ first ∈ s.accounts.arrival,
    first + (s.accounts.run + s.accounts.wait) ≤ s.accounts.latest ∧ s.accounts.latest ≤ now
  carried : ∀ pursuit, (s.drift pursuit).carry ≤ (s.drift pursuit).mark.getD 0
  run : ∀ dispatched ∈ s.accounts.lastScheduled, ranSince dispatched s.accounts.lastEnqueued = true →
    s.accounts.run + Ticks.elapsed dispatched now ≤ now
  wait : ∀ admitted ∈ s.accounts.lastEnqueued, waitedSince admitted s.accounts.lastScheduled = true →
    s.accounts.wait + Ticks.elapsed admitted now ≤ now
  span : ∀ pursuit, ∀ start ∈ s.accounts.opened? pursuit, (s.drift pursuit).span start now ≤ now

theorem Sheltered.covered (sheltered : s.Sheltered now) : s.Covered now := by
  obtain ⟨life, course, upTo⟩ := sheltered.course
  constructor
  · exact course.nothing
  · intro first arrived
    exact course.counted_le upTo arrived
  · intro pursuit
    exact (sheltered.backed pursuit).carried
  · intro dispatched on ran
    exact course.run_le upTo on ran
  · intro admitted last waited
    exact course.wait_le upTo last waited
  · intro pursuit start _
    exact (sheltered.backed pursuit).span_le start

end ThreadState

inductive Touch where
  | begin (pursuit : Pursuit) (time : Ticks)
  | look (pursuit : Pursuit) (time : Ticks)
  deriving DecidableEq, Repr, Inhabited

def Touch.time : Touch → Ticks
  | .begin _ time | .look _ time => time

namespace ThreadState

def touch (interval : Ticks) (config : Config) (s : ThreadState) : Touch → Except Fault ThreadState
  | .begin pursuit time => s.begin time pursuit
  | .look pursuit time => s.look interval config time pursuit

def touchAll (s : ThreadState) (interval : Ticks) (config : Config) (touches : List Touch) : Except Fault ThreadState :=
  touches.foldlM (touch interval config) s

variable {s : ThreadState} {now : Ticks} {touches : List Touch}

theorem Sheltered.touch {x : Touch} (sheltered : s.Sheltered now) (passed : now ≤ x.time) (early : x.time < Ticks.bound)
    (interval : Ticks) (config : Config) : (∃ s', s.touch interval config x = .ok s' ∧ s'.Sheltered x.time) ∨
      config.leastUrgent < config.mostUrgent ∧
        s.touch interval config x = .error (.emptyRange config.mostUrgent config.leastUrgent) := by
  cases x with
  | begin pursuit time => exact .inl ((sheltered.later passed).begin early pursuit)
  | look pursuit time => exact (sheltered.later passed).look early interval config pursuit

theorem Sheltered.touchAll (sheltered : s.Sheltered now) (ordered : touches.Pairwise fun x x' => x.time ≤ x'.time)
    (passed : ∀ x ∈ touches, now ≤ x.time) (early : ∀ x ∈ touches, x.time < Ticks.bound) (interval : Ticks)
    (config : Config) :
    (∃ s', s.touchAll interval config touches = .ok s' ∧
        ∀ later, now ≤ later → (∀ x ∈ touches, x.time ≤ later) → s'.Sheltered later) ∨
      config.leastUrgent < config.mostUrgent ∧
        s.touchAll interval config touches = .error (.emptyRange config.mostUrgent config.leastUrgent) := by
  induction touches generalizing s now with
  | nil => exact .inl ⟨s, rfl, fun later passed _ => sheltered.later passed⟩
  | cons x rest ih =>
      obtain ⟨after, ordered⟩ := List.pairwise_cons.mp ordered
      obtain ⟨first, passed⟩ := List.forall_mem_cons.mp passed
      obtain ⟨soon, early⟩ := List.forall_mem_cons.mp early
      rcases sheltered.touch first soon interval config with ⟨s₁, done, sheltered₁⟩ | ⟨empty, failed⟩
      · rcases ih sheltered₁ ordered after early with ⟨s', all, sheltered'⟩ | ⟨empty, failed⟩
        · refine .inl ⟨s', bind_eq_ok.mpr ⟨s₁, done, all⟩, ?_⟩
          intro later _ upTo
          obtain ⟨last, upTo⟩ := List.forall_mem_cons.mp upTo
          exact sheltered' later last upTo
        · exact .inr ⟨empty, bind_eq_error.mpr (.inr ⟨s₁, done, failed⟩)⟩
      · exact .inr ⟨empty, bind_eq_error.mpr (.inl failed)⟩

theorem sheltered_new (unused : s.accounts = {}) (unseen : ∀ pursuit, s.drift pursuit = {}) : s.Sheltered 0 := by
  constructor
  · rw [unused]
    exact ⟨[], .unborn blank_new, nofun⟩
  · intro pursuit
    rw [unseen pursuit]
    exact Drift.Backed.new 0

/-- Whatever happens to a thread in whatever order, every sum fits, up to the end of the time. The only failure is that of
a look with an empty range of priorities. -/
theorem covered_touchAll (unused : s.accounts = {}) (unseen : ∀ pursuit, s.drift pursuit = {})
    (ordered : touches.Pairwise fun x x' => x.time ≤ x'.time) (early : ∀ x ∈ touches, x.time < Ticks.bound)
    (interval : Ticks) (config : Config) :
    (∃ s', s.touchAll interval config touches = .ok s' ∧ ∀ now, (∀ x ∈ touches, x.time ≤ now) → s'.Covered now) ∨
      config.leastUrgent < config.mostUrgent ∧
        s.touchAll interval config touches = .error (.emptyRange config.mostUrgent config.leastUrgent) := by
  have fresh := sheltered_new unused unseen
  rcases fresh.touchAll ordered (fun x _ => Nat.zero_le x.time) early interval config with ⟨s', done, sheltered⟩ | failed
  · left
    exact ⟨s', done, fun now upTo => (sheltered now (Nat.zero_le now) upTo).covered⟩
  · exact .inr failed

def lifelong : List Touch :=
  [.begin .waiting 0, .begin .running 0, .look .running 7, .begin .waiting 18446744073709551615,
    .look .running 18446744073709551615, .look .waiting 18446744073709551615]

theorem covered_touchAll_lifelong : ∃ s', (new ⟨⟨2⟩, "worker", .ordinary⟩ 20).touchAll 10 {} lifelong = .ok s' ∧
    s'.Covered 18446744073709551615 ∧ s'.accounts.run = 18446744073709551615 ∧ s'.runDrift.carry = 5 := by
  have fresh (pursuit : Pursuit) : (new ⟨⟨2⟩, "worker", .ordinary⟩ 20).drift pursuit = {} := by cases pursuit <;> rfl
  have seen : ((new ⟨⟨2⟩, "worker", .ordinary⟩ 20).touchAll 10 {} lifelong).map
      (fun s => (s.accounts.run, s.runDrift.carry)) = .ok (18446744073709551615, 5) := rfl
  have ordered : lifelong.Pairwise fun x x' => x.time ≤ x'.time := by decide
  have early : ∀ x ∈ lifelong, x.time < Ticks.bound := by decide
  rcases covered_touchAll rfl fresh ordered early 10 {} with ⟨s', done, covered⟩ | ⟨empty, -⟩
  · rw [done] at seen
    obtain ⟨run, carry⟩ := Prod.mk.inj (Except.ok.inj seen)
    exact ⟨s', done, covered _ (by decide), run, carry⟩
  · exact absurd empty (by decide)

end ThreadState

end PriorityScheduler
