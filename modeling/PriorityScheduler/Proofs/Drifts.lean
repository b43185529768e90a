import PriorityScheduler.Proofs.Repricing

/-!
# What a look at an aging thread leaves behind

A look takes the time since the last look, or since the thread was admitted or dispatched if that was later, together
with what the last look carried over. Whole intervals become steps, the rest is carried on. No tick is lost between the
steps and the carry, unless the thread is at the end of the range already or more steps are due than numbers count up to.

Main statements: `ageWaiting_eq_ok`, `ageRunning_eq_ok`, `minus_ofCount`, `plus_ofCount` and `boosted_ageWaiting`.
-/

namespace PriorityScheduler

theorem Config.clamp_of_le {config : Config} (some : config.mostUrgent ≤ config.leastUrgent) (p : Priority) :
    config.clamp p = .ok (max config.mostUrgent (min config.leastUrgent p)) :=
  if_neg (Int.not_lt.mpr some)

theorem Config.agingStep_of_ages {config : Config} (ages : config.policy.ages = true) :
    config.agingStep = config.agingInterval :=
  if_pos ages

theorem Config.inRange_iff {config : Config} {p : Priority} :
    config.inRange p = true ↔ config.mostUrgent ≤ p ∧ p ≤ config.leastUrgent := by
  rw [inRange, Bool.and_eq_true, decide_eq_true_iff, decide_eq_true_iff]

theorem Config.sub_min_eq_iff {config : Config} {p : Priority} {count : Nat} (inside : config.inRange p = true) :
    max config.mostUrgent (p - (min count Priority.highest.toNat : Nat)) = max config.mostUrgent (p - count) ↔
      count ≤ Priority.highest.toNat ∨ p - config.mostUrgent ≤ Priority.highest := by
  obtain ⟨most, least⟩ := inRange_iff.mp inside
  unfold Priority.highest
  grind

theorem Config.add_min_eq_iff {config : Config} {p : Priority} {count : Nat} (inside : config.inRange p = true) :
    min config.leastUrgent (p + (min count Priority.highest.toNat : Nat)) = min config.leastUrgent (p + count) ↔
      count ≤ Priority.highest.toNat ∨ config.leastUrgent - p ≤ Priority.highest := by
  obtain ⟨most, least⟩ := inRange_iff.mp inside
  unfold Priority.highest
  grind

theorem Priority.ofCount_eq_zero {n : Nat} : Priority.ofCount n = 0 ↔ n = 0 := by
  unfold Priority.ofCount Priority.highest
  grind

namespace Drift

/-- The time that a look now has to account for. -/
def span (d : Drift) (start now : Ticks) : Ticks := Ticks.elapsed (d.since start) now + d.carry

def looked (d : Drift) (interval start now : Ticks) : Drift := { carry := d.span start now % interval, mark := some now }

variable {d : Drift} {interval start now : Ticks}

theorem advance_eq_ok {r : Priority × Drift} : d.advance interval now (d.since start) = .ok r ↔
    d.span start now < Ticks.bound ∧
      r = (Priority.ofCount (d.span start now / interval), d.looked interval start now) := by
  unfold advance
  rw [bind_eq_ok]
  constructor
  · rintro ⟨elapsed, added, made⟩
    obtain ⟨rfl, fits⟩ := Ticks.add_eq_ok.mp added
    cases made
    exact ⟨fits, rfl⟩
  · rintro ⟨fits, rfl⟩
    exact ⟨d.span start now, Ticks.add_eq_ok.mpr ⟨rfl, fits⟩, rfl⟩

theorem carry_looked {total : Ticks} (carried : d.carry = total % interval) :
    (d.looked interval start now).carry = (total + (now - d.since start)) % interval := by
  show (now - d.since start + d.carry) % interval = _
  rw [carried, Nat.add_mod_mod, Nat.add_comm]

theorem advance_cases (d : Drift) (interval start now : Ticks) :
    (∃ r, d.advance interval now (d.since start) = .ok r) ∨
      Ticks.bound ≤ d.span start now ∧ d.advance interval now (d.since start) = .error .sumTooLarge := by
  by_cases fits : d.span start now < Ticks.bound
  · exact .inl ⟨_, advance_eq_ok.mpr ⟨fits, rfl⟩⟩
  · exact .inr ⟨Nat.le_of_not_lt fits, bind_eq_error.mpr (.inl (if_neg fits))⟩

theorem since_le (marked : ∀ m ∈ d.mark, m ≤ now) (started : start ≤ now) : d.since start ≤ now := by
  unfold since
  split
  · rename_i mark last
    exact Nat.max_le.mpr ⟨marked mark last, started⟩
  · exact started

theorem le_since (d : Drift) (start : Ticks) : start ≤ d.since start := by
  unfold since
  split
  · exact Nat.le_max_right _ _
  · exact Nat.le_refl _

theorem mark_le_since (d : Drift) (start : Ticks) : d.mark.getD 0 ≤ d.since start := by
  unfold since
  cases d.mark with
  | none => exact Nat.zero_le _
  | some mark => exact Nat.le_max_left mark start

theorem span_lt (carried : d.carry ≤ d.mark.getD 0) (marked : d.mark.getD 0 < Ticks.bound) (fits : now < Ticks.bound) :
    d.span start now < Ticks.bound := by
  have since := d.mark_le_since start
  unfold span Ticks.elapsed
  grind

theorem since_eq_start (marked : ∀ m ∈ d.mark, m ≤ start) : d.since start = start :=
  Nat.le_antisymm (since_le marked (Nat.le_refl _)) (d.le_since start)

/-- No more is carried over than had passed at the last look, which was at `now` or before. -/
structure Backed (d : Drift) (now : Ticks) : Prop where
  carried : d.carry ≤ d.mark.getD 0
  marked : d.mark.getD 0 ≤ now

namespace Backed

variable {now' : Ticks}

theorem new (now : Ticks) : Backed {} now := ⟨Nat.le_refl 0, Nat.zero_le now⟩

theorem later (backed : d.Backed now) (passed : now ≤ now') : d.Backed now' :=
  ⟨backed.carried, Nat.le_trans backed.marked passed⟩

theorem mark_le (backed : d.Backed now) : ∀ m ∈ d.mark, m ≤ now := by
  intro m marked
  have early := backed.marked
  rwa [marked, Option.getD_some] at early

theorem span_le (backed : d.Backed now) (start : Ticks) : d.span start now ≤ now := by
  have carried := backed.carried
  have marked := backed.marked
  have since := d.mark_le_since start
  unfold span Ticks.elapsed
  grind

theorem looked (backed : d.Backed now) (interval start : Ticks) : (d.looked interval start now).Backed now where
  carried := Nat.le_trans (Nat.mod_le _ interval) (backed.span_le start)
  marked := Nat.le_refl now

end Backed

end Drift

namespace ThreadState

variable {s : ThreadState} {config : Config} {interval now start : Ticks} {n : Noted Change}

def Stepped (s : ThreadState) (config : Config) (p : Priority) (steps : Int) (c : Change) : Prop :=
  steps = 0 ∧ c = ⟨s, false⟩ ∨
    ∃ q, config.clamp p = .ok q ∧ config.inRange q = true ∧ c = refresh { s with base := q }

theorem stepped_of_ok {p : Priority} {steps : Int} {note : Priority → Notice}
    (done : (if steps = 0 then pure s.unchanged else do
      let q ← config.clamp p
      let change ← s.setPriority config q
      pure ⟨change, [note q]⟩ : Except Fault (Noted Change)) = .ok n) : Stepped s config p steps n.value := by
  split at done
  · rename_i none
    cases done
    exact .inl ⟨none, rfl⟩
  · obtain ⟨q, clamped, rest⟩ := bind_eq_ok.mp done
    obtain ⟨change, set, last⟩ := bind_eq_ok.mp rest
    cases last
    obtain ⟨inside, rfl⟩ := setPriority_ok set
    exact .inr ⟨q, clamped, inside, rfl⟩

theorem ageWaiting_eq_ok (ages : s.ages interval = true) (admitted : s.accounts.lastEnqueued = some start)
    (done : s.ageWaiting interval config now = .ok n) :
    let steps := Priority.ofCount (s.waitDrift.span start now / interval)
    s.waitDrift.span start now < Ticks.bound ∧
      Stepped { s with waitDrift := s.waitDrift.looked interval start now } config (s.base.minus steps) steps n.value := by
  unfold ageWaiting at done
  rw [ages, admitted] at done
  obtain ⟨r, advanced, rest⟩ := bind_eq_ok.mp done
  obtain ⟨fits, rfl⟩ := Drift.advance_eq_ok.mp advanced
  exact ⟨fits, stepped_of_ok rest⟩

theorem ageRunning_eq_ok (ages : s.ages interval = true) (dispatched : s.accounts.lastScheduled = some start)
    (done : s.ageRunning interval config now = .ok n) :
    let steps := Priority.ofCount (s.runDrift.span start now / interval)
    s.runDrift.span start now < Ticks.bound ∧
      Stepped { s with runDrift := s.runDrift.looked interval start now } config (s.base.plus steps) steps n.value := by
  unfold ageRunning at done
  rw [ages, dispatched] at done
  obtain ⟨r, advanced, rest⟩ := bind_eq_ok.mp done
  obtain ⟨fits, rfl⟩ := Drift.advance_eq_ok.mp advanced
  exact ⟨fits, stepped_of_ok rest⟩

theorem Stepped.waitDrift {p : Priority} {steps : Int} {c : Change} (stepped : Stepped s config p steps c) :
    c.state.waitDrift = s.waitDrift := by
  obtain ⟨-, rfl⟩ | ⟨q, -, -, rfl⟩ := stepped <;> rfl

theorem Stepped.accounts {p : Priority} {steps : Int} {c : Change} (stepped : Stepped s config p steps c) :
    c.state.accounts = s.accounts := by
  obtain ⟨-, rfl⟩ | ⟨q, -, -, rfl⟩ := stepped <;> rfl

theorem Stepped.thread {p : Priority} {steps : Int} {c : Change} (stepped : Stepped s config p steps c) :
    c.state.thread = s.thread := by
  obtain ⟨-, rfl⟩ | ⟨q, -, -, rfl⟩ := stepped <;> rfl

theorem waitDrift_ageWaiting (done : s.ageWaiting interval config now = .ok n) :
    n.value.state.waitDrift = s.waitDrift ∨
      0 < interval ∧ ∃ start, n.value.state.waitDrift = s.waitDrift.looked interval start now := by
  by_cases ages : s.ages interval = true
  · cases admitted : s.accounts.lastEnqueued with
    | none =>
        rw [ageWaiting, ages, admitted] at done
        cases done
        exact .inl rfl
    | some start =>
        obtain ⟨-, stepped⟩ := ageWaiting_eq_ok ages admitted done
        refine .inr ⟨?_, start, stepped.waitDrift⟩
        rw [ThreadState.ages, Bool.and_eq_true, decide_eq_true_iff] at ages
        exact ages.1
  · rw [Bool.not_eq_true] at ages
    rw [ageWaiting, ages] at done
    cases done
    exact .inl rfl

theorem exists_stepped (range : config.mostUrgent ≤ config.leastUrgent) (s : ThreadState) (p : Priority) (steps : Int)
    (note : Priority → Notice) : ∃ n, (if steps = 0 then pure s.unchanged else do
      let q ← config.clamp p
      let change ← s.setPriority config q
      pure ⟨change, [note q]⟩ : Except Fault (Noted Change)) = .ok n := by
  split
  · exact ⟨_, rfl⟩
  · have inside : config.inRange (max config.mostUrgent (min config.leastUrgent p)) = true :=
      Config.inRange_iff.mpr ⟨Int.le_max_left _ _, Int.max_le.mpr ⟨range, Int.min_le_left _ _⟩⟩
    rw [Config.clamp_of_le range]
    exact ⟨_, bind_eq_ok.mpr ⟨_, rfl, bind_eq_ok.mpr ⟨_, if_pos inside, rfl⟩⟩⟩

theorem ageWaiting_total (range : config.mostUrgent ≤ config.leastUrgent) :
    (∃ n, s.ageWaiting interval config now = .ok n) ∨ s.ageWaiting interval config now = .error .sumTooLarge ∧
      ∃ start, s.accounts.lastEnqueued = some start ∧ Ticks.bound ≤ s.waitDrift.span start now := by
  unfold ageWaiting
  split
  · exact .inl ⟨_, rfl⟩
  · split
    · exact .inl ⟨_, rfl⟩
    · rename_i start admitted
      rcases s.waitDrift.advance_cases interval start now with ⟨r, advanced⟩ | ⟨large, failed⟩
      · obtain ⟨n, done⟩ := exists_stepped range { s with waitDrift := r.2 } (s.base.minus r.1) r.1 (.agedDown s.thread r.1)
        exact .inl ⟨n, bind_eq_ok.mpr ⟨r, advanced, done⟩⟩
      · exact .inr ⟨bind_eq_error.mpr (.inl failed), start, admitted, large⟩

theorem ageRunning_total (range : config.mostUrgent ≤ config.leastUrgent) :
    (∃ n, s.ageRunning interval config now = .ok n) ∨ s.ageRunning interval config now = .error .sumTooLarge ∧
      ∃ start, s.accounts.lastScheduled = some start ∧ Ticks.bound ≤ s.runDrift.span start now := by
  unfold ageRunning
  split
  · exact .inl ⟨_, rfl⟩
  · split
    · exact .inl ⟨_, rfl⟩
    · rename_i start dispatched
      rcases s.runDrift.advance_cases interval start now with ⟨r, advanced⟩ | ⟨large, failed⟩
      · obtain ⟨n, done⟩ := exists_stepped range { s with runDrift := r.2 } (s.base.plus r.1) r.1 (.agedUp s.thread r.1)
        exact .inl ⟨n, bind_eq_ok.mpr ⟨r, advanced, done⟩⟩
      · exact .inr ⟨bind_eq_error.mpr (.inl failed), start, dispatched, large⟩

/-- As much of the time since `start` as was looked at is in the steps up from `b` or carried over. -/
def Boosted (s : ThreadState) (config : Config) (start : Ticks) (b : Priority) : Prop :=
  s.base = config.mostUrgent ∨
    (s.waitDrift.since start : Int) - start ≤ (b - s.base) * config.agingInterval + s.waitDrift.carry

variable {b : Priority}

theorem Stepped.base {p : Priority} {steps : Int} {c : Change} (stepped : Stepped s config p steps c)
    (range : config.mostUrgent ≤ config.leastUrgent) :
    steps = 0 ∧ c.state.base = s.base ∨ c.state.base = max config.mostUrgent (min config.leastUrgent p) := by
  obtain ⟨none, rfl⟩ | ⟨q, clamped, -, rfl⟩ := stepped
  · exact .inl ⟨none, rfl⟩
  · rw [Config.clamp_of_le range] at clamped
    cases clamped
    exact .inr rfl

theorem Stepped.runDrift {p : Priority} {steps : Int} {c : Change} (stepped : Stepped s config p steps c) :
    c.state.runDrift = s.runDrift := by
  obtain ⟨-, rfl⟩ | ⟨q, -, -, rfl⟩ := stepped <;> rfl

/-- That a step up stops at the end of the numbers does not show behind the range. That its count is cut there may. -/
theorem minus_ofCount {p : Priority} {count : Nat} (lowest : Priority.lowest ≤ config.mostUrgent)
    (highest : config.leastUrgent ≤ Priority.highest) (inside : config.inRange p = true) :
    max config.mostUrgent (min config.leastUrgent (p.minus (Priority.ofCount count))) =
      max config.mostUrgent (p - (min count Priority.highest.toNat : Nat)) := by
  obtain ⟨most, least⟩ := Config.inRange_iff.mp inside
  unfold Priority.minus Priority.saturate Priority.ofCount Priority.lowest Priority.highest at *
  grind

theorem plus_ofCount {p : Priority} {count : Nat} (lowest : Priority.lowest ≤ config.mostUrgent)
    (highest : config.leastUrgent ≤ Priority.highest) (inside : config.inRange p = true) :
    max config.mostUrgent (min config.leastUrgent (p.plus (Priority.ofCount count))) =
      min config.leastUrgent (p + (min count Priority.highest.toNat : Nat)) := by
  obtain ⟨most, least⟩ := Config.inRange_iff.mp inside
  unfold Priority.plus Priority.saturate Priority.ofCount Priority.lowest Priority.highest at *
  grind

theorem boosted_ageWaiting (lowest : Priority.lowest ≤ config.mostUrgent) (highest : config.leastUrgent ≤ Priority.highest)
    (width : config.leastUrgent - config.mostUrgent ≤ Priority.highest)
    (ages : s.ages config.agingInterval = true) (admitted : s.accounts.lastEnqueued = some start)
    (marked : ∀ m ∈ s.waitDrift.mark, m ≤ now) (started : start ≤ now) (inside : config.inRange s.base = true)
    (boosted : s.Boosted config start b) (done : s.ageWaiting config.agingInterval config now = .ok n) :
    n.value.state.Boosted config start b := by
  obtain ⟨-, stepped⟩ := ageWaiting_eq_ok ages admitted done
  obtain ⟨most, least⟩ := Config.inRange_iff.mp inside
  have near : s.base - config.mostUrgent ≤ Priority.highest :=
    Int.le_trans (Int.sub_le_sub_right least config.mostUrgent) width
  have base := stepped.base (Int.le_trans most least)
  rw [minus_ofCount lowest highest inside, (Config.sub_min_eq_iff inside).mpr (.inr near)] at base
  unfold Boosted
  rw [stepped.waitDrift]
  -- the time since `start` is what was accounted for before, and the span; the span is whole intervals and the rest
  have since : (s.waitDrift.looked config.agingInterval start now).since start = now := Nat.max_eq_left started
  have before : s.waitDrift.since start ≤ now := Drift.since_le marked started
  have span : (s.waitDrift.span start now : Int) = now - s.waitDrift.since start + s.waitDrift.carry := by
    unfold Drift.span Ticks.elapsed
    grind
  have parts : (s.waitDrift.span start now : Int) =
      (s.waitDrift.span start now / config.agingInterval : Nat) * config.agingInterval +
        (s.waitDrift.looked config.agingInterval start now).carry :=
    mod_cast (Nat.div_add_mod' _ _).symm
  generalize s.waitDrift.span start now / config.agingInterval = steps at base parts
  rw [since]
  rcases base with ⟨none, still⟩ | moved
  · have zero : steps = 0 := Priority.ofCount_eq_zero.mp none
    rw [still]
    refine boosted.imp_right fun slow => ?_
    rw [zero] at parts
    grind
  · rcases boosted with top | slow
    · left
      grind
    · rcases Int.le_total (s.base - steps) config.mostUrgent with below | above
      · exact .inl (moved.trans (Int.max_eq_left below))
      · have more : (b - (s.base - steps)) * config.agingInterval =
            (b - s.base) * config.agingInterval + steps * config.agingInterval := by
          rw [← Int.add_mul]
          congr 1
          grind
        right
        rw [moved.trans (Int.max_eq_right above), more]
        grind

end ThreadState

end PriorityScheduler
