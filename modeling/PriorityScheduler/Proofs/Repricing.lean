import PriorityScheduler.Thread.Aging

namespace PriorityScheduler

theorem bind_eq_ok {ε α β : Type} {x : Except ε α} {f : α → Except ε β} {b : β} :
    (x >>= f) = .ok b ↔ ∃ a, x = .ok a ∧ f a = .ok b := by
  cases x with
  | error e => simp [bind, Except.bind]
  | ok a => simp [bind, Except.bind]

theorem bind_eq_error {ε α β : Type} {x : Except ε α} {f : α → Except ε β} {e : ε} :
    (x >>= f) = .error e ↔ x = .error e ∨ ∃ a, x = .ok a ∧ f a = .error e := by
  cases x with
  | error e => simp [bind, Except.bind]
  | ok a => simp [bind, Except.bind]

theorem map_eq_ok {ε α β : Type} {x : Except ε α} {f : α → β} {b : β} :
    x.map f = .ok b ↔ ∃ a, x = .ok a ∧ f a = b := by
  cases x with
  | error e => simp [Except.map]
  | ok a => simp [Except.map]

namespace ThreadState

def unpriced (s : ThreadState) : ThreadState := { s with base := 0, effective := 0, runDrift := {}, waitDrift := {} }

structure Repriced (s : ThreadState) (config : Config) (c : Change) : Prop where
  rest : c.state.unpriced = s.unpriced
  floor : s.effective = s.floor → c.state.effective = c.state.floor
  changed : c.changed = true ↔ c.state.effective ≠ s.effective
  inRange : config.inRange s.base = true → config.inRange c.state.base = true

namespace Repriced

variable {s s' : ThreadState} {config : Config} {c : Change}

theorem congr {α : Type} (repriced : s.Repriced config c) (f : ThreadState → α) : f c.state.unpriced = f s.unpriced :=
  congrArg f repriced.rest

theorem held (repriced : s.Repriced config c) : c.state.held = s.held := repriced.congr (·.held)

theorem donation (repriced : s.Repriced config c) : c.state.donation = s.donation := repriced.congr (·.donation)

theorem blockedOn (repriced : s.Repriced config c) : c.state.blockedOn = s.blockedOn := repriced.congr (·.blockedOn)

theorem refl (s : ThreadState) (config : Config) : s.Repriced config ⟨s, false⟩ := ⟨rfl, id, by simp, id⟩

theorem setBase (s : ThreadState) {p : Priority} (inside : config.inRange p = true) :
    s.Repriced config (refresh { s with base := p }) :=
  ⟨rfl, fun _ => rfl, changed_refresh { s with base := p }, fun _ => inside⟩

theorem of_drift (repriced : s'.Repriced config c) (rest : s'.unpriced = s.unpriced)
    (effective : s'.effective = s.effective) (floor : s'.floor = s.floor) (base : s'.base = s.base) : s.Repriced config c where
  rest := repriced.rest.trans rest
  floor := by
    rw [← effective, ← floor]
    exact repriced.floor
  changed := by
    rw [← effective]
    exact repriced.changed
  inRange := by
    rw [← base]
    exact repriced.inRange

end Repriced

variable {s : ThreadState} {config : Config}

theorem setPriority_ok {p : Priority} {c : Change} (done : s.setPriority config p = .ok c) :
    config.inRange p = true ∧ c = refresh { s with base := p } := by
  unfold setPriority at done
  split at done
  · rename_i inside
    cases done
    exact ⟨inside, rfl⟩
  · cases done

theorem repriced_setPriority {p : Priority} {c : Change} (done : s.setPriority config p = .ok c) :
    s.Repriced config c := by
  obtain ⟨inside, rfl⟩ := setPriority_ok done
  exact .setBase s inside

theorem repriced_setNearestPriority {p : Priority} {c : Change} (done : s.setNearestPriority config p = .ok c) :
    s.Repriced config c := by
  obtain ⟨q, -, set⟩ := bind_eq_ok.mp done
  exact repriced_setPriority set

theorem repriced_ageRunning {interval now : Ticks} {n : Noted Change}
    (done : s.ageRunning interval config now = .ok n) : s.Repriced config n.value := by
  unfold ageRunning at done
  split at done
  · cases done
    exact .refl s config
  · split at done
    · cases done
      exact .refl s config
    · obtain ⟨⟨steps, drift⟩, -, rest⟩ := bind_eq_ok.mp done
      have drifted {c : Change} (repriced : ({ s with runDrift := drift } : ThreadState).Repriced config c) :
          s.Repriced config c :=
        repriced.of_drift rfl rfl rfl rfl
      dsimp only at rest
      split at rest
      · cases rest
        exact drifted (.refl _ config)
      · obtain ⟨p, -, rest⟩ := bind_eq_ok.mp rest
        obtain ⟨change, set, last⟩ := bind_eq_ok.mp rest
        cases last
        exact drifted (repriced_setPriority set)

theorem repriced_ageWaiting {interval now : Ticks} {n : Noted Change}
    (done : s.ageWaiting interval config now = .ok n) : s.Repriced config n.value := by
  unfold ageWaiting at done
  split at done
  · cases done
    exact .refl s config
  · split at done
    · cases done
      exact .refl s config
    · obtain ⟨⟨steps, drift⟩, -, rest⟩ := bind_eq_ok.mp done
      have drifted {c : Change} (repriced : ({ s with waitDrift := drift } : ThreadState).Repriced config c) :
          s.Repriced config c :=
        repriced.of_drift rfl rfl rfl rfl
      dsimp only at rest
      split at rest
      · cases rest
        exact drifted (.refl _ config)
      · obtain ⟨p, -, rest⟩ := bind_eq_ok.mp rest
        obtain ⟨change, set, last⟩ := bind_eq_ok.mp rest
        cases last
        exact drifted (repriced_setPriority set)

end ThreadState

end PriorityScheduler
