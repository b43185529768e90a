import PriorityScheduler.Proofs.Drifts
import PriorityScheduler.Proofs.Registries

namespace PriorityScheduler.ThreadRegistry

variable {t : ThreadRegistry} {id : ThreadId} {ids : List ThreadId} {now : Ticks} {n : Noted Update}

theorem ageWaiting_ok (done : t.ageWaiting id now = .ok n) :
    t.get? id = none ∧ n.value = ⟨t, false⟩ ∨ ∃ s m, t.get? id = some s ∧
      s.ageWaiting t.config.agingStep t.config now = .ok m ∧ n.value = ⟨t.put id m.value.state, m.value.changed⟩ := by
  unfold ageWaiting at done
  cases found : t.get? id with
  | none =>
      rw [found] at done
      cases done
      exact .inl ⟨rfl, rfl⟩
  | some s =>
      rw [found] at done
      obtain ⟨m, aged, made⟩ := bind_eq_ok.mp done
      cases made
      exact .inr ⟨s, m, rfl, aged, rfl⟩

theorem ageWaiting_error {f : Fault} (failed : t.ageWaiting id now = .error f) :
    ∃ s, t.get? id = some s ∧ s.ageWaiting t.config.agingStep t.config now = .error f := by
  unfold ageWaiting at failed
  cases found : t.get? id with
  | none =>
      rw [found] at failed
      cases failed
  | some s =>
      rw [found] at failed
      exact ⟨s, rfl, (bind_eq_error.mp failed).resolve_right fun ⟨_, _, made⟩ => nomatch made⟩

theorem ageWaiting_apart {j : ThreadId} (apart : j ≠ id) (done : t.ageWaiting id now = .ok n) :
    n.value.threads.config = t.config ∧ n.value.threads.get? j = t.get? j := by
  obtain ⟨-, still⟩ | ⟨s, m, -, -, put⟩ := ageWaiting_ok done
  · rw [still]
    exact ⟨rfl, rfl⟩
  · rw [put, get?_put, if_neg apart]
    exact ⟨rfl, rfl⟩

theorem ageAll_cons (done : ageAll now (id :: ids) t = .ok n) :
    ∃ first later, t.ageWaiting id now = .ok first ∧ ageAll now ids first.value.threads = .ok later ∧
      n.value = ⟨later.value.threads, first.value.changed || later.value.changed⟩ := by
  obtain ⟨first, one, more⟩ := bind_eq_ok.mp done
  obtain ⟨later, all, made⟩ := bind_eq_ok.mp more
  cases made
  exact ⟨first, later, one, all, rfl⟩

theorem ageAll_induction {motive : ThreadRegistry → Prop}
    (step : ∀ {t id n}, motive t → t.ageWaiting id now = .ok n → motive n.value.threads) (start : motive t)
    (done : ageAll now ids t = .ok n) : motive n.value.threads := by
  induction ids generalizing t n with
  | nil =>
      cases done
      exact start
  | cons id rest ih =>
      obtain ⟨first, later, one, all, value⟩ := ageAll_cons done
      rw [value]
      exact ih (step start one) all

theorem matches_ageAll (done : ageAll now ids t = .ok n) : Matches ThreadState.unpriced t n.value.threads := by
  refine ageAll_induction (motive := Matches ThreadState.unpriced t) (fun same one => same.trans ?_) (.refl t) done
  obtain ⟨-, still⟩ | ⟨s, m, found, aged, put⟩ := ageWaiting_ok one
  · rw [still]
    exact .refl _
  · rw [put]
    exact .put found (ThreadState.repriced_ageWaiting aged).rest

theorem forall_ageAll {P : ThreadState → Prop} (kept : ∀ {s c}, P s → s.Repriced t.config c → P c.state)
    (all : ∀ id s, t.get? id = some s → P s) (done : ageAll now ids t = .ok n) :
    ∀ id s, n.value.threads.get? id = some s → P s := by
  let Inv (u : ThreadRegistry) : Prop := u.config = t.config ∧ ∀ id s, u.get? id = some s → P s
  refine (ageAll_induction (motive := Inv) (fun {u id n} both one => ?_) ⟨rfl, all⟩ done).2
  obtain ⟨-, still⟩ | ⟨s, m, found, aged, put⟩ := ageWaiting_ok one
  · rw [still]
    exact both
  · rw [put]
    refine ⟨both.1, fun j state found' => ?_⟩
    rw [get?_put] at found'
    split at found'
    · cases found'
      exact kept (both.2 id s found) (both.1 ▸ ThreadState.repriced_ageWaiting aged)
    · exact both.2 j state found'

theorem get?_ageAll (other : id ∉ ids) (done : ageAll now ids t = .ok n) : n.value.threads.get? id = t.get? id := by
  induction ids generalizing t n with
  | nil =>
      cases done
      rfl
  | cons j rest ih =>
      obtain ⟨first, later, one, all, value⟩ := ageAll_cons done
      rw [List.mem_cons, not_or] at other
      obtain ⟨apart, other⟩ := other
      rw [value]
      exact (ih other all).trans (ageWaiting_apart apart one).2

theorem get?_ageAll_of_mem {s : ThreadState} (once : ids.Nodup) (member : id ∈ ids) (found : t.get? id = some s)
    (done : ageAll now ids t = .ok n) : ∃ m, s.ageWaiting t.config.agingStep t.config now = .ok m ∧
      n.value.threads.get? id = some m.value.state := by
  induction ids generalizing t n with
  | nil => cases member
  | cons j rest ih =>
      obtain ⟨first, later, one, all, value⟩ := ageAll_cons done
      obtain ⟨out, once⟩ := List.nodup_cons.mp once
      rw [value]
      by_cases here : id = j
      · subst here
        obtain ⟨absent, -⟩ | ⟨s', m, found', aged, put⟩ := ageWaiting_ok one
        · cases absent.symm.trans found
        · cases found.symm.trans found'
          refine ⟨m, aged, (get?_ageAll out all).trans ?_⟩
          rw [put, get?_put, if_pos rfl]
      · obtain ⟨config, same⟩ := ageWaiting_apart here one
        obtain ⟨m, aged, after⟩ := ih once ((List.mem_cons.mp member).resolve_left here) (same.trans found) all
        exact ⟨m, config ▸ aged, after⟩

theorem effective_ageAll (done : ageAll now ids t = .ok n) (still : n.value.changed = false) (j : ThreadId) :
    n.value.threads.effective j = t.effective j := by
  induction ids generalizing t n with
  | nil =>
      cases done
      rfl
  | cons id rest ih =>
      obtain ⟨first, later, one, all, value⟩ := ageAll_cons done
      rw [value, Bool.or_eq_false_iff] at still
      rw [value]
      apply (ih all still.2).trans
      obtain ⟨-, same⟩ | ⟨s, m, found, aged, put⟩ := ageWaiting_ok one
      · rw [same]
      · rw [put] at still
        have effective : m.value.state.effective = s.effective := by
          apply Classical.byContradiction
          intro moved
          have changed := (ThreadState.repriced_ageWaiting aged).changed.mpr moved
          cases changed.symm.trans still.1
        rw [put]
        by_cases here : j = id
        · rw [here, effective_of_get? found, ← effective, effective_of_get?]
          rw [get?_put, if_pos rfl]
        · exact effective_congr rfl (by rw [get?_put, if_neg here])

structure Timely (t : ThreadRegistry) (now : Ticks) : Prop where
  range : t.config.mostUrgent ≤ t.config.leastUrgent
  clock : now < Ticks.bound
  carried : ∀ id s, t.get? id = some s →
    s.waitDrift.carry ≤ s.waitDrift.mark.getD 0 ∧ s.waitDrift.mark.getD 0 < Ticks.bound

structure Aged (t : ThreadRegistry) (ids : List ThreadId) (now : Ticks) (aged : ThreadRegistry) : Prop where
  config : aged.config = t.config
  once : ∀ id ∈ ids, ∀ s, t.get? id = some s →
    ∃ m, s.ageWaiting t.config.agingStep t.config now = .ok m ∧ aged.get? id = some m.value.state
  stateless : ∀ id, t.get? id = none → aged.get? id = none
  others : ∀ id, id ∉ ids → aged.get? id = t.get? id

/-- A thread of the list could not age, which takes an empty range or a carry out of all proportion. -/
structure Stuck (t : ThreadRegistry) (ids : List ThreadId) (now : Ticks) (f : Fault) : Prop where
  waiter : ∃ id ∈ ids, ∃ s, t.get? id = some s ∧ s.ageWaiting t.config.agingStep t.config now = .error f
  untimely : ¬t.Timely now

theorem stuck_of_error {s : ThreadState} {f : Fault} (member : id ∈ ids) (found : t.get? id = some s)
    (failed : s.ageWaiting t.config.agingStep t.config now = .error f) : t.Stuck ids now f where
  waiter := ⟨id, member, s, found, failed⟩
  untimely timely := by
    obtain ⟨carried, marked⟩ := timely.carried id s found
    have total : (∃ n, s.ageWaiting t.config.agingStep t.config now = .ok n) ∨ _ :=
      ThreadState.ageWaiting_total timely.range
    rcases total with ⟨n, aged⟩ | ⟨-, start, -, large⟩
    · cases failed.symm.trans aged
    · exact Nat.not_lt.mpr large (Drift.span_lt carried marked timely.clock)

theorem ageAll_error {f : Fault} (once : ids.Nodup) (failed : ageAll now ids t = .error f) : t.Stuck ids now f := by
  induction ids generalizing t with
  | nil => cases failed
  | cons id rest ih =>
      obtain ⟨out, once⟩ := List.nodup_cons.mp once
      rcases bind_eq_error.mp failed with one | ⟨first, one, more⟩
      · obtain ⟨s, found, aged⟩ := ageWaiting_error one
        exact stuck_of_error List.mem_cons_self found aged
      · have later : ageAll now rest first.value.threads = .error f :=
          (bind_eq_error.mp more).resolve_right fun ⟨_, _, made⟩ => nomatch made
        obtain ⟨j, member, s, found, aged⟩ := (ih once later).waiter
        have apart : j ≠ id := by
          rintro rfl
          exact out member
        obtain ⟨config, same⟩ := ageWaiting_apart apart one
        rw [same] at found
        rw [config] at aged
        exact stuck_of_error (List.mem_cons_of_mem id member) found aged

theorem ageAll_cases (once : ids.Nodup) (t : ThreadRegistry) (now : Ticks) :
    (∃ n, ageAll now ids t = .ok n ∧ t.Aged ids now n.value.threads) ∨
      ∃ f, ageAll now ids t = .error f ∧ t.Stuck ids now f := by
  cases done : ageAll now ids t with
  | error f => exact .inr ⟨f, rfl, ageAll_error once done⟩
  | ok n =>
      have same := matches_ageAll done
      refine .inl ⟨n, rfl, same.config, fun id member s found => get?_ageAll_of_mem once member found done,
        fun id absent => ?_, fun id out => get?_ageAll out done⟩
      have still := same.get? id
      rw [absent] at still
      exact Option.map_eq_none_iff.mp still

def arrived (config : Config) (waiters : List (Thread × Priority × Ticks)) : ThreadRegistry :=
  waiters.foldl (fun t (thread, p, time) => t.put thread.id
    { ThreadState.new thread p with accounts := ⟨some time, some time, some time, 0, 0⟩ }) { config }

end PriorityScheduler.ThreadRegistry
