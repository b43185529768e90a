import Mathlib.Data.List.Nodup
import PriorityScheduler.Proofs.Locks.Effects
import PriorityScheduler.Proofs.Locks.Runs

/-!
# What an operation reports

A walk goes one way: either every priority that it changes falls or every one rises. So a thread that moved does not come
back to where it was, however often a walk around a circle passes it, and the threads that an operation reports are those
whose effective priority is another one than before. Only the thread that a lock is handed to may go the other way. It
waits for nothing, so a walk that meets it ends there.

Main statements: `reported_hop`, `reports_settleNext` and `reports_moved`.
-/

namespace PriorityScheduler

inductive Trend where
  | falls
  | rises

namespace Trend

def Leads : Trend → (Priority → Prop) → (Priority → Prop) → Prop
  | .falls, old, new => ∀ x, new x → old x
  | .rises, old, new => ∀ x, old x → new x

variable {c : Trend} {old mid new : Priority → Prop}

theorem leads_of_iff (c : Trend) (same : ∀ x, old x ↔ new x) : c.Leads old new := by
  cases c with
  | falls => exact fun x => (same x).mpr
  | rises => exact fun x => (same x).mp

theorem leads_refl (c : Trend) (old : Priority → Prop) : c.Leads old old := c.leads_of_iff fun _ => Iff.rfl

theorem Leads.trans (first : c.Leads old mid) (second : c.Leads mid new) : c.Leads old new := by
  cases c with
  | falls => exact fun x => first x ∘ second x
  | rises => exact fun x => second x ∘ first x

theorem Leads.and (leads : c.Leads old new) (rest : Priority → Prop) :
    c.Leads (fun x => rest x ∧ old x) fun x => rest x ∧ new x := by
  cases c with
  | falls => exact fun x => And.imp_right (leads x)
  | rises => exact fun x => And.imp_right (leads x)

theorem leads_forall {ι : Type} {p : ι → Prop} {old new : ι → Priority → Prop} (each : ∀ i, p i → c.Leads (old i) (new i)) :
    c.Leads (fun x => ∀ i, p i → old i x) fun x => ∀ i, p i → new i x := by
  cases c with
  | falls => exact fun x all i here => each i here x (all i here)
  | rises => exact fun x all i here => each i here x (all i here)

theorem leads_of_eq (c : Trend) {a b : Priority} (same : b = a) : c.Leads (· ≤ a) (· ≤ b) := same ▸ c.leads_refl _

theorem eq_of_leads {a b : Priority} (there : c.Leads (· ≤ a) (· ≤ b)) (back : c.Leads (· ≤ b) (· ≤ a)) : a = b := by
  cases c with
  | falls => exact Int.le_antisymm (back a (Int.le_refl a)) (there b (Int.le_refl b))
  | rises => exact Int.le_antisymm (there a (Int.le_refl a)) (back b (Int.le_refl b))

theorem exists_leads (a b : Priority) : ∃ c : Trend, c.Leads (· ≤ a) (· ≤ b) := by
  rcases Int.le_total a b with up | down
  · exact ⟨.rises, fun _ below => Int.le_trans below up⟩
  · exact ⟨.falls, fun _ below => Int.le_trans below down⟩

end Trend

namespace LockRegistry

def UnderFloor (t : LockRegistry) (s : ThreadState) (x : Priority) : Prop :=
  x ≤ s.base ∧ ∀ lock ∈ s.held, Below x (t.donated? lock)

/-- The thread runs at the least of its base priority and what its locks donate, whatever donation is noted in its state. -/
def AtFloor (t : LockRegistry) (s : ThreadState) : Prop := ∀ x, x ≤ s.effective ↔ t.UnderFloor s x

variable {t : LockRegistry} {s : ThreadState}

theorem atFloor_of_stateConsistent (consistent : t.stateConsistent s = true) : t.AtFloor s := by
  intro x
  rw [stateConsistent, decide_eq_true_eq] at consistent
  rw [consistent, UnderFloor, ← below_donations]
  cases least (s.held.filterMap t.donated?) with
  | none => simp
  | some p =>
      rw [Option.elim_some, below_some]
      exact Int.le_min

theorem atFloor_setDonation (t : LockRegistry) (s : ThreadState) : t.AtFloor (s.setDonation (t.bestDonation s.held)).state :=
  (t.balanced_setDonation s).le_iff

theorem below_donated?_refresh (t : LockRegistry) (lock l : LockId) (a : ThreadRegistry) (x : Priority) :
    Below x ((t.refresh lock a).donated? l) ↔
      if l = lock then ∀ v ∈ t.waitersOf lock, x ≤ a.effective v else Below x (t.donated? l) := by
  rw [donated?_refresh]
  split
  · rw [below_least, List.forall_mem_map]
  · rfl

end LockRegistry

/-! ## Walks go one way -/

/-- What locks donate and how urgent threads are goes this way, if it goes anywhere, but for some threads. -/
structure Tends (c : Trend) (t : LockRegistry) (a : ThreadRegistry) (exempt : ThreadId → Prop) : Prop where
  locks : ∀ lock, c.Leads (Below · (t.donated? lock)) fun x => ∀ v ∈ t.waitersOf lock, x ≤ a.effective v
  threads : ∀ h s, ¬exempt h → a.get? h = some s → c.Leads (· ≤ s.effective) (t.UnderFloor s)

namespace Tends

variable {c : Trend} {t u : LockRegistry} {a b : ThreadRegistry} {exempt exempt' : ThreadId → Prop} {h : ThreadId}

theorem visitLock (tends : Tends c t a exempt) (lock : LockId) : Tends c (t.refresh lock a) a exempt := by
  have leads (l : LockId) : c.Leads (Below · (t.donated? l)) (Below · ((t.refresh lock a).donated? l)) := by
    by_cases here : l = lock
    · subst here
      refine (tends.locks l).trans (c.leads_of_iff fun x => ?_)
      rw [t.below_donated?_refresh, if_pos rfl]
    · refine c.leads_of_iff fun x => ?_
      rw [t.below_donated?_refresh, if_neg here]
  refine ⟨fun l => ?_, fun h s outside found => ?_⟩
  · rw [(LockRegistry.Alike.refresh t lock a).waitersOf]
    by_cases here : l = lock
    · subst here
      refine c.leads_of_iff fun x => ?_
      rw [t.below_donated?_refresh, if_pos rfl]
    · refine .trans (c.leads_of_iff fun x => ?_) (tends.locks l)
      rw [t.below_donated?_refresh, if_neg here]
  · exact (tends.threads h s outside found).trans ((Trend.leads_forall fun l _ => leads l).and _)

theorem leads_refreshThread (tends : Tends c t a exempt) (outside : ¬exempt h) (j : ThreadId) :
    c.Leads (· ≤ a.effective j) (· ≤ (t.refreshThread h a).threads.effective j) := by
  by_cases here : j = h
  · subst here
    have visited := t.get?_refreshThread j j a
    rw [if_pos rfl] at visited
    cases found : a.get? j with
    | none =>
        rw [found] at visited
        exact c.leads_of_eq (ThreadRegistry.effective_congr (t.config_refreshThread j a) (visited.trans found.symm))
    | some s =>
        rw [found] at visited
        rw [ThreadRegistry.effective_of_get? found, ThreadRegistry.effective_of_get? visited]
        exact (tends.threads j s outside found).trans (c.leads_of_iff fun x => (t.atFloor_setDonation s x).symm)
  · exact c.leads_of_eq (LockRegistry.effective_refreshThread_ne t a here)

theorem visitThread (tends : Tends c t a exempt) (outside : ¬exempt h) : Tends c t (t.refreshThread h a).threads exempt where
  locks lock := (tends.locks lock).trans (Trend.leads_forall fun v _ => tends.leads_refreshThread outside v)
  threads k s outside' found := by
    rw [LockRegistry.get?_refreshThread] at found
    split at found
    · obtain ⟨s, -, rfl⟩ := Option.map_eq_some_iff.mp found
      exact c.leads_of_iff (t.atFloor_setDonation s)
    · exact tends.threads k s outside' found

theorem regraph (tends : Tends c t a exempt) (donated : ∀ lock, u.donated? lock = t.donated? lock)
    (waiters : ∀ lock, c.Leads (fun x => ∀ v ∈ t.waitersOf lock, x ≤ a.effective v) fun x =>
      ∀ v ∈ u.waitersOf lock, x ≤ b.effective v)
    (threads : ∀ h s', ¬exempt' h → b.get? h = some s' → ∃ s, a.get? h = some s ∧ ¬exempt h ∧
      s'.effective = s.effective ∧ c.Leads (t.UnderFloor s) (t.UnderFloor s')) : Tends c u b exempt' where
  locks lock := by
    rw [donated]
    exact (tends.locks lock).trans (waiters lock)
  threads h s' outside found := by
    obtain ⟨s, before, outside', effective, leads⟩ := threads h s' outside found
    have same : u.UnderFloor s' = t.UnderFloor s' := by
      funext x
      simp only [LockRegistry.UnderFloor, donated]
    rw [same, effective]
    exact (tends.threads h s outside' before).trans leads

end Tends

/-! ## Reports -/

namespace Walk

/-- The threads reported are those whose effective priority is another one than before, each reported once. -/
structure Reports (w : Walk) (before : ThreadRegistry) : Prop where
  once : w.changed.Nodup
  moved : ∀ id, id ∈ w.changed ↔ w.threads.effective id ≠ before.effective id

theorem nodup_push {ids : List ThreadId} {h : ThreadId} (once : ids.Nodup) (fresh : h ∉ ids) : (ids ++ [h]).Nodup :=
  once.append (List.nodup_singleton h) (List.disjoint_singleton.mpr fresh)

namespace Reports

variable {w v : Walk} {before : ThreadRegistry} {h : ThreadId}

theorem start {a : ThreadRegistry} (t : LockRegistry) (same : ∀ id, a.effective id = before.effective id) :
    (Walk.start t a).Reports before :=
  ⟨.nil, fun id => iff_of_false nofun (absurd (same id))⟩

theorem congr (reports : w.Reports before) (changed : v.changed = w.changed)
    (effective : ∀ id, v.threads.effective id = w.threads.effective id) : v.Reports before where
  once := changed ▸ reports.once
  moved id := by
    rw [changed, effective]
    exact reports.moved id

theorem still (reports : w.Reports before) (still : w.moves h = false) : (w.visitThread h).Reports before := by
  refine reports.congr rfl fun id => ?_
  exact LockRegistry.effective_of_unchanged still id

theorem told (reports : w.Reports before) (moved : (w.visitThread h).threads.effective h ≠ before.effective h)
    (threads : v.threads = (w.visitThread h).threads) (once : v.changed.Nodup)
    (mem : ∀ j, j ∈ v.changed ↔ j = h ∨ j ∈ w.changed) : v.Reports before where
  once := once
  moved j := by
    rw [mem, threads]
    by_cases here : j = h
    · subst here
      exact iff_of_true (.inl rfl) moved
    · rw [or_iff_right here, reports.moved, w.effective_visitThread_ne here]

theorem report (reports : w.Reports before) (lock : LockId)
    (moved : (w.visitThread h).threads.effective h ≠ before.effective h) :
    ((w.visitThread h).report lock h).Reports before := by
  refine reports.told moved (threads_report _ _ _) ?_ (mem_changed_report _ _ _)
  unfold Walk.report mark notice
  split
  · exact reports.once
  · rename_i fresh
    exact nodup_push reports.once fresh

theorem push (reports : w.Reports before) (fresh : h ∉ w.changed) (moves : w.moves h = true) :
    ({ w.visitThread h with changed := w.changed ++ [h] } : Walk).Reports before := by
  have same : w.threads.effective h = before.effective h := by
    by_contra other
    exact fresh ((reports.moved h).mpr other)
  refine reports.told (same ▸ (w.moves_iff h).mp moves) rfl (nodup_push reports.once fresh) fun j => ?_
  rw [List.mem_append, List.mem_singleton, or_comm]

end Reports

structure Reporting (c : Trend) (before : ThreadRegistry) (exempt : ThreadId → Prop) (w : Walk) : Prop where
  tends : Tends c w.locks w.threads exempt
  went : ∀ id, ¬exempt id → c.Leads (· ≤ before.effective id) (· ≤ w.threads.effective id)
  reports : w.Reports before
  unmoved : ∀ id, exempt id → w.threads.effective id = before.effective id
  awake : ∀ id, exempt id → w.threads.blockedOn? id = none

/-- At the end of a walk: what is reported is what moved, and whoever is exempt and moved stays where it is now. -/
structure Reported (before : ThreadRegistry) (exempt : ThreadId → Prop) (w : Walk) : Prop where
  reports : w.Reports before
  atFloor : ∀ id s, exempt id → w.threads.effective id ≠ before.effective id → w.threads.get? id = some s → w.locks.AtFloor s
  awake : ∀ id, exempt id → w.threads.blockedOn? id = none

namespace Reporting

variable {c : Trend} {before : ThreadRegistry} {exempt : ThreadId → Prop} {w : Walk} {h : ThreadId}

theorem reported (reporting : Reporting c before exempt w) : Reported before exempt w :=
  ⟨reporting.reports, fun id _ inside moved => absurd (reporting.unmoved id inside) moved, reporting.awake⟩

theorem visitLock (reporting : Reporting c before exempt w) (lock : LockId) : Reporting c before exempt (w.visitLock lock) where
  tends := reporting.tends.visitLock lock
  went := reporting.went
  reports := reporting.reports.congr rfl fun _ => rfl
  unmoved := reporting.unmoved
  awake := reporting.awake

theorem moved (reporting : Reporting c before exempt w) (moves : w.moves h = true) :
    (w.visitThread h).threads.effective h ≠ before.effective h := by
  have moved := (w.moves_iff h).mp moves
  by_cases inside : exempt h
  · rw [← reporting.unmoved h inside]
    exact moved
  · intro back
    have there := reporting.tends.leads_refreshThread inside h
    refine moved (Trend.eq_of_leads ?_ there)
    have went := reporting.went h inside
    rw [← back] at went
    exact went

theorem visitThread (reporting : Reporting c before exempt w) (outside : ¬exempt h) {v : Walk} (locks : v.locks = w.locks)
    (threads : v.threads = (w.visitThread h).threads) (reports : v.Reports before) : Reporting c before exempt v where
  tends := by
    rw [locks, threads]
    exact reporting.tends.visitThread outside
  went id outside' := by
    rw [threads]
    exact (reporting.went id outside').trans (reporting.tends.leads_refreshThread outside id)
  reports := reports
  unmoved id inside := by
    have apart : id ≠ h := fun same => outside (same ▸ inside)
    rw [threads, w.effective_visitThread_ne apart]
    exact reporting.unmoved id inside
  awake id inside := by
    rw [threads]
    exact ((ThreadRegistry.Alike.refreshThread w.locks h w.threads).blockedOn? id).trans (reporting.awake id inside)

theorem reported_visitThread (reporting : Reporting c before exempt w) {v : Walk} (locks : v.locks = w.locks)
    (threads : v.threads = (w.visitThread h).threads) (reports : v.Reports before) : Reported before exempt v where
  reports := reports
  atFloor id s inside moved found := by
    rw [threads] at moved found
    rw [locks]
    by_cases here : id = h
    · rw [Walk.visitThread, LockRegistry.get?_refreshThread, if_pos here] at found
      obtain ⟨s, -, rfl⟩ := Option.map_eq_some_iff.mp found
      exact w.locks.atFloor_setDonation s
    · rw [w.effective_visitThread_ne here] at moved
      exact absurd (reporting.unmoved id inside) moved
  awake id inside := by
    rw [threads]
    exact ((ThreadRegistry.Alike.refreshThread w.locks h w.threads).blockedOn? id).trans (reporting.awake id inside)

theorem reported_hop (reporting : Reporting c before exempt w) (start : LockId) (hops : Nat) (lock : LockId) :
    Reported before exempt (hop start hops lock w) := by
  refine hop_rule (fun _ _ w => Reporting c before exempt w) _ (fun reporting => ?_) (fun reporting _ => ?_)
    (fun {_ lock _ _} reporting _ moves => ?_) (fun {_ lock _ _} reporting _ moves _ => ?_)
    (fun {_ lock w h _} reporting _ moves waits => ?_) reporting
  · exact ⟨reporting.reports.congr rfl fun _ => rfl, reporting.reported.atFloor, reporting.awake⟩
  · exact (reporting.visitLock _).reported
  · have visited := reporting.visitLock lock
    exact visited.reported_visitThread rfl rfl (visited.reports.still moves)
  · have visited := reporting.visitLock lock
    exact visited.reported_visitThread (locks_report _ _ _) (threads_report _ _ _)
      (visited.reports.report lock (visited.moved moves))
  · have visited := reporting.visitLock lock
    have outside : ¬exempt h := by
      intro inside
      rw [reporting.awake h inside] at waits
      cases waits
    exact visited.visitThread outside (locks_report _ _ _) (threads_report _ _ _)
      (visited.reports.report lock (visited.moved moves))

theorem reported_settle (reporting : Reporting c before exempt w) (outside : ¬exempt h) (fresh : h ∉ w.changed) :
    Reported before exempt (w.settle h) := by
  have pushed (moves : w.moves h = true) := reporting.visitThread outside
    (v := { w.visitThread h with changed := w.changed ++ [h] }) rfl rfl (reporting.reports.push fresh moves)
  exact settle_rule (Reported before exempt)
    (fun still => reporting.reported_visitThread rfl rfl (reporting.reports.still still))
    (fun moves _ => (pushed moves).reported) fun lock moves _ => (pushed moves).reported_hop lock _ lock

end Reporting

theorem not_moves_of_atFloor {w : Walk} {h : ThreadId} (atFloor : ∀ s, w.threads.get? h = some s → w.locks.AtFloor s) :
    w.moves h = false := by
  by_contra moves
  refine (w.moves_iff h).mp ((Bool.not_eq_false _).mp moves) ?_
  have visited := w.locks.get?_refreshThread h h w.threads
  rw [if_pos rfl] at visited
  cases found : w.threads.get? h with
  | none =>
      rw [found] at visited
      exact ThreadRegistry.effective_congr (w.locks.config_refreshThread h w.threads) (visited.trans found.symm)
  | some s =>
      rw [found] at visited
      rw [ThreadRegistry.effective_of_get? found, Walk.visitThread, ThreadRegistry.effective_of_get? visited]
      exact eq_of_le_iff fun x => (w.locks.atFloor_setDonation s x).trans (atFloor s found x).symm

theorem Reported.reports_settleNext {before : ThreadRegistry} {next : Option ThreadId} {w : Walk}
    (reported : Reported before (next = some ·) w) : (w.settleNext next).Reports before := by
  cases next with
  | none => exact reported.reports
  | some heir =>
      refine settle_rule (·.Reports before) reported.reports.still (fun moves _ => ?_) fun lock _ waits => ?_
      -- an heir that was reported is at its floor, so it does not move a second time
      · refine reported.reports.push (fun told => ?_) moves
        have rests := not_moves_of_atFloor fun s => reported.atFloor heir s rfl ((reported.reports.moved heir).mp told)
        exact Bool.noConfusion (moves.symm.trans rests)
      · cases (reported.awake heir rfl).symm.trans waits

end Walk

/-! ## Operations -/

section Operations

variable {c : Trend} {t u : LockRegistry} {a b : ThreadRegistry} {lock : LockId} {thread : ThreadId}

theorem tends_of_consistent (consistent : t.isConsistent a = true) (on : t.donation = true) (c : Trend) :
    Tends c t a fun _ => False := by
  obtain ⟨settled, level⟩ := (isConsistent_iff t a).mp consistent on
  exact ⟨fun lock => c.leads_of_iff (LockRegistry.settled_iff.mp (settled lock)),
    fun h s _ found => c.leads_of_iff (LockRegistry.atFloor_of_stateConsistent (level h s found))⟩

theorem reporting_start (exempt : ThreadId → Prop) (tends : Tends c u b exempt)
    (effective : ∀ id, b.effective id = a.effective id) (awake : ∀ id, exempt id → b.blockedOn? id = none) :
    Walk.Reporting c a exempt (.start u b) :=
  ⟨tends, fun id _ => c.leads_of_eq (effective id), .start u effective, fun id _ => effective id, awake⟩

theorem exists_before_modify {id h : ThreadId} {f : ThreadState → ThreadState} {s' : ThreadState}
    (found : (a.modify id f).get? h = some s') : ∃ s, a.get? h = some s ∧ (s' = s ∨ s' = f s) := by
  rw [ThreadRegistry.get?_modify] at found
  split at found
  · rename_i here
    obtain ⟨s, before, same⟩ := Option.map_eq_some_iff.mp found
    exact ⟨s, here ▸ before, .inr same.symm⟩
  · exact ⟨s', found, .inl rfl⟩

theorem reports_propagated {waits : Option LockId} (consistent : t.isConsistent a = true)
    (donated : ∀ j, u.donated? j = t.donated? j) (waiters : ∀ j, c.Leads (fun x => ∀ v ∈ t.waitersOf j, x ≤ a.effective v)
      fun x => ∀ v ∈ u.waitersOf j, x ≤ a.effective v) (lock : LockId) :
    (if t.donation then (Walk.start u (a.modify thread fun s => { s with blockedOn := waits })).propagate lock
      else .start u (a.modify thread fun s => { s with blockedOn := waits })).Reports a := by
  have effective := a.effective_modify_of_effective thread (f := fun s => { s with blockedOn := waits }) fun _ => rfl
  by_cases on : t.donation = true
  · rw [if_pos on]
    refine ((reporting_start (c := c) (fun _ => False) ?_ effective fun _ => False.elim).reported_hop lock _ lock).reports
    refine (tends_of_consistent consistent on c).regraph donated ?_ fun h s' _ found => ?_
    · simp only [effective]
      exact waiters
    · obtain ⟨s, before, rfl | rfl⟩ := exists_before_modify found
      · exact ⟨s', before, not_false, rfl, c.leads_refl _⟩
      · exact ⟨s, before, not_false, rfl, c.leads_refl _⟩
  · rw [if_neg on]
    exact .start u effective

theorem reports_taken (effective : ∀ id, b.effective id = a.effective id) : (u.taken thread b).Reports a := by
  have started : (Walk.start u b).Reports a := .start u effective
  rw [LockRegistry.taken]
  cases moves : (Walk.start u b).moves thread with
  | false => exact started.still moves
  | true => exact started.push (List.not_mem_nil) moves

theorem reports_acquire (consistent : t.isConsistent a = true) {outcome : LockOutcome} {w : Walk}
    (done : t.acquire lock thread a = .ok (outcome, w)) : w.Reports a := by
  obtain ⟨l, found, other⟩ := LockRegistry.acquire_ok done
  cases holder : l.holder with
  | none =>
      rw [LockRegistry.acquire_vacant found holder] at done
      obtain ⟨-, rfl⟩ := Prod.mk.inj (Except.ok.inj done)
      dsimp only
      split
      · exact reports_taken (a.effective_modify_of_effective thread (ThreadState.effective_addHeld · lock))
      · exact .start _ fun _ => rfl
  | some h =>
      have others : h ≠ thread := fun same => other (same ▸ holder)
      rw [LockRegistry.acquire_held found holder others] at done
      obtain ⟨-, rfl⟩ := Prod.mk.inj (Except.ok.inj done)
      refine reports_propagated (c := .falls) (u := t.put lock { l with waiters := l.waiters ++ [thread] }) consistent
        (LockRegistry.donated?_put_of_donated found (by rfl))
        (fun j x all v member => all v ?_) lock
      rw [LockRegistry.waitersOf_put]
      split
      · rename_i here
        rw [here, LockRegistry.waitersOf_of_get? found] at member
        exact List.mem_append_left _ member
      · exact member

theorem reports_withdraw (consistent : t.isConsistent a = true) (thread : ThreadId) : (t.withdraw thread a).Reports a := by
  cases waits : a.blockedOn? thread with
  | none =>
      rw [LockRegistry.withdraw_awake waits]
      exact .start t fun _ => rfl
  | some lock =>
      cases found : t.get? lock with
      | none =>
          rw [LockRegistry.withdraw_missing found waits]
          exact reports_propagated (c := .rises) consistent (fun _ => rfl) (fun j => Trend.leads_refl _ _) lock
      | some l =>
          rw [LockRegistry.withdraw_waiting found waits]
          refine reports_propagated (c := .rises) (u := t.put lock { l with waiters := l.waiters.filter (· ≠ thread) })
            consistent (LockRegistry.donated?_put_of_donated found (by rfl))
            (fun j x all v member => all v ?_) lock
          rw [LockRegistry.waitersOf_put] at member
          split at member
          · rename_i here
            rw [here, LockRegistry.waitersOf_of_get? found]
            exact List.mem_of_mem_filter member
          · exact member

theorem tends_passedOn (consistent : t.isConsistent a = true) (on : t.donation = true) {l : Lock}
    (found : t.get? lock = some l) :
    Tends .rises (t.put lock { l with holder := l.waiters.head?, waiters := l.waiters.tail })
      (a.passOn t.donation lock thread l.waiters.head?) (l.waiters.head? = some ·) := by
  refine (tends_of_consistent consistent on .rises).regraph (LockRegistry.donated?_put_of_donated found (by rfl))
    (fun j x all v member => ?_) fun h s' outside after => ?_
  · rw [effective_passOn]
    refine all v ?_
    rw [LockRegistry.waitersOf_put] at member
    split at member
    · rename_i here
      rw [here, LockRegistry.waitersOf_of_get? found]
      exact List.mem_of_mem_tail member
    · exact member
  · have first : (a.modify thread (·.removeHeld lock)).get? h = some s' := by
      cases head : l.waiters.head? with
      | none =>
          rw [head] at after
          exact after
      | some next =>
          have apart : h ≠ next := fun same => outside (same ▸ head)
          rw [head, ThreadRegistry.passOn, ThreadRegistry.get?_modify, if_neg apart] at after
          exact after
    obtain ⟨s, before, rfl | rfl⟩ := exists_before_modify first
    · exact ⟨s', before, not_false, rfl, Trend.leads_refl _ _⟩
    · refine ⟨s, before, not_false, rfl, fun x => And.imp_right fun all j member => all j ?_⟩
      exact List.mem_of_mem_erase ((ThreadState.swapRemove_perm lock s.held).mem_iff.mp member)

theorem reports_release (consistent : t.isConsistent a = true) (linked : Linked t a) {next : Option ThreadId} {w : Walk}
    (done : t.release lock thread a = .ok (next, w)) : w.Reports a := by
  obtain ⟨l, found, holder⟩ := LockRegistry.release_ok done
  rw [LockRegistry.release_held found holder] at done
  obtain ⟨-, rfl⟩ := Prod.mk.inj (Except.ok.inj done)
  have effective := effective_passOn a t.donation lock thread l.waiters.head?
  dsimp only
  by_cases on : t.donation = true
  · rw [if_pos on]
    have outside : l.waiters.head? ≠ some thread := by
      intro first
      have waits : thread ∈ t.waitersOf lock := LockRegistry.waitersOf_of_get? found ▸ List.mem_of_mem_head? first
      exact linked.apart lock thread ((LockRegistry.holder?_of_get? found).trans holder) ((linked.waiting lock thread).mp waits)
    have awake (id : ThreadId) (heir : l.waiters.head? = some id) :
        (a.passOn t.donation lock thread l.waiters.head?).blockedOn? id = none := by
      rw [heir]
      exact a.blockedOn?_passOn t.donation lock thread id
    have started := reporting_start _ (tends_passedOn consistent on found) effective awake
    exact ((started.visitLock lock).reported_settle outside List.not_mem_nil).reports_settleNext
  · rw [if_neg on]
    exact .start _ effective

theorem reports_priorityChanged (consistent : t.isConsistent a = true)
    (others : ∀ id, id ≠ thread → b.get? id = a.get? id) (config : b.config = a.config)
    (level : ∀ s, b.get? thread = some s → t.stateConsistent s = true) : (t.priorityChanged thread b).Reports b := by
  rw [LockRegistry.priorityChanged_eq]
  split
  · rename_i on
    cases b.blockedOn? thread with
    | none => exact .start t fun _ => rfl
    | some lock =>
        obtain ⟨settled, level'⟩ := (isConsistent_iff t a).mp consistent on
        obtain ⟨c, leads⟩ := Trend.exists_leads (a.effective thread) (b.effective thread)
        have went (v : ThreadId) : c.Leads (· ≤ a.effective v) (· ≤ b.effective v) := by
          by_cases same : v = thread
          · exact same ▸ leads
          · exact c.leads_of_eq (ThreadRegistry.effective_congr config (others v same))
        refine ((reporting_start (c := c) (fun _ => False) ?_ (fun _ => rfl) fun _ => False.elim).reported_hop
          lock _ lock).reports
        refine ⟨fun j => ?_, fun h s _ found => c.leads_of_iff (LockRegistry.atFloor_of_stateConsistent ?_)⟩
        · exact (c.leads_of_iff (LockRegistry.settled_iff.mp (settled j))).trans (Trend.leads_forall fun v _ => went v)
        · by_cases same : h = thread
          · exact level s (same ▸ found)
          · exact level' h s ((others h same).symm.trans found)
  · exact .start t fun _ => rfl

theorem reports_reprice (consistent : t.isConsistent a = true) {s : ThreadState} {config : Config} {change : Change}
    (balanced : t.Balanced s) (repriced : s.Repriced config change) :
    (t.reprice thread change a).Reports (a.put thread change.state) := by
  have level : t.Balanced change.state := by
    refine ⟨repriced.floor balanced.1, ?_⟩
    rw [repriced.donation, repriced.held]
    exact balanced.2
  unfold LockRegistry.reprice
  split
  · refine reports_priorityChanged consistent (fun id other => ?_) rfl fun s' put => ?_
    · rw [ThreadRegistry.get?_put, if_neg other]
    · rw [ThreadRegistry.get?_put, if_pos rfl] at put
      exact Option.some.inj put ▸ level.stateConsistent
  · exact .start t fun _ => rfl

/-- What is reported is what moved, cyclic waits and hand-over included. The walk after a change of one thread starts from
a registry `b` that differs from a consistent one in that thread only, as after a change of its base priority. -/
theorem reports_moved (consistent : t.isConsistent a = true) (linked : Linked t a) :
    (∀ lock thread outcome w, t.acquire lock thread a = .ok (outcome, w) → w.Reports a) ∧
      (∀ lock thread next w, t.release lock thread a = .ok (next, w) → w.Reports a) ∧
      (∀ thread, (t.withdraw thread a).Reports a) ∧
      (∀ thread b, (∀ id, id ≠ thread → b.get? id = a.get? id) → b.config = a.config →
        (∀ s, b.get? thread = some s → t.stateConsistent s = true) → (t.priorityChanged thread b).Reports b) ∧
      ∀ thread s config change, t.Balanced s → s.Repriced config change →
        (t.reprice thread change a).Reports (a.put thread change.state) :=
  ⟨fun _ _ _ _ => reports_acquire consistent, fun _ _ _ _ => reports_release consistent linked,
    reports_withdraw consistent, fun _ _ => reports_priorityChanged consistent, fun _ _ _ _ => reports_reprice consistent⟩

theorem reports_moved_deadlock :
    ∃ s taken given state, LockSystem.deadlocked = some s ∧
      s.locks.acquire ⟨1⟩ ⟨3⟩ s.threads = .ok (.blocked ⟨1⟩, taken) ∧ taken.changed = [⟨1⟩, ⟨2⟩] ∧ taken.Reports s.threads ∧
      s.locks.release ⟨1⟩ ⟨1⟩ s.threads = .ok (some ⟨2⟩, given) ∧ given.changed = [⟨1⟩] ∧ given.Reports s.threads ∧
      s.threads.get? ⟨2⟩ = some state ∧
      let change := ThreadState.refresh { state with base := 2 }
      let raised := s.locks.reprice ⟨2⟩ change s.threads
      raised.changed = [⟨1⟩] ∧ raised.Reports (s.threads.put ⟨2⟩ change.state) := by
  have played : LockSystem.deadlocked = some (LockSystem.deadlocked.get (by decide)) := (Option.some_get _).symm
  have reachable := LockSystem.reachable_play (.start (LockSystem.fresh_staffed _ _)) played
  have consistent := (LockSystem.coherent_of_reachable reachable rfl).1
  have sound := LockSystem.sound_of_reachable reachable
  obtain ⟨acquire, release, -, -, reprice⟩ := reports_moved consistent sound.linked
  have balanced := (sound.coherent rfl).balanced ⟨2⟩ _ not_false rfl
  exact ⟨_, _, _, _, played, rfl, by decide, acquire ⟨1⟩ ⟨3⟩ _ _ rfl, rfl, by decide, release ⟨1⟩ ⟨1⟩ _ _ rfl, rfl, by decide,
    reprice ⟨2⟩ _ {} _ balanced (.setBase _ (by decide))⟩

end Operations

end PriorityScheduler
