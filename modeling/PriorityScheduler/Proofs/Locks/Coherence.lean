import Mathlib.Data.List.Basic
import PriorityScheduler.Proofs.Locks.Bounds
import PriorityScheduler.Proofs.Locks.Walks

/-!
# Coherence of donations

A lock is settled when it donates the least effective priority of its waiters, and a thread is balanced when it runs
at the least of its base priority and what its locks donate. Visiting a lock settles it and may leave its holder
unbalanced; visiting a thread balances it and may leave the lock that it waits for unsettled. The donation walk
alternates the two.

Main statements: `Travels.onward`, one hop, and `Travels.coherent_hop`, the walk restores coherence within as many hops as
there are locks that the shift has not passed, whatever the shape of the graph, and with it `coherent_settle`.
-/

namespace PriorityScheduler

namespace ThreadState

theorem le_floor (s : ThreadState) (x : Priority) :
    x ≤ s.floor ↔ x ≤ s.base ∧ Below x (s.donation.map (·.priority)) := by
  unfold floor
  cases s.donation with
  | none => simp
  | some d =>
      simp only [Option.map_some, below_some]
      exact Int.le_min

end ThreadState

namespace LockRegistry

def Settled (t : LockRegistry) (threads : ThreadRegistry) (lock : LockId) : Prop :=
  t.donated? lock = least ((t.waitersOf lock).map threads.effective)

def Balanced (t : LockRegistry) (s : ThreadState) : Prop :=
  s.effective = s.floor ∧ s.donation.map (·.priority) = least (s.held.filterMap t.donated?)

variable {t u : LockRegistry} {a b : ThreadRegistry}

theorem below_donations (t : LockRegistry) (held : List LockId) (x : Priority) :
    Below x (least (held.filterMap t.donated?)) ↔ ∀ lock ∈ held, Below x (t.donated? lock) := by
  rw [below_least]
  simp only [List.mem_filterMap, forall_exists_index, and_imp, Below, Option.mem_def]
  exact ⟨fun all lock member p given => all p lock member given, fun all p lock member given => all lock member p given⟩

theorem settled_iff : t.Settled a lock ↔
    ∀ x, Below x (t.donated? lock) ↔ ∀ v ∈ t.waitersOf lock, x ≤ a.effective v := by
  have below (x : Priority) : Below x (least ((t.waitersOf lock).map a.effective)) ↔
      ∀ v ∈ t.waitersOf lock, x ≤ a.effective v := by
    rw [below_least, List.forall_mem_map]
  refine ⟨fun settled x => ?_, fun same => eq_of_below fun x => ?_⟩
  · rw [settled, below]
  · rw [below, same]

theorem Settled.congr {lock : LockId} (settled : t.Settled a lock) (donated : u.donated? lock = t.donated? lock)
    (waiters : u.waitersOf lock = t.waitersOf lock)
    (effective : ∀ v ∈ t.waitersOf lock, b.effective v = a.effective v) : u.Settled b lock := by
  rw [Settled, donated, waiters, List.map_congr_left effective]
  exact settled

theorem Balanced.le_iff {s : ThreadState} (balanced : t.Balanced s) (x : Priority) :
    x ≤ s.effective ↔ x ≤ s.base ∧ ∀ lock ∈ s.held, Below x (t.donated? lock) := by
  rw [balanced.1, s.le_floor, balanced.2, below_donations]

theorem Balanced.congr {s : ThreadState} (balanced : t.Balanced s)
    (donated : ∀ lock ∈ s.held, u.donated? lock = t.donated? lock) : u.Balanced s := by
  refine ⟨balanced.1, ?_⟩
  rw [List.filterMap_congr donated]
  exact balanced.2

theorem balanced_setDonation (t : LockRegistry) (s : ThreadState) :
    t.Balanced (s.setDonation (t.bestDonation s.held)).state :=
  ⟨rfl, t.priority_bestDonation s.held⟩

theorem effective_of_unchanged {h : ThreadId} (same : (t.refreshThread h a).changed = false) (j : ThreadId) :
    (t.refreshThread h a).threads.effective j = a.effective j := by
  by_cases here : j = h
  · rw [here]
    by_contra moved
    rw [← ne_eq, ← changed_refreshThread, same] at moved
    cases moved
  · exact effective_refreshThread_ne t a here

end LockRegistry

/-- All locks but some are settled and all threads but some are balanced. -/
structure CoherentBut (t : LockRegistry) (threads : ThreadRegistry) (unsettled : LockId → Prop)
    (unbalanced : ThreadId → Prop) : Prop where
  settled : ∀ lock, ¬unsettled lock → t.Settled threads lock
  balanced : ∀ h s, ¬unbalanced h → threads.get? h = some s → t.Balanced s

abbrev Coherent (t : LockRegistry) (threads : ThreadRegistry) : Prop :=
  CoherentBut t threads (fun _ => False) (fun _ => False)

theorem isConsistent_iff (t : LockRegistry) (a : ThreadRegistry) :
    t.isConsistent a = true ↔ (t.donation = true → (∀ lock, t.Settled a lock) ∧
      ∀ h s, a.get? h = some s → t.stateConsistent s = true) := by
  have locks : t.locks.values.all (LockRegistry.lockConsistent a) = true ↔ ∀ lock, t.Settled a lock := by
    rw [List.all_eq_true]
    refine ⟨fun all lock => ?_, fun settled l member => ?_⟩
    · cases found : t.get? lock with
      | none => simp [LockRegistry.Settled, LockRegistry.donated?, LockRegistry.waitersOf, found, LockRegistry.least]
      | some l =>
          have consistent := all l ((t.locks.mem_values l).mpr ⟨lock, found⟩)
          rw [LockRegistry.lockConsistent, decide_eq_true_eq] at consistent
          rw [LockRegistry.Settled, LockRegistry.donated?_of_get? found, LockRegistry.waitersOf_of_get? found, consistent]
    · obtain ⟨lock, found⟩ := (t.locks.mem_values l).mp member
      have here := settled lock
      rw [LockRegistry.Settled, LockRegistry.donated?_of_get? found, LockRegistry.waitersOf_of_get? found] at here
      rw [LockRegistry.lockConsistent, here, decide_eq_true_eq]
  have states : a.states.values.all t.stateConsistent = true ↔ ∀ h s, a.get? h = some s → t.stateConsistent s = true := by
    rw [List.all_eq_true]
    refine ⟨fun all h s found => all s ((a.states.mem_values s).mpr ⟨h, found⟩), fun all s member => ?_⟩
    obtain ⟨h, found⟩ := (a.states.mem_values s).mp member
    exact all h s found
  rw [LockRegistry.isConsistent, Bool.or_eq_true, Bool.and_eq_true, locks, states, Bool.not_eq_true']
  cases t.donation <;> simp

theorem LockRegistry.Balanced.stateConsistent {t : LockRegistry} {s : ThreadState} (balanced : t.Balanced s) :
    t.stateConsistent s = true := by
  rw [LockRegistry.stateConsistent, decide_eq_true_eq, balanced.1, ThreadState.floor, ← balanced.2]
  cases s.donation <;> rfl

theorem isConsistent_of_coherent {t : LockRegistry} {a : ThreadRegistry} (coherent : Coherent t a) :
    t.isConsistent a = true :=
  (isConsistent_iff t a).mpr fun _ => ⟨fun lock => coherent.settled lock not_false, fun h s found =>
    (coherent.balanced h s not_false found).stateConsistent⟩

namespace CoherentBut

variable {t : LockRegistry} {a : ThreadRegistry} {unsettled unsettled' : LockId → Prop}
  {unbalanced unbalanced' : ThreadId → Prop}

theorem weaken (coherent : CoherentBut t a unsettled unbalanced) (locks : ∀ lock, unsettled lock → unsettled' lock)
    (threads : ∀ h, unbalanced h → unbalanced' h) : CoherentBut t a unsettled' unbalanced' where
  settled lock outside := coherent.settled lock fun inside => outside (locks lock inside)
  balanced h s outside found := coherent.balanced h s (fun inside => outside (threads h inside)) found

theorem visitLock (coherent : CoherentBut t a unsettled unbalanced) (linked : Linked t a) (lock : LockId) :
    CoherentBut (t.refresh lock a) a (fun l => unsettled l ∧ l ≠ lock)
      (fun h => unbalanced h ∨ t.holder? lock = some h) where
  settled l outside := by
    have waiters := (LockRegistry.Alike.refresh t lock a).waitersOf l
    by_cases here : l = lock
    · rw [LockRegistry.Settled, waiters, LockRegistry.donated?_refresh, if_pos here, here]
    · refine (coherent.settled l fun inside => outside ⟨inside, here⟩).congr ?_ waiters fun _ _ => rfl
      rw [LockRegistry.donated?_refresh, if_neg here]
  balanced h s outside found := by
    obtain ⟨steady, other⟩ := not_or.mp outside
    apply (coherent.balanced h s steady found).congr
    intro l member
    rw [LockRegistry.donated?_refresh, if_neg]
    rintro rfl
    rw [← ThreadRegistry.heldBy_of_get? found] at member
    exact other ((linked.held h l).mp member).2

theorem visitThread (coherent : CoherentBut t a unsettled unbalanced) (linked : Linked t a) (h : ThreadId) :
    CoherentBut t (t.refreshThread h a).threads
      (fun l => unsettled l ∨ (t.refreshThread h a).changed = true ∧ a.blockedOn? h = some l)
      (fun k => unbalanced k ∧ k ≠ h) where
  settled l outside := by
    obtain ⟨steady, still⟩ := not_or.mp outside
    apply (coherent.settled l steady).congr rfl rfl
    intro v waits
    by_cases here : v = h
    · rw [here] at waits
      refine LockRegistry.effective_of_unchanged (Bool.not_eq_true _ ▸ fun moved => still ⟨moved, ?_⟩) v
      exact (linked.waiting l h).mp waits
    · exact LockRegistry.effective_refreshThread_ne t a here
  balanced k s outside found := by
    rw [LockRegistry.get?_refreshThread] at found
    by_cases here : k = h
    · rw [if_pos here] at found
      obtain ⟨s', -, rfl⟩ := Option.map_eq_some_iff.mp found
      exact t.balanced_setDonation s'
    · rw [if_neg here] at found
      exact coherent.balanced k s (fun inside => outside ⟨inside, here⟩) found

theorem regraph {u : LockRegistry} {b : ThreadRegistry} (coherent : CoherentBut t a unsettled unbalanced)
    (donated : ∀ lock, u.donated? lock = t.donated? lock)
    (waiters : ∀ lock, ¬unsettled' lock → u.waitersOf lock = t.waitersOf lock)
    (effective : ∀ lock, ¬unsettled' lock → ∀ v ∈ t.waitersOf lock, b.effective v = a.effective v)
    (states : ∀ h s', ¬unbalanced' h → b.get? h = some s' →
      ∃ s, a.get? h = some s ∧ (t.Balanced s → t.Balanced s'))
    (locks : ∀ lock, unsettled lock → unsettled' lock) (threads : ∀ h, unbalanced h → unbalanced' h) :
    CoherentBut u b unsettled' unbalanced' where
  settled lock outside :=
    (coherent.settled lock fun inside => outside (locks lock inside)).congr (donated lock) (waiters lock outside)
      (effective lock outside)
  balanced h s' outside found := by
    obtain ⟨s, before, steady⟩ := states h s' outside found
    have balanced := coherent.balanced h s (fun inside => outside (threads h inside)) before
    exact (steady balanced).congr fun lock _ => donated lock

end CoherentBut

def Gap (σ : Shift) (t : LockRegistry) (threads : ThreadRegistry) (lock : LockId) : Prop :=
  σ.Leads (Below · (t.donated? lock)) (Below · (LockRegistry.least ((t.waitersOf lock).map threads.effective)))

section Walk

variable {σ : Shift} {t : LockRegistry} {a b : ThreadRegistry} {lock : LockId} {h : ThreadId}

theorem Gap.settled (gap : Gap σ t a lock) (passed : σ.passed (t.donated? lock) = true) : t.Settled a lock :=
  Shift.eq_of_passed gap passed

theorem gap_of_leads (settled : t.Settled a lock) (waits : h ∈ t.waitersOf lock)
    (others : ∀ v, v ≠ h → b.effective v = a.effective v) (leads : σ.Leads (· ≤ a.effective h) (· ≤ b.effective h)) :
    Gap σ t b lock := by
  refine (leads.and fun x => ∀ v ∈ t.waitersOf lock, v ≠ h → x ≤ a.effective v).congr (fun x => ?_) fun x => ?_
  · rw [LockRegistry.settled_iff.mp settled x]
    exact ⟨fun all => ⟨fun v member _ => all v member, all h waits⟩, by grind⟩
  · rw [below_least, List.forall_mem_map]
    refine ⟨fun all => ⟨fun v member other => others v other ▸ all v member, all h waits⟩, ?_⟩
    rintro ⟨rest, here⟩ v member
    by_cases same : v = h
    · exact same ▸ here
    · exact others v same ▸ rest v member same

theorem le_effective_iff {s : ThreadState} (found : a.get? h = some s) (balanced : t.Balanced s)
    (member : lock ∈ s.held) (x : Priority) :
    x ≤ a.effective h ↔
      (x ≤ s.base ∧ ∀ l ∈ s.held, l ≠ lock → Below x (t.donated? l)) ∧ Below x (t.donated? lock) := by
  rw [ThreadRegistry.effective_of_get? found, balanced.le_iff]
  grind

theorem le_effective_refreshThread {s : ThreadState} (found : a.get? h = some s) (member : lock ∈ s.held)
    (x : Priority) :
    x ≤ (t.refreshThread h a).threads.effective h ↔
      (x ≤ s.base ∧ ∀ l ∈ s.held, l ≠ lock → Below x (t.donated? l)) ∧ Below x (t.donated? lock) := by
  have renewed : (t.refreshThread h a).threads.get? h = some (s.setDonation (t.bestDonation s.held)).state := by
    rw [LockRegistry.get?_refreshThread, if_pos rfl, found, Option.map_some]
  exact le_effective_iff renewed (t.balanced_setDonation s) member x

theorem Gap.refresh (gap : Gap σ t a lock) :
    σ.Leads (Below · (t.donated? lock)) (Below · ((t.refresh lock a).donated? lock)) := by
  rw [LockRegistry.donated?_refresh, if_pos rfl]
  exact gap

theorem Gap.countP_lt (gap : Gap σ t a lock) (member : lock ∈ t.ids)
    (moved : t.donated? lock ≠ (t.refresh lock a).donated? lock) :
    (t.refresh lock a).ids.countP (fun l => !σ.passed ((t.refresh lock a).donated? l)) <
      t.ids.countP (fun l => !σ.passed (t.donated? l)) := by
  have passed : σ.passed ((t.refresh lock a).donated? lock) = true := Shift.passed_of_ne gap.refresh moved
  rw [LockRegistry.ids_refresh]
  refine PriorityScheduler.countP_lt member (fun l _ after => ?_) ?_ (by rw [passed]; rfl)
  · by_cases here : l = lock
    · rw [here, passed] at after
      cases after
    · rw [LockRegistry.donated?_refresh, if_neg here] at after
      exact after
  · cases before : σ.passed (t.donated? lock) with
    | false => rfl
    | true => exact absurd (Shift.eq_of_passed gap.refresh before) moved

theorem leads_refreshThread {s : ThreadState} (found : a.get? h = some s) (balanced : t.Balanced s)
    (member : lock ∈ s.held) (gap : Gap σ t a lock) :
    σ.Leads (· ≤ a.effective h) (· ≤ ((t.refresh lock a).refreshThread h a).threads.effective h) := by
  refine (gap.refresh.and fun x => x ≤ s.base ∧ ∀ l ∈ s.held, l ≠ lock → Below x (t.donated? l)).congr
    (le_effective_iff found balanced member) fun x => ?_
  rw [le_effective_refreshThread found member]
  simp only [LockRegistry.donated?_refresh]
  grind

theorem donated?_ne_of_changed {s : ThreadState} (found : a.get? h = some s) (balanced : t.Balanced s)
    (member : lock ∈ s.held) (moved : ((t.refresh lock a).refreshThread h a).changed = true) :
    t.donated? lock ≠ (t.refresh lock a).donated? lock := by
  intro same
  refine (LockRegistry.changed_refreshThread _ _ _).mp moved (eq_of_le_iff fun x => ?_)
  rw [le_effective_refreshThread found member, le_effective_iff found balanced member, ← same]
  simp only [LockRegistry.donated?_refresh]
  grind

/-- In the course of a walk all is coherent but the lock that is visited next. What that lock donates is off by a shift, and
the shift has still to pass no more locks than there are hops left. -/
structure Travels (σ : Shift) (exempt : ThreadId → Prop) (hops : Nat) (lock : LockId) (w : Walk) : Prop where
  linked : Linked w.locks w.threads
  on : w.locks.donation = true
  coherent : CoherentBut w.locks w.threads (· = lock) exempt
  awake : ∀ k, exempt k → w.threads.blockedOn? k = none
  gap : Gap σ w.locks w.threads lock
  room : w.locks.ids.countP (fun l => !σ.passed (w.locks.donated? l)) ≤ hops

namespace Travels

variable {exempt : ThreadId → Prop} {hops : Nat} {next : LockId} {w : Walk}

theorem passed (travels : Travels σ exempt 0 lock w) {l : LockId} (present : l ∈ w.locks.ids) :
    σ.passed (w.locks.donated? l) = true := by
  have none := List.countP_eq_zero.mp (Nat.le_zero.mp travels.room) l present
  simpa using none

theorem coherent_of_cut (travels : Travels σ exempt 0 lock w) :
    CoherentBut w.locks w.threads (fun _ => False) exempt := by
  refine ⟨fun l _ => ?_, travels.coherent.balanced⟩
  by_cases here : l = lock
  · rw [here]
    cases found : w.locks.get? lock with
    | none => simp [LockRegistry.Settled, LockRegistry.donated?, LockRegistry.waitersOf, found, LockRegistry.least]
    -- no hop is left, so the shift has passed every lock, this one included
    | some _ => exact travels.gap.settled (travels.passed ((w.locks.mem_ids lock).mpr (by simp [found])))
  · exact travels.coherent.settled l here

theorem linked_visitLock (travels : Travels σ exempt hops lock w) :
    Linked (w.visitLock lock).locks (w.visitLock lock).threads :=
  travels.linked.of_alike (.refresh w.locks lock w.threads) (.refl w.threads)

theorem coherent_visitLock (travels : Travels σ exempt hops lock w) :
    CoherentBut (w.visitLock lock).locks (w.visitLock lock).threads (fun _ => False)
      (fun k => exempt k ∨ w.locks.holder? lock = some k) :=
  (travels.coherent.visitLock travels.linked lock).weaken (fun _ open' => open'.2 open'.1) fun _ => id

theorem coherent_visitThread (travels : Travels σ exempt hops lock w) (holder : w.locks.holder? lock = some h) :
    CoherentBut ((w.visitLock lock).visitThread h).locks ((w.visitLock lock).visitThread h).threads
      (fun l => (w.visitLock lock).moves h = true ∧ w.threads.blockedOn? h = some l) exempt := by
  have visited := travels.coherent_visitLock.visitThread travels.linked_visitLock h
  rw [holder] at visited
  exact visited.weaken (fun _ open' => open'.resolve_left id) (by grind)

theorem exists_balanced (travels : Travels σ exempt hops lock w) (holder : w.locks.holder? lock = some h)
    (waits : w.threads.blockedOn? h = some next) :
    ∃ s, w.threads.get? h = some s ∧ w.locks.Balanced s ∧ lock ∈ s.held := by
  obtain ⟨s, found⟩ := Option.isSome_iff_exists.mp (travels.linked.known lock h holder)
  refine ⟨s, found, travels.coherent.balanced h s (fun inside => ?_) found, ?_⟩
  · rw [travels.awake h inside] at waits
    cases waits
  · rw [← ThreadRegistry.heldBy_of_get? found]
    exact (travels.linked.held h lock).mpr ⟨travels.on, holder⟩

theorem leads (travels : Travels σ exempt hops lock w) (holder : w.locks.holder? lock = some h)
    (waits : w.threads.blockedOn? h = some next) :
    σ.Leads (· ≤ w.threads.effective h) (· ≤ ((w.visitLock lock).visitThread h).threads.effective h) := by
  obtain ⟨s, found, balanced, member⟩ := travels.exists_balanced holder waits
  exact leads_refreshThread found balanced member travels.gap

theorem onward (travels : Travels σ exempt (hops + 1) lock w) (holder : w.locks.holder? lock = some h)
    (moves : (w.visitLock lock).moves h = true) (waits : w.threads.blockedOn? h = some next) :
    Travels σ exempt hops next (((w.visitLock lock).visitThread h).report lock h) := by
  obtain ⟨s, found, balanced, member⟩ := travels.exists_balanced holder waits
  have sameThreads := ThreadRegistry.Alike.refreshThread (w.visitLock lock).locks h w.threads
  have waiter : h ∈ (w.visitLock lock).locks.waitersOf next := (travels.linked_visitLock.waiting next h).mpr waits
  have fewer := travels.gap.countP_lt (LockRegistry.mem_ids_of_holder? holder)
    (donated?_ne_of_changed found balanced member moves)
  have rest := travels.coherent_visitThread holder
  rw [moves, waits] at rest
  refine ⟨?_, ?_, ?_, ?_, ?_, ?_⟩
  all_goals simp only [Walk.locks_report, Walk.threads_report]
  · exact travels.linked_visitLock.of_alike (.refl _) sameThreads
  · exact (LockRegistry.Alike.refresh w.locks lock w.threads).donation.trans travels.on
  · simpa [eq_comm] using rest
  · exact fun k inside => (sameThreads.blockedOn? k).trans (travels.awake k inside)
  · exact gap_of_leads (travels.coherent_visitLock.settled next not_false) waiter
      (fun v other => LockRegistry.effective_refreshThread_ne _ _ other) (travels.leads holder waits)
  · exact Nat.le_of_lt_succ (Nat.lt_of_lt_of_le fewer travels.room)

theorem coherent_hop (travels : Travels σ exempt hops lock w) (start : LockId) :
    CoherentBut (Walk.hop start hops lock w).locks (Walk.hop start hops lock w).threads (fun _ => False) exempt := by
  refine Walk.hop_rule (fun hops lock w => Travels σ exempt hops lock w)
    (fun w => CoherentBut w.locks w.threads (fun _ => False) exempt) (fun travels => travels.coherent_of_cut)
    (fun travels free => ?_) (fun travels holder moves => ?_) (fun travels holder _ awake => ?_)
    (fun travels holder moves waits => travels.onward holder moves waits) travels
  -- a lock in no hands, a holder that stays where it is, and one that waits for nothing
  · have visited := travels.coherent_visitLock
    rw [free] at visited
    exact visited.weaken (fun _ => id) (by simp)
  · have visited := travels.coherent_visitThread holder
    rw [moves] at visited
    exact visited.weaken (by simp) fun _ => id
  · have visited := travels.coherent_visitThread holder
    rw [awake] at visited
    rw [Walk.locks_report, Walk.threads_report]
    exact visited.weaken (by simp) fun _ => id

end Travels

theorem travels_propagate {exempt : ThreadId → Prop} {w : Walk} (linked : Linked w.locks w.threads)
    (on : w.locks.donation = true) (coherent : CoherentBut w.locks w.threads (· = lock) exempt)
    (awake : ∀ k, exempt k → w.threads.blockedOn? k = none) (gap : Gap σ w.locks w.threads lock) :
    Travels σ exempt w.locks.size lock w :=
  ⟨linked, on, coherent, awake, gap, by
    rw [LockRegistry.size_eq]
    exact List.countP_le_length⟩

theorem travels_settle {unbalanced : ThreadId → Prop} {w : Walk} {id : ThreadId}
    (linked : Linked w.locks w.threads) (on : w.locks.donation = true)
    (coherent : CoherentBut w.locks w.threads (fun _ => False) unbalanced)
    (awake : ∀ k, unbalanced k → k ≠ id → w.threads.blockedOn? k = none)
    (waits : w.threads.blockedOn? id = some lock) :
    ∃ σ, Travels σ (fun k => unbalanced k ∧ k ≠ id) w.locks.size lock
      { w.visitThread id with changed := w.changed ++ [id] } := by
  have visited := coherent.visitThread linked id
  have alike := ThreadRegistry.Alike.refreshThread w.locks id w.threads
  rw [waits] at visited
  obtain ⟨σ, leads⟩ := Shift.exists_leads (w.threads.effective id) ((w.visitThread id).threads.effective id)
  refine ⟨σ, travels_propagate (w := { w.visitThread id with changed := w.changed ++ [id] }) ?_ on ?_ ?_ ?_⟩
  · exact linked.of_alike (.refl _) alike
  · refine visited.weaken (fun l => ?_) fun _ both => both
    rintro (open' | ⟨-, same⟩)
    · exact open'.elim
    · exact (Option.some.inj same).symm
  · exact fun k both => (alike.blockedOn? k).trans (awake k both.1 both.2)
  · exact gap_of_leads (coherent.settled lock not_false) ((linked.waiting lock id).mpr waits)
      (fun v other => w.effective_visitThread_ne other) leads

theorem coherent_settle {unbalanced : ThreadId → Prop} {w : Walk} {id : ThreadId}
    (linked : Linked w.locks w.threads) (on : w.locks.donation = true)
    (coherent : CoherentBut w.locks w.threads (fun _ => False) unbalanced)
    (awake : ∀ k, unbalanced k → k ≠ id → w.threads.blockedOn? k = none) :
    CoherentBut (w.settle id).locks (w.settle id).threads (fun _ => False) (fun k => unbalanced k ∧ k ≠ id) := by
  have visited := coherent.visitThread linked id
  refine Walk.settle_rule (fun v => CoherentBut v.locks v.threads (fun _ => False) fun k => unbalanced k ∧ k ≠ id)
    (fun still => ?_) (fun _ waits => ?_) fun lock _ waits => ?_
  · refine visited.weaken (fun l => ?_) fun _ both => both
    rintro (open' | ⟨moved, -⟩)
    · exact open'
    · exact absurd (still.symm.trans moved) Bool.noConfusion
  · rw [waits] at visited
    exact visited.weaken (by simp) fun _ both => both
  · obtain ⟨σ, travels⟩ := travels_settle linked on coherent awake waits
    exact travels.coherent_hop lock

end Walk

end PriorityScheduler
