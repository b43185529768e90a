import Mathlib.Data.Fintype.Card
import Mathlib.Data.Set.Finite.List
import Mathlib.Logic.Relation
import Mathlib.Order.Bounds.Basic
import PriorityScheduler.Proofs.Locks.Runs

/-!
# Waits without a circle

Where no thread waits for itself through a chain of holders, the effective priority of a thread is the least base
priority among the threads that wait for it, directly or through a chain, itself included. So the cached priorities
depend on the base priorities and the graph alone. A walk on such a graph visits a lock at most once and ends before
its bound.

Main statements: `isLeast_effective`, `quiet_propagate` and `effective_of_acyclic`.
-/

namespace PriorityScheduler

open Relation

namespace LockRegistry

def WaitsFor (t : LockRegistry) (u v : ThreadId) : Prop := ∃ lock, u ∈ t.waitersOf lock ∧ t.holder? lock = some v

def Acyclic (t : LockRegistry) : Prop := ∀ v, ¬TransGen t.WaitsFor v v

theorem Alike.waitsFor {t u : LockRegistry} (alike : t.Alike u) : u.WaitsFor = t.WaitsFor := by
  funext v w
  simp only [WaitsFor, alike.holder?, alike.waitersOf]

end LockRegistry

theorem LockRegistry.acyclic_of_rank {t : LockRegistry} (rank : ThreadId → Nat)
    (grows : ∀ lock ∈ t.ids, ∀ u ∈ t.waitersOf lock, ∀ v ∈ t.holder? lock, rank u < rank v) : t.Acyclic := by
  have below {u v : ThreadId} (chain : TransGen t.WaitsFor u v) : rank u < rank v := by
    induction chain with
    | single step =>
        obtain ⟨lock, waits, held⟩ := step
        exact grows lock (mem_ids_of_holder? held) _ waits _ held
    | tail _ step ih =>
        obtain ⟨lock, waits, held⟩ := step
        exact Nat.lt_trans ih (grows lock (mem_ids_of_holder? held) _ waits _ held)
  exact fun v circle => Nat.lt_irrefl _ (below circle)

theorem wellFounded_of_acyclic {α : Type} {r : α → α → Prop} (known : List α) (inside : ∀ u v, r u v → u ∈ known)
    (acyclic : ∀ v, ¬TransGen r v v) : WellFounded r := by
  let r' (x y : { x // x ∈ known }) : Prop := TransGen r x y
  have : IsTrans { x // x ∈ known } r' := ⟨fun _ _ _ => TransGen.trans⟩
  have : Std.Irrefl r' := ⟨fun x => acyclic x⟩
  have : Finite { x // x ∈ known } := (List.finite_toSet known).to_subtype
  have wf : WellFounded r' := Finite.wellFounded_of_trans_of_irrefl r'
  have accessible (x : { x // x ∈ known }) : Acc r x := by
    induction x using wf.induction with
    | _ x ih => exact Acc.intro _ fun u below => ih ⟨u, inside u x below⟩ (.single below)
  exact ⟨fun v => Acc.intro _ fun u below => accessible ⟨u, inside u v below⟩⟩

section Forest

variable {t : LockRegistry} {a : ThreadRegistry}

theorem Linked.waitsFor_iff (linked : Linked t a) (u v : ThreadId) :
    t.WaitsFor u v ↔ ∃ lock, a.blockedOn? u = some lock ∧ t.holder? lock = some v := by
  simp only [LockRegistry.WaitsFor, linked.waiting]

theorem Linked.wellFounded (linked : Linked t a) (acyclic : t.Acyclic) : WellFounded t.WaitsFor := by
  refine wellFounded_of_acyclic a.states.keys (fun u v waits => ?_) acyclic
  obtain ⟨lock, blocked, -⟩ := (linked.waitsFor_iff u v).mp waits
  rw [SortedMap.mem_keys]
  exact ThreadRegistry.isSome_of_blockedOn? blocked

theorem le_effective_iff_waitsFor (linked : Linked t a) (on : t.donation = true) (coherent : Coherent t a)
    {v : ThreadId} {s : ThreadState} (found : a.get? v = some s) (x : Priority) :
    x ≤ s.effective ↔ x ≤ s.base ∧ ∀ u, t.WaitsFor u v → x ≤ a.effective u := by
  rw [(coherent.balanced v s not_false found).le_iff]
  apply and_congr_right
  intro _
  simp only [LockRegistry.settled_iff.mp (coherent.settled _ not_false), ← ThreadRegistry.heldBy_of_get? found,
    linked.held, on, true_and, LockRegistry.WaitsFor]
  exact ⟨fun all u ⟨lock, waits, held⟩ => all lock held u waits, fun all lock held u waits => all u ⟨lock, waits, held⟩⟩

/-- The base priorities of a thread and of all that wait for it, directly or through a chain of holders. -/
def Claims (t : LockRegistry) (a : ThreadRegistry) (v : ThreadId) : Set Priority :=
  { p | ∃ u s, ReflTransGen t.WaitsFor u v ∧ a.get? u = some s ∧ s.base = p }

theorem mem_claims_iff (v : ThreadId) (p : Priority) :
    p ∈ Claims t a v ↔ ∃ u, ReflTransGen t.WaitsFor u v ∧ (a.get? u).map (·.base) = some p := by
  apply exists_congr
  intro u
  rw [exists_and_left, Option.map_eq_some_iff]

theorem effective_le_of_waits (linked : Linked t a) (on : t.donation = true) (coherent : Coherent t a)
    {u v : ThreadId} (chain : ReflTransGen t.WaitsFor u v) {su sv : ThreadState} (foundU : a.get? u = some su)
    (foundV : a.get? v = some sv) : sv.effective ≤ su.effective := by
  induction chain using ReflTransGen.head_induction_on generalizing su with
  | refl =>
      rw [foundU] at foundV
      cases foundV
      exact Int.le_refl _
  | head step rest ih =>
      rename_i w w'
      have known : (a.get? w').isSome := by
        obtain ⟨lock, -, held⟩ := step
        exact linked.known lock w' held
      obtain ⟨s', found'⟩ := Option.isSome_iff_exists.mp known
      have here := ((le_effective_iff_waitsFor linked on coherent found' _).mp (Int.le_refl _)).2 w step
      rw [ThreadRegistry.effective_of_get? foundU] at here
      exact Int.le_trans (ih found') here

theorem isLeast_effective (linked : Linked t a) (on : t.donation = true) (coherent : Coherent t a)
    (acyclic : t.Acyclic) {v : ThreadId} {s : ThreadState} (found : a.get? v = some s) :
    IsLeast (Claims t a v) s.effective := by
  refine ⟨?_, ?_⟩
  · -- follow the waiter that gives the priority until a thread runs at its own base priority
    induction v using (linked.wellFounded acyclic).induction generalizing s with
    | _ v ih =>
        by_cases own : s.base ≤ s.effective
        · have below := ((le_effective_iff_waitsFor linked on coherent found _).mp (Int.le_refl _)).1
          exact ⟨v, s, .refl, found, Int.le_antisymm own below⟩
        · have donor : ∃ u, t.WaitsFor u v ∧ a.effective u ≤ s.effective := by
            by_contra none
            have above : s.effective + 1 ≤ s.effective := by
              refine (le_effective_iff_waitsFor linked on coherent found _).mpr ⟨Int.not_le.mp own, fun u waits => ?_⟩
              by_contra less
              exact none ⟨u, waits, Int.lt_add_one_iff.mp (Int.not_le.mp less)⟩
            exact Int.not_le.mpr (Int.lt_succ s.effective) above
          obtain ⟨u, waits, low⟩ := donor
          obtain ⟨lock, blocked, -⟩ := (linked.waitsFor_iff u v).mp waits
          obtain ⟨su, foundU⟩ := Option.isSome_iff_exists.mp (ThreadRegistry.isSome_of_blockedOn? blocked)
          have same : s.effective = su.effective := by
            apply Int.le_antisymm (effective_le_of_waits linked on coherent (.single waits) foundU found)
            rw [← ThreadRegistry.effective_of_get? foundU]
            exact low
          obtain ⟨w, sw, chain, foundW, base⟩ := ih u waits foundU
          exact ⟨w, sw, chain.tail waits, foundW, base.trans same.symm⟩
  · rintro p ⟨u, su, chain, foundU, rfl⟩
    have below := ((le_effective_iff_waitsFor linked on coherent foundU _).mp (Int.le_refl _)).1
    exact Int.le_trans (effective_le_of_waits linked on coherent chain foundU found) below

end Forest

/-! ## Walks that end before their bound -/

namespace Walk

def Quiet (w : Walk) : Prop := ∀ start, .waitCycle start ∉ w.notices

theorem quiet_report {w : Walk} (quiet : w.Quiet) (lock : LockId) (h : ThreadId) : (w.report lock h).Quiet := by
  intro start
  rw [notices_report, List.mem_append, List.mem_singleton]
  rintro (before | new)
  · exact quiet start before
  · cases new

/-- The walk has come from `visited` to `lock`: whoever holds a lock visited before waits for `lock`, perhaps through
a chain. -/
structure Trail (w : Walk) (visited : List LockId) (lock : LockId) : Prop where
  once : visited.Nodup
  inside : ∀ l ∈ visited, l ∈ w.locks.ids
  behind : ∀ l ∈ visited, ∃ h u, w.locks.holder? l = some h ∧ ReflTransGen w.locks.WaitsFor h u ∧
    u ∈ w.locks.waitersOf lock

theorem Trail.fresh {w : Walk} {visited : List LockId} {lock : LockId} (trail : w.Trail visited lock)
    (acyclic : w.locks.Acyclic) : lock ∉ visited := by
  intro again
  obtain ⟨h, u, held, chain, waits⟩ := trail.behind lock again
  exact acyclic h (.tail' chain ⟨lock, waits, held⟩)

theorem Trail.next {w v : Walk} {visited : List LockId} {lock next : LockId} {holder : ThreadId}
    (trail : w.Trail visited lock) (acyclic : w.locks.Acyclic) (alike : w.locks.Alike v.locks)
    (held : w.locks.holder? lock = some holder) (waits : holder ∈ w.locks.waitersOf next) :
    v.Trail (lock :: visited) next where
  once := List.nodup_cons.mpr ⟨trail.fresh acyclic, trail.once⟩
  inside l member := by
    rw [alike.ids]
    rcases List.mem_cons.mp member with rfl | before
    · exact LockRegistry.mem_ids_of_holder? held
    · exact trail.inside l before
  behind l member := by
    rw [alike.holder?, alike.waitsFor, alike.waitersOf]
    rcases List.mem_cons.mp member with rfl | before
    · exact ⟨holder, holder, held, .refl, waits⟩
    · obtain ⟨h, u, held', chain, line⟩ := trail.behind l before
      exact ⟨h, holder, held', chain.tail ⟨lock, line, held⟩, waits⟩

/-- In the course of a walk that has no bound behind it: with the hops that are left it could visit every lock once. -/
structure Wanders (visited : List LockId) (hops : Nat) (lock : LockId) (w : Walk) : Prop where
  linked : Linked w.locks w.threads
  acyclic : w.locks.Acyclic
  quiet : w.Quiet
  known : lock ∈ w.locks.ids
  trail : w.Trail visited lock
  room : w.locks.ids.length ≤ visited.length + hops

namespace Wanders

variable {visited : List LockId} {hops : Nat} {lock next : LockId} {h : ThreadId} {w : Walk}

theorem not_cut (wanders : Wanders visited 0 lock w) : False := by
  -- every lock has been visited once, and now comes one more
  have more : (lock :: visited).length ≤ w.locks.ids.length := by
    refine (List.subperm_of_subset (List.nodup_cons.mpr ⟨wanders.trail.fresh wanders.acyclic, wanders.trail.once⟩) ?_).length_le
    exact List.cons_subset.mpr ⟨wanders.known, wanders.trail.inside⟩
  have room := wanders.room
  rw [List.length_cons] at more
  omega

theorem onward (wanders : Wanders visited (hops + 1) lock w) (holder : w.locks.holder? lock = some h)
    (waits : w.threads.blockedOn? h = some next) :
    Wanders (lock :: visited) hops next (((w.visitLock lock).visitThread h).report lock h) := by
  have line : h ∈ w.locks.waitersOf next := (wanders.linked.waiting next h).mpr waits
  have sameThreads := ThreadRegistry.Alike.refreshThread (w.visitLock lock).locks h w.threads
  have onward : w.locks.Alike (((w.visitLock lock).visitThread h).report lock h).locks := by
    rw [locks_report]
    exact .refresh w.locks lock w.threads
  refine ⟨?_, fun v => ?_, ?_, ?_, wanders.trail.next wanders.acyclic onward holder line, ?_⟩
  · rw [threads_report]
    exact wanders.linked.of_alike onward sameThreads
  · rw [onward.waitsFor]
    exact wanders.acyclic v
  · exact quiet_report (w := (w.visitLock lock).visitThread h) wanders.quiet lock h
  · rw [onward.ids]
    exact wanders.linked.mem_ids waits
  · have room := wanders.room
    rw [onward.ids, List.length_cons]
    omega

theorem quiet_hop (wanders : Wanders visited hops lock w) (start : LockId) : (hop start hops lock w).Quiet := by
  refine hop_rule (fun hops lock w => ∃ visited, Wanders visited hops lock w) Quiet (fun ⟨_, wanders⟩ => wanders.not_cut.elim)
    (fun ⟨_, wanders⟩ _ => wanders.quiet) (fun ⟨_, wanders⟩ _ _ => wanders.quiet) (fun ⟨_, wanders⟩ _ _ _ => ?_)
    (fun ⟨_, wanders⟩ holder _ waits => ⟨_, wanders.onward holder waits⟩) ⟨visited, wanders⟩
  exact quiet_report (w := (Walk.visitLock _ _).visitThread _) wanders.quiet _ _

end Wanders

theorem quiet_propagate {w : Walk} {lock : LockId} (linked : Linked w.locks w.threads) (acyclic : w.locks.Acyclic)
    (quiet : w.Quiet) (known : lock ∈ w.locks.ids) : (w.propagate lock).Quiet := by
  refine Wanders.quiet_hop ⟨linked, acyclic, quiet, known, ⟨List.nodup_nil, by simp, by simp⟩, ?_⟩ lock
  rw [LockRegistry.size_eq, List.length_nil, Nat.zero_add]

theorem quiet_settle {w : Walk} (linked : Linked w.locks w.threads) (acyclic : w.locks.Acyclic) (quiet : w.Quiet)
    (id : ThreadId) : (w.settle id).Quiet :=
  settle_rule Quiet (fun _ => quiet) (fun _ _ => quiet) fun _ _ waits =>
    quiet_propagate (linked.of_alike (.refl _) (.refreshThread w.locks id w.threads)) acyclic quiet (linked.mem_ids waits)

theorem Onward.acyclic {w v : Walk} (onward : w.Onward v) (acyclic : v.locks.Acyclic) : w.locks.Acyclic := by
  intro u
  rw [← onward.locks.waitsFor]
  exact acyclic u

theorem quiet_start (t : LockRegistry) (a : ThreadRegistry) : (start t a).Quiet := fun _ => List.not_mem_nil

theorem quiet_start_propagate {t : LockRegistry} {a : ThreadRegistry} {lock : LockId} (linked : Linked t a)
    (known : lock ∈ t.ids) (acyclic : ((start t a).propagate lock).locks.Acyclic) :
    ((start t a).propagate lock).Quiet :=
  quiet_propagate linked ((onward_propagate _ _).acyclic acyclic) (quiet_start t a) known

end Walk

section Quiet

variable {t : LockRegistry} {a : ThreadRegistry} {lock : LockId} {thread : ThreadId}

theorem quiet_acquire (linked : Linked t a) (known : (a.get? thread).isSome) (awake : a.blockedOn? thread = none)
    {outcome : LockOutcome} {w : Walk} (done : t.acquire lock thread a = .ok (outcome, w))
    (acyclic : w.locks.Acyclic) : w.Quiet := by
  obtain ⟨l, found, other⟩ := LockRegistry.acquire_ok done
  cases holder : l.holder with
  | none =>
      rw [LockRegistry.acquire_vacant found holder] at done
      obtain ⟨-, rfl⟩ := Prod.mk.inj (Except.ok.inj done)
      cases t.donation <;> exact fun _ => List.not_mem_nil
  | some h =>
      have others : h ≠ thread := fun same => other (same ▸ holder)
      rw [LockRegistry.acquire_held found holder others] at done
      obtain ⟨-, rfl⟩ := Prod.mk.inj (Except.ok.inj done)
      have queued := linked.queueUp found holder others known awake
      cases on : t.donation with
      | false => exact Walk.quiet_start _ _
      | true =>
          rw [on] at acyclic
          exact Walk.quiet_start_propagate queued (t.mem_ids_put lock _) acyclic

theorem quiet_release (linked : Linked t a) {next : Option ThreadId} {w : Walk}
    (done : t.release lock thread a = .ok (next, w)) (acyclic : w.locks.Acyclic) : w.Quiet := by
  obtain ⟨l, found, holder⟩ := LockRegistry.release_ok done
  rw [LockRegistry.release_held found holder] at done
  obtain ⟨-, rfl⟩ := Prod.mk.inj (Except.ok.inj done)
  have passed := linked_passedOn linked found holder
  cases on : t.donation with
  | false => exact Walk.quiet_start _ _
  | true =>
      rw [on] at passed acyclic
      simp only [if_true] at acyclic ⊢
      generalize l.waiters.head? = next at passed acyclic ⊢
      have first := Walk.onward_settle
        ((Walk.start (t.put lock { l with holder := next, waiters := l.waiters.tail })
          (a.passOn true lock thread next)).visitLock lock) thread
      have visit := Walk.Onward.visitLock (Walk.start (t.put lock { l with holder := next, waiters := l.waiters.tail })
          (a.passOn true lock thread next)) lock
      have acyclicFirst := (onward_settleNext _ _).acyclic acyclic
      have quietFirst := Walk.quiet_settle (visit.linked passed) (first.acyclic acyclicFirst)
        (fun _ => List.not_mem_nil) thread
      cases next with
      | none => exact quietFirst
      | some n => exact Walk.quiet_settle ((visit.trans first).linked passed) acyclicFirst quietFirst n

theorem quiet_withdraw (linked : Linked t a) (thread : ThreadId) (acyclic : (t.withdraw thread a).locks.Acyclic) :
    (t.withdraw thread a).Quiet := by
  cases waits : a.blockedOn? thread with
  | none =>
      rw [LockRegistry.withdraw_awake waits]
      exact Walk.quiet_start t a
  | some lock =>
      obtain ⟨l, found⟩ := linked.exists_lock waits
      rw [LockRegistry.withdraw_waiting found waits] at acyclic ⊢
      cases on : t.donation with
      | false => exact Walk.quiet_start _ _
      | true =>
          rw [on] at acyclic
          exact Walk.quiet_start_propagate (linked.leaveLine found waits) (t.mem_ids_put lock _) acyclic

theorem quiet_priorityChanged (linked : Linked t a) (thread : ThreadId)
    (acyclic : (t.priorityChanged thread a).locks.Acyclic) : (t.priorityChanged thread a).Quiet := by
  rw [LockRegistry.priorityChanged_eq] at acyclic ⊢
  cases on : t.donation with
  | false => exact Walk.quiet_start _ _
  | true =>
      rw [on, if_pos rfl] at acyclic
      rw [if_pos rfl]
      cases waits : a.blockedOn? thread with
      | none => exact Walk.quiet_start _ _
      | some lock =>
          rw [waits] at acyclic
          exact Walk.quiet_start_propagate linked (linked.mem_ids waits) acyclic

theorem quiet_reprice (linked : Linked t a) {s : ThreadState} {config : Config} {c : Change}
    (found : a.get? thread = some s)
    (repriced : s.Repriced config c) (acyclic : (t.reprice thread c a).locks.Acyclic) : (t.reprice thread c a).Quiet := by
  unfold LockRegistry.reprice at acyclic ⊢
  cases moved : c.changed with
  | false => exact Walk.quiet_start _ _
  | true =>
      rw [moved, if_pos rfl] at acyclic
      rw [if_pos rfl]
      exact quiet_priorityChanged (linked_put linked found repriced) thread acyclic

end Quiet

namespace LockSystem

variable {s : LockSystem}

theorem quiet_step {op : LockOp} {w : Walk} (sound : Sound s.locks s.threads) (admitted : s.Admits op)
    (done : s.run op = .ok w) (acyclic : w.locks.Acyclic) : w.Quiet := by
  cases op with
  | create =>
      cases done
      exact Walk.quiet_start _ _
  | acquire lock thread =>
      obtain ⟨⟨outcome, w'⟩, acquired, rfl⟩ := map_eq_ok.mp done
      exact quiet_acquire sound.linked admitted.1 admitted.2.1 acquired acyclic
  | release lock thread =>
      obtain ⟨⟨next, w'⟩, released, rfl⟩ := map_eq_ok.mp done
      exact quiet_release sound.linked released acyclic
  | withdraw thread =>
      cases done
      exact quiet_withdraw sound.linked thread acyclic
  | reprice thread r =>
      obtain ⟨state, change, found, repriced, rfl⟩ := run_reprice done
      exact quiet_reprice sound.linked found repriced acyclic

/-- On a graph without a circle the effective priorities are those of the definition by chains of holders, they
depend on the base priorities and the graph alone, and no step that ends there ran into the bound of the walk. -/
theorem effective_of_acyclic (reachable : s.Reachable) (on : s.locks.donation = true) (acyclic : s.locks.Acyclic) :
    (∀ v state, s.threads.get? v = some state →
      IsLeast { p | ∃ u su, ReflTransGen s.locks.WaitsFor u v ∧ s.threads.get? u = some su ∧ su.base = p }
        state.effective) ∧
    (∀ s' : LockSystem, s'.Reachable → s'.locks.donation = true →
      (∀ u v, s'.locks.WaitsFor u v ↔ s.locks.WaitsFor u v) →
      (∀ v, (s'.threads.get? v).map (·.base) = (s.threads.get? v).map (·.base)) →
      ∀ v, (s'.threads.get? v).map (·.effective) = (s.threads.get? v).map (·.effective)) ∧
    ∀ (before : LockSystem) (op : LockOp) (w : Walk), before.Reachable → before.Admits op → before.run op = .ok w →
      w.system = s → ∀ start, .waitCycle start ∉ w.notices := by
  have sound := sound_of_reachable reachable
  have least {v : ThreadId} {state : ThreadState} (found : s.threads.get? v = some state) :=
    isLeast_effective sound.linked on (sound.coherent on) acyclic found
  refine ⟨fun v state found => least found, fun s' reachable' on' sameGraph sameBase v => ?_,
    fun before op w reachable' admitted done same => ?_⟩
  · have sound' := sound_of_reachable reachable'
    have graph : s'.locks.WaitsFor = s.locks.WaitsFor := by
      funext u w
      exact propext (sameGraph u w)
    have acyclic' : s'.locks.Acyclic := by
      intro u
      rw [graph]
      exact acyclic u
    have claims : Claims s'.locks s'.threads v = Claims s.locks s.threads v := by
      ext p
      rw [mem_claims_iff, mem_claims_iff, graph]
      simp only [sameBase]
    cases found : s.threads.get? v with
    | none =>
        have absent := sameBase v
        rw [found, Option.map_none, Option.map_eq_none_iff] at absent
        rw [absent]
    | some state =>
        have present := sameBase v
        rw [found, Option.map_some] at present
        obtain ⟨state', found', -⟩ := Option.map_eq_some_iff.mp present
        have least' := isLeast_effective sound'.linked on' (sound'.coherent on') acyclic' found'
        rw [claims] at least'
        rw [found', Option.map_some, Option.map_some, least'.unique (least found)]
  · subst same
    exact quiet_step (sound_of_reachable reachable') admitted done acyclic

def chained : Option LockSystem :=
  (staffed {} [(⟨⟨1⟩, "first", .ordinary⟩, 5), (⟨⟨2⟩, "second", .ordinary⟩, 3), (⟨⟨3⟩, "third", .ordinary⟩, 1)]).play
    [.create, .create, .acquire ⟨1⟩ ⟨1⟩, .acquire ⟨2⟩ ⟨2⟩, .acquire ⟨1⟩ ⟨2⟩, .acquire ⟨2⟩ ⟨3⟩]

theorem effective_of_acyclic_chain : ∃ s state, chained = some s ∧ s.threads.get? ⟨1⟩ = some state ∧ state.effective = 1 ∧
    IsLeast { p | ∃ u su, ReflTransGen s.locks.WaitsFor u ⟨1⟩ ∧ s.threads.get? u = some su ∧ su.base = p }
      state.effective := by
  have played : chained = some (chained.get (by decide)) := (Option.some_get _).symm
  have reachable : (chained.get (by decide)).Reachable := reachable_play (.start (fresh_staffed _ _)) played
  have acyclic : (chained.get (by decide)).locks.Acyclic :=
    LockRegistry.acyclic_of_rank (fun v => 3 - v.val) (by decide)
  exact ⟨_, _, played, rfl, by decide, (effective_of_acyclic reachable rfl acyclic).1 ⟨1⟩ _ rfl⟩

end LockSystem

end PriorityScheduler
