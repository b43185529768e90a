import PriorityScheduler.Proofs.Locks.Effects
import PriorityScheduler.Proofs.Locks.Forest

/-!
# Donors

Beside what it donates a lock names a donor, and the walk renews both whenever it visits the lock. What a lock donates
moves at most once in a walk, so that the bound of the walk does not matter for it. Who donates it can change on a second
visit: the thread that the walk moved last may be as urgent as the donor by then, and have waited for longer. A walk that
is cut there leaves the donor as it is.

Main statements: `snd_bestWaiter`, a visit names the oldest, `Attends.onward`, one hop, `heeds_hop`, and
`donor_oldest_iff`, an operation names the oldest everywhere unless its walk overlooks one.
-/

namespace PriorityScheduler

theorem find?_eq_some_iff_takeWhile {α : Type} [DecidableEq α] {p : α → Bool} {d : α} {line : List α} (member : d ∈ line)
    (holds : p d = true) : line.find? p = some d ↔ ∀ v ∈ line.takeWhile (some d ≠ some ·), p v = false := by
  induction line with
  | nil => cases member
  | cons x rest ih =>
      by_cases here : x = d
      · simp [here, holds]
      · have later : d ∈ rest := (List.mem_cons.mp member).resolve_left (Ne.symm here)
        have apart : d ≠ x := Ne.symm here
        cases passes : p x with
        | true => simp [passes, here, apart]
        | false => simpa [passes, apart] using ih later

namespace LockRegistry

def donor? (t : LockRegistry) (id : LockId) : Option ThreadId := (t.get? id).bind (·.donor)

def oldest? (t : LockRegistry) (a : ThreadRegistry) (lock : LockId) : Option ThreadId :=
  (t.waitersOf lock).find? fun v => t.donated? lock = some (a.effective v)

/-- A waiter that carries what the lock donates and has waited for longer than the donor. -/
def Ahead (t : LockRegistry) (a : ThreadRegistry) (lock : LockId) (v : ThreadId) : Prop :=
  v ∈ (t.waitersOf lock).takeWhile (t.donor? lock ≠ some ·) ∧ t.donated? lock = some (a.effective v)

instance (t : LockRegistry) (a : ThreadRegistry) (lock : LockId) (v : ThreadId) : Decidable (t.Ahead a lock v) :=
  inferInstanceAs (Decidable (_ ∧ _))

structure Backed (t : LockRegistry) (a : ThreadRegistry) (lock : LockId) : Prop where
  none_iff : t.donor? lock = none ↔ t.waitersOf lock = []
  carries : ∀ d, t.donor? lock = some d → d ∈ t.waitersOf lock ∧ t.donated? lock = some (a.effective d)

variable {t u : LockRegistry} {a b : ThreadRegistry} {lock : LockId}

theorem Ahead.waits {v : ThreadId} (ahead : t.Ahead a lock v) : v ∈ t.waitersOf lock :=
  (List.takeWhile_sublist _).subset ahead.1

theorem Backed.oldest_iff (backed : t.Backed a lock) :
    t.donor? lock = t.oldest? a lock ↔ ∀ v, ¬t.Ahead a lock v := by
  cases donor : t.donor? lock with
  | none => simp [Ahead, oldest?, backed.none_iff.mp donor]
  | some d =>
      obtain ⟨member, carries⟩ := backed.carries d donor
      rw [oldest?, eq_comm, find?_eq_some_iff_takeWhile member (by simpa using carries)]
      simp only [Ahead, donor, not_and, decide_eq_false_iff_not]

theorem donor?_put (t : LockRegistry) (id j : LockId) (l : Lock) :
    (t.put id l).donor? j = if j = id then l.donor else t.donor? j := by
  simp only [donor?, get?_put]
  split <;> rfl

theorem donor?_of_get? {l : Lock} (found : t.get? lock = some l) : t.donor? lock = l.donor := by
  rw [donor?, found, Option.bind_some]

theorem donor?_put_of_donor {l m : Lock} (found : t.get? lock = some l) (same : m.donor = l.donor) (j : LockId) :
    (t.put lock m).donor? j = t.donor? j := by
  rw [donor?_put]
  split
  · rename_i here
    rw [here, donor?_of_get? found, same]
  · rfl

theorem donor?_refresh (t : LockRegistry) (id j : LockId) (threads : ThreadRegistry) :
    (t.refresh id threads).donor? j =
      if j = id then (bestWaiter threads (t.waitersOf id)).map (·.2) else t.donor? j := by
  simp only [donor?, get?_refresh, waitersOf]
  split
  · cases t.get? id with
    | none => rfl
    | some l => rfl
  · rfl

/-! ## A visit -/

theorem bestWaiter_eq_none (a : ThreadRegistry) (waiters : List ThreadId) : bestWaiter a waiters = none ↔ waiters = [] := by
  cases waiters with
  | nil => simp [bestWaiter]
  | cons w rest =>
      rw [bestWaiter]
      cases bestWaiter a rest with
      | none => simp
      | some best =>
          simp only
          split <;> simp

theorem snd_bestWaiter (a : ThreadRegistry) (waiters : List ThreadId) :
    (bestWaiter a waiters).map (·.2) =
      waiters.find? fun v => least (waiters.map a.effective) = some (a.effective v) := by
  rw [← fst_bestWaiter]
  induction waiters with
  | nil => rfl
  | cons w rest ih =>
      rw [bestWaiter]
      cases best : bestWaiter a rest with
      | none => simp
      | some found =>
          obtain ⟨later, donor⟩ := found
          simp only [best, Option.map_some] at ih
          simp only
          split
          · rename_i better
            have other : ¬later = a.effective w := fun same => absurd (same ▸ better) (Int.lt_irrefl _)
            simp [other, ih]
          · simp

theorem donor?_refresh_self (t : LockRegistry) (lock : LockId) (a : ThreadRegistry) :
    (t.refresh lock a).donor? lock = (t.refresh lock a).oldest? a lock := by
  rw [oldest?, (Alike.refresh t lock a).waitersOf, donated?_refresh, if_pos rfl, donor?_refresh, if_pos rfl, snd_bestWaiter]

theorem backed_refresh (t : LockRegistry) (lock : LockId) (a : ThreadRegistry) : (t.refresh lock a).Backed a lock where
  none_iff := by
    rw [donor?_refresh, if_pos rfl, Option.map_eq_none_iff, bestWaiter_eq_none, (Alike.refresh t lock a).waitersOf]
  carries d donor := by
    rw [donor?_refresh_self, oldest?] at donor
    exact ⟨List.mem_of_find?_eq_some donor, by simpa using List.find?_some donor⟩

/-! ## A line that stays as it is -/

structure SameLine (t u : LockRegistry) (a b : ThreadRegistry) (lock : LockId) : Prop where
  waiters : u.waitersOf lock = t.waitersOf lock
  donated : u.donated? lock = t.donated? lock
  donor : u.donor? lock = t.donor? lock
  effective : ∀ v ∈ t.waitersOf lock, b.effective v = a.effective v

namespace SameLine

theorem of_get? (same : u.get? lock = t.get? lock) (effective : ∀ v ∈ t.waitersOf lock, b.effective v = a.effective v) :
    SameLine t u a b lock :=
  ⟨by rw [waitersOf, same, waitersOf], by rw [donated?, same, donated?], by rw [donor?, same, donor?], effective⟩

theorem put_ne (t : LockRegistry) {j : LockId} (m : Lock) (apart : j ≠ lock) (effective : ∀ v, b.effective v = a.effective v) :
    SameLine t (t.put lock m) a b j :=
  .of_get? (by rw [get?_put, if_neg apart]) fun v _ => effective v

theorem backed (same : SameLine t u a b lock) (backed : t.Backed a lock) : u.Backed b lock where
  none_iff := by rw [same.donor, same.waiters, backed.none_iff]
  carries d donor := by
    obtain ⟨member, carries⟩ := backed.carries d (same.donor.symm.trans donor)
    exact ⟨same.waiters ▸ member, by rw [same.donated, same.effective d member, carries]⟩

theorem ahead (same : SameLine t u a b lock) {v : ThreadId} (ahead : u.Ahead b lock v) : t.Ahead a lock v := by
  have waits : v ∈ t.waitersOf lock := same.waiters ▸ ahead.waits
  obtain ⟨before, carries⟩ := ahead
  rw [same.waiters, same.donor] at before
  rw [same.donated, same.effective v waits] at carries
  exact ⟨before, carries⟩

end SameLine

end LockRegistry

/-- All locks but some have a donor that carries what they donate, and nobody but who is `late` stands ahead of it. -/
structure DonorsBut (t : LockRegistry) (a : ThreadRegistry) (away : LockId → Prop) (late : LockId → ThreadId → Prop) :
    Prop where
  backed : ∀ lock, ¬away lock → t.Backed a lock
  ahead : ∀ lock v, ¬away lock → t.Ahead a lock v → late lock v

abbrev Donors (t : LockRegistry) (a : ThreadRegistry) (late : LockId → ThreadId → Prop) : Prop :=
  DonorsBut t a (fun _ => False) late

namespace DonorsBut

variable {t u : LockRegistry} {a b : ThreadRegistry} {away away' : LockId → Prop} {late late' : LockId → ThreadId → Prop}

theorem weaken (donors : DonorsBut t a away late) (locks : ∀ lock, away lock → away' lock)
    (threads : ∀ lock v, late lock v → late' lock v) : DonorsBut t a away' late' where
  backed lock near := donors.backed lock fun far => near (locks lock far)
  ahead lock v near ahead := threads lock v (donors.ahead lock v (fun far => near (locks lock far)) ahead)

theorem relined (donors : DonorsBut t a away late) (locks : ∀ lock, away lock → away' lock)
    (same : ∀ lock, ¬away' lock → LockRegistry.SameLine t u a b lock) : DonorsBut u b away' late where
  backed lock near := (same lock near).backed (donors.backed lock fun far => near (locks lock far))
  ahead lock v near ahead := donors.ahead lock v (fun far => near (locks lock far)) ((same lock near).ahead ahead)

theorem visitLock (donors : DonorsBut t a away late) (lock : LockId) :
    DonorsBut (t.refresh lock a) a (fun l => away l ∧ l ≠ lock) late := by
  have same {l : LockId} (other : l ≠ lock) : LockRegistry.SameLine t (t.refresh lock a) a a l :=
    .of_get? (by rw [LockRegistry.get?_refresh, if_neg other]) fun _ _ => rfl
  refine ⟨fun l near => ?_, fun l v near ahead => ?_⟩
  · by_cases here : l = lock
    · exact here ▸ LockRegistry.backed_refresh t lock a
    · exact (same here).backed (donors.backed l fun far => near ⟨far, here⟩)
  · by_cases here : l = lock
    · subst here
      have visited := LockRegistry.backed_refresh t l a
      exact absurd ahead (visited.oldest_iff.mp (LockRegistry.donor?_refresh_self t l a) v)
    · exact donors.ahead l v (fun far => near ⟨far, here⟩) ((same here).ahead ahead)

theorem visitThread (donors : DonorsBut t a away late) (linked : Linked t a) (h : ThreadId) :
    DonorsBut t (t.refreshThread h a).threads
      (fun l => away l ∨ (t.refreshThread h a).changed = true ∧ a.blockedOn? h = some l) late := by
  refine donors.relined (fun _ => .inl) fun l near => .of_get? rfl fun v waits => ?_
  by_cases here : v = h
  · rw [here] at waits
    refine LockRegistry.effective_of_unchanged (Bool.not_eq_true _ ▸ fun moved => near (.inr ⟨moved, ?_⟩)) v
    exact (linked.waiting l h).mp waits
  · exact LockRegistry.effective_refreshThread_ne t a here

theorem visitThread_late (donors : Donors t a late) {h : ThreadId} (apart : ∀ lock, t.donor? lock ≠ some h) :
    Donors t (t.refreshThread h a).threads fun lock v => late lock v ∨ v = h where
  backed lock near := by
    have before := donors.backed lock near
    refine ⟨before.none_iff, fun d donor => ?_⟩
    have other : d ≠ h := fun same => apart lock (same ▸ donor)
    rw [LockRegistry.effective_refreshThread_ne t a other]
    exact before.carries d donor
  ahead lock v near ahead := by
    by_cases here : v = h
    · exact .inr here
    · refine .inl (donors.ahead lock v near ⟨ahead.1, ?_⟩)
      rw [ahead.2, LockRegistry.effective_refreshThread_ne t a here]

end DonorsBut

/-! ## The donation walk -/

namespace Walk

def lastMoved? (w : Walk) : Option ThreadId :=
  match w.notices.getLast? with
  | some (.donated _ h _) => some h
  | _ => none

/-- The thread that a walk moved last, if it was cut at its bound after that. -/
def cutAfter? (w : Walk) : Option ThreadId :=
  match w.notices.getLast? with
  | some (.waitCycle _) => lastMoved? { w with notices := w.notices.dropLast }
  | _ => none

theorem lastMoved?_report (w : Walk) (lock : LockId) (h : ThreadId) : (w.report lock h).lastMoved? = some h := by
  rw [lastMoved?, notices_report, List.getLast?_concat]

theorem cutAfter?_notice (w : Walk) (start : LockId) : (w.notice (.waitCycle start)).cutAfter? = w.lastMoved? := by
  unfold cutAfter? notice
  simp only [List.getLast?_concat, List.dropLast_concat]

theorem Quiet.cutAfter? {w : Walk} (quiet : w.Quiet) : w.cutAfter? = none := by
  unfold Walk.cutAfter?
  split
  · rename_i start last
    exact absurd (List.mem_of_getLast? last) (quiet start)
  · rfl

abbrev Heeds (w : Walk) (late : LockId → ThreadId → Prop) : Prop :=
  Donors w.locks w.threads fun lock v => late lock v ∨ w.cutAfter? = some v

end Walk

/-- In the course of a walk all donors are as they should be but the one of the lock that is visited next. Where no hop is
left that one is not renewed any more: nobody but the thread that moved last can have got ahead of it. -/
structure Attends (σ : Shift) (exempt : ThreadId → Prop) (late : LockId → ThreadId → Prop) (hops : Nat) (lock : LockId)
    (w : Walk) : Prop where
  travels : Travels σ exempt hops lock w
  donors : DonorsBut w.locks w.threads (· = lock) late
  cut : hops = 0 → ∃ h, w.lastMoved? = some h ∧ Donors w.locks w.threads fun lock v => late lock v ∨ v = h

section Walk

variable {σ : Shift} {exempt : ThreadId → Prop} {late : LockId → ThreadId → Prop} {hops : Nat} {lock next : LockId} {h : ThreadId}
  {w : Walk}

namespace Attends

theorem visitLock (attends : Attends σ exempt late hops lock w) :
    Donors (w.visitLock lock).locks (w.visitLock lock).threads late :=
  (attends.donors.visitLock lock).weaken (fun _ far => far.2 far.1) fun _ _ => id

theorem visitThread (attends : Attends σ exempt late hops lock w) (h : ThreadId) :
    DonorsBut ((w.visitLock lock).visitThread h).locks ((w.visitLock lock).visitThread h).threads
      (fun l => (w.visitLock lock).moves h = true ∧ w.threads.blockedOn? h = some l) late :=
  (attends.visitLock.visitThread attends.travels.linked_visitLock h).weaken (fun _ far => far.resolve_left id) fun _ _ => id

theorem not_donor (attends : Attends σ exempt late 1 lock w) (holder : w.locks.holder? lock = some h)
    (moves : (w.visitLock lock).moves h = true) (waits : w.threads.blockedOn? h = some next) (l : LockId) :
    (w.visitLock lock).locks.donor? l ≠ some h := by
  intro donor
  obtain ⟨member, carries⟩ := (attends.visitLock.backed l not_false).carries h donor
  have passed : σ.passed ((w.visitLock lock).locks.donated? l) = true := by
    have locks : (((w.visitLock lock).visitThread h).report lock h).locks = (w.visitLock lock).locks := Walk.locks_report _ _ _
    rw [← locks] at member ⊢
    exact (attends.travels.onward holder moves waits).passed (LockRegistry.mem_ids_of_mem_waitersOf member)
  have leads : σ.Leads (Below · (some (w.threads.effective h)))
      (Below · (some (((w.visitLock lock).visitThread h).threads.effective h))) :=
    (attends.travels.leads holder waits).congr (fun x => below_some x _) fun x => below_some x _
  rw [carries] at passed
  have same := Option.some.inj (Shift.eq_of_passed leads passed)
  exact ((w.visitLock lock).moves_iff h).mp moves same.symm

theorem onward (attends : Attends σ exempt late (hops + 1) lock w) (holder : w.locks.holder? lock = some h)
    (moves : (w.visitLock lock).moves h = true) (waits : w.threads.blockedOn? h = some next) :
    Attends σ exempt late hops next (((w.visitLock lock).visitThread h).report lock h) := by
  refine ⟨attends.travels.onward holder moves waits, ?_, fun last => ⟨h, Walk.lastMoved?_report _ _ _, ?_⟩⟩
  all_goals rw [Walk.locks_report, Walk.threads_report]
  · refine (attends.visitThread h).weaken (fun l far => ?_) fun _ _ => id
    exact Option.some.inj (far.2.symm.trans waits)
  · subst last
    exact attends.visitLock.visitThread_late (attends.not_donor holder moves waits)

theorem heeds_hop (attends : Attends σ exempt late hops lock w) (start : LockId) :
    (Walk.hop start hops lock w).Heeds late := by
  refine Walk.hop_rule (fun hops lock w => Attends σ exempt late hops lock w) (·.Heeds late) (fun attends => ?_)
    (fun attends _ => attends.visitLock.weaken (fun _ => id) fun _ _ => .inl) (fun {_ _ _ h} attends _ moves => ?_)
    (fun {_ _ _ h} attends _ _ awake => ?_) (fun attends holder moves waits => attends.onward holder moves waits) attends
  · obtain ⟨h, last, donors⟩ := attends.cut rfl
    refine donors.weaken (fun _ => id) fun lock v => Or.imp_right fun same => ?_
    rw [Walk.cutAfter?_notice, last, same]
  · refine (attends.visitThread h).weaken (fun _ far => ?_) fun _ _ => .inl
    exact absurd (moves.symm.trans far.1) Bool.noConfusion
  · unfold Walk.Heeds
    rw [Walk.locks_report, Walk.threads_report]
    refine (attends.visitThread h).weaken (fun _ far => ?_) fun _ _ => .inl
    cases awake.symm.trans far.2

end Attends

theorem heeds_propagate (travels : Travels σ exempt w.locks.size lock w) (present : lock ∈ w.locks.ids)
    (donors : DonorsBut w.locks w.threads (· = lock) late) : (w.propagate lock).Heeds late := by
  have room : w.locks.size ≠ 0 := by
    rw [LockRegistry.size_eq]
    exact List.length_pos_of_mem present |>.ne'
  exact Attends.heeds_hop ⟨travels, donors, fun none => absurd none room⟩ lock

theorem heeds_settle {unbalanced : ThreadId → Prop} {thread : ThreadId} (linked : Linked w.locks w.threads)
    (on : w.locks.donation = true) (coherent : CoherentBut w.locks w.threads (fun _ => False) unbalanced)
    (awake : ∀ k, unbalanced k → k ≠ thread → w.threads.blockedOn? k = none) (donors : Donors w.locks w.threads late) :
    (w.settle thread).Heeds late := by
  have visited := donors.visitThread linked thread
  refine Walk.settle_rule (·.Heeds late) (fun still => ?_) (fun _ waits => ?_) fun lock _ waits => ?_
  · refine visited.weaken (fun l far => far.elim False.elim fun moved => ?_) fun _ _ => .inl
    exact absurd (still.symm.trans moved.1) Bool.noConfusion
  · rw [waits] at visited
    exact visited.weaken (by simp) fun _ _ => .inl
  · obtain ⟨σ, travels⟩ := travels_settle linked on coherent awake waits
    refine heeds_propagate travels (linked.mem_ids waits) (visited.weaken (fun l far => ?_) fun _ _ => id)
    exact far.elim False.elim fun moved => Option.some.inj (moved.2.symm.trans waits)

theorem Walk.Heeds.settle_awake {thread : ThreadId} (heeds : w.Heeds late) (linked : Linked w.locks w.threads)
    (awake : w.threads.blockedOn? thread = none) : (w.settle thread).Heeds late := by
  have visited : Donors w.locks (w.visitThread thread).threads fun lock v => late lock v ∨ w.cutAfter? = some v :=
    (heeds.visitThread linked thread).weaken (fun _ far => far.elim False.elim fun moved => by cases awake.symm.trans moved.2)
      fun _ _ => id
  exact Walk.settle_rule (·.Heeds late) (fun _ => visited) (fun _ _ => visited) fun _ _ waits => by
    cases awake.symm.trans waits

end Walk

/-! ## Operations -/

section Operations

variable {t u : LockRegistry} {a b : ThreadRegistry} {lock : LockId} {thread : ThreadId} {late : LockId → ThreadId → Prop}
  {w : Walk}

theorem DonorsBut.heeds (donors : Donors w.locks w.threads late) : w.Heeds late :=
  donors.weaken (fun _ => id) fun _ _ => .inl

theorem heeds_relined {σ : Shift} (donors : Donors t a late) (travels : Travels σ (fun _ => False) u.size lock (.start u b))
    (present : lock ∈ u.ids) (same : ∀ j, j ≠ lock → LockRegistry.SameLine t u a b j) :
    ((Walk.start u b).propagate lock).Heeds late :=
  heeds_propagate travels present (donors.relined (fun _ => False.elim) same)

theorem donors_create (linked : Linked t a) (donors : Donors t a late) : Donors t.create.2 a late := by
  refine donors.relined (fun _ => id) fun j _ => ?_
  rcases get?_create linked j with same | ⟨made, fresh⟩
  · exact .of_get? same fun _ _ => rfl
  · refine ⟨?_, ?_, ?_, fun _ _ => rfl⟩
    · simp [LockRegistry.waitersOf, made, fresh]
    · simp [LockRegistry.donated?, made, fresh]
    · simp [LockRegistry.donor?, made, fresh]

theorem heeds_acquire (sound : Sound t a) (on : t.donation = true) (donors : Donors t a late)
    (known : (a.get? thread).isSome) (awake : a.blockedOn? thread = none) {outcome : LockOutcome}
    (done : t.acquire lock thread a = .ok (outcome, w)) : w.Heeds late := by
  obtain ⟨l, found, other⟩ := LockRegistry.acquire_ok done
  cases holder : l.holder with
  | none =>
      rw [LockRegistry.acquire_vacant found holder] at done
      obtain ⟨-, rfl⟩ := Prod.mk.inj (Except.ok.inj done)
      simp only [on, if_true]
      have added := a.effective_modify_of_effective thread (ThreadState.effective_addHeld · lock)
      refine (donors.relined (fun _ => id) fun j _ => ?_).heeds
      exact ⟨LockRegistry.waitersOf_put_of_waiters found (by rfl) j, LockRegistry.donated?_put_of_donated found (by rfl) j,
        LockRegistry.donor?_put_of_donor found (by rfl) j,
        fun v _ => (LockRegistry.effective_of_unchanged (unmoved_taken sound found holder on) v).trans (added v)⟩
  | some h =>
      have others : h ≠ thread := fun same => other (same ▸ holder)
      rw [LockRegistry.acquire_held found holder others] at done
      obtain ⟨-, rfl⟩ := Prod.mk.inj (Except.ok.inj done)
      simp only [on, if_true]
      have blocked := a.effective_modify_of_effective thread (f := fun s => { s with blockedOn := some lock }) fun _ => rfl
      exact heeds_relined donors (travels_acquire sound on known awake found holder others) (t.mem_ids_put lock _)
        fun j apart => .put_ne t _ apart blocked

theorem heeds_withdraw (sound : Sound t a) (on : t.donation = true) (donors : Donors t a late) (thread : ThreadId) :
    (t.withdraw thread a).Heeds late := by
  cases waits : a.blockedOn? thread with
  | none =>
      rw [LockRegistry.withdraw_awake waits]
      exact donors.heeds
  | some lock =>
      obtain ⟨l, found⟩ := sound.linked.exists_lock waits
      rw [LockRegistry.withdraw_waiting found waits]
      simp only [on, if_true]
      have woken := a.effective_modify_of_effective thread (f := fun s => { s with blockedOn := none }) fun _ => rfl
      exact heeds_relined donors (travels_withdraw sound on found waits) (t.mem_ids_put lock _)
        fun j apart => .put_ne t _ apart woken

theorem donors_handedOn (donors : Donors t a late) {l : Lock} {v : Walk}
    (start : (Walk.start (t.put lock { l with holder := l.waiters.head?, waiters := l.waiters.tail })
      (a.passOn t.donation lock thread l.waiters.head?)).visitLock lock = v) : Donors v.locks v.threads late := by
  subst start
  have passedOn := effective_passOn a t.donation lock thread l.waiters.head?
  have relined : DonorsBut (t.put lock { l with holder := l.waiters.head?, waiters := l.waiters.tail })
      (a.passOn t.donation lock thread l.waiters.head?) (· = lock) late :=
    donors.relined (fun _ => False.elim) fun j apart => .put_ne t _ apart passedOn
  exact (relined.visitLock lock).weaken (fun _ far => far.2 far.1) fun _ _ => id

theorem heeds_release (sound : Sound t a) (on : t.donation = true) (donors : Donors t a late) {next : Option ThreadId}
    (done : t.release lock thread a = .ok (next, w)) : w.Heeds late := by
  obtain ⟨l, found, holder⟩ := LockRegistry.release_ok done
  rw [LockRegistry.release_held found holder] at done
  obtain ⟨-, rfl⟩ := Prod.mk.inj (Except.ok.inj done)
  dsimp only
  rw [if_pos on]
  generalize start : Walk.visitLock _ lock = v
  obtain ⟨linked, donation, coherent, awake⟩ := coherent_handedOn sound on found holder start
  have first := heeds_settle linked donation coherent (fun k either other => awake k (either.resolve_left other))
    (donors_handedOn donors start)
  have onward := v.onward_settle thread
  cases head : l.waiters.head? with
  | none => exact first
  | some heir => exact first.settle_awake (onward.linked linked) ((onward.threads.blockedOn? heir).trans (awake heir head))

theorem heeds_reprice (sound : Sound t a) (on : t.donation = true) (donors : Donors t a late) {s : ThreadState}
    {config : Config} {c : Change} (found : a.get? thread = some s) (repriced : s.Repriced config c) :
    (t.reprice thread c a).Heeds late := by
  have put : DonorsBut t (a.put thread c.state) (fun j => c.changed = true ∧ a.blockedOn? thread = some j) late :=
    donors.relined (fun _ => False.elim) fun j near =>
      .of_get? rfl fun v waits => effective_repriced sound.linked found repriced near waits
  unfold LockRegistry.reprice
  cases moved : c.changed with
  | false => exact put.weaken (by simp [moved]) fun _ _ => .inl
  | true =>
      rw [if_pos rfl, LockRegistry.priorityChanged_eq, if_pos on, blockedOn?_repriced found repriced]
      cases waits : a.blockedOn? thread with
      | none => exact put.weaken (by simp [waits]) fun _ _ => .inl
      | some lock =>
          obtain ⟨σ, travels⟩ := travels_reprice sound on found repriced waits
          refine heeds_propagate travels (sound.linked.mem_ids waits) ?_
          exact put.weaken (fun j far => Option.some.inj (far.2.symm.trans waits)) fun _ _ => id

theorem travels_renew (sound : Sound t a) (on : t.donation = true) (waits : a.blockedOn? thread = some lock) :
    ∃ σ, Travels σ (fun _ => False) t.size lock (.start t a) := by
  obtain ⟨σ, leads⟩ := Shift.exists_leads (a.effective thread) (a.effective thread)
  refine ⟨σ, travels_propagate (w := .start t a) sound.linked on ?_ (fun _ => False.elim) ?_⟩
  · exact (sound.coherent on).weaken (fun _ => False.elim) fun _ => id
  · exact gap_of_leads ((sound.coherent on).settled lock not_false) ((sound.linked.waiting lock thread).mpr waits)
      (fun _ _ => rfl) leads

theorem sound_renew (sound : Sound t a) (thread : ThreadId) :
    Sound (t.priorityChanged thread a).locks (t.priorityChanged thread a).threads := by
  have onward := onward_priorityChanged t thread a
  refine ⟨onward.linked sound.linked, fun on' => ?_⟩
  have on : t.donation = true := onward.locks.donation.symm.trans on'
  rw [LockRegistry.priorityChanged_eq, if_pos on]
  cases waits : a.blockedOn? thread with
  | none => exact sound.coherent on
  | some lock =>
      obtain ⟨σ, travels⟩ := travels_renew sound on waits
      exact travels.coherent_hop lock

theorem heeds_renew (sound : Sound t a) (on : t.donation = true) (donors : Donors t a late) (thread : ThreadId) :
    (t.priorityChanged thread a).Heeds late := by
  rw [LockRegistry.priorityChanged_eq, if_pos on]
  cases waits : a.blockedOn? thread with
  | none => exact donors.heeds
  | some lock =>
      obtain ⟨σ, travels⟩ := travels_renew sound on waits
      refine heeds_propagate travels (sound.linked.mem_ids waits) ?_
      exact donors.weaken (fun _ => False.elim) fun _ _ => id

end Operations

/-! ## Runs -/

/-- The walk was cut after a thread that stands ahead of the donor of the lock. -/
def Walk.Overlooks (w : Walk) (lock : LockId) : Prop := ∃ v ∈ w.cutAfter?, w.locks.Ahead w.threads lock v

instance (w : Walk) (lock : LockId) : Decidable (w.Overlooks lock) := inferInstanceAs (Decidable (∃ v ∈ _, _))

theorem Walk.Quiet.not_overlooks {w : Walk} (quiet : w.Quiet) (lock : LockId) : ¬w.Overlooks lock := by
  rintro ⟨v, cut, -⟩
  cases quiet.cutAfter?.symm.trans cut

namespace LockSystem

inductive Step (s : LockSystem) : Walk → Prop where
  | run {op : LockOp} {w : Walk} (admitted : s.Admits op) (done : s.run op = .ok w) : s.Step w
  | renew (thread : ThreadId) : s.Step (s.locks.priorityChanged thread s.threads)

inductive Driven : LockSystem → Prop where
  | start {s : LockSystem} (fresh : s.Fresh) : Driven s
  | step {s : LockSystem} {w : Walk} (driven : Driven s) (step : s.Step w) : Driven w.system

inductive Attentive : LockSystem → Prop where
  | start {s : LockSystem} (fresh : s.Fresh) : Attentive s
  | step {s : LockSystem} {w : Walk} (attentive : Attentive s) (step : s.Step w) (seen : ∀ lock, ¬w.Overlooks lock) :
      Attentive w.system

variable {s : LockSystem} {w : Walk}

theorem Reachable.driven (reachable : s.Reachable) : s.Driven := by
  induction reachable with
  | start fresh => exact .start fresh
  | step _ admitted done ih => exact ih.step (.run admitted done)

theorem Attentive.driven (attentive : s.Attentive) : s.Driven := by
  induction attentive with
  | start fresh => exact .start fresh
  | step _ step _ ih => exact ih.step step

theorem donors_fresh (fresh : s.Fresh) : Donors s.locks s.threads fun _ _ => False := by
  have line (lock : LockId) : s.locks.donor? lock = none ∧ s.locks.waitersOf lock = [] := by
    cases found : s.locks.get? lock with
    | none => simp [LockRegistry.donor?, LockRegistry.waitersOf, found]
    | some l => simp [LockRegistry.donor?, LockRegistry.waitersOf, found, fresh.free lock l found]
  refine ⟨fun lock _ => ⟨by simp [line lock], fun d donor => ?_⟩, fun lock v _ ahead => ?_⟩
  · cases (line lock).1.symm.trans donor
  · simpa [line lock] using ahead.waits

namespace Step

theorem sound (step : s.Step w) (sound : Sound s.locks s.threads) : Sound w.locks w.threads := by
  cases step with
  | run admitted done => exact sound_step sound admitted done
  | renew thread => exact sound_renew sound thread

theorem donation (step : s.Step w) : w.locks.donation = s.locks.donation := by
  cases step with
  | renew thread => exact (onward_priorityChanged s.locks thread s.threads).locks.donation
  | @run op _ _ done =>
      cases op with
      | create =>
          cases done
          rfl
      | acquire lock thread =>
          obtain ⟨⟨outcome, w'⟩, acquired, rfl⟩ := map_eq_ok.mp done
          exact (effect_acquire acquired).donation
      | release lock thread =>
          obtain ⟨⟨next, w'⟩, released, rfl⟩ := map_eq_ok.mp done
          exact (effect_release released).donation
      | withdraw thread =>
          cases done
          exact (effect_withdraw s.locks thread s.threads).donation
      | reprice thread r =>
          obtain ⟨state, change, -, -, rfl⟩ := run_reprice done
          exact (effect_reprice s.locks thread change s.threads).donation

theorem heeds (step : s.Step w) (sound : Sound s.locks s.threads) (on : s.locks.donation = true)
    {late : LockId → ThreadId → Prop} (donors : Donors s.locks s.threads late) : w.Heeds late := by
  cases step with
  | renew thread => exact heeds_renew sound on donors thread
  | @run op _ admitted done =>
      cases op with
      | create =>
          cases done
          exact (donors_create sound.linked donors).heeds
      | acquire lock thread =>
          obtain ⟨⟨outcome, w'⟩, acquired, rfl⟩ := map_eq_ok.mp done
          exact heeds_acquire sound on donors admitted.1 admitted.2.1 acquired
      | release lock thread =>
          obtain ⟨⟨next, w'⟩, released, rfl⟩ := map_eq_ok.mp done
          exact heeds_release sound on donors released
      | withdraw thread =>
          cases done
          exact heeds_withdraw sound on donors thread
      | reprice thread r =>
          obtain ⟨state, change, found, repriced, rfl⟩ := run_reprice done
          exact heeds_reprice sound on donors found repriced

theorem quiet (step : s.Step w) (sound : Sound s.locks s.threads) (acyclic : w.locks.Acyclic) : w.Quiet := by
  cases step with
  | run admitted done => exact quiet_step sound admitted done acyclic
  | renew thread => exact quiet_priorityChanged sound.linked thread acyclic

theorem donor_iff (step : s.Step w) (sound : Sound s.locks s.threads) (on : s.locks.donation = true)
    (backed : ∀ lock, s.locks.Backed s.threads lock) {lock : LockId}
    (named : s.locks.donor? lock = s.locks.oldest? s.threads lock) :
    w.locks.donor? lock = w.locks.oldest? w.threads lock ↔ ¬w.Overlooks lock := by
  have donors : Donors s.locks s.threads (s.locks.Ahead s.threads) := ⟨fun lock _ => backed lock, fun _ _ _ => id⟩
  have heeds := step.heeds sound on donors
  rw [(heeds.backed lock not_false).oldest_iff]
  refine ⟨fun first overlooks => ?_, fun seen v ahead => ?_⟩
  · obtain ⟨v, -, ahead⟩ := overlooks
    exact first v ahead
  · rcases heeds.ahead lock v not_false ahead with before | cut
    · exact (backed lock).oldest_iff.mp named v before
    · exact seen ⟨v, cut, ahead⟩

end Step

theorem Driven.sound (driven : s.Driven) : Sound s.locks s.threads := by
  induction driven with
  | start fresh => exact sound_fresh fresh
  | step _ step ih => exact step.sound ih

theorem Driven.backed (driven : s.Driven) (on : s.locks.donation = true) (lock : LockId) :
    s.locks.Backed s.threads lock := by
  induction driven generalizing lock with
  | start fresh => exact (donors_fresh fresh).backed lock not_false
  | @step s w driven step ih =>
      have on' : s.locks.donation = true := step.donation.symm.trans on
      have donors : Donors s.locks s.threads fun _ _ => True := ⟨fun lock _ => ih on' lock, fun _ _ _ _ => trivial⟩
      exact (step.heeds driven.sound on' donors).backed lock not_false

theorem Attentive.donor (attentive : s.Attentive) (on : s.locks.donation = true) (lock : LockId) :
    s.locks.donor? lock = s.locks.oldest? s.threads lock := by
  induction attentive generalizing lock with
  | start fresh =>
      have donors := donors_fresh fresh
      exact (donors.backed lock not_false).oldest_iff.mpr fun v ahead => donors.ahead lock v not_false ahead
  | @step s w attentive step seen ih =>
      have on' : s.locks.donation = true := step.donation.symm.trans on
      exact (step.donor_iff attentive.driven.sound on' (attentive.driven.backed on') (ih on' lock)).mpr (seen lock)

/-- A lock names a donor exactly if somebody waits, and one that carries what it donates. It is the oldest of these as long
as no walk overlooks an older one, and a step that ends without a circle of waits overlooks nobody. -/
theorem donor_oldest_iff (driven : s.Driven) (on : s.locks.donation = true) :
    (∀ lock, (s.locks.donor? lock = none ↔ s.locks.waitersOf lock = []) ∧
      ∀ d, s.locks.donor? lock = some d → d ∈ s.locks.waitersOf lock ∧ s.locks.donated? lock = some (s.threads.effective d)) ∧
    (s.Attentive → ∀ lock, s.locks.donor? lock = s.locks.oldest? s.threads lock) ∧
    ∀ w, s.Step w →
      (∀ lock, s.locks.donor? lock = s.locks.oldest? s.threads lock →
        (w.locks.donor? lock = w.locks.oldest? w.threads lock ↔ ¬w.Overlooks lock)) ∧
      (w.locks.Acyclic → ∀ lock, ¬w.Overlooks lock) := by
  have sound := driven.sound
  have backed := driven.backed on
  refine ⟨fun lock => ⟨(backed lock).none_iff, (backed lock).carries⟩, fun attentive => attentive.donor on,
    fun w step => ⟨fun lock named => step.donor_iff sound on backed named, fun acyclic lock => ?_⟩⟩
  exact (step.quiet sound acyclic).not_overlooks lock

def crossed (locks : Nat) : Option LockSystem :=
  (staffed {} [(⟨⟨1⟩, "first", .ordinary⟩, 20), (⟨⟨2⟩, "second", .ordinary⟩, 20), (⟨⟨3⟩, "third", .ordinary⟩, 10)]).play
    (List.replicate locks .create ++ [.acquire ⟨1⟩ ⟨1⟩, .acquire ⟨2⟩ ⟨2⟩, .acquire ⟨2⟩ ⟨1⟩, .acquire ⟨1⟩ ⟨2⟩])

/-- The third thread joins the line behind the second. With two locks the walk is cut after it moved the second thread. -/
theorem donor_oldest_iff_crossed : ∃ s w, crossed 2 = some s ∧ s.run (.acquire ⟨1⟩ ⟨3⟩) = .ok w ∧
    s.locks.donor? ⟨1⟩ = s.locks.oldest? s.threads ⟨1⟩ ∧ w.Overlooks ⟨1⟩ ∧
    w.locks.donor? ⟨1⟩ ≠ w.locks.oldest? w.threads ⟨1⟩ := by
  have played : crossed 2 = some ((crossed 2).get (by decide)) := (Option.some_get _).symm
  have reachable : ((crossed 2).get (by decide)).Reachable := reachable_play (.start (fresh_staffed _ _)) played
  have admitted : ((crossed 2).get (by decide)).Admits (.acquire ⟨1⟩ ⟨3⟩) := by decide
  have overlooks := ((donor_oldest_iff reachable.driven rfl).2.2 _ (.run admitted rfl)).1 ⟨1⟩ (by decide)
  exact ⟨_, _, played, rfl, by decide, by decide, fun named => overlooks.mp named (by decide)⟩

/-- The same operations with a third lock, which nobody uses: the walk comes back to the first lock and names the second
thread. -/
theorem exists_overlooked :
    (∃ s : LockSystem, s.Reachable ∧ s.locks.donation = true ∧ s.locks.donated? ⟨1⟩ = some 10 ∧
      s.locks.waitersOf ⟨1⟩ = [⟨2⟩, ⟨3⟩] ∧ s.threads.effective ⟨2⟩ = 10 ∧ s.locks.donor? ⟨1⟩ = some ⟨3⟩) ∧
    ∃ s : LockSystem, s.Reachable ∧ s.locks.donation = true ∧ s.locks.donated? ⟨1⟩ = some 10 ∧
      s.locks.waitersOf ⟨1⟩ = [⟨2⟩, ⟨3⟩] ∧ s.threads.effective ⟨2⟩ = 10 ∧ s.locks.donor? ⟨1⟩ = some ⟨2⟩ := by
  have reached (n : Nat) (s : LockSystem) (played : (crossed n).bind (·.play [.acquire ⟨1⟩ ⟨3⟩]) = some s) : s.Reachable := by
    obtain ⟨before, here, after⟩ := Option.bind_eq_some_iff.mp played
    exact reachable_play (reachable_play (.start (fresh_staffed _ _)) here) after
  exact ⟨⟨_, reached 2 _ (Option.some_get (by decide)).symm, by decide⟩,
    ⟨_, reached 3 _ (Option.some_get (by decide)).symm, by decide⟩⟩

end LockSystem

end PriorityScheduler
