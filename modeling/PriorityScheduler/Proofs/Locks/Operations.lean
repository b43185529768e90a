import PriorityScheduler.Proofs.Locks.Coherence
import PriorityScheduler.Proofs.Repricing

namespace PriorityScheduler

/-! ## The operations as a change and a walk -/

def Walk.start (t : LockRegistry) (threads : ThreadRegistry) : Walk := ⟨t, threads, [], []⟩

def Walk.settleNext (w : Walk) : Option ThreadId → Walk
  | none => w
  | some next => w.settle next

def ThreadRegistry.passOn (a : ThreadRegistry) (donation : Bool) (lock : LockId) (thread : ThreadId) :
    Option ThreadId → ThreadRegistry
  | none => a.modify thread (·.removeHeld lock)
  | some next => (a.modify thread (·.removeHeld lock)).modify next (·.inherit donation lock)

theorem ThreadRegistry.blockedOn?_passOn (a : ThreadRegistry) (donation : Bool) (lock : LockId)
    (thread next : ThreadId) : (a.passOn donation lock thread (some next)).blockedOn? next = none := by
  rw [passOn, blockedOn?_modify, if_pos rfl]
  cases (a.modify thread (·.removeHeld lock)).get? next with
  | none => rfl
  | some s => exact s.blockedOn_inherit donation lock

namespace LockRegistry

variable {t : LockRegistry} {a : ThreadRegistry} {lock : LockId} {l : Lock} {thread : ThreadId}

def taken (t : LockRegistry) (thread : ThreadId) (a : ThreadRegistry) : Walk :=
  { (Walk.start t a).visitThread thread with changed := if (Walk.start t a).moves thread then [thread] else [] }

theorem acquire_vacant (found : t.get? lock = some l) (vacant : l.holder = none) :
    t.acquire lock thread a = .ok (.acquired,
      let u := t.put lock { l with holder := some thread }
      if t.donation then u.taken thread (a.modify thread (·.addHeld lock)) else .start u a) := by
  simp only [acquire, found, vacant]
  cases on : t.donation <;> simp only [donation_put, on] <;> rfl

theorem acquire_held {h : ThreadId} (found : t.get? lock = some l) (holder : l.holder = some h) (other : h ≠ thread) :
    t.acquire lock thread a = .ok (.blocked h,
      let w := Walk.start (t.put lock { l with waiters := l.waiters ++ [thread] })
        (a.modify thread fun s => { s with blockedOn := some lock })
      if t.donation then w.propagate lock else w) := by
  simp only [acquire, found, holder, if_neg other]
  rfl

theorem acquire_ok {outcome : LockOutcome} {w : Walk} (done : t.acquire lock thread a = .ok (outcome, w)) :
    ∃ l, t.get? lock = some l ∧ l.holder ≠ some thread := by
  cases found : t.get? lock with
  | none => simp [acquire, found] at done
  | some l =>
      refine ⟨l, rfl, fun same => ?_⟩
      simp [acquire, found, same] at done

theorem acquire_error {f : Failure} (failed : t.acquire lock thread a = .error f) :
    f = .refused (.lockNotFound lock) ∨ f = .fatal (.lockHeldAlready thread lock) := by
  cases found : t.get? lock with
  | none =>
      simp only [acquire, found, Except.error.injEq] at failed
      exact .inl failed.symm
  | some l =>
      cases holder : l.holder with
      | none =>
          rw [acquire_vacant found holder] at failed
          cases failed
      | some h =>
          by_cases same : h = thread
          · simp only [acquire, found, holder, same, if_true, Except.error.injEq] at failed
            exact .inr failed.symm
          · rw [acquire_held found holder same] at failed
            cases failed

theorem release_held (found : t.get? lock = some l) (holder : l.holder = some thread) :
    t.release lock thread a = .ok (l.waiters.head?,
      let w := Walk.start (t.put lock { l with holder := l.waiters.head?, waiters := l.waiters.tail })
        (a.passOn t.donation lock thread l.waiters.head?)
      if t.donation then ((w.visitLock lock).settle thread).settleNext l.waiters.head? else w) := by
  simp only [release, found, if_pos holder]
  cases on : t.donation <;> cases l.waiters.head? <;> simp only [donation_put, on] <;> rfl

theorem release_ok {next : Option ThreadId} {w : Walk} (done : t.release lock thread a = .ok (next, w)) :
    ∃ l, t.get? lock = some l ∧ l.holder = some thread := by
  cases found : t.get? lock with
  | none => simp [release, found] at done
  | some l =>
      refine ⟨l, rfl, ?_⟩
      by_contra other
      simp [release, found, other] at done

theorem release_error {f : Failure} (failed : t.release lock thread a = .error f) :
    f = .refused (.lockNotFound lock) ∨ ∃ holder, f = .fatal (.lockNotHeld thread lock holder) := by
  cases found : t.get? lock with
  | none =>
      simp only [release, found, Except.error.injEq] at failed
      exact .inl failed.symm
  | some l =>
      by_cases holder : l.holder = some thread
      · rw [release_held found holder] at failed
        cases failed
      · simp only [release, found, if_neg holder, Except.error.injEq] at failed
        exact .inr ⟨l.holder, failed.symm⟩

theorem priorityChanged_eq (t : LockRegistry) (thread : ThreadId) (a : ThreadRegistry) :
    t.priorityChanged thread a =
      if t.donation then
        match a.blockedOn? thread with
        | some lock => (Walk.start t a).propagate lock
        | none => .start t a
      else .start t a := rfl

theorem withdraw_waiting (found : t.get? lock = some l) (waits : a.blockedOn? thread = some lock) :
    t.withdraw thread a =
      let w := Walk.start (t.put lock { l with waiters := l.waiters.filter (· ≠ thread) })
        (a.modify thread fun s => { s with blockedOn := none })
      if t.donation then w.propagate lock else w := by
  have waits' : (Walk.start t a).blockedOn? thread = some lock := waits
  unfold withdraw
  rw [Walk.start] at waits'
  simp only [waits', found]
  rfl

theorem withdraw_missing (absent : t.get? lock = none) (waits : a.blockedOn? thread = some lock) :
    t.withdraw thread a =
      let w := Walk.start t (a.modify thread fun s => { s with blockedOn := none })
      if t.donation then w.propagate lock else w := by
  have waits' : (Walk.start t a).blockedOn? thread = some lock := waits
  unfold withdraw
  rw [Walk.start] at waits'
  simp only [waits', absent]
  rfl

theorem withdraw_awake (awake : a.blockedOn? thread = none) : t.withdraw thread a = .start t a := by
  have awake' : (Walk.start t a).blockedOn? thread = none := awake
  unfold withdraw
  rw [Walk.start] at awake'
  simp only [awake']
  rfl

end LockRegistry

/-! ## Soundness -/

structure Sound (t : LockRegistry) (threads : ThreadRegistry) : Prop where
  linked : Linked t threads
  coherent : t.donation = true → Coherent t threads

section Sound

variable {t : LockRegistry} {a : ThreadRegistry} {lock : LockId} {thread : ThreadId}

theorem balanced_modify (exempt : ThreadId → Prop) {id h : ThreadId} {f : ThreadState → ThreadState}
    (steady : ¬exempt id → ∀ s, t.Balanced s → t.Balanced (f s)) {s' : ThreadState} (outside : ¬exempt h)
    (found : (a.modify id f).get? h = some s') : ∃ s, a.get? h = some s ∧ (t.Balanced s → t.Balanced s') := by
  rw [ThreadRegistry.get?_modify] at found
  by_cases here : h = id
  · rw [if_pos here] at found
    obtain ⟨s, before, rfl⟩ := Option.map_eq_some_iff.mp found
    exact ⟨s, here ▸ before, steady (here ▸ outside) s⟩
  · rw [if_neg here] at found
    exact ⟨s', found, fun balanced => balanced⟩

theorem get?_create (linked : Linked t a) (j : LockId) :
    t.create.2.get? j = t.get? j ∨ t.create.2.get? j = some {} ∧ t.get? j = none := by
  have get? : t.create.2.get? j = if j = ⟨t.nextId⟩ then some {} else t.get? j := t.locks.get?_insert_eq ⟨t.nextId⟩ j {}
  rw [get?]
  split
  · rename_i same
    exact .inr ⟨rfl, same ▸ linked.get?_nextId⟩
  · exact .inl rfl

theorem sound_create (sound : Sound t a) : Sound t.create.2 a := by
  refine ⟨sound.linked.create, fun on => (sound.coherent on).regraph (fun j => ?_) (fun j _ => ?_) (fun _ _ _ _ => rfl)
    (fun h s' _ found => ⟨s', found, fun balanced => balanced⟩) (fun _ => id) fun _ => id⟩
  · rcases get?_create sound.linked j with same | ⟨made, fresh⟩
    · rw [LockRegistry.donated?, same, LockRegistry.donated?]
    · simp [LockRegistry.donated?, made, fresh]
  · rcases get?_create sound.linked j with same | ⟨made, fresh⟩
    · rw [LockRegistry.waitersOf, same, LockRegistry.waitersOf]
    · simp [LockRegistry.waitersOf, made, fresh]

theorem unmoved_taken (sound : Sound t a) {l : Lock} (found : t.get? lock = some l) (vacant : l.holder = none)
    (on : t.donation = true) :
    ((t.put lock { l with holder := some thread }).refreshThread thread (a.modify thread (·.addHeld lock))).changed =
      false := by
  let u := t.put lock { l with holder := some thread }
  have coherent := sound.coherent on
  have donated? (j : LockId) : (t.put lock { l with holder := some thread }).donated? j = t.donated? j :=
    LockRegistry.donated?_put_of_donated found (by rfl) j
  have nothing : t.donated? lock = none := by
    have settled := coherent.settled lock not_false
    rw [LockRegistry.Settled, sound.linked.free lock ((LockRegistry.holder?_of_get? found).trans vacant)] at settled
    exact settled
  rw [← Bool.not_eq_true, LockRegistry.changed_refreshThread, ne_eq, not_not]
  rw [a.effective_modify_of_effective thread (ThreadState.effective_addHeld · lock)]
  cases here : a.get? thread with
  | none =>
      have absent : ((u.refreshThread thread (a.modify thread (·.addHeld lock))).threads.get? thread) = none := by
        rw [LockRegistry.get?_refreshThread, if_pos rfl, ThreadRegistry.get?_modify, if_pos rfl, here]
        rfl
      rw [ThreadRegistry.effective_of_none absent, ThreadRegistry.effective_of_none here,
        LockRegistry.config_refreshThread, ThreadRegistry.config_modify]
  | some s =>
      have added : (a.modify thread (·.addHeld lock)).get? thread = some (s.addHeld lock) := by
        rw [ThreadRegistry.get?_modify, if_pos rfl, here, Option.map_some]
      have base : (s.addHeld lock).base = s.base := by
        unfold ThreadState.addHeld
        split <;> rfl
      apply eq_of_le_iff
      intro x
      rw [le_effective_refreshThread added ((s.mem_addHeld lock lock).mpr (.inl rfl)),
        ThreadRegistry.effective_of_get? here, (coherent.balanced thread s not_false here).le_iff, base, donated?, nothing]
      simp only [s.mem_addHeld, donated?, below_none, and_true]
      refine and_congr_right fun _ => ⟨fun all l member => ?_, fun all l member apart => ?_⟩
      · by_cases same : l = lock
        · rw [same, nothing]
          exact below_none x
        · exact all l (.inr member) same
      · exact all l (member.resolve_left apart)

theorem sound_taken (sound : Sound t a) {l : Lock} (found : t.get? lock = some l) (vacant : l.holder = none)
    (known : (a.get? thread).isSome) (on : t.donation = true) :
    Sound (t.put lock { l with holder := some thread })
      ((t.put lock { l with holder := some thread }).refreshThread thread (a.modify thread (·.addHeld lock))).threads := by
  have linked := sound.linked.take found vacant known
  rw [if_pos on] at linked
  refine ⟨linked.of_alike (.refl _) (.refreshThread _ _ _), fun _ => ?_⟩
  have changed : CoherentBut (t.put lock { l with holder := some thread }) (a.modify thread (·.addHeld lock))
      (fun _ => False) (· = thread) :=
    (sound.coherent on).regraph (LockRegistry.donated?_put_of_donated found (by rfl))
      (fun j _ => LockRegistry.waitersOf_put_of_waiters found (by rfl) j)
      (fun _ _ v _ => a.effective_modify_of_effective thread (ThreadState.effective_addHeld · lock) v)
      (fun h s' => balanced_modify (· = thread) fun other => absurd rfl other) (fun _ => id) fun _ => False.elim
  refine (changed.visitThread linked thread).weaken (fun l open' => ?_) fun h both => both.2 both.1
  rw [unmoved_taken sound found vacant on] at open'
  exact open'.elim id fun both => nomatch both.1

section Propagate

variable {u : LockRegistry} {b : ThreadRegistry}

theorem gap_lowered (settled : t.Settled a lock) (donated : u.donated? lock = t.donated? lock)
    (waiters : u.waitersOf lock = t.waitersOf lock ++ [thread]) (effective : ∀ v, b.effective v = a.effective v) :
    Gap (.lowered (a.effective thread)) u b lock := by
  intro x
  beta_reduce
  rw [donated, LockRegistry.settled_iff.mp settled, waiters, below_least, List.forall_mem_map]
  simp only [effective, List.forall_mem_append, List.forall_mem_singleton]

theorem gap_raised (settled : t.Settled a lock) (donated : u.donated? lock = t.donated? lock)
    (member : thread ∈ t.waitersOf lock) (waiters : u.waitersOf lock = (t.waitersOf lock).filter (· ≠ thread))
    (effective : ∀ v, b.effective v = a.effective v) : Gap (.raised (a.effective thread)) u b lock := by
  intro x
  beta_reduce
  rw [donated, LockRegistry.settled_iff.mp settled, waiters, below_least, List.forall_mem_map]
  simp only [effective, List.mem_filter, decide_eq_true_eq, and_imp]
  refine ⟨fun all => ⟨fun v waits _ => all v waits, all thread member⟩, ?_⟩
  rintro ⟨rest, here⟩ v waits
  by_cases same : v = thread
  · exact same ▸ here
  · exact rest v waits same

theorem travels_start {σ : Shift} (sound : Sound t a) (on : t.donation = true) (linked : Linked u b)
    (donation : u.donation = t.donation) (donated : ∀ j, u.donated? j = t.donated? j)
    (waiters : ∀ j, j ≠ lock → u.waitersOf j = t.waitersOf j) (effective : ∀ v, b.effective v = a.effective v)
    (states : ∀ h s', b.get? h = some s' → ∃ s, a.get? h = some s ∧ (t.Balanced s → t.Balanced s'))
    (gap : t.Settled a lock → Gap σ u b lock) : Travels σ (fun _ => False) u.size lock (.start u b) := by
  have coherent := sound.coherent on
  refine travels_propagate (w := .start u b) linked (donation.trans on) ?_ (fun _ => False.elim)
    (gap (coherent.settled lock not_false))
  exact coherent.regraph donated waiters (fun _ _ v _ => effective v) (fun h s' _ => states h s') (fun _ => False.elim)
    fun _ => False.elim

theorem sound_propagate (linked : Linked u b) (donation : u.donation = t.donation)
    (travels : t.donation = true → ∃ σ, Travels σ (fun _ => False) u.size lock (.start u b)) :
    Sound (if t.donation then (Walk.start u b).propagate lock else .start u b).locks
      (if t.donation then (Walk.start u b).propagate lock else .start u b).threads := by
  by_cases on : t.donation = true
  · rw [if_pos on]
    obtain ⟨σ, travels⟩ := travels on
    exact ⟨(Walk.onward_propagate (.start u b) lock).linked linked, fun _ => travels.coherent_hop lock⟩
  · rw [if_neg on]
    exact ⟨linked, fun on' => absurd (donation.symm.trans on') on⟩

end Propagate

theorem travels_acquire (sound : Sound t a) (on : t.donation = true) (known : (a.get? thread).isSome)
    (awake : a.blockedOn? thread = none) {l : Lock} (found : t.get? lock = some l) {h : ThreadId} (holder : l.holder = some h)
    (others : h ≠ thread) :
    Travels (.lowered (a.effective thread)) (fun _ => False) (t.put lock { l with waiters := l.waiters ++ [thread] }).size lock
      (.start (t.put lock { l with waiters := l.waiters ++ [thread] })
        (a.modify thread fun s => { s with blockedOn := some lock })) := by
  have effective := a.effective_modify_of_effective thread (f := fun s => { s with blockedOn := some lock })
    fun _ => rfl
  have donated := LockRegistry.donated?_put_of_donated found
    (m := { l with waiters := l.waiters ++ [thread] }) (by rfl)
  refine travels_start sound on (sound.linked.queueUp found holder others known awake) (by rfl) donated ?_ effective
    (fun h s' => balanced_modify (fun _ => False) (by exact fun _ _ balanced => balanced) not_false)
    fun settled => gap_lowered settled (donated lock) ?_ effective
  · intro j apart
    rw [LockRegistry.waitersOf_put, if_neg apart]
  · rw [LockRegistry.waitersOf_put, if_pos rfl, LockRegistry.waitersOf_of_get? found]

theorem travels_withdraw (sound : Sound t a) (on : t.donation = true) {l : Lock} (found : t.get? lock = some l)
    (waits : a.blockedOn? thread = some lock) :
    Travels (.raised (a.effective thread)) (fun _ => False)
      (t.put lock { l with waiters := l.waiters.filter (· ≠ thread) }).size lock
      (.start (t.put lock { l with waiters := l.waiters.filter (· ≠ thread) })
        (a.modify thread fun s => { s with blockedOn := none })) := by
  have effective := a.effective_modify_of_effective thread (f := fun s => { s with blockedOn := none }) fun _ => rfl
  have donated := LockRegistry.donated?_put_of_donated found
    (m := { l with waiters := l.waiters.filter (· ≠ thread) }) (by rfl)
  refine travels_start sound on (sound.linked.leaveLine found waits) (by rfl) donated ?_ effective
    (fun h s' => balanced_modify (fun _ => False) (by exact fun _ _ balanced => balanced) not_false)
    fun settled => gap_raised settled (donated lock) ((sound.linked.waiting lock thread).mpr waits) ?_ effective
  · intro j apart
    rw [LockRegistry.waitersOf_put, if_neg apart]
  · rw [LockRegistry.waitersOf_put, if_pos rfl, LockRegistry.waitersOf_of_get? found]

theorem sound_acquire (sound : Sound t a) (known : (a.get? thread).isSome)
    (awake : t.holder? lock = none ∨ a.blockedOn? thread = none) {outcome : LockOutcome} {w : Walk}
    (done : t.acquire lock thread a = .ok (outcome, w)) :
    Sound w.locks w.threads := by
  obtain ⟨l, found, other⟩ := LockRegistry.acquire_ok done
  cases holder : l.holder with
  | none =>
      rw [LockRegistry.acquire_vacant found holder] at done
      obtain ⟨-, rfl⟩ := Prod.mk.inj (Except.ok.inj done)
      by_cases on : t.donation = true
      · simp only [on, if_true]
        exact sound_taken sound found holder known on
      · have linked := sound.linked.take found holder known
        simp only [on] at linked ⊢
        exact ⟨linked, fun on' => absurd on' on⟩
  | some h =>
      have others : h ≠ thread := fun same => other (same ▸ holder)
      have taken : t.holder? lock = some h := (LockRegistry.holder?_of_get? found).trans holder
      replace awake := awake.resolve_left (by simp [taken])
      rw [LockRegistry.acquire_held found holder others] at done
      obtain ⟨-, rfl⟩ := Prod.mk.inj (Except.ok.inj done)
      exact sound_propagate (sound.linked.queueUp found holder others known awake) (by rfl) fun on =>
        ⟨_, travels_acquire sound on known awake found holder others⟩

theorem sound_withdraw (sound : Sound t a) (thread : ThreadId) :
    Sound (t.withdraw thread a).locks (t.withdraw thread a).threads := by
  cases waits : a.blockedOn? thread with
  | none =>
      rw [LockRegistry.withdraw_awake waits]
      exact sound
  | some lock =>
      obtain ⟨l, found⟩ := sound.linked.exists_lock waits
      rw [LockRegistry.withdraw_waiting found waits]
      exact sound_propagate (sound.linked.leaveLine found waits) (by rfl) fun on => ⟨_, travels_withdraw sound on found waits⟩

theorem coherent_passedOn (sound : Sound t a) {l : Lock} (found : t.get? lock = some l) (thread : ThreadId)
    (on : t.donation = true) :
    CoherentBut (t.put lock { l with holder := l.waiters.head?, waiters := l.waiters.tail })
      (a.passOn t.donation lock thread l.waiters.head?) (· = lock)
      (fun h => h = thread ∨ l.waiters.head? = some h) := by
  refine (sound.coherent on).regraph (LockRegistry.donated?_put_of_donated found (by rfl)) (fun j apart => ?_)
    (fun _ _ v _ => ?_) (fun h s' outside after => ?_) (fun _ => False.elim) fun _ => False.elim
  · rw [LockRegistry.waitersOf_put, if_neg apart]
  · cases l.waiters.head? with
    | none => exact a.effective_modify_of_effective thread (f := (·.removeHeld lock)) (fun _ => rfl) v
    | some next =>
        apply (ThreadRegistry.effective_modify_of_effective _ next (fun s => s.effective_inherit _ lock) v).trans
        exact a.effective_modify_of_effective thread (f := (·.removeHeld lock)) (fun _ => rfl) v
  · obtain ⟨other, apart⟩ := not_or.mp outside
    refine ⟨s', ?_, fun balanced => balanced⟩
    rw [← after]
    cases head : l.waiters.head? with
    | none => rw [ThreadRegistry.passOn, ThreadRegistry.get?_modify, if_neg other]
    | some next =>
        have apart' : h ≠ next := fun same => apart (same ▸ head)
        rw [ThreadRegistry.passOn, ThreadRegistry.get?_modify, if_neg apart', ThreadRegistry.get?_modify, if_neg other]

theorem linked_passedOn (linked : Linked t a) {l : Lock} (found : t.get? lock = some l)
    (holder : l.holder = some thread) :
    Linked (t.put lock { l with holder := l.waiters.head?, waiters := l.waiters.tail })
      (a.passOn t.donation lock thread l.waiters.head?) := by
  cases line : l.waiters with
  | nil => exact linked.letGo found holder line
  | cons next rest => exact linked.handOn found holder line

theorem coherent_handedOn (sound : Sound t a) (on : t.donation = true) {l : Lock} (found : t.get? lock = some l)
    (holder : l.holder = some thread) {v : Walk}
    (start : (Walk.start (t.put lock { l with holder := l.waiters.head?, waiters := l.waiters.tail })
      (a.passOn t.donation lock thread l.waiters.head?)).visitLock lock = v) :
    Linked v.locks v.threads ∧ v.locks.donation = true ∧
      CoherentBut v.locks v.threads (fun _ => False) (fun h => h = thread ∨ l.waiters.head? = some h) ∧
      ∀ k, l.waiters.head? = some k → v.threads.blockedOn? k = none := by
  subst start
  have linked := linked_passedOn sound.linked found holder
  have onVisit := Walk.Onward.visitLock (.start (t.put lock { l with holder := l.waiters.head?, waiters := l.waiters.tail })
    (a.passOn t.donation lock thread l.waiters.head?)) lock
  refine ⟨onVisit.linked linked, onVisit.locks.donation.trans on, ?_, fun k next => ?_⟩
  · refine ((coherent_passedOn sound found thread on).visitLock linked lock).weaken (fun j open' => open'.2 open'.1) fun h => ?_
    rw [LockRegistry.holder?_put, if_pos rfl]
    tauto
  · simp only [next]
    exact a.blockedOn?_passOn t.donation lock thread k

theorem onward_settleNext (w : Walk) (next : Option ThreadId) : w.Onward (w.settleNext next) := by
  cases next with
  | none => exact .refl w
  | some id => exact w.onward_settle id

theorem coherent_settleNext {w : Walk} {next : Option ThreadId} (linked : Linked w.locks w.threads)
    (on : w.locks.donation = true)
    (coherent : CoherentBut w.locks w.threads (fun _ => False) (fun k => next = some k)) :
    Coherent (w.settleNext next).locks (w.settleNext next).threads := by
  cases next with
  | none => exact coherent.weaken (fun _ => id) (by simp)
  | some n => exact (coherent_settle linked on coherent (by simp)).weaken (fun _ => id) (by simp)

theorem sound_release (sound : Sound t a) {next : Option ThreadId} {w : Walk}
    (done : t.release lock thread a = .ok (next, w)) : Sound w.locks w.threads := by
  obtain ⟨l, found, holder⟩ := LockRegistry.release_ok done
  rw [LockRegistry.release_held found holder] at done
  obtain ⟨-, rfl⟩ := Prod.mk.inj (Except.ok.inj done)
  dsimp only
  by_cases on : t.donation = true
  · rw [if_pos on]
    generalize start : Walk.visitLock _ lock = v
    obtain ⟨linked, donation, coherent, awake⟩ := coherent_handedOn sound on found holder start
    have first := coherent_settle linked donation coherent fun k either other => awake k (either.resolve_left other)
    have onward := v.onward_settle thread
    refine ⟨(onward.trans (onward_settleNext _ _)).linked linked, fun _ => ?_⟩
    apply coherent_settleNext (onward.linked linked) (onward.locks.donation.trans donation)
    exact first.weaken (fun _ => id) fun k both => both.1.resolve_left both.2
  · rw [if_neg on]
    exact ⟨linked_passedOn sound.linked found holder, fun on' => absurd on' on⟩

def LockRegistry.reprice (t : LockRegistry) (thread : ThreadId) (c : Change) (a : ThreadRegistry) : Walk :=
  if c.changed then t.priorityChanged thread (a.put thread c.state) else .start t (a.put thread c.state)

theorem linked_put (linked : Linked t a) {s : ThreadState} {config : Config} {c : Change}
    (found : a.get? thread = some s)
    (repriced : s.Repriced config c) : Linked t (a.put thread c.state) := by
  refine linked.congr (.refl t) (fun j => ?_) (fun j => ?_) fun j known => ?_
  · simp only [ThreadRegistry.blockedOn?, ThreadRegistry.get?_put]
    split
    · rename_i same
      rw [same, found, Option.bind_some, Option.bind_some, repriced.blockedOn]
    · rfl
  · simp only [ThreadRegistry.heldBy, ThreadRegistry.get?_put]
    split
    · rename_i same
      rw [same, found, Option.map_some, Option.map_some, repriced.held]
    · rfl
  · rw [ThreadRegistry.get?_put]
    split
    · rfl
    · exact known

theorem effective_put_ne (a : ThreadRegistry) (s : ThreadState) {v : ThreadId} (apart : v ≠ thread) :
    (a.put thread s).effective v = a.effective v :=
  ThreadRegistry.effective_congr rfl (by rw [ThreadRegistry.get?_put, if_neg apart])

theorem blockedOn?_repriced {s : ThreadState} {config : Config} {c : Change} (found : a.get? thread = some s)
    (repriced : s.Repriced config c) : (a.put thread c.state).blockedOn? thread = a.blockedOn? thread := by
  rw [ThreadRegistry.blockedOn?_of_get? found, ← repriced.blockedOn]
  exact ThreadRegistry.blockedOn?_of_get? (by rw [ThreadRegistry.get?_put, if_pos rfl])

theorem effective_repriced (linked : Linked t a) {s : ThreadState} {config : Config} {c : Change}
    (found : a.get? thread = some s) (repriced : s.Repriced config c)
    (outside : ¬(c.changed = true ∧ a.blockedOn? thread = some lock)) {v : ThreadId} (waits : v ∈ t.waitersOf lock) :
    (a.put thread c.state).effective v = a.effective v := by
  by_cases same : v = thread
  · have still : c.changed ≠ true := fun moved => outside ⟨moved, (linked.waiting lock thread).mp (same ▸ waits)⟩
    have put : (a.put thread c.state).get? thread = some c.state := by rw [ThreadRegistry.get?_put, if_pos rfl]
    rw [Ne, repriced.changed, not_not] at still
    rw [same, ThreadRegistry.effective_of_get? put, still, ThreadRegistry.effective_of_get? found]
  · exact effective_put_ne a c.state same

theorem coherent_put (sound : Sound t a) (on : t.donation = true) {s : ThreadState} {config : Config} {c : Change}
    (found : a.get? thread = some s) (repriced : s.Repriced config c) :
    CoherentBut t (a.put thread c.state) (fun lock => c.changed = true ∧ a.blockedOn? thread = some lock) (fun _ => False) := by
  refine (sound.coherent on).regraph (fun _ => rfl) (fun _ _ => rfl)
    (fun _ outside _ waits => effective_repriced sound.linked found repriced outside waits)
    (fun h s' _ after => ?_) (fun _ => False.elim) fun _ => False.elim
  rw [ThreadRegistry.get?_put] at after
  by_cases same : h = thread
  · rw [if_pos same] at after
    cases after
    refine ⟨s, same ▸ found, fun balanced => ⟨repriced.floor balanced.1, ?_⟩⟩
    rw [repriced.donation, repriced.held]
    exact balanced.2
  · rw [if_neg same] at after
    exact ⟨s', after, fun balanced => balanced⟩

theorem travels_reprice (sound : Sound t a) (on : t.donation = true) {s : ThreadState} {config : Config} {c : Change}
    (found : a.get? thread = some s) (repriced : s.Repriced config c) (waits : a.blockedOn? thread = some lock) :
    ∃ σ, Travels σ (fun _ => False) t.size lock (.start t (a.put thread c.state)) := by
  obtain ⟨σ, leads⟩ := Shift.exists_leads (a.effective thread) ((a.put thread c.state).effective thread)
  refine ⟨σ, travels_propagate (w := .start t (a.put thread c.state)) (linked_put sound.linked found repriced) on ?_
    (fun _ => False.elim) ?_⟩
  · refine (coherent_put sound on found repriced).weaken (fun l open' => ?_) fun _ => id
    exact Option.some.inj (open'.2.symm.trans waits)
  · exact gap_of_leads ((sound.coherent on).settled lock not_false) ((sound.linked.waiting lock thread).mpr waits)
      (fun v => effective_put_ne a c.state) leads

theorem sound_reprice (sound : Sound t a) {s : ThreadState} {config : Config} {c : Change}
    (found : a.get? thread = some s)
    (repriced : s.Repriced config c) : Sound (t.reprice thread c a).locks (t.reprice thread c a).threads := by
  have linked := linked_put sound.linked found repriced
  unfold LockRegistry.reprice
  cases moved : c.changed with
  | false => exact ⟨linked, fun on => (coherent_put sound on found repriced).weaken (by simp [moved]) fun _ => id⟩
  | true =>
      rw [if_pos rfl, LockRegistry.priorityChanged_eq]
      by_cases on : t.donation = true
      · rw [if_pos on, blockedOn?_repriced found repriced]
        cases waits : a.blockedOn? thread with
        | none => exact ⟨linked, fun _ => (coherent_put sound on found repriced).weaken (by simp [waits]) fun _ => id⟩
        | some lock =>
            obtain ⟨σ, travels⟩ := travels_reprice sound on found repriced waits
            exact ⟨(Walk.onward_propagate (.start t _) lock).linked linked, fun _ => travels.coherent_hop lock⟩
      · rw [if_neg on]
        exact ⟨linked, fun on' => absurd on' on⟩

end Sound

end PriorityScheduler
