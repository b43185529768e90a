import PriorityScheduler.Proofs.Registries

namespace PriorityScheduler

structure Linked (t : LockRegistry) (threads : ThreadRegistry) : Prop where
  free : ∀ lock, t.holder? lock = none → t.waitersOf lock = []
  waiting : ∀ lock w, w ∈ t.waitersOf lock ↔ threads.blockedOn? w = some lock
  once : ∀ lock, (t.waitersOf lock).Nodup
  apart : ∀ lock h, t.holder? lock = some h → threads.blockedOn? h ≠ some lock
  known : ∀ lock h, t.holder? lock = some h → (threads.get? h).isSome
  held : ∀ h lock, lock ∈ threads.heldBy h ↔ t.donation = true ∧ t.holder? lock = some h
  heldOnce : ∀ h, (threads.heldBy h).Nodup
  numbered : ∀ lock ∈ t.ids, lock.val < t.nextId

/-! ## Look-ups of the graph -/

namespace ThreadRegistry

theorem isSome_of_blockedOn? {t : ThreadRegistry} {id : ThreadId} {lock : LockId}
    (blocked : t.blockedOn? id = some lock) : (t.get? id).isSome := by
  obtain ⟨s, found, -⟩ := Option.bind_eq_some_iff.mp blocked
  simp [found]

theorem blockedOn?_of_get? {t : ThreadRegistry} {id : ThreadId} {s : ThreadState}
    (found : t.get? id = some s) : t.blockedOn? id = s.blockedOn := by
  rw [blockedOn?, found, Option.bind_some]

theorem heldBy_of_get? {t : ThreadRegistry} {id : ThreadId} {s : ThreadState}
    (found : t.get? id = some s) : t.heldBy id = s.held := by
  rw [heldBy, found, Option.map_some, Option.getD_some]

theorem blockedOn?_modify (t : ThreadRegistry) (id j : ThreadId) (f : ThreadState → ThreadState) :
    (t.modify id f).blockedOn? j = if j = id then (t.get? id).bind (f · |>.blockedOn) else t.blockedOn? j := by
  simp only [blockedOn?, get?_modify]
  split
  · rw [Option.bind_map]
    rfl
  · rfl

theorem heldBy_modify (t : ThreadRegistry) (id j : ThreadId) (f : ThreadState → ThreadState) :
    (t.modify id f).heldBy j = if j = id then ((t.get? id).map (f · |>.held)).getD [] else t.heldBy j := by
  simp only [heldBy, get?_modify]
  split
  · rw [Option.map_map]
    rfl
  · rfl

theorem heldBy_modify_of_held (t : ThreadRegistry) (id j : ThreadId) {f : ThreadState → ThreadState}
    (same : ∀ s, (f s).held = s.held) : (t.modify id f).heldBy j = t.heldBy j := by
  rw [heldBy_modify]
  split
  · rename_i here
    simp only [here, heldBy, same]
  · rfl

theorem isSome_modify (t : ThreadRegistry) (id j : ThreadId) (f : ThreadState → ThreadState) :
    ((t.modify id f).get? j).isSome = (t.get? j).isSome := by
  rw [get?_modify]
  split
  · rename_i same
    rw [same, Option.isSome_map]
  · rfl

end ThreadRegistry

namespace LockRegistry

theorem holder?_put (t : LockRegistry) (id j : LockId) (l : Lock) :
    (t.put id l).holder? j = if j = id then l.holder else t.holder? j := by
  simp only [holder?, get?_put]
  split <;> rfl

theorem waitersOf_put (t : LockRegistry) (id j : LockId) (l : Lock) :
    (t.put id l).waitersOf j = if j = id then l.waiters else t.waitersOf j := by
  simp only [waitersOf, get?_put]
  split <;> rfl

theorem donated?_put (t : LockRegistry) (id j : LockId) (l : Lock) :
    (t.put id l).donated? j = if j = id then l.donated else t.donated? j := by
  simp only [donated?, get?_put]
  split <;> rfl

theorem holder?_of_get? {t : LockRegistry} {id : LockId} {l : Lock} (found : t.get? id = some l) :
    t.holder? id = l.holder := by
  rw [holder?, found, Option.bind_some]

theorem waitersOf_of_get? {t : LockRegistry} {id : LockId} {l : Lock} (found : t.get? id = some l) :
    t.waitersOf id = l.waiters := by
  rw [waitersOf, found, Option.map_some, Option.getD_some]

theorem donated?_of_get? {t : LockRegistry} {id : LockId} {l : Lock} (found : t.get? id = some l) :
    t.donated? id = l.donated := by
  rw [donated?, found, Option.bind_some]

theorem holder?_put_of_holder {t : LockRegistry} {id : LockId} {l m : Lock} (found : t.get? id = some l)
    (same : m.holder = l.holder) (j : LockId) : (t.put id m).holder? j = t.holder? j := by
  rw [holder?_put]
  split
  · rename_i here
    rw [here, holder?_of_get? found, same]
  · rfl

theorem waitersOf_put_of_waiters {t : LockRegistry} {id : LockId} {l m : Lock} (found : t.get? id = some l)
    (same : m.waiters = l.waiters) (j : LockId) : (t.put id m).waitersOf j = t.waitersOf j := by
  rw [waitersOf_put]
  split
  · rename_i here
    rw [here, waitersOf_of_get? found, same]
  · rfl

theorem donated?_put_of_donated {t : LockRegistry} {id : LockId} {l m : Lock} (found : t.get? id = some l)
    (same : m.donated = l.donated) (j : LockId) : (t.put id m).donated? j = t.donated? j := by
  rw [donated?_put]
  split
  · rename_i here
    rw [here, donated?_of_get? found, same]
  · rfl

end LockRegistry

namespace ThreadState

theorem swapRemove_perm (lock : LockId) (held : List LockId) :
    (swapRemove lock held).Perm (held.erase lock) := by
  induction held with
  | nil => rfl
  | cons l rest ih =>
      by_cases same : l = lock
      · rw [swapRemove, if_pos same, same, List.erase_cons_head]
        cases last : rest.getLast? with
        | none => rw [List.getLast?_eq_none_iff.mp last]
        | some z =>
            obtain ⟨front, split⟩ := List.getLast?_eq_some_iff.mp last
            rw [split, List.dropLast_concat]
            exact (List.perm_append_singleton z front).symm
      · rw [swapRemove, if_neg same, List.erase_cons_tail (by simpa using same)]
        exact ih.cons l

theorem mem_removeHeld {s : ThreadState} (once : s.held.Nodup) (lock j : LockId) :
    j ∈ (s.removeHeld lock).held ↔ j ≠ lock ∧ j ∈ s.held := by
  rw [removeHeld, (swapRemove_perm lock s.held).mem_iff, once.mem_erase_iff]

theorem nodup_removeHeld {s : ThreadState} (once : s.held.Nodup) (lock : LockId) :
    (s.removeHeld lock).held.Nodup :=
  (swapRemove_perm lock s.held).nodup_iff.mpr (once.erase lock)

theorem mem_addHeld (s : ThreadState) (lock j : LockId) : j ∈ (s.addHeld lock).held ↔ j = lock ∨ j ∈ s.held := by
  unfold addHeld
  split
  · rename_i present
    exact ⟨.inr, fun either => either.elim (fun same => same ▸ present) id⟩
  · rw [List.mem_append, List.mem_singleton, or_comm]

theorem nodup_addHeld {s : ThreadState} (once : s.held.Nodup) (lock : LockId) : (s.addHeld lock).held.Nodup := by
  unfold addHeld
  split
  · exact once
  · rename_i absent
    exact List.nodup_append.mpr ⟨once, by simp, by grind⟩

@[simp] theorem blockedOn_addHeld (s : ThreadState) (lock : LockId) : (s.addHeld lock).blockedOn = s.blockedOn := by
  unfold addHeld
  split <;> rfl

@[simp] theorem blockedOn_removeHeld (s : ThreadState) (lock : LockId) :
    (s.removeHeld lock).blockedOn = s.blockedOn := rfl

@[simp] theorem effective_addHeld (s : ThreadState) (lock : LockId) : (s.addHeld lock).effective = s.effective := by
  unfold addHeld
  split <;> rfl

def inherit (s : ThreadState) (donation : Bool) (lock : LockId) : ThreadState :=
  let s := { s with blockedOn := none }
  if donation then s.addHeld lock else s

@[simp] theorem blockedOn_inherit (s : ThreadState) (donation : Bool) (lock : LockId) :
    (s.inherit donation lock).blockedOn = none := by
  cases donation with
  | false => rfl
  | true => exact blockedOn_addHeld { s with blockedOn := none } lock

@[simp] theorem effective_inherit (s : ThreadState) (donation : Bool) (lock : LockId) :
    (s.inherit donation lock).effective = s.effective := by
  cases donation with
  | false => rfl
  | true => exact effective_addHeld { s with blockedOn := none } lock

theorem mem_inherit (s : ThreadState) (donation : Bool) (lock j : LockId) :
    j ∈ (s.inherit donation lock).held ↔ donation = true ∧ j = lock ∨ j ∈ s.held := by
  cases donation with
  | false => simp [inherit]
  | true =>
      rw [eq_self, true_and]
      exact mem_addHeld { s with blockedOn := none } lock j

theorem nodup_inherit {s : ThreadState} (once : s.held.Nodup) (donation : Bool) (lock : LockId) :
    (s.inherit donation lock).held.Nodup := by
  cases donation with
  | false => exact once
  | true => exact nodup_addHeld (s := { s with blockedOn := none }) once lock

end ThreadState

/-! ## Registries with the same graph -/

def Lock.bare (l : Lock) : Lock := { l with donated := none, donor := none }

def ThreadState.bare (s : ThreadState) : ThreadState := { s with effective := s.base, donation := none }

structure LockRegistry.Alike (t u : LockRegistry) : Prop where
  donation : u.donation = t.donation
  nextId : u.nextId = t.nextId
  ids : u.ids = t.ids
  get? : ∀ id, (u.get? id).map Lock.bare = (t.get? id).map Lock.bare

abbrev ThreadRegistry.Alike : ThreadRegistry → ThreadRegistry → Prop := Matches ThreadState.bare

theorem LockRegistry.holder?_of_bare {t u : LockRegistry} {id : LockId}
    (alike : (u.get? id).map Lock.bare = (t.get? id).map Lock.bare) : u.holder? id = t.holder? id := by
  have same := congrArg (Option.bind · Lock.holder) alike
  simp only [Option.bind_map, Function.comp_def, Lock.bare] at same
  exact same

theorem LockRegistry.waitersOf_of_bare {t u : LockRegistry} {id : LockId}
    (alike : (u.get? id).map Lock.bare = (t.get? id).map Lock.bare) : u.waitersOf id = t.waitersOf id := by
  have same := congrArg (fun o => (Option.map Lock.waiters o).getD []) alike
  simp only [Option.map_map, Function.comp_def, Lock.bare] at same
  exact same

namespace LockRegistry.Alike

variable {t u v : LockRegistry}

theorem refl (t : LockRegistry) : t.Alike t := ⟨rfl, rfl, rfl, fun _ => rfl⟩

theorem trans (first : t.Alike u) (second : u.Alike v) : t.Alike v :=
  ⟨second.donation.trans first.donation, second.nextId.trans first.nextId, second.ids.trans first.ids,
    fun id => (second.get? id).trans (first.get? id)⟩

theorem holder? (alike : t.Alike u) (id : LockId) : u.holder? id = t.holder? id := holder?_of_bare (alike.get? id)

theorem waitersOf (alike : t.Alike u) (id : LockId) : u.waitersOf id = t.waitersOf id :=
  waitersOf_of_bare (alike.get? id)

theorem refresh (t : LockRegistry) (id : LockId) (threads : ThreadRegistry) :
    t.Alike (t.refresh id threads) := by
  refine ⟨?_, ?_, t.ids_refresh id threads, fun j => ?_⟩
  · unfold LockRegistry.refresh
    split <;> rfl
  · unfold LockRegistry.refresh
    split <;> rfl
  · rw [get?_refresh]
    split
    · rename_i same
      rw [same, Option.map_map]
      rfl
    · rfl

end LockRegistry.Alike

namespace ThreadRegistry.Alike

variable {a b : ThreadRegistry}

theorem blockedOn? (alike : a.Alike b) (id : ThreadId) : b.blockedOn? id = a.blockedOn? id :=
  alike.bind ThreadState.blockedOn (fun _ => rfl) id

theorem heldBy (alike : a.Alike b) (id : ThreadId) : b.heldBy id = a.heldBy id :=
  Matches.heldBy alike (fun _ => rfl) id

theorem refreshThread (t : LockRegistry) (h : ThreadId) (a : ThreadRegistry) :
    a.Alike (t.refreshThread h a).threads := by
  refine ⟨LockRegistry.config_refreshThread t h a, fun j => ?_⟩
  rw [LockRegistry.get?_refreshThread]
  split
  · rename_i same
    rw [same, Option.map_map]
    rfl
  · rfl

end ThreadRegistry.Alike

namespace Linked

variable {t u : LockRegistry} {a b : ThreadRegistry}

theorem congr (linked : Linked t a) (locks : t.Alike u)
    (blockedOn? : ∀ id, b.blockedOn? id = a.blockedOn? id) (heldBy : ∀ id, b.heldBy id = a.heldBy id)
    (known : ∀ id, (a.get? id).isSome → (b.get? id).isSome) : Linked u b where
  free lock := by
    rw [locks.holder?, locks.waitersOf]
    exact linked.free lock
  waiting lock w := by
    rw [locks.waitersOf, blockedOn?]
    exact linked.waiting lock w
  once lock := by
    rw [locks.waitersOf]
    exact linked.once lock
  apart lock h := by
    rw [locks.holder?, blockedOn?]
    exact linked.apart lock h
  known lock h holder := known h (linked.known lock h (by rwa [← locks.holder?]))
  held h lock := by
    rw [heldBy, locks.donation, locks.holder?]
    exact linked.held h lock
  heldOnce h := by
    rw [heldBy]
    exact linked.heldOnce h
  numbered lock := by
    rw [locks.ids, locks.nextId]
    exact linked.numbered lock

theorem of_alike (linked : Linked t a) (locks : t.Alike u) (threads : a.Alike b) : Linked u b :=
  linked.congr locks threads.blockedOn? threads.heldBy fun id known => by rwa [threads.isSome]

theorem not_mem_waitersOf (linked : Linked t a) {w : ThreadId} (awake : a.blockedOn? w = none) (lock : LockId) :
    w ∉ t.waitersOf lock := by
  rw [linked.waiting, awake]
  exact nofun

theorem mem_ids (linked : Linked t a) {lock : LockId} {w : ThreadId} (waits : a.blockedOn? w = some lock) : lock ∈ t.ids :=
  LockRegistry.mem_ids_of_mem_waitersOf ((linked.waiting lock w).mpr waits)

theorem exists_lock (linked : Linked t a) {lock : LockId} {w : ThreadId} (waits : a.blockedOn? w = some lock) :
    ∃ l, t.get? lock = some l :=
  Option.isSome_iff_exists.mp ((t.mem_ids lock).mp (linked.mem_ids waits))

/-! ## Changes of the graph -/

theorem take (linked : Linked t a) {lock : LockId} {l : Lock} {thread : ThreadId} (found : t.get? lock = some l)
    (vacant : l.holder = none) (known : (a.get? thread).isSome) :
    Linked (t.put lock { l with holder := some thread })
      (if t.donation then a.modify thread (·.addHeld lock) else a) := by
  obtain ⟨s, here⟩ := Option.isSome_iff_exists.mp known
  have vacant? : t.holder? lock = none := (LockRegistry.holder?_of_get? found).trans vacant
  let u := t.put lock { l with holder := some thread }
  have holder? (j : LockId) : u.holder? j = if j = lock then some thread else t.holder? j :=
    t.holder?_put lock j _
  have waitersOf (j : LockId) : u.waitersOf j = t.waitersOf j :=
    LockRegistry.waitersOf_put_of_waiters found (by rfl) j
  let b := if t.donation then a.modify thread (·.addHeld lock) else a
  have blockedOn? (j : ThreadId) : b.blockedOn? j = a.blockedOn? j := by
    by_cases on : t.donation = true
    · simp only [b, on, if_true, ThreadRegistry.blockedOn?_modify, ThreadState.blockedOn_addHeld]
      grind [ThreadRegistry.blockedOn?]
    · simp only [b, on, Bool.false_eq_true, if_false]
  have isSome (j : ThreadId) : (b.get? j).isSome = (a.get? j).isSome := by
    by_cases on : t.donation = true
    · simp only [b, on, if_true, ThreadRegistry.isSome_modify]
    · simp only [b, on, Bool.false_eq_true, if_false]
  have mem_heldBy (h : ThreadId) (j : LockId) :
      j ∈ b.heldBy h ↔ j ∈ a.heldBy h ∨ t.donation = true ∧ h = thread ∧ j = lock := by
    by_cases on : t.donation = true
    · simp only [b, on, if_true, ThreadRegistry.heldBy_modify, here, Option.map_some, Option.getD_some]
      split
      · rename_i same
        rw [ThreadState.mem_addHeld, same, ThreadRegistry.heldBy_of_get? here]
        grind
      · grind
    · simp only [b, on, Bool.false_eq_true, if_false, false_and, or_false]
  have nodup_heldBy (h : ThreadId) : (b.heldBy h).Nodup := by
    by_cases on : t.donation = true
    · simp only [b, on, if_true, ThreadRegistry.heldBy_modify, here, Option.map_some, Option.getD_some]
      split
      · exact ThreadState.nodup_addHeld (ThreadRegistry.heldBy_of_get? here ▸ linked.heldOnce thread) lock
      · exact linked.heldOnce h
    · simp only [b, on, Bool.false_eq_true, if_false]
      exact linked.heldOnce h
  show Linked u b
  refine ⟨fun j => ?_, fun j w => ?_, fun j => ?_, fun j h => ?_, fun j h => ?_, fun h j => ?_, nodup_heldBy, ?_⟩
  · grind [linked.free j]
  · rw [waitersOf, blockedOn?]
    exact linked.waiting j w
  · rw [waitersOf]
    exact linked.once j
  · grind [linked.apart j h, linked.free lock vacant?, linked.waiting lock h]
  · grind [linked.known j h]
  · rw [mem_heldBy, linked.held, holder?, LockRegistry.donation_put]
    grind
  · rw [LockRegistry.ids_put _ _ (by simp [found])]
    exact linked.numbered

theorem queueUp (linked : Linked t a) {lock : LockId} {l : Lock} {h thread : ThreadId} (found : t.get? lock = some l)
    (holder : l.holder = some h) (other : h ≠ thread) (known : (a.get? thread).isSome)
    (awake : a.blockedOn? thread = none) :
    Linked (t.put lock { l with waiters := l.waiters ++ [thread] })
      (a.modify thread fun s => { s with blockedOn := some lock }) := by
  obtain ⟨s, here⟩ := Option.isSome_iff_exists.mp known
  have held? : t.holder? lock = some h := (LockRegistry.holder?_of_get? found).trans holder
  have line : t.waitersOf lock = l.waiters := LockRegistry.waitersOf_of_get? found
  have absent := linked.not_mem_waitersOf awake
  let u := t.put lock { l with waiters := l.waiters ++ [thread] }
  have holder? (j : LockId) : u.holder? j = t.holder? j := LockRegistry.holder?_put_of_holder found (by rfl) j
  have waitersOf (j : LockId) : u.waitersOf j = if j = lock then t.waitersOf lock ++ [thread] else t.waitersOf j := by
    rw [line]
    exact t.waitersOf_put lock j _
  let b := a.modify thread fun s => { s with blockedOn := some lock }
  have blockedOn? (j : ThreadId) : b.blockedOn? j = if j = thread then some lock else a.blockedOn? j := by
    simp only [b, ThreadRegistry.blockedOn?_modify, here, Option.bind_some]
  have heldBy (j : ThreadId) : b.heldBy j = a.heldBy j := a.heldBy_modify_of_held thread j fun _ => rfl
  show Linked u b
  refine ⟨fun j => ?_, fun j w => ?_, fun j => ?_, fun j k => ?_, fun j k => ?_, fun k j => ?_, fun k => ?_, ?_⟩
  · grind [linked.free j]
  · grind [linked.waiting j w]
  · grind [linked.once j, List.nodup_append]
  · grind [linked.apart j k]
  · rw [holder?, ThreadRegistry.isSome_modify]
    exact linked.known j k
  · rw [heldBy, holder?]
    exact linked.held k j
  · rw [heldBy]
    exact linked.heldOnce k
  · rw [LockRegistry.ids_put _ _ (by simp [found])]
    exact linked.numbered

theorem leaveLine (linked : Linked t a) {lock : LockId} {l : Lock} {thread : ThreadId}
    (found : t.get? lock = some l) (waits : a.blockedOn? thread = some lock) :
    Linked (t.put lock { l with waiters := l.waiters.filter (· ≠ thread) })
      (a.modify thread fun s => { s with blockedOn := none }) := by
  obtain ⟨s, here⟩ := Option.isSome_iff_exists.mp (ThreadRegistry.isSome_of_blockedOn? waits)
  have line : t.waitersOf lock = l.waiters := LockRegistry.waitersOf_of_get? found
  let u := t.put lock { l with waiters := l.waiters.filter (· ≠ thread) }
  have holder? (j : LockId) : u.holder? j = t.holder? j := LockRegistry.holder?_put_of_holder found (by rfl) j
  have waitersOf (j : LockId) :
      u.waitersOf j = if j = lock then (t.waitersOf lock).filter (· ≠ thread) else t.waitersOf j := by
    rw [line]
    exact t.waitersOf_put lock j _
  let b := a.modify thread fun s => { s with blockedOn := none }
  have blockedOn? (j : ThreadId) : b.blockedOn? j = if j = thread then none else a.blockedOn? j := by
    simp only [b, ThreadRegistry.blockedOn?_modify, here, Option.bind_some]
  have heldBy (j : ThreadId) : b.heldBy j = a.heldBy j := a.heldBy_modify_of_held thread j fun _ => rfl
  show Linked u b
  refine ⟨fun j => ?_, fun j w => ?_, fun j => ?_, fun j k => ?_, fun j k => ?_, fun k j => ?_, fun k => ?_, ?_⟩
  · grind [linked.free j]
  · grind [linked.waiting j w]
  · rw [waitersOf]
    split
    · exact (linked.once lock).filter _
    · exact linked.once j
  · grind [linked.apart j k]
  · rw [holder?, ThreadRegistry.isSome_modify]
    exact linked.known j k
  · rw [heldBy, holder?]
    exact linked.held k j
  · rw [heldBy]
    exact linked.heldOnce k
  · rw [LockRegistry.ids_put _ _ (by simp [found])]
    exact linked.numbered

theorem letGo (linked : Linked t a) {lock : LockId} {l : Lock} {thread : ThreadId} (found : t.get? lock = some l)
    (holder : l.holder = some thread) (nobody : l.waiters = []) :
    Linked (t.put lock { l with holder := none, waiters := [] }) (a.modify thread (·.removeHeld lock)) := by
  have held? : t.holder? lock = some thread := (LockRegistry.holder?_of_get? found).trans holder
  obtain ⟨s, here⟩ := Option.isSome_iff_exists.mp (linked.known lock thread held?)
  have once : s.held.Nodup := ThreadRegistry.heldBy_of_get? here ▸ linked.heldOnce thread
  let u := t.put lock { l with holder := none, waiters := [] }
  have holder? (j : LockId) : u.holder? j = if j = lock then none else t.holder? j := t.holder?_put lock j _
  have waitersOf (j : LockId) : u.waitersOf j = t.waitersOf j :=
    LockRegistry.waitersOf_put_of_waiters found (by exact nobody.symm) j
  let b := a.modify thread (·.removeHeld lock)
  have blockedOn? (j : ThreadId) : b.blockedOn? j = a.blockedOn? j := by
    simp only [b, ThreadRegistry.blockedOn?_modify, ThreadState.blockedOn_removeHeld]
    grind [ThreadRegistry.blockedOn?]
  have heldBy (h : ThreadId) : b.heldBy h = if h = thread then (s.removeHeld lock).held else a.heldBy h := by
    simp only [b, ThreadRegistry.heldBy_modify, here, Option.map_some, Option.getD_some]
  have line : t.waitersOf lock = [] := (LockRegistry.waitersOf_of_get? found).trans nobody
  show Linked u b
  refine ⟨fun j => ?_, fun j w => ?_, fun j => ?_, fun j h => ?_, fun j h => ?_, fun h j => ?_, fun h => ?_, ?_⟩
  · grind [linked.free j]
  · rw [waitersOf, blockedOn?]
    exact linked.waiting j w
  · rw [waitersOf]
    exact linked.once j
  · grind [linked.apart j h]
  · rw [holder?, ThreadRegistry.isSome_modify]
    grind [linked.known j h]
  · rw [heldBy, holder?, LockRegistry.donation_put]
    split
    · rw [ThreadState.mem_removeHeld once, ← ThreadRegistry.heldBy_of_get? here]
      grind [linked.held thread j]
    · grind [linked.held h j]
  · rw [heldBy]
    split
    · exact ThreadState.nodup_removeHeld once lock
    · exact linked.heldOnce h
  · rw [LockRegistry.ids_put _ _ (by simp [found])]
    exact linked.numbered

theorem handOn (linked : Linked t a) {lock : LockId} {l : Lock} {thread next : ThreadId} {rest : List ThreadId}
    (found : t.get? lock = some l) (holder : l.holder = some thread) (line : l.waiters = next :: rest) :
    Linked (t.put lock { l with holder := some next, waiters := rest })
      ((a.modify thread (·.removeHeld lock)).modify next (·.inherit t.donation lock)) := by
  have held? : t.holder? lock = some thread := (LockRegistry.holder?_of_get? found).trans holder
  have line? : t.waitersOf lock = next :: rest := (LockRegistry.waitersOf_of_get? found).trans line
  have waits : a.blockedOn? next = some lock := (linked.waiting lock next).mp (line? ▸ List.mem_cons_self)
  have other : next ≠ thread := fun same => linked.apart lock thread held? (same ▸ waits)
  obtain ⟨absent, once⟩ := List.nodup_cons.mp (line? ▸ linked.once lock)
  obtain ⟨s, here⟩ := Option.isSome_iff_exists.mp (linked.known lock thread held?)
  obtain ⟨n, there⟩ := Option.isSome_iff_exists.mp (ThreadRegistry.isSome_of_blockedOn? waits)
  have onceThread : s.held.Nodup := ThreadRegistry.heldBy_of_get? here ▸ linked.heldOnce thread
  have onceNext : n.held.Nodup := ThreadRegistry.heldBy_of_get? there ▸ linked.heldOnce next
  let u := t.put lock { l with holder := some next, waiters := rest }
  have holder? (j : LockId) : u.holder? j = if j = lock then some next else t.holder? j := t.holder?_put lock j _
  have waitersOf (j : LockId) : u.waitersOf j = if j = lock then rest else t.waitersOf j := t.waitersOf_put lock j _
  let b := (a.modify thread (·.removeHeld lock)).modify next (·.inherit t.donation lock)
  have get? (j : ThreadId) :
      b.get? j = if j = next then some (n.inherit t.donation lock)
        else if j = thread then some (s.removeHeld lock) else a.get? j := by
    simp only [b, ThreadRegistry.get?_modify, here, there, if_neg other, Option.map_some]
  have blockedOn? (j : ThreadId) : b.blockedOn? j = if j = next then none else a.blockedOn? j := by
    simp only [ThreadRegistry.blockedOn?, get?]
    grind [ThreadState.blockedOn_inherit, ThreadState.blockedOn_removeHeld]
  have heldBy (j : ThreadId) :
      b.heldBy j = if j = next then (n.inherit t.donation lock).held
        else if j = thread then (s.removeHeld lock).held else a.heldBy j := by
    simp only [ThreadRegistry.heldBy, get?]
    grind
  show Linked u b
  refine ⟨fun j => ?_, fun j w => ?_, fun j => ?_, fun j h => ?_, fun j h => ?_, fun h j => ?_, fun h => ?_, ?_⟩
  · grind [linked.free j]
  · grind [linked.waiting j w]
  · rw [waitersOf]
    split
    · exact once
    · exact linked.once j
  · grind [linked.apart j h]
  · rw [holder?, get?]
    grind [linked.known j h]
  · rw [heldBy, holder?, LockRegistry.donation_put]
    split
    · rename_i same
      rw [ThreadState.mem_inherit, ← ThreadRegistry.heldBy_of_get? there, linked.held]
      grind
    · split
      · rename_i same
        rw [ThreadState.mem_removeHeld onceThread, ← ThreadRegistry.heldBy_of_get? here, linked.held]
        grind
      · grind [linked.held h j]
  · rw [heldBy]
    split
    · exact ThreadState.nodup_inherit onceNext t.donation lock
    · split
      · exact ThreadState.nodup_removeHeld onceThread lock
      · exact linked.heldOnce h
  · rw [LockRegistry.ids_put _ _ (by simp [found])]
    exact linked.numbered

theorem get?_nextId (linked : Linked t a) : t.get? ⟨t.nextId⟩ = none := by
  cases found : t.get? ⟨t.nextId⟩ with
  | none => rfl
  | some l =>
      have below := linked.numbered ⟨t.nextId⟩ ((t.mem_ids _).mpr (by simp [found]))
      exact absurd below (Nat.lt_irrefl t.nextId)

theorem create (linked : Linked t a) : Linked t.create.2 a := by
  let id : LockId := ⟨t.nextId⟩
  have fresh : t.get? id = none := linked.get?_nextId
  have get? (j : LockId) : t.create.2.get? j = if j = id then some {} else t.get? j :=
    t.locks.get?_insert_eq id j {}
  have holder? (j : LockId) : t.create.2.holder? j = t.holder? j := by
    simp only [LockRegistry.holder?, get?]
    split
    · rename_i same
      rw [same, fresh]
      rfl
    · rfl
  have waitersOf (j : LockId) : t.create.2.waitersOf j = t.waitersOf j := by
    simp only [LockRegistry.waitersOf, get?]
    split
    · rename_i same
      rw [same, fresh]
      rfl
    · rfl
  refine ⟨fun lock => ?_, fun lock w => ?_, fun lock => ?_, fun lock h => ?_, fun lock h => ?_, fun h lock => ?_,
    linked.heldOnce, fun lock member => ?_⟩
  · rw [holder?, waitersOf]
    exact linked.free lock
  · rw [waitersOf]
    exact linked.waiting lock w
  · rw [waitersOf]
    exact linked.once lock
  · rw [holder?]
    exact linked.apart lock h
  · rw [holder?]
    exact linked.known lock h
  · rw [holder?]
    exact linked.held h lock
  · rw [LockRegistry.mem_ids, get?] at member
    show lock.val < t.nextId + 1
    split at member
    · rename_i same
      rw [same]
      exact Nat.lt_succ_self t.nextId
    · exact Nat.lt_succ_of_lt (linked.numbered lock ((t.mem_ids lock).mpr member))

end Linked

end PriorityScheduler
