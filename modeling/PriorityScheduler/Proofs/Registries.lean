import PriorityScheduler.Lock.Donation

namespace PriorityScheduler

namespace SortedMap

variable {κ ν : Type} [Ord κ] [Std.TransOrd κ] [Std.LawfulEqOrd κ]

def keys (m : SortedMap κ ν) : List κ := m.entries.map (·.1)

omit [Std.TransOrd κ] in
theorem mem_keys (m : SortedMap κ ν) (k : κ) : k ∈ m.keys ↔ (m.get? k).isSome := by
  simp only [keys, List.mem_map, Prod.exists, exists_and_right, exists_eq_right, mem_entries_iff,
    Option.isSome_iff_exists]

omit [Std.TransOrd κ] in
theorem mem_values (m : SortedMap κ ν) (v : ν) : v ∈ m.values ↔ ∃ k, m.get? k = some v := by
  simp only [values, List.mem_map, Prod.exists, exists_eq_right, mem_entries_iff]

omit [Std.TransOrd κ] in
theorem nodup_keys (m : SortedMap κ ν) : m.keys.Nodup := by
  refine List.Pairwise.map (·.1) ?_ m.sorted
  intro a b before same
  simp [same, Std.ReflCmp.compare_self] at before

theorem map_fst_insertEntry {k : κ} {v : ν} {entries : List (κ × ν)}
    (sorted : entries.Pairwise fun a b => compare a.1 b.1 = .lt)
    (present : (lookup k entries).isSome) : (insertEntry k v entries).map (·.1) = entries.map (·.1) := by
  induction entries with
  | nil => simp [lookup] at present
  | cons head rest ih =>
      obtain ⟨below, tail⟩ := List.pairwise_cons.mp sorted
      unfold insertEntry
      split
      · -- a key before the head occurs nowhere in the list
        rename_i before
        obtain ⟨found, member⟩ := Option.isSome_iff_exists.mp present
        rcases List.mem_cons.mp (mem_of_lookup member) with same | later
        · simp [← same, Std.ReflCmp.compare_self] at before
        · have cycle := Std.TransCmp.lt_trans before (below _ later)
          simp [Std.ReflCmp.compare_self] at cycle
      · rename_i same
        rw [List.map_cons, List.map_cons, Std.LawfulEqCmp.eq_of_compare same]
      · rename_i after
        rw [lookup, if_neg (by rw [after]; decide)] at present
        rw [List.map_cons, List.map_cons, ih tail present]

theorem keys_insert (m : SortedMap κ ν) {k : κ} (v : ν) (present : (m.get? k).isSome) :
    (m.insert k v).keys = m.keys :=
  map_fst_insertEntry m.sorted present

def mapValues (f : ν → ν) (m : SortedMap κ ν) : SortedMap κ ν where
  entries := m.entries.map fun e => (e.1, f e.2)
  sorted := m.sorted.map _ fun _ _ => id

omit [Std.TransOrd κ] [Std.LawfulEqOrd κ] in
theorem get?_mapValues (f : ν → ν) (m : SortedMap κ ν) (k : κ) : (m.mapValues f).get? k = (m.get? k).map f := by
  obtain ⟨entries, sorted⟩ := m
  show lookup k (entries.map fun e => (e.1, f e.2)) = (lookup k entries).map f
  clear sorted
  induction entries with
  | nil => rfl
  | cons head rest ih =>
      rw [List.map_cons, lookup, lookup, ih]
      split <;> rfl

variable [DecidableEq κ]

theorem get?_insert_eq (m : SortedMap κ ν) (k j : κ) (v : ν) :
    (m.insert k v).get? j = if j = k then some v else m.get? j := by
  simp only [get?_insert, Std.LawfulEqCmp.compare_eq_iff_eq]

theorem get?_modify_eq (m : SortedMap κ ν) (k j : κ) (f : ν → ν) :
    (m.modify k f).get? j = if j = k then (m.get? k).map f else m.get? j := by
  rw [get?_modify]
  simp only [Std.LawfulEqCmp.compare_eq_iff_eq]
  split
  · rename_i same
    rw [same]
  · rfl

omit [Std.TransOrd κ] in
theorem get?_erase_eq (m : SortedMap κ ν) (k j : κ) :
    (m.erase k).get? j = if j = k then none else m.get? j := by
  simp only [get?_erase, Std.LawfulEqCmp.compare_eq_iff_eq]

end SortedMap

namespace ThreadRegistry

def blockedOn? (t : ThreadRegistry) (id : ThreadId) : Option LockId := (t.get? id).bind (·.blockedOn)

def heldBy (t : ThreadRegistry) (id : ThreadId) : List LockId := ((t.get? id).map (·.held)).getD []

theorem get?_put (t : ThreadRegistry) (id j : ThreadId) (s : ThreadState) :
    (t.put id s).get? j = if j = id then some s else t.get? j :=
  t.states.get?_insert_eq id j s

theorem get?_modify (t : ThreadRegistry) (id j : ThreadId) (f : ThreadState → ThreadState) :
    (t.modify id f).get? j = if j = id then (t.get? id).map f else t.get? j :=
  t.states.get?_modify_eq id j f

theorem get?_remove (t : ThreadRegistry) (id j : ThreadId) :
    (t.remove id).get? j = if j = id then none else t.get? j :=
  t.states.get?_erase_eq id j

theorem ext {t u : ThreadRegistry} (config : t.config = u.config) (get? : ∀ id, t.get? id = u.get? id) : t = u := by
  obtain ⟨_, states⟩ := t
  obtain ⟨_, states'⟩ := u
  cases config
  cases (SortedMap.ext_get? get? : states = states')
  rfl

theorem put_put (t : ThreadRegistry) (id : ThreadId) (s s' : ThreadState) : (t.put id s).put id s' = t.put id s' := by
  refine ext rfl fun j => ?_
  rw [get?_put, get?_put, get?_put]
  split <;> rfl

theorem put_self {t : ThreadRegistry} {id : ThreadId} {s : ThreadState} (found : t.get? id = some s) : t.put id s = t := by
  refine ext rfl fun j => ?_
  rw [get?_put]
  split
  · rename_i here
    rw [here, found]
  · rfl

@[simp] theorem config_modify (t : ThreadRegistry) (id : ThreadId) (f : ThreadState → ThreadState) :
    (t.modify id f).config = t.config := rfl

theorem effective_of_get? {t : ThreadRegistry} {id : ThreadId} {s : ThreadState}
    (found : t.get? id = some s) : t.effective id = s.effective := by
  rw [effective, found]

theorem effective_of_none {t : ThreadRegistry} {id : ThreadId} (absent : t.get? id = none) :
    t.effective id = t.config.initial := by
  rw [effective, absent]

theorem effective_congr {t u : ThreadRegistry} {id : ThreadId} (config : t.config = u.config)
    (same : t.get? id = u.get? id) : t.effective id = u.effective id := by
  simp only [effective, config, same]

theorem effective_modify_of_effective (t : ThreadRegistry) (id : ThreadId) {f : ThreadState → ThreadState}
    (same : ∀ s, (f s).effective = s.effective) (j : ThreadId) : (t.modify id f).effective j = t.effective j := by
  by_cases here : j = id
  · cases found : t.get? id with
    | none => exact effective_congr rfl (by rw [get?_modify, if_pos here, here, found, Option.map_none])
    | some s =>
        rw [effective_of_get? (by rw [get?_modify, if_pos here, found]; rfl), here, effective_of_get? found, same]
  · exact effective_congr rfl (by rw [get?_modify, if_neg here])

theorem effective_put_of_effective {t : ThreadRegistry} {id : ThreadId} {s s' : ThreadState}
    (found : t.get? id = some s) (same : s'.effective = s.effective) (j : ThreadId) :
    (t.put id s').effective j = t.effective j := by
  by_cases here : j = id
  · have put : (t.put id s').get? j = some s' := (t.get?_put id j s').trans (if_pos here)
    rw [effective_of_get? put, here, effective_of_get? found, same]
  · exact effective_congr rfl ((t.get?_put id j s').trans (if_neg here))

theorem get?_ensure (t : ThreadRegistry) (thread : Thread) :
    (t.ensure thread).value.2.get? thread.id = some (t.ensure thread).value.1 ∧
      (t.get? thread.id = some (t.ensure thread).value.1 ∨
        t.get? thread.id = none ∧ (t.ensure thread).value.1 = .new thread t.config.initial) ∧
      ∀ id, id ≠ thread.id → (t.ensure thread).value.2.get? id = t.get? id := by
  unfold ensure
  cases found : t.get? thread.id with
  | some s => exact ⟨found, .inl rfl, fun _ _ => rfl⟩
  | none =>
      refine ⟨(t.get?_put _ _ _).trans (if_pos rfl), .inr ⟨rfl, rfl⟩, fun id other => ?_⟩
      exact (t.get?_put _ _ _).trans (if_neg other)

theorem config_ensure (t : ThreadRegistry) (thread : Thread) : (t.ensure thread).value.2.config = t.config := by
  unfold ensure
  cases t.get? thread.id <;> rfl

theorem effective_ensure (t : ThreadRegistry) (thread : Thread) (id : ThreadId) :
    (t.ensure thread).value.2.effective id = t.effective id := by
  obtain ⟨here, before, others⟩ := t.get?_ensure thread
  by_cases same : id = thread.id
  · rw [same, effective_of_get? here]
    rcases before with found | ⟨absent, made⟩
    · rw [effective_of_get? found]
    · rw [effective_of_none absent, made]
      rfl
  · exact effective_congr (t.config_ensure thread) (others id same)

/-- Registries with the same states, as far as a view of states shows. -/
structure Matches (view : ThreadState → ThreadState) (a b : ThreadRegistry) : Prop where
  config : b.config = a.config
  get? : ∀ id, (b.get? id).map view = (a.get? id).map view

namespace Matches

variable {view : ThreadState → ThreadState} {a b c : ThreadRegistry}

theorem refl (a : ThreadRegistry) : Matches view a a := ⟨rfl, fun _ => rfl⟩

theorem trans (first : Matches view a b) (second : Matches view b c) : Matches view a c :=
  ⟨second.config.trans first.config, fun id => (second.get? id).trans (first.get? id)⟩

theorem symm (same : Matches view a b) : Matches view b a :=
  ⟨same.config.symm, fun id => (same.get? id).symm⟩

theorem put {id : ThreadId} {s s' : ThreadState} (found : a.get? id = some s) (same : view s' = view s) :
    Matches view a (a.put id s') where
  config := rfl
  get? j := by
    rw [get?_put]
    split
    · rename_i here
      rw [here, found, Option.map_some, Option.map_some, same]
    · rfl

theorem modify (a : ThreadRegistry) (id : ThreadId) {f : ThreadState → ThreadState} (same : ∀ s, view (f s) = view s) :
    Matches view a (a.modify id f) where
  config := rfl
  get? j := by
    rw [get?_modify]
    split
    · rename_i here
      rw [here, Option.map_map]
      exact congrArg (Option.map · (a.get? id)) (funext same)
    · rfl

theorem both {f g : ThreadState → ThreadState} (same : Matches view a b) (id : ThreadId)
    (alike : ∀ s s', view s' = view s → view (g s') = view (f s)) : Matches view (a.modify id f) (b.modify id g) where
  config := same.config
  get? j := by
    rw [get?_modify, get?_modify]
    split
    · have mapped := same.get? id
      cases found : a.get? id with
      | none =>
          rw [found, Option.map_none, Option.map_eq_none_iff] at mapped
          rw [mapped]
          rfl
      | some s =>
          rw [found, Option.map_some, Option.map_eq_some_iff] at mapped
          obtain ⟨s', found', equal⟩ := mapped
          rw [found']
          exact congrArg some (alike s s' equal)
    · exact same.get? j

theorem putBoth {s s' : ThreadState} (same : Matches view a b) (id : ThreadId) (alike : view s' = view s) :
    Matches view (a.put id s) (b.put id s') where
  config := same.config
  get? j := by
    rw [get?_put, get?_put]
    split
    · exact congrArg some alike
    · exact same.get? j

theorem isSome (same : Matches view a b) (id : ThreadId) : (b.get? id).isSome = (a.get? id).isSome := by
  simpa only [Option.isSome_map] using congrArg Option.isSome (same.get? id)

theorem map {α : Type} (same : Matches view a b) (f : ThreadState → α) (shown : ∀ s, f (view s) = f s) (id : ThreadId) :
    (b.get? id).map f = (a.get? id).map f := by
  have mapped := congrArg (Option.map f) (same.get? id)
  simpa only [Option.map_map, Function.comp_def, shown] using mapped

theorem bind {α : Type} (same : Matches view a b) (f : ThreadState → Option α) (shown : ∀ s, f (view s) = f s)
    (id : ThreadId) : (b.get? id).bind f = (a.get? id).bind f := by
  have bound := congrArg (Option.bind · f) (same.get? id)
  simpa only [Option.bind_map, Function.comp_def, shown] using bound

theorem weaken {less : ThreadState → ThreadState} (same : Matches view a b) (shown : ∀ s, less (view s) = less s) :
    Matches less a b :=
  ⟨same.config, same.map less shown⟩

theorem exists_view (same : Matches view a b) {id : ThreadId} {s' : ThreadState} (found : b.get? id = some s') :
    ∃ s, a.get? id = some s ∧ view s = view s' := by
  have mapped := same.get? id
  rw [found, Option.map_some, eq_comm] at mapped
  exact Option.map_eq_some_iff.mp mapped

theorem effective (same : Matches view a b) (shown : ∀ s, (view s).effective = s.effective) (id : ThreadId) :
    b.effective id = a.effective id := by
  have mapped := same.map ThreadState.effective shown id
  cases found : b.get? id with
  | none =>
      rw [found, Option.map_none, eq_comm, Option.map_eq_none_iff] at mapped
      rw [effective_of_none found, effective_of_none mapped, same.config]
  | some s' =>
      rw [found, Option.map_some, eq_comm, Option.map_eq_some_iff] at mapped
      obtain ⟨s, found', equal⟩ := mapped
      rw [effective_of_get? found, effective_of_get? found', equal]

theorem heldBy (same : Matches view a b) (shown : ∀ s, (view s).held = s.held) (id : ThreadId) :
    b.heldBy id = a.heldBy id :=
  congrArg (Option.getD · []) (same.map ThreadState.held shown id)

end Matches

end ThreadRegistry

namespace LockRegistry

def waitersOf (t : LockRegistry) (id : LockId) : List ThreadId := ((t.get? id).map (·.waiters)).getD []

def ids (t : LockRegistry) : List LockId := t.locks.keys

theorem get?_put (t : LockRegistry) (id j : LockId) (l : Lock) :
    (t.put id l).get? j = if j = id then some l else t.get? j :=
  t.locks.get?_insert_eq id j l

@[simp] theorem donation_put (t : LockRegistry) (id : LockId) (l : Lock) : (t.put id l).donation = t.donation := rfl

theorem mem_ids (t : LockRegistry) (id : LockId) : id ∈ t.ids ↔ (t.get? id).isSome :=
  t.locks.mem_keys id

theorem size_eq (t : LockRegistry) : t.size = t.ids.length := by
  simp only [size, ids, SortedMap.size, SortedMap.keys, List.length_map]

theorem ids_put (t : LockRegistry) {id : LockId} (l : Lock) (present : (t.get? id).isSome) :
    (t.put id l).ids = t.ids :=
  t.locks.keys_insert l present

theorem mem_ids_put (t : LockRegistry) (id : LockId) (l : Lock) : id ∈ (t.put id l).ids := by
  rw [mem_ids, get?_put, if_pos rfl]
  rfl

theorem mem_ids_of_holder? {t : LockRegistry} {id : LockId} {h : ThreadId}
    (holder : t.holder? id = some h) : id ∈ t.ids := by
  rw [mem_ids]
  obtain ⟨l, found, -⟩ := Option.bind_eq_some_iff.mp holder
  simp [found]

theorem mem_ids_of_mem_waitersOf {t : LockRegistry} {id : LockId} {w : ThreadId}
    (waits : w ∈ t.waitersOf id) : id ∈ t.ids := by
  rw [mem_ids]
  cases found : t.get? id with
  | none => simp [waitersOf, found] at waits
  | some l => rfl

theorem mem_heldBy (t : LockRegistry) (h : ThreadId) (id : LockId) :
    id ∈ t.heldBy h ↔ t.holder? id = some h := by
  simp only [heldBy, List.mem_map, List.mem_filter, Prod.exists, exists_and_right, exists_eq_right,
    SortedMap.mem_entries_iff, decide_eq_true_eq, holder?, get?, Option.bind_eq_some_iff]

theorem nodup_heldBy (t : LockRegistry) (h : ThreadId) : (t.heldBy h).Nodup :=
  t.locks.nodup_keys.sublist (List.filter_sublist.map _)

theorem fst_bestWaiter (threads : ThreadRegistry) (waiters : List ThreadId) :
    (bestWaiter threads waiters).map (·.1) = least (waiters.map threads.effective) := by
  induction waiters with
  | nil => rfl
  | cons w rest ih =>
      rw [List.map_cons, least, ← ih, bestWaiter]
      cases best : bestWaiter threads rest with
      | none => rfl
      | some found =>
          simp only [Option.map_some, Option.elim_some]
          split <;> simp only [Option.map_some, Option.some.injEq] <;> grind

theorem priority_bestDonation (t : LockRegistry) (held : List LockId) :
    (t.bestDonation held).map (·.priority) = least (held.filterMap t.donated?) := by
  induction held with
  | nil => rfl
  | cons id rest ih =>
      rw [List.filterMap_cons, bestDonation]
      cases given : t.donated? id with
      | none => simpa using ih
      | some p =>
          simp only [least, ← ih]
          cases best : t.bestDonation rest with
          | none => rfl
          | some found =>
              simp only [Option.map_some, Option.elim_some]
              split <;> simp only [Option.map_some, Option.some.injEq] <;> grind

theorem get?_refresh (t : LockRegistry) (id j : LockId) (threads : ThreadRegistry) :
    (t.refresh id threads).get? j =
      if j = id then
        (t.get? id).map fun l => { l with
          donated := (bestWaiter threads l.waiters).map (·.1)
          donor := (bestWaiter threads l.waiters).map (·.2) }
      else t.get? j := by
  cases found : t.get? id with
  | none =>
      simp only [refresh, found, Option.map_none]
      split
      · rename_i same
        rw [same, found]
      · rfl
  | some l => simp only [refresh, found, get?_put, Option.map_some]

theorem ids_refresh (t : LockRegistry) (id : LockId) (threads : ThreadRegistry) :
    (t.refresh id threads).ids = t.ids := by
  unfold refresh
  split
  · rfl
  · rename_i l found
    exact t.ids_put _ (by simp [found])

theorem donated?_refresh (t : LockRegistry) (id j : LockId) (threads : ThreadRegistry) :
    (t.refresh id threads).donated? j =
      if j = id then least ((t.waitersOf id).map threads.effective) else t.donated? j := by
  simp only [donated?, get?_refresh, waitersOf]
  split
  · cases t.get? id with
    | none => rfl
    | some l => simpa using fst_bestWaiter threads l.waiters
  · rfl

theorem get?_refreshThread (t : LockRegistry) (h j : ThreadId) (threads : ThreadRegistry) :
    (t.refreshThread h threads).threads.get? j =
      if j = h then (threads.get? h).map fun s => (s.setDonation (t.bestDonation s.held)).state
      else threads.get? j := by
  cases found : threads.get? h with
  | none =>
      simp only [refreshThread, found, Option.map_none]
      split
      · rename_i same
        rw [same, found]
      · rfl
  | some s => simp only [refreshThread, found, ThreadRegistry.get?_put, Option.map_some]

@[simp] theorem config_refreshThread (t : LockRegistry) (h : ThreadId) (threads : ThreadRegistry) :
    (t.refreshThread h threads).threads.config = threads.config := by
  unfold refreshThread
  split <;> rfl

theorem changed_refreshThread (t : LockRegistry) (h : ThreadId) (threads : ThreadRegistry) :
    (t.refreshThread h threads).changed = true ↔
      (t.refreshThread h threads).threads.effective h ≠ threads.effective h := by
  cases found : threads.get? h with
  | none => simp [refreshThread, found]
  | some s =>
      rw [ThreadRegistry.effective_of_get? found,
        ThreadRegistry.effective_of_get? (by rw [get?_refreshThread, if_pos rfl, found]; rfl)]
      simp only [refreshThread, found, ThreadState.setDonation, ThreadState.changed_refresh]

theorem effective_refreshThread_ne (t : LockRegistry) {h j : ThreadId} (threads : ThreadRegistry)
    (apart : j ≠ h) : (t.refreshThread h threads).threads.effective j = threads.effective j :=
  ThreadRegistry.effective_congr (config_refreshThread t h threads)
    (by rw [get?_refreshThread, if_neg apart])

end LockRegistry

namespace Walk

def visitLock (w : Walk) (lock : LockId) : Walk := { w with locks := w.locks.refresh lock w.threads }

def visitThread (w : Walk) (id : ThreadId) : Walk :=
  { w with threads := (w.locks.refreshThread id w.threads).threads }

def moves (w : Walk) (id : ThreadId) : Bool := (w.locks.refreshThread id w.threads).changed

def report (w : Walk) (lock : LockId) (holder : ThreadId) : Walk :=
  (w.notice (.donated lock holder (w.threads.effective holder))).mark holder

@[simp] theorem locks_report (w : Walk) (lock : LockId) (holder : ThreadId) :
    (w.report lock holder).locks = w.locks := by
  unfold report mark notice
  split <;> rfl

@[simp] theorem threads_report (w : Walk) (lock : LockId) (holder : ThreadId) :
    (w.report lock holder).threads = w.threads := by
  unfold report mark notice
  split <;> rfl

theorem notices_report (w : Walk) (lock : LockId) (holder : ThreadId) :
    (w.report lock holder).notices = w.notices ++ [.donated lock holder (w.threads.effective holder)] := by
  unfold report mark notice
  split <;> rfl

theorem hop_succ (start lock : LockId) (hops : Nat) (w : Walk) :
    hop start (hops + 1) lock w =
      match (w.visitLock lock).locks.holder? lock with
      | none => w.visitLock lock
      | some holder =>
          if (w.visitLock lock).moves holder then
            match ((w.visitLock lock).visitThread holder).threads.blockedOn? holder with
            | some next => hop start hops next (((w.visitLock lock).visitThread holder).report lock holder)
            | none => ((w.visitLock lock).visitThread holder).report lock holder
          else (w.visitLock lock).visitThread holder := by
  have unfolded : hop start (hops + 1) lock w =
      match (w.visitLock lock).locks.holder? lock with
      | none => w.visitLock lock
      | some holder =>
          let v := (w.visitLock lock).visitThread holder
          if (w.visitLock lock).moves holder then
            match (v.report lock holder).threads.blockedOn? holder with
            | some next => hop start hops next (v.report lock holder)
            | none => v.report lock holder
          else v := rfl
  simpa only [threads_report] using unfolded

theorem settle_eq (w : Walk) (id : ThreadId) :
    w.settle id =
      if w.moves id then
        match (w.visitThread id).threads.blockedOn? id with
        | some lock => propagate { w.visitThread id with changed := w.changed ++ [id] } lock
        | none => { w.visitThread id with changed := w.changed ++ [id] }
      else w.visitThread id := rfl

end Walk

end PriorityScheduler
