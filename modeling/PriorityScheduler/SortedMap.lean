namespace PriorityScheduler

structure SortedMap (κ ν : Type) [Ord κ] where
  entries : List (κ × ν)
  sorted : entries.Pairwise fun a b => compare a.1 b.1 = .lt

namespace SortedMap

variable {κ ν : Type} [Ord κ]

def insertEntry (k : κ) (v : ν) : List (κ × ν) → List (κ × ν)
  | [] => [(k, v)]
  | e :: rest =>
      match compare k e.1 with
      | .lt => (k, v) :: e :: rest
      | .eq => (k, v) :: rest
      | .gt => e :: insertEntry k v rest

def lookup (k : κ) : List (κ × ν) → Option ν
  | [] => none
  | e :: rest => if compare k e.1 = .eq then some e.2 else lookup k rest

theorem mem_insertEntry {k : κ} {v : ν} {entries : List (κ × ν)} {e : κ × ν}
    (member : e ∈ insertEntry k v entries) : e = (k, v) ∨ e ∈ entries := by
  induction entries with
  | nil => simpa [insertEntry] using member
  | cons head rest ih =>
      unfold insertEntry at member
      split at member
      · simpa using member
      · rcases List.mem_cons.mp member with same | old
        · exact .inl same
        · exact .inr (List.mem_cons_of_mem _ old)
      · rcases List.mem_cons.mp member with same | later
        · exact .inr (same ▸ List.mem_cons_self)
        · exact (ih later).imp_right (List.mem_cons_of_mem _)

variable [Std.TransOrd κ] [Std.LawfulEqOrd κ]

theorem sorted_insertEntry {k : κ} {v : ν} {entries : List (κ × ν)}
    (sorted : entries.Pairwise fun a b => compare a.1 b.1 = .lt) :
    (insertEntry k v entries).Pairwise fun a b => compare a.1 b.1 = .lt := by
  induction entries with
  | nil => simp [insertEntry]
  | cons head rest ih =>
      obtain ⟨below, tail⟩ := List.pairwise_cons.mp sorted
      unfold insertEntry
      split
      · rename_i before
        refine List.pairwise_cons.mpr ⟨fun e member => ?_, sorted⟩
        rcases List.mem_cons.mp member with same | later
        · exact same ▸ before
        · exact Std.TransCmp.lt_trans before (below e later)
      · rename_i same
        have equal : k = head.1 := Std.LawfulEqCmp.eq_of_compare same
        exact List.pairwise_cons.mpr ⟨fun e member => equal ▸ below e member, tail⟩
      · rename_i after
        refine List.pairwise_cons.mpr ⟨fun e member => ?_, ih tail⟩
        rcases mem_insertEntry member with same | later
        · subst same
          exact Std.OrientedCmp.lt_of_gt after
        · exact below e later

def empty : SortedMap κ ν := ⟨[], .nil⟩

instance : EmptyCollection (SortedMap κ ν) := ⟨empty⟩

instance : Inhabited (SortedMap κ ν) := ⟨empty⟩

def get? (m : SortedMap κ ν) (k : κ) : Option ν := lookup k m.entries

def contains (m : SortedMap κ ν) (k : κ) : Bool := (m.get? k).isSome

def insert (m : SortedMap κ ν) (k : κ) (v : ν) : SortedMap κ ν :=
  ⟨insertEntry k v m.entries, sorted_insertEntry m.sorted⟩

def erase (m : SortedMap κ ν) (k : κ) : SortedMap κ ν :=
  ⟨m.entries.filter fun e => compare k e.1 != .eq, m.sorted.filter _⟩

def modify (m : SortedMap κ ν) (k : κ) (f : ν → ν) : SortedMap κ ν :=
  match m.get? k with
  | some v => m.insert k (f v)
  | none => m

def values (m : SortedMap κ ν) : List ν := m.entries.map (·.2)

def size (m : SortedMap κ ν) : Nat := m.entries.length

def isEmpty (m : SortedMap κ ν) : Bool := m.entries.isEmpty

def popFirst? (m : SortedMap κ ν) : Option ((κ × ν) × SortedMap κ ν) :=
  match m with
  | ⟨[], _⟩ => none
  | ⟨e :: rest, sorted⟩ => some (e, ⟨rest, (List.pairwise_cons.mp sorted).2⟩)

omit [Std.TransOrd κ] in
theorem lookup_insertEntry (k j : κ) (v : ν) (entries : List (κ × ν)) :
    lookup j (insertEntry k v entries) =
      if compare j k = .eq then some v else lookup j entries := by
  induction entries with
  | nil => simp [insertEntry, lookup]
  | cons head rest ih =>
      unfold insertEntry
      split
      · simp [lookup]
      · rename_i same
        have equal : k = head.1 := Std.LawfulEqCmp.eq_of_compare same
        subst equal
        simp only [lookup]
        split <;> rfl
      · rename_i after
        simp only [lookup, ih]
        split
        · rename_i atHead
          have equal : j = head.1 := Std.LawfulEqCmp.eq_of_compare atHead
          subst equal
          have apart : compare head.1 k ≠ .eq := by
            intro same
            have : head.1 = k := Std.LawfulEqCmp.eq_of_compare same
            subst this
            simp [Std.ReflCmp.compare_self] at after
          simp [apart]
        · rfl

omit [Std.TransOrd κ] in
theorem lookup_erase (k j : κ) (entries : List (κ × ν)) :
    lookup j (entries.filter fun e => compare k e.1 != .eq) =
      if compare j k = .eq then none else lookup j entries := by
  induction entries with
  | nil => simp [lookup]
  | cons head rest ih =>
      by_cases same : compare k head.1 = .eq
      · have equal : k = head.1 := Std.LawfulEqCmp.eq_of_compare same
        subst equal
        simp only [same, bne_self_eq_false, Bool.false_eq_true, not_false_eq_true,
          List.filter_cons_of_neg, ih, lookup]
        split <;> rfl
      · have kept : (compare k head.1 != .eq) = true := by simpa using same
        rw [List.filter_cons_of_pos (by simpa using kept)]
        simp only [lookup, ih]
        split
        · rename_i atHead
          have equal : j = head.1 := Std.LawfulEqCmp.eq_of_compare atHead
          subst equal
          have apart : compare head.1 k ≠ .eq := fun h =>
            same (by rw [Std.LawfulEqCmp.eq_of_compare h]; exact Std.ReflCmp.compare_self)
          simp [apart]
        · rfl

theorem get?_insert (m : SortedMap κ ν) (k j : κ) (v : ν) :
    (m.insert k v).get? j = if compare j k = .eq then some v else m.get? j :=
  lookup_insertEntry k j v m.entries

omit [Std.TransOrd κ] in
theorem get?_erase (m : SortedMap κ ν) (k j : κ) :
    (m.erase k).get? j = if compare j k = .eq then none else m.get? j :=
  lookup_erase k j m.entries

omit [Std.TransOrd κ] [Std.LawfulEqOrd κ] in
@[simp] theorem get?_empty (k : κ) : (∅ : SortedMap κ ν).get? k = none := rfl

@[simp] theorem get?_insert_self (m : SortedMap κ ν) (k : κ) (v : ν) :
    (m.insert k v).get? k = some v := by
  simp [get?_insert, Std.ReflCmp.compare_self]

theorem get?_insert_ne (m : SortedMap κ ν) {k j : κ} (v : ν) (apart : j ≠ k) :
    (m.insert k v).get? j = m.get? j := by
  rw [get?_insert, if_neg fun h => apart (Std.LawfulEqCmp.eq_of_compare h)]

omit [Std.TransOrd κ] in
@[simp] theorem get?_erase_self (m : SortedMap κ ν) (k : κ) : (m.erase k).get? k = none := by
  simp [get?_erase, Std.ReflCmp.compare_self]

omit [Std.TransOrd κ] in
theorem get?_erase_ne (m : SortedMap κ ν) {k j : κ} (apart : j ≠ k) :
    (m.erase k).get? j = m.get? j := by
  rw [get?_erase, if_neg fun h => apart (Std.LawfulEqCmp.eq_of_compare h)]

theorem get?_modify (m : SortedMap κ ν) (k j : κ) (f : ν → ν) :
    (m.modify k f).get? j = if compare j k = .eq then (m.get? j).map f else m.get? j := by
  by_cases same : compare j k = .eq
  · have equal : j = k := Std.LawfulEqCmp.eq_of_compare same
    subst equal
    cases found : m.get? j <;> simp [modify, found]
  · cases found : m.get? k <;> simp [modify, found, get?_insert, same]

omit [Std.TransOrd κ] in
theorem mem_of_lookup {k : κ} {v : ν} {entries : List (κ × ν)}
    (found : lookup k entries = some v) : (k, v) ∈ entries := by
  induction entries with
  | nil => simp [lookup] at found
  | cons head rest ih =>
      unfold lookup at found
      split at found
      · rename_i same
        have equal : k = head.1 := Std.LawfulEqCmp.eq_of_compare same
        cases found
        subst equal
        exact List.mem_cons_self
      · exact List.mem_cons_of_mem _ (ih found)

omit [Std.TransOrd κ] in
theorem lookup_of_mem {k : κ} {v : ν} {entries : List (κ × ν)}
    (sorted : entries.Pairwise fun a b => compare a.1 b.1 = .lt)
    (member : (k, v) ∈ entries) : lookup k entries = some v := by
  induction entries with
  | nil => simp at member
  | cons head rest ih =>
      obtain ⟨below, tail⟩ := List.pairwise_cons.mp sorted
      unfold lookup
      rcases List.mem_cons.mp member with same | later
      · subst same
        simp [Std.ReflCmp.compare_self]
      · have before := below _ later
        have apart : compare k head.1 ≠ .eq := by
          intro same
          have equal : k = head.1 := Std.LawfulEqCmp.eq_of_compare same
          subst equal
          simp [Std.ReflCmp.compare_self] at before
        simp [apart, ih tail later]

omit [Std.TransOrd κ] in
theorem mem_entries_iff (m : SortedMap κ ν) (k : κ) (v : ν) :
    (k, v) ∈ m.entries ↔ m.get? k = some v :=
  ⟨lookup_of_mem m.sorted, mem_of_lookup⟩

theorem entries_eq_of_lookup {a b : List (κ × ν)}
    (sortedA : a.Pairwise fun x y => compare x.1 y.1 = .lt)
    (sortedB : b.Pairwise fun x y => compare x.1 y.1 = .lt)
    (agree : ∀ k, lookup k a = lookup k b) : a = b := by
  induction a generalizing b with
  | nil =>
      cases b with
      | nil => rfl
      | cons e rest => simpa [lookup, Std.ReflCmp.compare_self] using agree e.1
  | cons x xs ih =>
      cases b with
      | nil => simpa [lookup, Std.ReflCmp.compare_self] using agree x.1
      | cons y ys =>
          obtain ⟨belowX, tailX⟩ := List.pairwise_cons.mp sortedA
          obtain ⟨belowY, tailY⟩ := List.pairwise_cons.mp sortedB
          have inB : (x.1, x.2) ∈ y :: ys :=
            mem_of_lookup (by rw [← agree]; exact lookup_of_mem sortedA List.mem_cons_self)
          have inA : (y.1, y.2) ∈ x :: xs :=
            mem_of_lookup (by rw [agree]; exact lookup_of_mem sortedB List.mem_cons_self)
          have heads : x = y := by
            rcases List.mem_cons.mp inB with same | later
            · exact same
            · rcases List.mem_cons.mp inA with same | later'
              · exact same.symm
              · have cycle := Std.TransCmp.lt_trans (belowY _ later) (belowX _ later')
                simp [Std.ReflCmp.compare_self] at cycle
          subst heads
          congr 1
          apply ih tailX tailY
          intro k
          by_cases same : compare k x.1 = .eq
          · have equal : k = x.1 := Std.LawfulEqCmp.eq_of_compare same
            have absent (zs : List (κ × ν)) (below : ∀ e ∈ zs, compare x.1 e.1 = .lt) :
                lookup k zs = none := by
              rw [Option.eq_none_iff_forall_ne_some]
              intro v found
              have before := below _ (mem_of_lookup found)
              simp [equal, Std.ReflCmp.compare_self] at before
            rw [absent xs belowX, absent ys belowY]
          · simpa [lookup, same] using agree k

theorem ext_get? {a b : SortedMap κ ν} (agree : ∀ k, a.get? k = b.get? k) : a = b := by
  have same := entries_eq_of_lookup a.sorted b.sorted agree
  cases a
  cases b
  simpa using same

end SortedMap

end PriorityScheduler
