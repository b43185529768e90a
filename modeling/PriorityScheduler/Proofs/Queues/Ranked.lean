import Mathlib.Data.List.Basic
import PriorityScheduler.Proofs.Registries
import PriorityScheduler.Queue.Ranked

namespace PriorityScheduler

namespace SortedMap

variable {κ ν : Type} [Ord κ]

theorem values_eq_nil_of_popFirst? {m : SortedMap κ ν} (none : m.popFirst? = none) : m.values = [] := by
  obtain ⟨entries, sorted⟩ := m
  cases entries with
  | nil => rfl
  | cons e rest => cases none

theorem compare_popFirst? [Std.TransOrd κ] [Std.LawfulEqOrd κ] {m : SortedMap κ ν} {k : κ} {v : ν}
    (found : m.get? k = some v) :
    ∃ first, m.popFirst?.map Prod.fst = some first ∧ (first = (k, v) ∨ compare first.1 k = .lt) := by
  have member := (mem_entries_iff m k v).mpr found
  obtain ⟨entries, sorted⟩ := m
  cases entries with
  | nil => cases member
  | cons e rest =>
      refine ⟨e, rfl, ?_⟩
      rcases List.mem_cons.mp member with here | later
      · exact .inl here.symm
      · exact .inr ((List.pairwise_cons.mp sorted).1 (k, v) later)

variable [Std.TransOrd κ] [Std.LawfulEqOrd κ] [DecidableEq κ]

theorem popFirst?_eq_some {m rest : SortedMap κ ν} {k : κ} {v : ν} (popped : m.popFirst? = some ((k, v), rest)) :
    m.get? k = some v ∧ m.values = v :: rest.values ∧ rest = m.erase k := by
  obtain ⟨entries, sorted⟩ := m
  cases entries with
  | nil => cases popped
  | cons e tail =>
      cases popped
      have here : (⟨(k, v) :: tail, sorted⟩ : SortedMap κ ν).get? k = some v :=
        (mem_entries_iff _ k v).mp List.mem_cons_self
      refine ⟨here, rfl, ext_get? fun j => ?_⟩
      obtain ⟨below, after⟩ := List.pairwise_cons.mp sorted
      rw [get?_erase_eq]
      by_cases same : j = k
      · rw [if_pos same]
        cases found : (⟨tail, after⟩ : SortedMap κ ν).get? j with
        | none => rfl
        | some w =>
            have later := below (j, w) ((mem_entries_iff _ j w).mpr found)
            simp [same, Std.ReflCmp.compare_self] at later
      · rw [if_neg same]
        show lookup j tail = lookup j ((k, v) :: tail)
        rw [lookup, if_neg fun equal => same (Std.LawfulEqCmp.eq_of_compare equal)]

end SortedMap

namespace RankedQueue

variable {q : RankedQueue} {threads threads' : ThreadRegistry} {pending pending' : ThreadId → Prop} {id : ThreadId}

def place? (q : RankedQueue) (id : ThreadId) : Option Nat := (q.index.get? id).map (·.place)

/-- The maps agree, and so do ranks and effective priorities but for threads that are still to be brought to their new
positions. -/
structure Ranks (q : RankedQueue) (threads : ThreadRegistry) (pending : ThreadId → Prop) : Prop where
  inverse : ∀ id r, q.index.get? id = some r ↔ q.order.get? r = some id
  bounded : ∀ id r, q.index.get? id = some r → r.place < q.nextPlace
  apart : ∀ id j r r', q.index.get? id = some r → q.index.get? j = some r' → r.place = r'.place → id = j
  agrees : ∀ id r, q.index.get? id = some r → ¬pending id → r.priority = threads.effective id

theorem ranks_empty (threads : ThreadRegistry) (pending : ThreadId → Prop) :
    ({} : RankedQueue).Ranks threads pending where
  inverse _ _ := iff_of_false nofun nofun
  bounded _ _ := nofun
  apart _ _ _ _ := nofun
  agrees _ _ := nofun

theorem contains_eq (q : RankedQueue) (id : ThreadId) : q.contains id = (q.place? id).isSome := by
  rw [contains, SortedMap.contains, place?, Option.isSome_map]

namespace Ranks

theorem mem_waiters (ranks : q.Ranks threads pending) (id : ThreadId) : id ∈ q.waiters ↔ (q.place? id).isSome := by
  rw [waiters, SortedMap.mem_values, place?, Option.isSome_map, Option.isSome_iff_exists]
  exact exists_congr fun r => (ranks.inverse id r).symm

theorem congr (ranks : q.Ranks threads pending)
    (moved : ∀ id ∈ q.waiters, ¬pending' id → ¬pending id ∧ threads'.effective id = threads.effective id) :
    q.Ranks threads' pending' where
  inverse := ranks.inverse
  bounded := ranks.bounded
  apart := ranks.apart
  agrees id r found settled := by
    have waits : id ∈ q.waiters := by
      rw [ranks.mem_waiters, place?, found]
      rfl
    obtain ⟨before, same⟩ := moved id waits settled
    rw [same]
    exact ranks.agrees id r found before

theorem get?_of_mem (ranks : q.Ranks threads pending) {e : Rank × ThreadId} (member : e ∈ q.order.entries) :
    q.index.get? e.2 = some e.1 :=
  (ranks.inverse e.2 e.1).mpr ((SortedMap.mem_entries_iff q.order e.1 e.2).mp member)

theorem distinct (ranks : q.Ranks threads pending) :
    q.order.entries.Pairwise fun a b => a.2 ≠ b.2 ∧ a.1.place ≠ b.1.place := by
  refine q.order.sorted.imp_of_mem fun {a b} first second before => ?_
  have different : a.1 ≠ b.1 := by
    intro same
    simp [same, Std.ReflCmp.compare_self] at before
  have ids : a.2 ≠ b.2 := by
    intro same
    have equal := ranks.get?_of_mem first
    rw [same, ranks.get?_of_mem second] at equal
    exact different (Option.some.inj equal).symm
  exact ⟨ids, fun places =>
    ids (ranks.apart a.2 b.2 a.1 b.1 (ranks.get?_of_mem first) (ranks.get?_of_mem second) places)⟩

theorem nodup_waiters (ranks : q.Ranks threads pending) : q.waiters.Nodup := by
  refine List.Pairwise.map (·.2) ?_ ranks.distinct
  intro a b apart
  exact apart.1

/-! ## A new rank -/

theorem ranked {order : SortedMap Rank ThreadId} {place nextPlace : Nat} (ranks : q.Ranks threads pending)
    (fresh : ∀ j r, q.index.get? j = some r → r.place = place → j = id)
    (bound : place < nextPlace) (more : q.nextPlace ≤ nextPlace)
    (others : ∀ r j, order.get? r = some j ↔ q.order.get? r = some j ∧ j ≠ id) :
    ({ order := order.insert ⟨threads.effective id, place⟩ id
       index := q.index.insert id ⟨threads.effective id, place⟩
       nextPlace } : RankedQueue).Ranks threads fun j => pending j ∧ j ≠ id where
  inverse j r := by
    simp only [SortedMap.get?_insert_eq]
    by_cases here : j = id
    · rw [if_pos here, here, Option.some.injEq]
      refine ⟨fun same => by rw [if_pos same.symm], fun found => ?_⟩
      split at found
      · rename_i same
        exact same.symm
      · exact absurd rfl ((others r id).mp found).2
    · rw [if_neg here, ranks.inverse]
      split
      · rename_i same
        apply iff_of_false (fun found => here (fresh j r ((ranks.inverse j r).mpr found) (congrArg Rank.place same)))
        rintro ⟨⟩
        exact here rfl
      · rw [others, and_iff_left here]
  bounded j r found := by
    rw [SortedMap.get?_insert_eq] at found
    split at found
    · cases found
      exact bound
    · exact Nat.lt_of_lt_of_le (ranks.bounded j r found) more
  apart i j r r' first second same := by
    simp only [SortedMap.get?_insert_eq] at first second
    by_cases left : i = id
    · by_cases right : j = id
      · rw [left, right]
      · rw [if_pos left] at first
        rw [if_neg right] at second
        cases first
        exact absurd (fresh j r' second same.symm) right
    · rw [if_neg left] at first
      by_cases right : j = id
      · rw [if_pos right] at second
        cases second
        exact absurd (fresh i r first same) left
      · rw [if_neg right] at second
        exact ranks.apart i j r r' first second same
  agrees j r found settled := by
    rw [SortedMap.get?_insert_eq] at found
    by_cases here : j = id
    · rw [if_pos here] at found
      cases found
      rw [here]
    · rw [if_neg here] at found
      exact ranks.agrees j r found fun before => settled ⟨before, here⟩

theorem reposition (ranks : q.Ranks threads pending) (id : ThreadId) :
    (q.reposition id threads).Ranks threads fun j => pending j ∧ j ≠ id := by
  unfold RankedQueue.reposition
  cases found : q.index.get? id with
  | none =>
      refine ⟨ranks.inverse, ranks.bounded, ranks.apart, fun j r here settled => ?_⟩
      refine ranks.agrees j r here fun before => settled ⟨before, ?_⟩
      rintro rfl
      cases found.symm.trans here
  | some rank =>
      simp only
      split
      · rename_i same
        refine ⟨ranks.inverse, ranks.bounded, ranks.apart, fun j r here settled => ?_⟩
        by_cases atId : j = id
        · rw [atId, found] at here
          cases here
          rw [atId, same]
        · exact ranks.agrees j r here fun before => settled ⟨before, atId⟩
      · refine ranks.ranked (fun j r here place => ranks.apart j id r rank here found place) (ranks.bounded id rank found)
          (Nat.le_refl _) fun r j => ?_
        rw [SortedMap.get?_erase_eq]
        split
        · rename_i same
          refine iff_of_false (Option.some_ne_none j ∘ Eq.symm) fun both => both.2 ?_
          rw [same, (ranks.inverse id rank).mp found] at both
          exact (Option.some.inj both.1).symm
        · rename_i other
          refine (and_iff_left_of_imp fun here same => other ?_).symm
          rw [same, ← ranks.inverse, found] at here
          exact (Option.some.inj here).symm

theorem place?_reposition (q : RankedQueue) (id : ThreadId) (threads : ThreadRegistry) (j : ThreadId) :
    (q.reposition id threads).place? j = q.place? j := by
  unfold RankedQueue.reposition
  cases found : q.index.get? id with
  | none => rfl
  | some rank =>
      simp only
      split
      · rfl
      · simp only [place?, SortedMap.get?_insert_eq]
        split
        · rename_i here
          rw [here, found]
          rfl
        · rfl

theorem enqueue (ranks : q.Ranks threads pending) (id : ThreadId) :
    (q.enqueue id threads).Ranks threads fun j => pending j ∧ j ≠ id := by
  unfold RankedQueue.enqueue
  cases present : q.contains id with
  | true => exact ranks.reposition id
  | false =>
      rw [contains_eq, place?, Option.isSome_map, Option.isSome_eq_false_iff, Option.isNone_iff_eq_none] at present
      refine ranks.ranked (fun j r here place => ?_) (Nat.lt_succ_self _) (Nat.le_succ _) fun r j => ?_
      · have bound := ranks.bounded j r here
        exact absurd place (Nat.ne_of_lt bound)
      · refine (and_iff_left_of_imp fun here same => ?_).symm
        rw [← ranks.inverse, same, present] at here
        cases here

theorem place?_enqueue (q : RankedQueue) (id : ThreadId) (threads : ThreadRegistry) (j : ThreadId) :
    (q.enqueue id threads).place? j =
      if q.contains id = false ∧ j = id then some q.nextPlace else q.place? j := by
  unfold RankedQueue.enqueue
  cases present : q.contains id with
  | true =>
      rw [if_pos rfl, place?_reposition, if_neg]
      exact fun both => nomatch both.1
  | false =>
      simp only [place?, SortedMap.get?_insert_eq, true_and, Bool.false_eq_true, if_false]
      split <;> rfl

/-! ## A waiter that leaves -/

def dropped (q : RankedQueue) (id : ThreadId) (r : Rank) : RankedQueue :=
  { q with order := q.order.erase r, index := q.index.erase id }

theorem drop (ranks : q.Ranks threads pending) {r : Rank} (found : q.index.get? id = some r) :
    (dropped q id r).Ranks threads pending where
  inverse j r' := by
    simp only [dropped, SortedMap.get?_erase_eq]
    by_cases here : j = id
    · rw [if_pos here]
      apply iff_of_false nofun
      intro still
      split at still
      · cases still
      · rename_i other
        rw [here, ← ranks.inverse, found] at still
        exact other (Option.some.inj still).symm
    · rw [if_neg here]
      split
      · rename_i same
        refine iff_of_false (fun still => here ?_) nofun
        rw [ranks.inverse, same, ← ranks.inverse] at still
        exact ranks.apart j id r r still found rfl
      · exact ranks.inverse j r'
  bounded j r' still := by
    simp only [dropped, SortedMap.get?_erase_eq] at still
    split at still
    · cases still
    · exact ranks.bounded j r' still
  apart i j r₁ r₂ first second := by
    simp only [dropped, SortedMap.get?_erase_eq] at first second
    split at first
    · cases first
    · split at second
      · cases second
      · exact ranks.apart i j r₁ r₂ first second
  agrees j r' still := by
    simp only [dropped, SortedMap.get?_erase_eq] at still
    split at still
    · cases still
    · exact ranks.agrees j r' still

theorem place?_dropped (q : RankedQueue) (id : ThreadId) (r : Rank) (j : ThreadId) :
    (dropped q id r).place? j = if j = id then none else q.place? j := by
  simp only [place?, dropped, SortedMap.get?_erase_eq]
  split <;> rfl

theorem popFirst_eq_none (popped : q.popFirst.1 = none) : q.waiters = [] ∧ q.popFirst.2 = q := by
  unfold popFirst at popped ⊢
  cases first : q.order.popFirst? with
  | none => exact ⟨SortedMap.values_eq_nil_of_popFirst? first, rfl⟩
  | some pair =>
      rw [first] at popped
      cases popped

theorem popFirst_eq_some (ranks : q.Ranks threads pending) (popped : q.popFirst.1 = some id) :
    q.waiters.head? = some id ∧ ∃ r, q.index.get? id = some r ∧ q.popFirst.2 = dropped q id r := by
  unfold popFirst at popped ⊢
  cases first : q.order.popFirst? with
  | none =>
      rw [first] at popped
      cases popped
  | some pair =>
      obtain ⟨⟨r, j⟩, rest⟩ := pair
      rw [first] at popped
      cases popped
      obtain ⟨found, values, erased⟩ := SortedMap.popFirst?_eq_some first
      refine ⟨by rw [waiters, values, List.head?_cons], r, (ranks.inverse id r).mpr found, ?_⟩
      rw [erased]
      rfl

theorem remove_eq (ranks : q.Ranks threads pending) (id : ThreadId) :
    (q.index.get? id = none ∧ q.remove id = (false, q)) ∨
      ∃ r, q.index.get? id = some r ∧ q.remove id = (true, dropped q id r) := by
  unfold remove
  cases found : q.index.get? id with
  | none => exact .inl ⟨rfl, rfl⟩
  | some r =>
      refine .inr ⟨r, rfl, ?_⟩
      simp only [SortedMap.contains, (ranks.inverse id r).mp found, Option.isSome_some]
      rfl

/-! ## All ranks anew -/

def renewed (threads : ThreadRegistry) (e : Rank × ThreadId) : Rank := ⟨threads.effective e.2, e.1.place⟩

/-- What the maps hold after the first entries went back in. -/
structure Renewing (q p : RankedQueue) (threads : ThreadRegistry) (entries : List (Rank × ThreadId)) : Prop where
  order : ∀ r j, p.order.get? r = some j ↔ ∃ e ∈ entries, e.2 = j ∧ renewed threads e = r
  index : ∀ j r, p.index.get? j = some r ↔
    (∃ e ∈ entries, e.2 = j ∧ renewed threads e = r) ∨ (∀ e ∈ entries, e.2 ≠ j) ∧ q.index.get? j = some r
  nextPlace : p.nextPlace = q.nextPlace

theorem renewing_reinsert {p : RankedQueue} {entries : List (Rank × ThreadId)} {e : Rank × ThreadId}
    (renewing : Renewing q p threads entries)
    (apart : ∀ e' ∈ entries, e'.2 ≠ e.2 ∧ e'.1.place ≠ e.1.place) :
    Renewing q (p.reinsert threads e) threads (entries ++ [e]) where
  order r j := by
    simp only [reinsert, SortedMap.get?_insert_eq, List.mem_append, List.mem_singleton, or_and_right, exists_or,
      exists_eq_left]
    split
    · rename_i same
      refine ⟨fun found => .inr ⟨Option.some.inj found, same.symm⟩, ?_⟩
      rintro (⟨e', member, -, again⟩ | ⟨here, -⟩)
      · exact absurd (congrArg Rank.place (again.trans same)) (apart e' member).2
      · rw [here]
    · rename_i other
      rw [renewing.order, or_iff_left fun here => other here.2.symm]
  index j r := by
    simp only [reinsert, SortedMap.get?_insert_eq, List.mem_append, List.mem_singleton, or_and_right, exists_or,
      exists_eq_left, or_imp, forall_and, forall_eq]
    split
    · rename_i here
      refine ⟨fun found => .inl (.inr ⟨here.symm, Option.some.inj found⟩), ?_⟩
      rintro ((⟨e', member, at', -⟩ | ⟨-, same⟩) | ⟨⟨-, other⟩, -⟩)
      · exact absurd (at'.trans here) (apart e' member).1
      · rw [← same]
        rfl
      · exact absurd here.symm other
    · rename_i other
      rw [renewing.index, or_iff_left fun here : e.2 = j ∧ _ => other here.1.symm]
      refine or_congr_right (and_congr_left fun _ => (and_iff_left fun here => other ?_).symm)
      exact here.symm
  nextPlace := renewing.nextPlace

theorem renewing_foldl {p : RankedQueue} {entries rest : List (Rank × ThreadId)}
    (renewing : Renewing q p threads entries)
    (apart : (entries ++ rest).Pairwise fun a b => a.2 ≠ b.2 ∧ a.1.place ≠ b.1.place) :
    Renewing q (rest.foldl (reinsert threads) p) threads (entries ++ rest) := by
  induction rest generalizing p entries with
  | nil =>
      rw [List.append_nil]
      exact renewing
  | cons e rest ih =>
      rw [List.append_cons] at apart ⊢
      refine ih (renewing_reinsert renewing fun e' member => ?_) apart
      exact (List.pairwise_append.mp (List.pairwise_append.mp apart).1).2.2 e' member e (List.mem_singleton_self e)

theorem index_rebuild (ranks : q.Ranks threads pending) (threads' : ThreadRegistry) :
    Renewing q (q.rebuild threads') threads' q.order.entries := by
  have start : Renewing q { q with order := ∅ } threads' [] :=
    ⟨fun r j => iff_of_false nofun nofun, fun j r => by simp, rfl⟩
  exact renewing_foldl start ranks.distinct

theorem get?_rebuild (ranks : q.Ranks threads pending) (threads' : ThreadRegistry) (j : ThreadId) :
    (q.rebuild threads').index.get? j = (q.index.get? j).map fun r => ⟨threads'.effective j, r.place⟩ := by
  have renewing := index_rebuild ranks threads'
  apply Option.ext
  intro r
  rw [renewing.index, Option.map_eq_some_iff]
  have entry (r' : Rank) : (r', j) ∈ q.order.entries ↔ q.index.get? j = some r' := by
    rw [SortedMap.mem_entries_iff, ranks.inverse]
  constructor
  · rintro (⟨⟨r', k⟩, member, rfl, same⟩ | ⟨absent, found⟩)
    · exact ⟨r', (entry r').mp member, same⟩
    · exact absurd rfl (absent (r, j) ((entry r).mpr found))
  · rintro ⟨r', found, same⟩
    exact .inl ⟨(r', j), (entry r').mpr found, rfl, same⟩

theorem rebuild (ranks : q.Ranks threads pending) (threads' : ThreadRegistry) :
    (q.rebuild threads').Ranks threads' fun _ => False where
  inverse j r := by
    have renewing := index_rebuild ranks threads'
    rw [renewing.order, renewing.index, or_iff_left]
    rintro ⟨absent, found⟩
    refine absent (r, j) ?_ rfl
    rw [SortedMap.mem_entries_iff, ← ranks.inverse]
    exact found
  bounded j r found := by
    rw [get?_rebuild ranks] at found
    obtain ⟨r', before, rfl⟩ := Option.map_eq_some_iff.mp found
    rw [(index_rebuild ranks threads').nextPlace]
    exact ranks.bounded j r' before
  apart i j r r' first second places := by
    rw [get?_rebuild ranks] at first second
    obtain ⟨r₁, one, rfl⟩ := Option.map_eq_some_iff.mp first
    obtain ⟨r₂, two, rfl⟩ := Option.map_eq_some_iff.mp second
    exact ranks.apart i j r₁ r₂ one two places
  agrees j r found _ := by
    rw [get?_rebuild ranks] at found
    obtain ⟨r', -, rfl⟩ := Option.map_eq_some_iff.mp found
    rfl

theorem place?_rebuild (ranks : q.Ranks threads pending) (threads' : ThreadRegistry) (j : ThreadId) :
    (q.rebuild threads').place? j = q.place? j := by
  rw [place?, place?, get?_rebuild ranks, Option.map_map]
  rfl

end Ranks

/-! ## The order of the waiters -/

structure Lined (place? : ThreadId → Option Nat) (waiters line : List ThreadId) : Prop where
  mem : ∀ id ∈ waiters, id ∈ line
  sorted : line.Pairwise fun a b => ∀ p p', place? a = some p → place? b = some p' → p < p'

theorem Rank.of_compare {a b : Rank} (before : compare a b = .lt) :
    a.priority < b.priority ∨ a.priority = b.priority ∧ a.place < b.place := by
  have both : (compare a.priority b.priority).then (compare a.place b.place) = .lt := before
  rw [Ordering.then_eq_lt] at both
  rcases both with less | ⟨same, less⟩
  · exact .inl (Int.compare_eq_lt.mp less)
  · exact .inr ⟨Int.compare_eq_eq.mp same, Nat.compare_eq_lt.mp less⟩

theorem Ranks.rank_popFirst (ranks : q.Ranks threads pending) {j : ThreadId} {r' : Rank}
    (waits : q.index.get? j = some r') : ∃ id r, q.popFirst.1 = some id ∧ q.index.get? id = some r ∧
      (id = j ∨ r.priority < r'.priority ∨ r.priority = r'.priority ∧ r.place < r'.place) := by
  obtain ⟨⟨r, id⟩, first, order⟩ := SortedMap.compare_popFirst? ((ranks.inverse j r').mp waits)
  obtain ⟨⟨⟨_, _⟩, rest⟩, popped, same⟩ := Option.map_eq_some_iff.mp first
  cases same
  refine ⟨id, r, by rw [popFirst, popped], (ranks.inverse id r).mpr (SortedMap.popFirst?_eq_some popped).1, ?_⟩
  rcases order with same | before
  · cases same
    exact .inl rfl
  · exact .inr (Rank.of_compare before)

theorem Lined.idxOf_lt {place? : ThreadId → Option Nat} {waiters line : List ThreadId}
    (lined : Lined place? waiters line) {a b : ThreadId} {p p' : Nat} (first : place? a = some p)
    (second : place? b = some p') (less : p < p') (left : a ∈ waiters) (right : b ∈ waiters) :
    line.idxOf a < line.idxOf b := by
  rcases Nat.lt_trichotomy (line.idxOf a) (line.idxOf b) with before | same | after
  · exact before
  · have equal : a = b := (List.idxOf_inj (lined.mem a left)).mp same
    rw [equal, second] at first
    cases first
    exact absurd less (Nat.lt_irrefl _)
  · have places := List.pairwise_iff_getElem.mp lined.sorted _ _ (List.idxOf_lt_length_of_mem (lined.mem b right))
      (List.idxOf_lt_length_of_mem (lined.mem a left)) after
    rw [List.getElem_idxOf, List.getElem_idxOf] at places
    exact absurd (places p' p second first) (Nat.lt_asymm less)

theorem pairwise_waiters (ranks : q.Ranks threads fun _ => False) {line : List ThreadId}
    (lined : Lined q.place? q.waiters line) :
    q.waiters.Pairwise fun a b => threads.effective a < threads.effective b ∨
      threads.effective a = threads.effective b ∧ line.idxOf a < line.idxOf b := by
  refine List.Pairwise.map (·.2) (fun _ _ => id) (q.order.sorted.imp_of_mem fun {a b} first second before => ?_)
  have place {e : Rank × ThreadId} (member : e ∈ q.order.entries) : q.place? e.2 = some e.1.place := by
    rw [place?, ranks.get?_of_mem member, Option.map_some]
  rw [← ranks.agrees a.2 a.1 (ranks.get?_of_mem first) not_false,
    ← ranks.agrees b.2 b.1 (ranks.get?_of_mem second) not_false]
  refine (Rank.of_compare before).imp_right fun both => ⟨both.1, ?_⟩
  exact lined.idxOf_lt (place first) (place second) both.2 (List.mem_map_of_mem first) (List.mem_map_of_mem second)

end RankedQueue

end PriorityScheduler
