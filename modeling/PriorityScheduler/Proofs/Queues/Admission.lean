import Mathlib.Data.List.Nodup
import PriorityScheduler.Proofs.Queues.Ranked

namespace PriorityScheduler

inductive QueueMove where
  | enter (id : ThreadId)
  | reposition (id : ThreadId)
  | rebuild
  | remove (id : ThreadId)
  | select
  | reprice (threads : ThreadRegistry)

def QueueMove.tells (id : ThreadId) : QueueMove → Bool
  | .enter j | .reposition j => j = id
  | .rebuild => true
  | _ => false

def RankedQueue.move : RankedQueue × ThreadRegistry → QueueMove → RankedQueue × ThreadRegistry
  | (q, threads), .enter id => (q.enqueue id threads, threads)
  | (q, threads), .reposition id => (q.reposition id threads, threads)
  | (q, threads), .rebuild => (q.rebuild threads, threads)
  | (q, threads), .remove id => ((q.remove id).2, threads)
  | (q, threads), .select => (q.popFirst.2, threads)
  | (q, _), .reprice threads => (q, threads)

def RankedQueue.run (moves : List QueueMove) (threads : ThreadRegistry) : RankedQueue × ThreadRegistry :=
  moves.foldl move ({}, threads)

/-! ## Lines -/

abbrev Line := List (ThreadId × Priority)

namespace Line

def ids (line : Line) : List ThreadId := line.map (·.1)

def sorted (line : Line) : Line := line.mergeSort fun a b => a.2 ≤ b.2

def hear (line : Line) (heard : ThreadId → Bool) (threads : ThreadRegistry) : Line :=
  line.map fun e => if heard e.1 then (e.1, threads.effective e.1) else e

def leave (line : Line) (id : ThreadId) : Line := line.filter fun e => e.1 ≠ id

def move : Line × ThreadRegistry → QueueMove → Line × ThreadRegistry
  | (line, threads), .enter id =>
      (if id ∈ line.ids then line.hear (· = id) threads else line ++ [(id, threads.effective id)], threads)
  | (line, threads), .reposition id => (line.hear (· = id) threads, threads)
  | (line, threads), .rebuild => (line.hear (fun _ => true) threads, threads)
  | (line, threads), .remove id => (line.leave id, threads)
  | (line, threads), .select => (line.sorted.head?.elim line fun first => line.leave first.1, threads)
  | (line, _), .reprice threads => (line, threads)

def run (moves : List QueueMove) (threads : ThreadRegistry) : Line × ThreadRegistry :=
  moves.foldl move ([], threads)

variable {line : Line} {threads : ThreadRegistry} {id : ThreadId} {p : Priority} {s : Line × ThreadRegistry}
  {queueMove : QueueMove}

theorem mem_ids : id ∈ line.ids ↔ ∃ p, (id, p) ∈ line := by
  rw [ids, List.mem_map]
  constructor
  · rintro ⟨⟨_, p⟩, member, rfl⟩
    exact ⟨p, member⟩
  · rintro ⟨p, member⟩
    exact ⟨(id, p), member, rfl⟩

theorem mem_hear {heard : ThreadId → Bool} :
    (id, p) ∈ line.hear heard threads ↔
      ∃ before, (id, before) ∈ line ∧ p = if heard id then threads.effective id else before := by
  rw [hear, List.mem_map]
  constructor
  · rintro ⟨⟨j, before⟩, member, same⟩
    split at same <;> cases same
    · rename_i told
      exact ⟨_, member, (if_pos told).symm⟩
    · rename_i untold
      exact ⟨_, member, (if_neg untold).symm⟩
  · rintro ⟨before, member, rfl⟩
    refine ⟨(id, before), member, ?_⟩
    dsimp only
    split <;> rfl

theorem mem_leave {j : ThreadId} : (j, p) ∈ line.leave id ↔ (j, p) ∈ line ∧ j ≠ id := by
  rw [leave, List.mem_filter, decide_eq_true_eq]

theorem ids_hear (line : Line) (heard : ThreadId → Bool) (threads : ThreadRegistry) :
    (line.hear heard threads).ids = line.ids := by
  rw [ids, hear, List.map_map]
  refine List.map_congr_left fun e _ => ?_
  dsimp only [Function.comp]
  split <;> rfl

theorem ids_filter (line : Line) (p : ThreadId → Bool) : Line.ids (line.filter fun e => p e.1) = line.ids.filter p :=
  List.filter_map.symm

theorem told_of_tells (tells : queueMove.tells id = true) (member : (id, p) ∈ (move s queueMove).1) :
    p = (move s queueMove).2.effective id := by
  obtain ⟨line, threads⟩ := s
  have heard (heard : ThreadId → Bool) (here : heard id = true) (member : (id, p) ∈ line.hear heard threads) :
      p = threads.effective id := by
    obtain ⟨before, -, rfl⟩ := mem_hear.mp member
    exact if_pos here
  cases queueMove with
  | enter j =>
      have here : j = id := of_decide_eq_true tells
      subst here
      simp only [move] at member
      split at member
      · exact heard _ (decide_eq_true rfl) member
      · rename_i fresh
        rcases List.mem_append.mp member with present | last
        · exact absurd (mem_ids.mpr ⟨p, present⟩) fresh
        · cases List.mem_singleton.mp last
          rfl
  | reposition j => exact heard (· = j) (decide_eq_true (of_decide_eq_true tells).symm) member
  | rebuild => exact heard (fun _ => true) rfl member
  | _ => cases tells

theorem mem_of_not_tells (silent : queueMove.tells id = false) (member : (id, p) ∈ (move s queueMove).1) :
    (id, p) ∈ s.1 := by
  obtain ⟨line, threads⟩ := s
  have heard {j : ThreadId} (other : ¬j = id) (member : (id, p) ∈ line.hear (· = j) threads) : (id, p) ∈ line := by
    obtain ⟨before, member, same⟩ := mem_hear.mp member
    rw [if_neg fun same => other (of_decide_eq_true same).symm] at same
    rw [same]
    exact member
  cases queueMove with
  | enter j =>
      have other := of_decide_eq_false silent
      simp only [move] at member
      split at member
      · exact heard other member
      · rcases List.mem_append.mp member with present | last
        · exact present
        · cases List.mem_singleton.mp last
          exact absurd rfl other
  | reposition j => exact heard (of_decide_eq_false silent) member
  | rebuild => cases silent
  | remove j => exact (mem_leave.mp member).1
  | select =>
      simp only [move] at member
      cases first : line.sorted.head? with
      | none =>
          rw [first] at member
          exact member
      | some e =>
          rw [first] at member
          exact (mem_leave.mp member).1
  | reprice threads => exact member

theorem pairwise_sorted (distinct : line.Nodup) :
    line.sorted.Pairwise fun a b => a.2 < b.2 ∨ a.2 = b.2 ∧ line.idxOf a ≤ line.idxOf b := by
  have trans (a b c : ThreadId × Priority) (first : decide (a.2 ≤ b.2) = true) (second : decide (b.2 ≤ c.2) = true) :
      decide (a.2 ≤ c.2) = true :=
    decide_eq_true (Int.le_trans (of_decide_eq_true first) (of_decide_eq_true second))
  have total (a b : ThreadId × Priority) : (decide (a.2 ≤ b.2) || decide (b.2 ≤ a.2)) = true := by
    rw [Bool.or_eq_true, decide_eq_true_eq, decide_eq_true_eq]
    exact Int.le_total a.2 b.2
  have position {e : (ThreadId × Priority) × Nat} (member : e ∈ line.zipIdx.mergeSort (List.zipIdxLE (·.2 ≤ ·.2))) :
      line.idxOf e.1 = e.2 := by
    obtain ⟨inside, here⟩ := List.getElem?_eq_some_iff.mp (List.mem_zipIdx_iff_getElem?.mp (List.mem_mergeSort.mp member))
    rw [← here, distinct.idxOf_getElem]
  rw [sorted, ← List.mergeSort_zipIdx, List.pairwise_map]
  refine (List.pairwise_mergeSort (List.zipIdxLE_trans trans) (List.zipIdxLE_total total) _).imp_of_mem
    fun {a b} left right before => ?_
  rw [position left, position right]
  simp only [List.zipIdxLE, decide_eq_true_eq] at before
  split at before
  · rename_i least
    split at before
    · rename_i greatest
      exact .inr ⟨Int.le_antisymm least greatest, of_decide_eq_true before⟩
    · rename_i other
      exact .inl (Int.not_le.mp other)
  · cases before

/-- Whenever the effective priority of the thread changes while it waits, the queue is told of it later on. -/
def Heeded (id : ThreadId) : List QueueMove → Line × ThreadRegistry → Prop
  | [], _ => True
  | queueMove :: rest, s =>
      (id ∈ s.1.ids → (move s queueMove).2.effective id ≠ s.2.effective id → rest.any (·.tells id) = true) ∧
        Heeded id rest (move s queueMove)

instance decidableHeeded (id : ThreadId) : ∀ (moves : List QueueMove) (s : Line × ThreadRegistry), Decidable (Heeded id moves s)
  | [], _ => isTrue trivial
  | queueMove :: rest, s =>
      have := decidableHeeded id rest (move s queueMove)
      inferInstanceAs (Decidable (_ ∧ _))

theorem told_of_heeded {moves : List QueueMove} (heeded : Heeded id moves s)
    (current : ∀ p, (id, p) ∈ s.1 → p = s.2.effective id ∨ moves.any (·.tells id) = true)
    (member : (id, p) ∈ (moves.foldl move s).1) : p = (moves.foldl move s).2.effective id := by
  induction moves generalizing s with
  | nil => exact (current p member).resolve_right Bool.false_ne_true
  | cons queueMove rest ih =>
      refine ih heeded.2 (fun p waits => ?_) member
      cases tells : queueMove.tells id with
      | true => exact .inl (told_of_tells tells waits)
      | false =>
          have waited := mem_of_not_tells tells waits
          rcases current p waited with same | later
          · by_cases moved : (move s queueMove).2.effective id = s.2.effective id
            · exact .inl (same.trans moved.symm)
            · exact .inr (heeded.1 (mem_ids.mpr ⟨p, waited⟩) moved)
          · rw [List.any_cons, tells, Bool.false_or] at later
            exact .inr later

end Line

/-! ## The queue follows the line -/

namespace RankedQueue

variable {q p : RankedQueue} {threads threads' : ThreadRegistry} {line : Line} {id : ThreadId}

theorem get?_reposition (q : RankedQueue) (id : ThreadId) (threads : ThreadRegistry) (j : ThreadId) :
    (q.reposition id threads).index.get? j =
      (q.index.get? j).map fun r => if decide (j = id) then ⟨threads.effective j, r.place⟩ else r := by
  unfold reposition
  cases found : q.index.get? id with
  | none =>
      by_cases here : j = id
      · rw [here, found, Option.map_none]
      · simp only [here, decide_false, Bool.false_eq_true, if_false, Option.map_id']
  | some rank =>
      simp only
      split
      · rename_i same
        by_cases here : j = id
        · simp only [here, found, decide_true, if_true, Option.map_some, same]
        · simp only [here, decide_false, Bool.false_eq_true, if_false, Option.map_id']
      · rw [SortedMap.get?_insert_eq]
        split
        · rename_i here
          simp only [here, found, decide_true, if_true, Option.map_some]
        · rename_i other
          simp only [other, decide_false, Bool.false_eq_true, if_false, Option.map_id']

/-- The ranks are those of the threads in line, whose places ascend. -/
structure Follows (q : RankedQueue) (threads : ThreadRegistry) (line : Line) : Prop where
  ranks : q.Ranks threads fun _ => True
  told : ∀ id p, (id, p) ∈ line ↔ ∃ r, q.index.get? id = some r ∧ r.priority = p
  ascends : line.Pairwise fun a b => ∀ r r', q.index.get? a.1 = some r → q.index.get? b.1 = some r' → r.place < r'.place

namespace Follows

theorem start (threads : ThreadRegistry) : Follows {} threads [] where
  ranks := ranks_empty threads _
  told _ _ := iff_of_false nofun nofun
  ascends := .nil

theorem forget {pending : ThreadId → Prop} (ranks : q.Ranks threads pending) (threads' : ThreadRegistry) :
    q.Ranks threads' fun _ => True := ranks.congr fun _ _ settled => absurd trivial settled

theorem reread (follows : q.Follows threads line) (threads' : ThreadRegistry) : q.Follows threads' line :=
  ⟨forget follows.ranks threads', follows.told, follows.ascends⟩

theorem mem_ids (follows : q.Follows threads line) : id ∈ line.ids ↔ (q.index.get? id).isSome := by
  rw [Line.mem_ids, Option.isSome_iff_exists]
  constructor
  · rintro ⟨p, member⟩
    obtain ⟨r, found, -⟩ := (follows.told id p).mp member
    exact ⟨r, found⟩
  · rintro ⟨r, found⟩
    exact ⟨r.priority, (follows.told id r.priority).mpr ⟨r, found, rfl⟩⟩

theorem nodup_ids (follows : q.Follows threads line) : line.ids.Nodup := by
  refine List.pairwise_map.mpr (follows.ascends.imp_of_mem fun {a b} first _ before same => ?_)
  obtain ⟨r, found, -⟩ := (follows.told a.1 a.2).mp first
  exact Nat.lt_irrefl _ (before r r found (same ▸ found))

theorem hear (follows : q.Follows threads line) {heard : ThreadId → Bool} (ranks : p.Ranks threads fun _ => True)
    (get? : ∀ j, p.index.get? j = (q.index.get? j).map fun r => if heard j then ⟨threads.effective j, r.place⟩ else r) :
    p.Follows threads (line.hear heard threads) where
  ranks := ranks
  told id priority := by
    simp only [Line.mem_hear, follows.told, get?, Option.map_eq_some_iff]
    constructor
    · rintro ⟨_, ⟨r, found, rfl⟩, rfl⟩
      refine ⟨_, ⟨r, found, rfl⟩, ?_⟩
      split <;> rfl
    · rintro ⟨_, ⟨r, found, rfl⟩, rfl⟩
      refine ⟨r.priority, ⟨r, found, rfl⟩, ?_⟩
      split <;> rfl
  ascends := by
    have place {j : ThreadId} {r : Rank} (found : p.index.get? j = some r) :
        ∃ r', q.index.get? j = some r' ∧ r.place = r'.place := by
      obtain ⟨r', found', rfl⟩ := Option.map_eq_some_iff.mp ((get? j).symm.trans found)
      refine ⟨r', found', ?_⟩
      split <;> rfl
    have same (e : ThreadId × Priority) : (if heard e.1 then (e.1, threads.effective e.1) else e).1 = e.1 := by
      split <;> rfl
    refine List.pairwise_map.mpr (follows.ascends.imp fun {a b} before r r' first second => ?_)
    rw [same] at first second
    obtain ⟨r₁, found, places⟩ := place first
    obtain ⟨r₂, found', places'⟩ := place second
    rw [places, places']
    exact before r₁ r₂ found found'

theorem reposition (follows : q.Follows threads line) (id : ThreadId) :
    (q.reposition id threads).Follows threads (line.hear (· = id) threads) :=
  follows.hear (forget (follows.ranks.reposition id) threads) (q.get?_reposition id threads)

theorem rebuild (follows : q.Follows threads line) : (q.rebuild threads).Follows threads (line.hear (fun _ => true) threads) :=
  follows.hear (forget (follows.ranks.rebuild threads) threads) (follows.ranks.get?_rebuild threads)

theorem enqueue (follows : q.Follows threads line) (fresh : q.index.get? id = none) :
    (q.enqueue id threads).Follows threads (line ++ [(id, threads.effective id)]) := by
  have ranks := forget (follows.ranks.enqueue id) threads
  have get? (j : ThreadId) :
      (q.enqueue id threads).index.get? j =
        if j = id then some ⟨threads.effective id, q.nextPlace⟩ else q.index.get? j := by
    rw [RankedQueue.enqueue, if_neg, SortedMap.get?_insert_eq]
    rw [contains, SortedMap.contains, fresh]
    exact Bool.false_ne_true
  have outside (p : Priority) : (id, p) ∉ line := by
    intro member
    obtain ⟨r, found, -⟩ := (follows.told id p).mp member
    cases fresh.symm.trans found
  refine ⟨ranks, fun j p => ?_, ?_⟩
  · rw [List.mem_append, List.mem_singleton, get?]
    by_cases here : j = id
    · subst here
      simp [outside, eq_comm]
    · simp [here, follows.told]
  · have kept {j : ThreadId} {p : Priority} (member : (j, p) ∈ line) :
        (q.enqueue id threads).index.get? j = q.index.get? j := by
      rw [get?, if_neg]
      rintro rfl
      exact outside p member
    refine List.pairwise_append.mpr ⟨?_, List.pairwise_singleton _ _, fun a member b last r r' first second => ?_⟩
    · refine follows.ascends.imp_of_mem fun {a b} left right before => ?_
      rw [kept left, kept right]
      exact before
    · cases List.mem_singleton.mp last
      rw [kept member] at first
      rw [get?, if_pos rfl] at second
      cases second
      exact follows.ranks.bounded a.1 r first

theorem leave (follows : q.Follows threads line) {r : Rank} (found : q.index.get? id = some r) :
    (Ranks.dropped q id r).Follows threads (line.leave id) where
  ranks := follows.ranks.drop found
  told j p := by
    rw [Line.mem_leave, follows.told, Ranks.dropped, SortedMap.get?_erase_eq]
    by_cases here : j = id <;> simp [here]
  ascends := by
    refine List.Pairwise.filter _ (follows.ascends.imp fun {a b} before r₁ r₂ first second => ?_)
    rw [Ranks.dropped, SortedMap.get?_erase_eq] at first second
    split at first
    · cases first
    · split at second
      · cases second
      · exact before r₁ r₂ first second

theorem leave_absent (follows : q.Follows threads line) (absent : q.index.get? id = none) : line.leave id = line := by
  refine List.filter_eq_self.mpr fun e member => decide_eq_true fun same => ?_
  obtain ⟨r, found, -⟩ := (follows.told e.1 e.2).mp member
  rw [same, absent] at found
  cases found

theorem nodup (follows : q.Follows threads line) : line.Nodup := List.Nodup.of_map _ follows.nodup_ids

theorem idxOf_lt (follows : q.Follows threads line) {a b : ThreadId × Priority} {r r' : Rank} (left : a ∈ line)
    (right : b ∈ line) (first : q.index.get? a.1 = some r) (second : q.index.get? b.1 = some r')
    (less : r.place < r'.place) : line.idxOf a < line.idxOf b := by
  rcases Nat.lt_trichotomy (line.idxOf a) (line.idxOf b) with before | same | after
  · exact before
  · rw [(List.idxOf_inj left).mp same, second] at first
    cases first
    exact absurd less (Nat.lt_irrefl _)
  · have places := List.pairwise_iff_getElem.mp follows.ascends _ _ (List.idxOf_lt_length_of_mem right)
      (List.idxOf_lt_length_of_mem left) after
    rw [List.getElem_idxOf, List.getElem_idxOf] at places
    exact absurd (places r' r second first) (Nat.lt_asymm less)

theorem perm_entries (follows : q.Follows threads line) :
    (q.order.entries.map fun e => (e.2, e.1.priority)).Perm line := by
  have distinct : (q.order.entries.map fun e => (e.2, e.1.priority)).Nodup := by
    refine List.Nodup.of_map (·.1) ?_
    rw [List.map_map]
    exact follows.ranks.nodup_waiters
  refine (List.perm_ext_iff_of_nodup distinct follows.nodup).mpr fun ⟨id, p⟩ => ?_
  rw [follows.told, List.mem_map]
  constructor
  · rintro ⟨⟨r, _⟩, member, ⟨⟩⟩
    exact ⟨r, follows.ranks.get?_of_mem member, rfl⟩
  · rintro ⟨r, found, rfl⟩
    exact ⟨(r, id), (SortedMap.mem_entries_iff _ r id).mpr ((follows.ranks.inverse id r).mp found), rfl⟩

theorem entries_eq (follows : q.Follows threads line) :
    q.order.entries.map (fun e => (e.2, e.1.priority)) = line.sorted := by
  have perm := follows.perm_entries
  refine List.Perm.eq_of_pairwise (fun a b left right before after => ?_) ?_ (Line.pairwise_sorted follows.nodup)
    (perm.trans (List.mergeSort_perm line _).symm)
  · rcases before with less | ⟨same, first⟩
    · rcases after with less' | ⟨same, -⟩
      · exact absurd less' (Int.lt_asymm less)
      · exact absurd same (Int.ne_of_gt less)
    · rcases after with less | ⟨-, second⟩
      · exact absurd same (Int.ne_of_gt less)
      · exact (List.idxOf_inj (perm.subset left)).mp (Nat.le_antisymm first second)
  · refine List.pairwise_map.mpr (q.order.sorted.imp_of_mem fun {a b} left right before => ?_)
    have inLine {e : Rank × ThreadId} (member : e ∈ q.order.entries) : (e.2, e.1.priority) ∈ line :=
      perm.subset (List.mem_map_of_mem member)
    refine (Rank.of_compare before).imp_right fun both => ⟨both.1, Nat.le_of_lt ?_⟩
    exact follows.idxOf_lt (inLine left) (inLine right) (follows.ranks.get?_of_mem left) (follows.ranks.get?_of_mem right)
      both.2

theorem waiters_eq (follows : q.Follows threads line) : q.waiters = line.sorted.ids := by
  rw [Line.ids, ← follows.entries_eq, List.map_map]
  rfl

theorem popFirst_eq (follows : q.Follows threads line) : q.popFirst.1 = q.waiters.head? := by
  cases popped : q.popFirst.1 with
  | none => rw [(Ranks.popFirst_eq_none popped).1, List.head?_nil]
  | some id => exact (follows.ranks.popFirst_eq_some popped).1.symm

theorem popFirst (follows : q.Follows threads line) :
    q.popFirst.2.Follows threads (line.filter fun e => q.popFirst.1 ≠ some e.1) := by
  cases popped : q.popFirst.1 with
  | none =>
      have all : (line.filter fun e => none ≠ some e.1) = line := List.filter_eq_self.mpr fun e _ => rfl
      rw [all, (Ranks.popFirst_eq_none popped).2]
      exact follows
  | some id =>
      obtain ⟨-, r, found, dropped⟩ := follows.ranks.popFirst_eq_some popped
      have left : (line.filter fun e => some id ≠ some e.1) = line.leave id :=
        List.filter_congr fun e _ => by simp [eq_comm]
      rw [left, dropped]
      exact follows.leave found

theorem move {s : Line × ThreadRegistry} (follows : q.Follows s.2 s.1) (queueMove : QueueMove) :
    (RankedQueue.move (q, s.2) queueMove).1.Follows (Line.move s queueMove).2 (Line.move s queueMove).1 ∧
      (RankedQueue.move (q, s.2) queueMove).2 = (Line.move s queueMove).2 := by
  obtain ⟨line, threads⟩ := s
  refine ⟨?_, by cases queueMove <;> rfl⟩
  cases queueMove with
  | enter id =>
      simp only [RankedQueue.move, Line.move]
      cases found : q.index.get? id with
      | none =>
          rw [if_neg fun waits => by rw [follows.mem_ids, found] at waits; cases waits]
          exact follows.enqueue found
      | some r =>
          have waits : (q.index.get? id).isSome := found ▸ rfl
          rw [if_pos (follows.mem_ids.mpr waits), RankedQueue.enqueue, contains, SortedMap.contains, if_pos waits]
          exact follows.reposition id
  | reposition id => exact follows.reposition id
  | rebuild => exact follows.rebuild
  | remove id =>
      rcases follows.ranks.remove_eq id with ⟨absent, same⟩ | ⟨r, found, removed⟩
      · simp only [RankedQueue.move, Line.move, same, follows.leave_absent absent]
        exact follows
      · simp only [RankedQueue.move, Line.move, removed]
        exact follows.leave found
  | select =>
      have first : q.popFirst.1 = line.sorted.head?.map (·.1) := by
        rw [follows.popFirst_eq, follows.waiters_eq, Line.ids, List.head?_map]
      simp only [RankedQueue.move, Line.move]
      cases head : line.sorted.head? with
      | none =>
          rw [head] at first
          rw [(Ranks.popFirst_eq_none first).2]
          exact follows
      | some e =>
          rw [head] at first
          obtain ⟨-, r, found, dropped⟩ := follows.ranks.popFirst_eq_some first
          rw [dropped]
          exact follows.leave found
  | reprice threads' => exact follows.reread threads'

end Follows

theorem follows_foldl {s : Line × ThreadRegistry} (follows : q.Follows s.2 s.1) (moves : List QueueMove) :
    (moves.foldl move (q, s.2)).1.Follows (moves.foldl Line.move s).2 (moves.foldl Line.move s).1 ∧
      (moves.foldl move (q, s.2)).2 = (moves.foldl Line.move s).2 := by
  induction moves generalizing q s with
  | nil => exact ⟨follows, rfl⟩
  | cons queueMove rest ih =>
      obtain ⟨follows', same⟩ := follows.move queueMove
      have pair : move (q, s.2) queueMove = ((move (q, s.2) queueMove).1, (Line.move s queueMove).2) := Prod.ext rfl same
      rw [List.foldl_cons, List.foldl_cons, pair]
      exact ih follows'

theorem follows_run (moves : List QueueMove) (threads : ThreadRegistry) :
    (run moves threads).1.Follows (run moves threads).2 (Line.run moves threads).1 ∧
      (run moves threads).2 = (Line.run moves threads).2 := by
  obtain ⟨follows, same⟩ := follows_foldl (s := ([], threads)) (.start threads) moves
  exact ⟨same ▸ follows, same⟩

/-- What can be seen of a queue is what can be seen of the line, and the two maps of the queue fit each other. -/
structure Refines (q : RankedQueue) (line : Line) : Prop where
  distinct : line.ids.Nodup
  waiters : q.waiters = line.sorted.ids
  first : q.popFirst.1 = q.waiters.head?
  length : q.length = line.length
  contains : ∀ id, q.contains id = decide (id ∈ line.ids)
  removed : ∀ id, (q.remove id).1 = decide (id ∈ line.ids)
  inverse : ∀ id r, q.index.get? id = some r ↔ q.order.get? r = some id
  apart : ∀ id j r r', q.index.get? id = some r → q.index.get? j = some r' → r.place = r'.place → id = j
  bounded : ∀ id r, q.index.get? id = some r → r.place < q.nextPlace

theorem Follows.refines (follows : q.Follows threads line) : q.Refines line where
  distinct := follows.nodup_ids
  waiters := follows.waiters_eq
  first := follows.popFirst_eq
  length := by
    rw [length, SortedMap.size, ← List.length_map (f := fun e : Rank × ThreadId => (e.2, e.1.priority)),
      follows.perm_entries.length_eq]
  contains id := by
    rw [Bool.eq_iff_iff, decide_eq_true_eq, follows.mem_ids, RankedQueue.contains, SortedMap.contains]
  removed id := by
    rw [Bool.eq_iff_iff, decide_eq_true_eq, follows.mem_ids]
    rcases follows.ranks.remove_eq id with ⟨absent, same⟩ | ⟨r, found, removed⟩
    · rw [same, absent]
      rfl
    · rw [removed, found]
      rfl
  inverse := follows.ranks.inverse
  apart := follows.ranks.apart
  bounded := follows.ranks.bounded

end RankedQueue

theorem Line.ids_sorted (line : Line) (threads : ThreadRegistry) (current : ∀ id p, (id, p) ∈ line → p = threads.effective id) :
    line.sorted.ids = line.ids.mergeSort fun a b => threads.effective a ≤ threads.effective b := by
  refine List.map_mergeSort fun a left b right => ?_
  rw [current a.1 a.2 left, current b.1 b.2 right]

namespace RankedQueue

/-- After any moves a queue shows its line. If it was told of the changes of the effective priorities of its waiters, they
stand in the order of admission, stably sorted by effective priorities. -/
theorem refines_run (moves : List QueueMove) (threads : ThreadRegistry) :
    (run moves threads).1.Refines (Line.run moves threads).1 ∧
      ((∀ id ∈ (Line.run moves threads).1.ids, Line.Heeded id moves ([], threads)) →
        (run moves threads).1.waiters = (Line.run moves threads).1.ids.mergeSort fun a b =>
          (run moves threads).2.effective a ≤ (run moves threads).2.effective b) := by
  obtain ⟨follows, same⟩ := follows_run moves threads
  refine ⟨follows.refines, fun heeded => ?_⟩
  rw [follows.waiters_eq, same]
  refine Line.ids_sorted _ _ fun id p waits => ?_
  exact Line.told_of_heeded (heeded id (Line.mem_ids.mpr ⟨p, waits⟩)) nofun waits

def pair (p : Priority) : ThreadRegistry :=
  (({ config := {} } : ThreadRegistry).put ⟨2⟩ (.new ⟨⟨2⟩, "worker", .ordinary⟩ p)).put ⟨3⟩
    (.new ⟨⟨3⟩, "worker", .ordinary⟩ 10)

def returning : List QueueMove :=
  [.enter ⟨2⟩, .enter ⟨3⟩, .reprice (pair 20), .enter ⟨2⟩, .reprice (pair 10), .reposition ⟨2⟩]

theorem refines_run_returning :
    (run (returning.take 4) (pair 10)).1.waiters = [⟨3⟩, ⟨2⟩] ∧
      (∀ id ∈ (Line.run returning (pair 10)).1.ids, Line.Heeded id returning ([], pair 10)) ∧
      (run returning (pair 10)).1.waiters = [⟨2⟩, ⟨3⟩] := by
  have heeded : ∀ id ∈ (Line.run returning (pair 10)).1.ids, Line.Heeded id returning ([], pair 10) := by decide
  have line : (Line.run returning (pair 10)).1.ids = [⟨2⟩, ⟨3⟩] := by decide
  refine ⟨by decide, heeded, ?_⟩
  rw [(refines_run returning (pair 10)).2 heeded, line]
  exact List.mergeSort_of_pairwise (by decide)

end RankedQueue

end PriorityScheduler
