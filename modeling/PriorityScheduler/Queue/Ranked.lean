import PriorityScheduler.Thread.Registry

/-!
# Ranked queue

Waiters in the order of effective priority, first come first served among equals. `order` leads from the rank of
a waiter to the waiter and `index` back, so a waiter whose priority changed finds its old rank, takes a new one
and keeps its place in line. Places are numbered without a bound; `2 ^ 64` admissions to one queue, where the
numbers of a machine end, are out of reach.
-/

namespace PriorityScheduler

structure Rank where
  priority : Priority
  place : Nat
  deriving DecidableEq, Repr, Inhabited

instance : Ord Rank := ⟨compareLex (compareOn Rank.priority) (compareOn Rank.place)⟩

instance : Std.TransOrd Rank :=
  inferInstanceAs (Std.TransCmp (compareLex (compareOn Rank.priority) (compareOn Rank.place)))

instance : Std.LawfulEqOrd Rank where
  eq_of_compare {a b} same := by
    have both : (compare a.priority b.priority).then (compare a.place b.place) = .eq := same
    rw [Ordering.then_eq_eq] at both
    cases a; cases b
    simp only [Rank.mk.injEq]
    exact ⟨Std.LawfulEqCmp.eq_of_compare both.1, Std.LawfulEqCmp.eq_of_compare both.2⟩

structure RankedQueue where
  order : SortedMap Rank ThreadId := ∅
  index : SortedMap ThreadId Rank := ∅
  nextPlace : Nat := 0
  deriving Inhabited

namespace RankedQueue

def contains (q : RankedQueue) (id : ThreadId) : Bool := q.index.contains id

def length (q : RankedQueue) : Nat := q.order.size

def waiters (q : RankedQueue) : List ThreadId := q.order.values

def reposition (q : RankedQueue) (id : ThreadId) (threads : ThreadRegistry) : RankedQueue :=
  match q.index.get? id with
  | none => q
  | some rank =>
      let priority := threads.effective id
      if priority = rank.priority then q
      else
        let moved : Rank := ⟨priority, rank.place⟩
        { q with
          order := (q.order.erase rank).insert moved id
          index := q.index.insert id moved }

/-- Add a waiter at the end of the line of its priority; one already present is only repositioned. -/
def enqueue (q : RankedQueue) (id : ThreadId) (threads : ThreadRegistry) : RankedQueue :=
  if q.contains id then q.reposition id threads
  else
    let rank : Rank := ⟨threads.effective id, q.nextPlace⟩
    { order := q.order.insert rank id, index := q.index.insert id rank, nextPlace := q.nextPlace + 1 }

def popFirst (q : RankedQueue) : Option ThreadId × RankedQueue :=
  match q.order.popFirst? with
  | none => (none, q)
  | some ((_, id), order) => (some id, { q with order, index := q.index.erase id })

def remove (q : RankedQueue) (id : ThreadId) : Bool × RankedQueue :=
  match q.index.get? id with
  | none => (false, q)
  | some rank => (q.order.contains rank, { q with order := q.order.erase rank, index := q.index.erase id })

def reinsert (threads : ThreadRegistry) (q : RankedQueue) (entry : Rank × ThreadId) : RankedQueue :=
  let rank : Rank := ⟨threads.effective entry.2, entry.1.place⟩
  { q with order := q.order.insert rank entry.2, index := q.index.insert entry.2 rank }

def rebuild (q : RankedQueue) (threads : ThreadRegistry) : RankedQueue :=
  q.order.entries.foldl (reinsert threads) { q with order := ∅ }

end RankedQueue

end PriorityScheduler
