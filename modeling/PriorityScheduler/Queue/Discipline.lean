import PriorityScheduler.Queue.Banded
import PriorityScheduler.Queue.Ranked

namespace PriorityScheduler

inductive Discipline where
  | strict (queue : RankedQueue)
  | aging (queue : RankedQueue)
  | banded (queue : BandedQueue)
  deriving Inhabited

structure Selection (Q : Type) where
  next : Option ThreadId
  queue : Q
  threads : ThreadRegistry

def RankedQueue.selectAged (q : RankedQueue) (threads : ThreadRegistry) (now : Ticks) :
    Except Fault (Noted (Selection RankedQueue)) := do
  let aged ← ThreadRegistry.ageAll now q.waiters threads
  let threads := aged.value.threads
  let q := if aged.value.changed then q.rebuild threads else q
  let (next, queue) := q.popFirst
  pure ⟨⟨next, queue, threads⟩, aged.notices⟩

def BandedQueue.selectAged (q : BandedQueue) (threads : ThreadRegistry) (now : Ticks) :
    Except Fault (Noted (Selection BandedQueue)) := do
  let aged ← ThreadRegistry.ageAll now q.waiters threads
  let threads := aged.value.threads
  let migrated := if aged.value.changed then q.migrate threads else ⟨q, []⟩
  let (next, queue) := migrated.value.popFirst
  pure ⟨⟨next, queue, threads⟩, aged.notices ++ migrated.notices⟩

namespace Discipline

def ofConfig (config : Config) : Discipline :=
  match config.policy with
  | .strict => .strict {}
  | .aging => .aging {}
  | .multilevel => .banded { limits := config.bandLimits }

def policy : Discipline → Policy
  | .strict _ => .strict
  | .aging _ => .aging
  | .banded _ => .multilevel

def waiters : Discipline → List ThreadId
  | .strict q => q.waiters
  | .aging q => q.waiters
  | .banded q => q.waiters

def length : Discipline → Nat
  | .strict q => q.length
  | .aging q => q.length
  | .banded q => q.length

def contains (d : Discipline) (id : ThreadId) : Bool :=
  match d with
  | .strict q => q.contains id
  | .aging q => q.contains id
  | .banded q => q.contains id

def enqueue (d : Discipline) (id : ThreadId) (threads : ThreadRegistry) : Discipline :=
  match d with
  | .strict q => .strict (q.enqueue id threads)
  | .aging q => .aging (q.enqueue id threads)
  | .banded q => .banded (q.enqueue id threads)

def reposition (d : Discipline) (id : ThreadId) (threads : ThreadRegistry) : Discipline :=
  match d with
  | .strict q => .strict (q.reposition id threads)
  | .aging q => .aging (q.reposition id threads)
  | .banded q => .banded (q.reposition id threads)

def remove (d : Discipline) (id : ThreadId) : Bool × Discipline :=
  match d with
  | .strict q => let (found, q) := q.remove id; (found, .strict q)
  | .aging q => let (found, q) := q.remove id; (found, .aging q)
  | .banded q => let (found, q) := q.remove id; (found, .banded q)

def wrap {Q : Type} (f : Q → Discipline) (s : Noted (Selection Q)) : Noted (Selection Discipline) :=
  ⟨⟨s.value.next, f s.value.queue, s.value.threads⟩, s.notices⟩

def select (d : Discipline) (threads : ThreadRegistry) (now : Ticks) :
    Except Fault (Noted (Selection Discipline)) :=
  match d with
  | .strict q =>
      let (next, queue) := q.popFirst
      .ok ⟨⟨next, .strict queue, threads⟩, []⟩
  | .aging q => (q.selectAged threads now).map (wrap .aging)
  | .banded q => (q.selectAged threads now).map (wrap .banded)

end Discipline

end PriorityScheduler
