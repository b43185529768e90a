import PriorityScheduler.Thread.Registry

/-!
# Banded queue

Three lines of waiters, one for each priority band, first come first served inside a band. A waiter whose
effective priority left its band goes to the back of the band that it now belongs to.
-/

namespace PriorityScheduler

structure BandedQueue where
  limits : BandLimits
  hot : List ThreadId := []
  normal : List ThreadId := []
  cold : List ThreadId := []
  deriving DecidableEq, Repr, Inhabited

namespace BandedQueue

def line (q : BandedQueue) : Band → List ThreadId
  | .hot => q.hot
  | .normal => q.normal
  | .cold => q.cold

def setLine (q : BandedQueue) (band : Band) (ids : List ThreadId) : BandedQueue :=
  match band with
  | .hot => { q with hot := ids }
  | .normal => { q with normal := ids }
  | .cold => { q with cold := ids }

def waiters (q : BandedQueue) : List ThreadId := q.hot ++ q.normal ++ q.cold

def length (q : BandedQueue) : Nat := q.hot.length + q.normal.length + q.cold.length

def contains (q : BandedQueue) (id : ThreadId) : Bool := id ∈ q.waiters

def bandOf? (q : BandedQueue) (id : ThreadId) : Option Band := Band.all.find? fun band => id ∈ q.line band

def target (q : BandedQueue) (threads : ThreadRegistry) (id : ThreadId) : Band :=
  .classify q.limits (threads.effective id)

def append (q : BandedQueue) (band : Band) (id : ThreadId) : BandedQueue :=
  q.setLine band (q.line band ++ [id])

def reposition (q : BandedQueue) (id : ThreadId) (threads : ThreadRegistry) : BandedQueue :=
  match q.bandOf? id with
  | none => q
  | some current =>
      let target := q.target threads id
      if target = current then q
      else (q.setLine current ((q.line current).filter (· ≠ id))).append target id

def enqueue (q : BandedQueue) (id : ThreadId) (threads : ThreadRegistry) : BandedQueue :=
  if q.contains id then q.reposition id threads else q.append (q.target threads id) id

def remove (q : BandedQueue) (id : ThreadId) : Bool × BandedQueue :=
  let rest : BandedQueue :=
    { q with
      hot := q.hot.filter (· ≠ id)
      normal := q.normal.filter (· ≠ id)
      cold := q.cold.filter (· ≠ id) }
  (rest.length != q.length, rest)

def movers (q : BandedQueue) (threads : ThreadRegistry) (band : Band) : List (ThreadId × Band) :=
  ((q.line band).filter fun id => q.target threads id ≠ band).map fun id => (id, q.target threads id)

def stayers (q : BandedQueue) (threads : ThreadRegistry) (band : Band) : List ThreadId :=
  (q.line band).filter fun id => q.target threads id = band

/-- Move every waiter to the band of its effective priority; those that move queue up in the order in which they
would have been dispatched. -/
def migrate (q : BandedQueue) (threads : ThreadRegistry) : Noted BandedQueue :=
  let moving := Band.all.flatMap (q.movers threads)
  let settled : BandedQueue :=
    { q with
      hot := q.stayers threads .hot
      normal := q.stayers threads .normal
      cold := q.stayers threads .cold }
  ⟨moving.foldl (fun q (id, band) => q.append band id) settled,
    moving.map fun (id, band) => .migrated id band⟩

def popFirst (q : BandedQueue) : Option ThreadId × BandedQueue :=
  match q.hot, q.normal, q.cold with
  | id :: rest, _, _ => (some id, { q with hot := rest })
  | [], id :: rest, _ => (some id, { q with normal := rest })
  | [], [], id :: rest => (some id, { q with cold := rest })
  | [], [], [] => (none, q)

end BandedQueue

end PriorityScheduler
