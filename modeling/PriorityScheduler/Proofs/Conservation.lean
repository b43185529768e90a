import PriorityScheduler.Proofs.Overflow
import PriorityScheduler.Proofs.Scheduler.Seats

/-!
# No waiter is lost or doubled

A wait queue of any policy, whose threads wait nowhere else. Threads are admitted, handed out and removed at any times, and
in between anything may happen to their priorities, whether or not somebody brings them to new positions. Whoever was
admitted is inside until it is handed out or removed, and leaves once for each stay.

Main statement: `conserved_of_visited`.
-/

namespace PriorityScheduler

inductive Visit where
  | admitted (id : ThreadId)
  | gone (id : ThreadId)
  deriving DecidableEq, Repr, Inhabited

namespace Visit

variable {log : List Visit}

def inside (id : ThreadId) : List Visit → Bool
  | [] => false
  | .admitted j :: past => j = id || inside id past
  | .gone j :: past => j ≠ id && inside id past

/-- The stays that a thread began. An admission begins none while the thread is inside. -/
def begun (id : ThreadId) : List Visit → Nat
  | [] => 0
  | .admitted j :: past => begun id past + if j = id ∧ inside id past = false then 1 else 0
  | .gone _ :: past => begun id past

def ended (id : ThreadId) (log : List Visit) : Nat := log.count (.gone id)

def Genuine : List Visit → Prop
  | [] => True
  | .admitted _ :: past => Genuine past
  | .gone j :: past => inside j past = true ∧ Genuine past

theorem begun_eq (genuine : Genuine log) (id : ThreadId) :
    begun id log = ended id log + if inside id log = true then 1 else 0 := by
  induction log with
  | nil => rfl
  | cons visit past ih =>
      cases visit with
      | admitted j =>
          have before := ih genuine
          have kept : ended id (.admitted j :: past) = ended id past := by simp [ended]
          rw [begun, kept, before]
          by_cases here : j = id <;> cases within : inside id past <;> simp [inside, here, within]
      | gone j =>
          have before := ih genuine.2
          rw [begun, before]
          by_cases here : j = id
          · have within : inside id past = true := here ▸ genuine.1
            simp [ended, inside, here, within]
          · simp [ended, inside, here]

def leaving (gone : Option ThreadId) (log : List Visit) : List Visit := (gone.map .gone).toList ++ log

theorem inside_leaving (gone : Option ThreadId) (log : List Visit) (id : ThreadId) :
    inside id (leaving gone log) = true ↔ inside id log = true ∧ gone ≠ some id := by
  cases gone with
  | none => simp [leaving]
  | some j => simp [leaving, inside, and_comm]

theorem Genuine.leaving {gone : Option ThreadId} (genuine : Genuine log)
    (within : ∀ id, gone = some id → inside id log = true) : Genuine (leaving gone log) := by
  cases gone with
  | none => exact genuine
  | some j => exact ⟨within j rfl, genuine⟩

end Visit

theorem Discipline.overflows_select_of_empty (d : Discipline) (threads : ThreadRegistry) (now : Ticks)
    (empty : d.waiters = []) : Overflows (d.select threads now) := by
  cases d with
  | strict q => exact overflows_ok _
  | aging q =>
      have empty : q.waiters = [] := empty
      rw [select, RankedQueue.selectAged, empty]
      exact overflows_ok _
  | banded q =>
      have empty : q.waiters = [] := empty
      rw [select, BandedQueue.selectAged, empty]
      exact overflows_ok _

theorem Discipline.length_waiters (d : Discipline) : d.waiters.length = d.length := by
  cases d with
  | strict q => exact List.length_map _
  | aging q => exact List.length_map _
  | banded q => simp only [waiters, length, BandedQueue.waiters, BandedQueue.length, List.length_append]

theorem WaitQueue.length_waiters (q : WaitQueue) : q.waiters.length = q.length := by
  rw [waiters, length, List.length_append, q.discipline.length_waiters]
  cases q.mainWaiting <;> rfl

namespace WaitQueue

variable {config : Config} {log : List Visit} {q : WaitQueue} {threads : ThreadRegistry}

/-- A queue that nobody waited for at first, with the threads and what was seen at its door. The registry may be exchanged
for any other in which the same threads sit at the same queues. -/
inductive Visited (config : Config) : List Visit → WaitQueue → ThreadRegistry → Prop where
  | new (id : QueueId) (transfer : Bool) {threads : ThreadRegistry} (configured : threads.config = config)
      (away : ∀ j, threads.seat? j = none) : Visited config [] (.new id transfer config) threads
  | enqueue {log : List Visit} {q : WaitQueue} {threads : ThreadRegistry} {thread : Thread} {now : Ticks}
      {n : Noted (WaitQueue × ThreadRegistry)} (visited : Visited config log q threads)
      (main : thread.isMain = true ↔ thread.id = .main) (done : q.enqueue thread threads now = .ok n) :
      Visited config (.admitted thread.id :: log) n.value.1 n.value.2
  | next {log : List Visit} {q : WaitQueue} {threads : ThreadRegistry} {now : Ticks} {n : Noted (Selection WaitQueue)}
      (visited : Visited config log q threads) (done : q.next threads now = .ok n) :
      Visited config (Visit.leaving n.value.next log) n.value.queue n.value.threads
  | remove {log : List Visit} {q : WaitQueue} {threads : ThreadRegistry} (visited : Visited config log q threads)
      (id : ThreadId) :
      Visited config (Visit.leaving (if (q.remove id threads).1 then some id else none) log) (q.remove id threads).2.1
        (q.remove id threads).2.2
  | reposition {log : List Visit} {q : WaitQueue} {threads : ThreadRegistry} (visited : Visited config log q threads)
      (id : ThreadId) : Visited config log (q.reposition id threads) threads
  | claim {log : List Visit} {q q' : WaitQueue} {threads : ThreadRegistry} {id : ThreadId}
      (visited : Visited config log q threads) (done : q.acquire id = .ok q') : Visited config log q' threads
  | reprice {log : List Visit} {q : WaitQueue} {threads threads' : ThreadRegistry} (visited : Visited config log q threads)
      (configured : threads'.config = threads.config) (seats : ∀ j, threads'.seat? j = threads.seat? j) :
      Visited config log q threads'

structure Attended (config : Config) (log : List Visit) (q : WaitQueue) (threads : ThreadRegistry) : Prop where
  settled : q.Settled config threads fun _ => True
  configured : threads.config = config
  seats : ∀ id, threads.seat? id = if id ∈ q.waiters then some q.id else none
  inside : ∀ id, Visit.inside id log = true ↔ id ∈ q.waiters
  genuine : Visit.Genuine log
  range : ∀ id ∈ q.waiters, config.mostUrgent ≤ config.leastUrgent

theorem Settled.anyhow {threads' : ThreadRegistry} {pending : ThreadId → Prop} (settled : q.Settled config threads pending) :
    q.Settled config threads' fun _ => True :=
  settled.congr fun _ _ out => absurd trivial out

theorem inRange_of_enqueue {thread : Thread} {now : Ticks} {n : Noted (WaitQueue × ThreadRegistry)}
    (done : q.enqueue thread threads now = .ok n) :
    threads.config.inRange (threads.ensure thread).value.1.base = true := by
  unfold enqueue at done
  dsimp only at done
  split at done
  · assumption
  · cases done

theorem Settled.fst_remove {pending : ThreadId → Prop} (settled : q.Settled config threads pending) (id : ThreadId)
    (threads' : ThreadRegistry) : (q.remove id threads').1 = true ↔ id ∈ q.waiters := by
  rw [mem_waiters, WaitQueue.remove]
  by_cases main : id = .main
  · rw [if_pos main]
    simp [main, settled.apart]
  · rw [if_neg main]
    simp [main, (settled.ordered.mem_remove id).1]

theorem Settled.loses_remove {pending : ThreadId → Prop} (settled : q.Settled config threads pending) (id : ThreadId)
    (threads' : ThreadRegistry) :
    q.Loses (if (q.remove id threads').1 then some id else none) (q.remove id threads').2.1 := by
  by_cases waits : id ∈ q.waiters
  · rw [if_pos ((settled.fst_remove id threads').mpr waits)]
    exact (settled.anyhow.remove waits).2.2
  · rw [if_neg fun found => waits ((settled.fst_remove id threads').mp found)]
    have settled : q.Settled config threads' fun _ => True := settled.anyhow
    obtain ⟨-, -, mem, places⟩ := settled.removed id
    refine ⟨?_, nofun, fun j => ?_, places⟩
    · rw [WaitQueue.remove]
      by_cases main : id = .main
      · rw [if_pos main]
      · rw [if_neg main]
    · rw [mem]
      grind

namespace Attended

theorem loses (attended : Attended config log q threads) {gone : Option ThreadId} {rest : WaitQueue}
    {threads' : ThreadRegistry} (loses : q.Loses gone rest) (settled : rest.Settled config threads' fun _ => True)
    (configured : threads'.config = threads.config)
    (seats : ∀ id, threads'.seat? id = if gone = some id then none else threads.seat? id) :
    Attended config (Visit.leaving gone log) rest threads' where
  settled := settled
  configured := configured.trans attended.configured
  seats id := by
    rw [seats, attended.seats, loses.id]
    simp only [loses.mem]
    grind
  inside id := by rw [Visit.inside_leaving, attended.inside, loses.mem]
  genuine := attended.genuine.leaving fun id here => (attended.inside id).mpr (loses.member id here)
  range id waits := attended.range id ((loses.mem id).mp waits).1

theorem rearranged (attended : Attended config log q threads) {q' : WaitQueue} (same : q.Rearranged q')
    (settled : q'.Settled config threads fun _ => True) : Attended config log q' threads where
  settled := settled
  configured := attended.configured
  seats id := by simp only [attended.seats, same.mem_waiters, same.id]
  inside id := by rw [attended.inside, same.mem_waiters]
  genuine := attended.genuine
  range id waits := attended.range id ((same.mem_waiters id).mp waits)

theorem enqueue (attended : Attended config log q threads) {thread : Thread} {now : Ticks}
    {n : Noted (WaitQueue × ThreadRegistry)} (main : thread.isMain = true ↔ thread.id = .main)
    (done : q.enqueue thread threads now = .ok n) :
    Attended config (.admitted thread.id :: log) n.value.1 n.value.2 := by
  have inRange := inRange_of_enqueue done
  obtain ⟨accounts, -, rfl⟩ := enqueue_ok done
  obtain ⟨-, -, others⟩ := threads.get?_ensure thread
  let threads' := (threads.ensure thread).value.2.put thread.id
    { (threads.ensure thread).value.1 with accounts, queuedOn := some q.id }
  have settled : q.Settled config threads' fun _ => True := attended.settled.anyhow
  have mem := mem_joined settled main
  have same : (q.joined thread threads').id = q.id := by
    unfold joined
    split <;> rfl
  refine ⟨settled.joined main, (threads.config_ensure thread).trans attended.configured, fun id => ?_,
    fun id => ?_, attended.genuine, fun id waits => ?_⟩
  · have placed : threads'.seat? id = if id = thread.id then some q.id else threads.seat? id := by
      simp only [threads', ThreadRegistry.seat?, ThreadRegistry.get?_put]
      split
      · rfl
      · rw [others id ‹_›]
    show threads'.seat? id = if id ∈ (q.joined thread threads').waiters then some (q.joined thread threads').id else none
    rw [placed, attended.seats, same]
    simp only [mem]
    grind
  · refine .trans ?_ (mem id).symm
    rw [← attended.inside, Visit.inside, Bool.or_eq_true, decide_eq_true_iff, eq_comm]
  · rcases (mem id).mp waits with rfl | before
    · rw [attended.configured, Config.inRange, Bool.and_eq_true, decide_eq_true_iff, decide_eq_true_iff] at inRange
      exact Int.le_trans inRange.1 inRange.2
    · exact attended.range id before

theorem remove (attended : Attended config log q threads) (id : ThreadId) :
    Attended config (Visit.leaving (if (q.remove id threads).1 then some id else none) log) (q.remove id threads).2.1
      (q.remove id threads).2.2 := by
  have threads' : (q.remove id threads).2.2 = if (q.remove id threads).1 then unlink threads id else threads := rfl
  refine attended.loses (attended.settled.loses_remove id threads) (attended.settled.removed id).1.anyhow ?_ fun j => ?_
  · rw [threads']
    split <;> rfl
  · rw [threads']
    split
    · exact Scheduler.seat?_unlink threads id j
    · rfl

theorem next (attended : Attended config log q threads) {now : Ticks} {n : Noted (Selection WaitQueue)}
    (done : q.next threads now = .ok n) :
    Attended config (Visit.leaving n.value.next log) n.value.queue n.value.threads := by
  obtain ⟨settled, serves⟩ := attended.settled.next done
  refine attended.loses serves.toLoses settled ?_ (Scheduler.seat?_selected done)
  exact (unqueued_next done).config.trans (q.discipline.matches_aged threads now).config

theorem overflows (attended : Attended config log q threads) (now : Ticks) : Overflows (q.next threads now) := by
  by_cases nonempty : config.mostUrgent ≤ config.leastUrgent
  · exact q.overflows_next (by rwa [attended.configured]) now
  · -- nobody can be admitted if no priority is in range
    have empty : q.discipline.waiters = [] := by
      rw [List.eq_nil_iff_forall_not_mem]
      exact fun id member => nonempty (attended.range id ((q.mem_waiters id).mpr (.inl member)))
    exact (q.discipline.overflows_select_of_empty threads now empty).bind fun _ _ => overflows_ok _

end Attended

theorem attended_of_visited (visited : Visited config log q threads) : Attended config log q threads := by
  induction visited with
  | new id transfer configured away =>
      refine ⟨settled_new id transfer config _ _, configured, fun j => ?_, fun j => ?_, trivial, fun j => ?_⟩
      · rw [away, waiters_new, if_neg List.not_mem_nil]
      · rw [waiters_new]
        exact iff_of_false Bool.false_ne_true List.not_mem_nil
      · rw [waiters_new]
        exact nofun
  | enqueue _ main done ih => exact ih.enqueue main done
  | next _ done ih => exact ih.next done
  | remove _ id ih => exact ih.remove id
  | reposition _ id ih =>
      obtain ⟨same, settled⟩ := ih.settled.reposition id
      exact ih.rearranged same settled.anyhow
  | claim _ done ih =>
      unfold acquire at done
      split at done
      · cases done
        exact ⟨⟨ih.settled.ordered, ih.settled.apart⟩, ih.configured, ih.seats, ih.inside, ih.genuine, ih.range⟩
      · cases done
  | reprice _ configured seats ih =>
      refine ⟨ih.settled.anyhow, configured.trans ih.configured, fun j => ?_, ih.inside, ih.genuine, ih.range⟩
      rw [seats, ih.seats]

structure Conserved (log : List Visit) (q : WaitQueue) (threads : ThreadRegistry) : Prop where
  inside : ∀ id, id ∈ q.waiters ↔ Visit.inside id log = true
  genuine : Visit.Genuine log
  balanced : ∀ id, Visit.begun id log = Visit.ended id log + if id ∈ q.waiters then 1 else 0
  nodup : q.waiters.Nodup
  length : q.waiters.length = q.length
  contains : ∀ id, q.contains id = true ↔ id ∈ q.waiters
  seats : ∀ id, threads.seat? id = if id ∈ q.waiters then some q.id else none
  removed : ∀ id, (q.remove id threads).1 = true ↔ id ∈ q.waiters
  served : ∀ now, Overflows (q.next threads now) ∧ ∀ n, q.next threads now = .ok n →
    (n.value.next = none ↔ q.length = 0) ∧ (n.value.next = some .main → q.waiters = [.main])

theorem conserved_of_visited (visited : Visited config log q threads) : Conserved log q threads := by
  have attended := attended_of_visited visited
  have length := q.length_waiters
  have nodup : q.waiters.Nodup := by
    have apart := attended.settled.apart
    have nodup := attended.settled.ordered.nodup_waiters
    rw [waiters]
    split
    · exact List.nodup_append.mpr ⟨nodup, by simp, by grind⟩
    · rwa [List.append_nil]
  refine ⟨fun id => (attended.inside id).symm, attended.genuine, fun id => ?_, nodup, length,
    attended.settled.contains_iff, attended.seats, fun id => attended.settled.fst_remove id threads,
    fun now => ⟨attended.overflows now, fun n done => ?_⟩⟩
  · simpa only [attended.inside] using Visit.begun_eq attended.genuine id
  · have serves := (attended.settled.next done).2
    refine ⟨?_, fun main => ?_⟩
    · rw [← length, List.length_eq_zero_iff]
      refine ⟨serves.none, fun empty => ?_⟩
      cases next : n.value.next with
      | none => rfl
      | some id =>
          have waits := serves.member id next
          rw [empty] at waits
          cases waits
    · have waits := (q.mem_waiters .main).mp (serves.member .main main)
      rw [waiters, serves.main main, if_pos (waits.resolve_left attended.settled.apart).1, List.nil_append]

/-- A thread is admitted twice, the second time while it waits, and handed out before main. -/
def readmission : Option (Noted (Selection WaitQueue)) := Except.toOption do
  let config : Config := { policy := .aging, agingInterval := 2, initial := 9 }
  let once ← (WaitQueue.new ⟨3⟩ true config).enqueue ⟨⟨1⟩, "first", .ordinary⟩ { config } 0
  let behind ← once.value.1.enqueue .main once.value.2 3
  let twice ← behind.value.1.enqueue ⟨⟨1⟩, "first", .ordinary⟩ behind.value.2 4
  twice.value.1.next twice.value.2 20

theorem conserved_of_visited_readmission :
    ∃ n, readmission = some n ∧
      let log := Visit.leaving n.value.next [.admitted ⟨1⟩, .admitted .main, .admitted ⟨1⟩]
      Conserved log n.value.queue n.value.threads ∧ Visit.begun ⟨1⟩ log = 1 ∧ Visit.ended ⟨1⟩ log = 1 ∧
        n.value.queue.waiters = [.main] := by
  have done : readmission = some (readmission.get (by decide)) := (Option.some_get _).symm
  refine ⟨_, done, ?_, by decide, by decide, by decide⟩
  obtain ⟨once, admitted, rest⟩ := bind_eq_ok.mp (Scheduler.eq_ok_of_toOption done)
  obtain ⟨behind, admitted', rest⟩ := bind_eq_ok.mp rest
  obtain ⟨twice, admitted'', served⟩ := bind_eq_ok.mp rest
  let config : Config := { policy := .aging, agingInterval := 2, initial := 9 }
  have fresh : Visited config [] (.new ⟨3⟩ true config) { config } := .new ⟨3⟩ true rfl fun _ => rfl
  have inside := ((fresh.enqueue (by decide) admitted).enqueue (by decide) admitted').enqueue (by decide) admitted''
  exact conserved_of_visited (inside.next served)

end WaitQueue

end PriorityScheduler
