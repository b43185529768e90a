import PriorityScheduler.Proofs.Aging
import PriorityScheduler.Queue.Wait

namespace PriorityScheduler

def WaitQueue.joined (q : WaitQueue) (thread : Thread) (threads : ThreadRegistry) : WaitQueue :=
  if thread.isMain then { q with mainWaiting := true }
  else { q with discipline := q.discipline.enqueue thread.id threads }

theorem WaitQueue.enqueue_ok {q : WaitQueue} {thread : Thread} {t : ThreadRegistry} {now : Ticks}
    {n : Noted (WaitQueue × ThreadRegistry)} (queued : q.enqueue thread t now = .ok n) :
    ∃ accounts : Accounts, (t.ensure thread).value.1.accounts.enqueued now = .ok accounts ∧
      let state := (t.ensure thread).value.1
      let threads := (t.ensure thread).value.2.put thread.id { state with accounts, queuedOn := some q.id }
      n = ⟨(q.joined thread threads, threads), (t.ensure thread).notices⟩ := by
  unfold enqueue at queued
  dsimp only at queued
  split at queued
  · obtain ⟨state, accounted, done⟩ := bind_eq_ok.mp queued
    obtain ⟨accounts, enqueued, made⟩ := bind_eq_ok.mp accounted
    cases made
    cases done
    exact ⟨accounts, enqueued, rfl⟩
  · cases queued

def Discipline.aged (d : Discipline) (threads : ThreadRegistry) (now : Ticks) : ThreadRegistry :=
  match d with
  | .strict _ => threads
  | .aging _ | .banded _ =>
      match ThreadRegistry.ageAll now d.waiters threads with
      | .ok n => n.value.threads
      | .error _ => threads

theorem Discipline.aged_cases {P : ThreadRegistry → Prop} (d : Discipline) {threads : ThreadRegistry} {now : Ticks}
    (still : P threads) (all : ∀ n, ThreadRegistry.ageAll now d.waiters threads = .ok n → P n.value.threads) :
    P (d.aged threads now) := by
  cases done : ThreadRegistry.ageAll now d.waiters threads with
  | error f =>
      cases d with
      | strict q => exact still
      | aging q => simpa only [aged, done] using still
      | banded q => simpa only [aged, done] using still
  | ok n =>
      cases d with
      | strict q => exact still
      | aging q => simpa only [aged, done] using all n done
      | banded q => simpa only [aged, done] using all n done

theorem Discipline.matches_aged (d : Discipline) (threads : ThreadRegistry) (now : Ticks) :
    threads.Matches ThreadState.unpriced (d.aged threads now) :=
  d.aged_cases (.refl threads) fun _ => ThreadRegistry.matches_ageAll

theorem Discipline.get?_aged {d : Discipline} {threads : ThreadRegistry} {now : Ticks} {v : ThreadId}
    (other : v ∉ d.waiters) : (d.aged threads now).get? v = threads.get? v :=
  d.aged_cases (P := fun aged => aged.get? v = threads.get? v) rfl fun _ => ThreadRegistry.get?_ageAll other

theorem RankedQueue.selectAged_ok {q : RankedQueue} {threads : ThreadRegistry} {now : Ticks}
    {m : Noted (Selection RankedQueue)} (done : q.selectAged threads now = .ok m) :
    ∃ n, ThreadRegistry.ageAll now q.waiters threads = .ok n ∧
      let aged := if n.value.changed then q.rebuild n.value.threads else q
      m.value = ⟨aged.popFirst.1, aged.popFirst.2, n.value.threads⟩ := by
  obtain ⟨n, all, made⟩ := bind_eq_ok.mp done
  cases made
  exact ⟨n, all, rfl⟩

theorem BandedQueue.selectAged_ok {q : BandedQueue} {threads : ThreadRegistry} {now : Ticks}
    {m : Noted (Selection BandedQueue)} (done : q.selectAged threads now = .ok m) :
    ∃ n, ThreadRegistry.ageAll now q.waiters threads = .ok n ∧
      let aged := if n.value.changed then (q.migrate n.value.threads).value else q
      m.value = ⟨aged.popFirst.1, aged.popFirst.2, n.value.threads⟩ := by
  obtain ⟨n, all, made⟩ := bind_eq_ok.mp done
  cases made
  refine ⟨n, all, ?_⟩
  cases n.value.changed <;> rfl

theorem Discipline.threads_select {d : Discipline} {threads : ThreadRegistry} {now : Ticks}
    {m : Noted (Selection Discipline)} (done : d.select threads now = .ok m) :
    m.value.threads = d.aged threads now := by
  cases d with
  | strict q =>
      cases done
      rfl
  | aging q =>
      obtain ⟨k, selected, rfl⟩ := map_eq_ok.mp done
      obtain ⟨n, all, value⟩ := RankedQueue.selectAged_ok selected
      simp only [Discipline.aged, waiters, all, wrap, value]
  | banded q =>
      obtain ⟨k, selected, rfl⟩ := map_eq_ok.mp done
      obtain ⟨n, all, value⟩ := BandedQueue.selectAged_ok selected
      simp only [Discipline.aged, waiters, all, wrap, value]

/-- A queue hands out the choice of its discipline, main if there is none, and lets go of it. -/
structure WaitQueue.Picks (q : WaitQueue) (m : Selection Discipline) (n : Selection WaitQueue) : Prop where
  id : n.queue.id = q.id
  next : n.next = m.next.or (if q.mainWaiting then some .main else none)
  discipline : n.queue.discipline = m.queue
  mainWaiting : n.queue.mainWaiting = (q.mainWaiting && m.next.isSome)
  threads : n.threads = n.next.elim m.threads (WaitQueue.unlink m.threads)

theorem WaitQueue.next_ok {q : WaitQueue} {threads : ThreadRegistry} {now : Ticks} {n : Noted (Selection WaitQueue)}
    (done : q.next threads now = .ok n) :
    ∃ m, q.discipline.select threads now = .ok m ∧ q.Picks m.value n.value := by
  obtain ⟨m, selected, made⟩ := bind_eq_ok.mp done
  refine ⟨m, selected, ?_⟩
  clear done selected
  cases made
  cases chosen : m.value.next with
  | some id => cases q.transfer <;> constructor <;> simp only [chosen] <;> simp
  | none => cases waiting : q.mainWaiting <;> cases q.transfer <;> constructor <;> simp only [chosen] <;> simp [waiting]

def ThreadState.unqueued (s : ThreadState) : ThreadState := { s with queuedOn := none }

theorem WaitQueue.unqueued_next {q : WaitQueue} {threads : ThreadRegistry} {now : Ticks} {n : Noted (Selection WaitQueue)}
    (done : q.next threads now = .ok n) :
    (q.discipline.aged threads now).Matches ThreadState.unqueued n.value.threads := by
  obtain ⟨m, selected, picks⟩ := next_ok done
  rw [picks.threads, Discipline.threads_select selected]
  cases n.value.next with
  | none => exact .refl _
  | some id => exact .modify _ id fun _ => rfl

end PriorityScheduler
