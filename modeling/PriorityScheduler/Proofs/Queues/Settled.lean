import PriorityScheduler.Proofs.Queues.Ordered

namespace PriorityScheduler

namespace WaitQueue

variable {q q' : WaitQueue} {config : Config} {threads threads' : ThreadRegistry} {pending pending' : ThreadId → Prop}
  {id j : ThreadId}

structure Settled (q : WaitQueue) (config : Config) (threads : ThreadRegistry) (pending : ThreadId → Prop) : Prop where
  ordered : q.discipline.Ordered config threads pending
  apart : .main ∉ q.discipline.waiters

theorem mem_waiters (q : WaitQueue) (id : ThreadId) :
    id ∈ q.waiters ↔ id ∈ q.discipline.waiters ∨ q.mainWaiting = true ∧ id = .main := by
  rw [waiters, List.mem_append]
  cases q.mainWaiting <;> simp

theorem settled_new (id : QueueId) (transfer : Bool) (config : Config) (threads : ThreadRegistry)
    (pending : ThreadId → Prop) : (WaitQueue.new id transfer config).Settled config threads pending where
  ordered := Discipline.ordered_ofConfig config threads pending
  apart := by
    show _ ∉ (Discipline.ofConfig config).waiters
    rw [Discipline.waiters_ofConfig]
    exact List.not_mem_nil

theorem waiters_new (id : QueueId) (transfer : Bool) (config : Config) :
    (WaitQueue.new id transfer config).waiters = [] := by
  show (Discipline.ofConfig config).waiters ++ [] = []
  rw [Discipline.waiters_ofConfig, List.append_nil]

theorem Settled.congr (settled : q.Settled config threads pending)
    (moved : ∀ id ∈ q.waiters, ¬pending' id → ¬pending id ∧ threads'.effective id = threads.effective id) :
    q.Settled config threads' pending' where
  ordered := settled.ordered.congr fun id member => moved id ((q.mem_waiters id).mpr (.inl member))
  apart := settled.apart

theorem Settled.contains_iff (settled : q.Settled config threads pending) (id : ThreadId) :
    q.contains id = true ↔ id ∈ q.waiters := by
  rw [contains, mem_waiters]
  split
  · rename_i main
    simp [main, settled.apart]
  · rename_i other
    simp [other, settled.ordered.contains_iff]

structure Rearranged (q q' : WaitQueue) : Prop where
  id : q'.id = q.id
  mainWaiting : q'.mainWaiting = q.mainWaiting
  mem : ∀ j, j ∈ q'.discipline.waiters ↔ j ∈ q.discipline.waiters
  place? : ∀ j, q'.discipline.place? j = q.discipline.place? j

namespace Rearranged

theorem refl (q : WaitQueue) : q.Rearranged q := ⟨rfl, rfl, fun _ => Iff.rfl, fun _ => rfl⟩

theorem trans {q'' : WaitQueue} (first : q.Rearranged q') (second : q'.Rearranged q'') : q.Rearranged q'' :=
  ⟨second.id.trans first.id, second.mainWaiting.trans first.mainWaiting, fun j => (second.mem j).trans (first.mem j),
    fun j => (second.place? j).trans (first.place? j)⟩

theorem mem_waiters (same : q.Rearranged q') (j : ThreadId) : j ∈ q'.waiters ↔ j ∈ q.waiters := by
  rw [WaitQueue.mem_waiters, WaitQueue.mem_waiters, same.mem, same.mainWaiting]

end Rearranged

theorem Settled.reposition (settled : q.Settled config threads pending) (id : ThreadId) :
    q.Rearranged (q.reposition id threads) ∧
      (q.reposition id threads).Settled config threads fun j => pending j ∧ j ≠ id := by
  unfold WaitQueue.reposition
  split
  · rename_i main
    refine ⟨.refl q, settled.ordered.congr fun j member later => ⟨fun before => ?_, rfl⟩, settled.apart⟩
    refine later ⟨before, ?_⟩
    rintro rfl
    exact settled.apart (main ▸ member)
  · have mem := settled.ordered.mem_reposition id
    refine ⟨⟨rfl, rfl, mem, q.discipline.place?_reposition id threads⟩, settled.ordered.reposition id, ?_⟩
    exact fun main => settled.apart ((mem .main).mp main)

def rearrange (q : WaitQueue) (ids : List ThreadId) (threads : ThreadRegistry) : WaitQueue :=
  ids.foldl (fun q id => q.reposition id threads) q

theorem Settled.rearranged (settled : q.Settled config threads pending) (ids : List ThreadId) :
    q.Rearranged (q.rearrange ids threads) ∧
      (q.rearrange ids threads).Settled config threads fun j => pending j ∧ j ∉ ids := by
  induction ids generalizing q pending with
  | nil => exact ⟨.refl q, settled.congr fun j _ later => ⟨fun before => later ⟨before, List.not_mem_nil⟩, rfl⟩⟩
  | cons id rest ih =>
      obtain ⟨first, settled⟩ := settled.reposition id
      obtain ⟨later, settled⟩ := ih settled
      refine ⟨first.trans later, settled.congr fun j _ out => ⟨fun both => out ⟨both.1.1, ?_⟩, rfl⟩⟩
      rw [List.mem_cons, not_or]
      exact ⟨both.1.2, both.2⟩

theorem Settled.joined {thread : Thread} (settled : q.Settled config threads pending)
    (main : thread.isMain = true ↔ thread.id = .main) : (q.joined thread threads).Settled config threads pending := by
  unfold WaitQueue.joined
  split
  · exact ⟨settled.ordered, settled.apart⟩
  · rename_i other
    refine ⟨(settled.ordered.enqueue thread.id).congr fun j _ later => ⟨fun both => later both.1, rfl⟩, fun member => ?_⟩
    rcases (settled.ordered.mem_enqueue thread.id .main).mp member with here | before
    · exact other (main.mpr here.symm)
    · exact settled.apart before

theorem mem_joined {thread : Thread} (settled : q.Settled config threads pending)
    (main : thread.isMain = true ↔ thread.id = .main) (j : ThreadId) :
    j ∈ (q.joined thread threads).waiters ↔ j = thread.id ∨ j ∈ q.waiters := by
  unfold WaitQueue.joined
  split
  · rename_i here
    rw [mem_waiters, mem_waiters, main.mp here]
    simp only [true_and]
    grind
  · rw [mem_waiters, mem_waiters, settled.ordered.mem_enqueue, or_assoc]

theorem place?_joined {thread : Thread} {place : Nat} (settled : q.Settled config threads pending)
    (main : thread.isMain = true ↔ thread.id = .main)
    (stands : (q.joined thread threads).discipline.place? j = some place) :
    q.discipline.place? j = some place ∨
      j = thread.id ∧ j ∉ q.waiters ∧ ∀ k place', q.discipline.place? k = some place' → place' < place := by
  unfold WaitQueue.joined at stands
  split at stands
  · exact .inl stands
  · rename_i other
    rcases settled.ordered.place?_enqueue stands with before | ⟨rfl, absent, behind⟩
    · exact .inl before
    · refine .inr ⟨rfl, fun member => ?_, behind⟩
      rcases (q.mem_waiters thread.id).mp member with waits | ⟨-, here⟩
      · exact absent waits
      · exact other (main.mpr here)

structure Loses (q : WaitQueue) (gone : Option ThreadId) (rest : WaitQueue) : Prop where
  id : rest.id = q.id
  member : ∀ id, gone = some id → id ∈ q.waiters
  mem : ∀ j, j ∈ rest.waiters ↔ j ∈ q.waiters ∧ gone ≠ some j
  places : ∀ j place, rest.discipline.place? j = some place → q.discipline.place? j = some place

theorem Settled.remove (settled : q.Settled config threads pending) (waits : id ∈ q.waiters) :
    (q.remove id threads).2.2 = unlink threads id ∧ (q.remove id threads).2.1.Settled config threads pending ∧
      q.Loses (some id) (q.remove id threads).2.1 := by
  have member (j : ThreadId) (here : some id = some j) : j ∈ q.waiters := Option.some.inj here ▸ waits
  have apart := settled.apart
  unfold WaitQueue.remove
  by_cases main : id = .main
  · rw [if_pos main]
    rw [main, mem_waiters, or_iff_right apart, and_iff_left rfl] at waits
    refine ⟨if_pos waits, ⟨settled.ordered, apart⟩, rfl, member, fun j => ?_,
      fun _ _ stands => stands⟩
    rw [main]
    simp only [mem_waiters]
    grind
  · rw [if_neg main]
    obtain ⟨found, mem⟩ := settled.ordered.mem_remove id
    have inside : id ∈ q.discipline.waiters := ((q.mem_waiters id).mp waits).resolve_right fun both => main both.2
    refine ⟨if_pos (found.mpr inside), ⟨settled.ordered.remove id, fun here => apart ((mem .main).mp here).1⟩, rfl,
      member, fun j => ?_, fun _ _ stands => settled.ordered.place?_remove stands⟩
    simp only [mem_waiters, mem]
    grind

theorem Settled.removed (settled : q.Settled config threads pending) (id : ThreadId) :
    (q.remove id threads).2.1.Settled config threads pending ∧
      ((q.remove id threads).2.2 = threads ∨ (q.remove id threads).2.2 = unlink threads id) ∧
      (∀ j, j ∈ (q.remove id threads).2.1.waiters ↔ j ∈ q.waiters ∧ j ≠ id) ∧
      ∀ j place, (q.remove id threads).2.1.discipline.place? j = some place → q.discipline.place? j = some place := by
  by_cases waits : id ∈ q.waiters
  · obtain ⟨unlinked, after, loses⟩ := settled.remove waits
    refine ⟨after, .inr unlinked, fun j => (loses.mem j).trans (and_congr_right fun _ => ?_), loses.places⟩
    rw [ne_eq, ne_eq, Option.some.injEq, eq_comm]
  · rw [mem_waiters, not_or, not_and'] at waits
    have apart := settled.apart
    unfold WaitQueue.remove
    by_cases main : id = .main
    · have away := waits.2 main
      rw [if_pos main]
      refine ⟨⟨settled.ordered, apart⟩, .inl (if_neg away), fun j => ?_, fun _ _ stands => stands⟩
      simp only [mem_waiters]
      grind
    · rw [if_neg main]
      obtain ⟨found, mem⟩ := settled.ordered.mem_remove id
      refine ⟨⟨settled.ordered.remove id, fun here => apart ((mem .main).mp here).1⟩,
        .inl (if_neg fun here => waits.1 (found.mp here)), fun j => ?_, fun _ _ stands => settled.ordered.place?_remove stands⟩
      simp only [mem_waiters, mem]
      grind

theorem effective_unlink (threads : ThreadRegistry) (id j : ThreadId) :
    (unlink threads id).effective j = threads.effective j :=
  threads.effective_modify_of_effective id (f := fun s => { s with queuedOn := none }) (fun _ => rfl) j

structure Serves (q : WaitQueue) (next : Option ThreadId) (rest : WaitQueue) : Prop extends Loses q next rest where
  none : next = none → q.waiters = []
  main : next = some .main → q.discipline.waiters = []

theorem Picks.serves {m : Selection Discipline} {n : Selection WaitQueue} (picks : q.Picks m n)
    (takes : q.discipline.Takes m.next m.queue) (apart : .main ∉ q.discipline.waiters) : q.Serves n.next n.queue := by
  cases chosen : m.next with
  | some id =>
      have next : n.next = some id := by
        rw [picks.next, chosen]
        rfl
      have member := takes.member id chosen
      have other : id ≠ .main := by
        rintro rfl
        exact apart member
      refine ⟨⟨picks.id, ?_, fun j => ?_, fun j place stands => takes.places j place (picks.discipline ▸ stands)⟩, ?_, ?_⟩
      · rw [next]
        rintro j ⟨⟩
        exact (q.mem_waiters id).mpr (.inl member)
      · rw [mem_waiters, mem_waiters, picks.discipline, picks.mainWaiting, takes.mem, next, chosen]
        grind
      · rw [next]
        exact nofun
      · rw [next]
        rintro ⟨⟩
        exact absurd rfl other
  | none =>
      have empty := takes.none chosen
      have rest : ∀ j, j ∉ m.queue.waiters := fun j member => by
        have before := ((takes.mem j).mp member).1
        rw [empty] at before
        cases before
      refine ⟨⟨picks.id, fun j some => ?_, fun j => ?_,
        fun j place stands => takes.places j place (picks.discipline ▸ stands)⟩, fun none => ?_, fun _ => empty⟩
      · rw [picks.next, chosen, Option.none_or] at some
        rw [mem_waiters]
        split at some
        · rename_i waiting
          exact .inr ⟨waiting, (Option.some.inj some).symm⟩
        · cases some
      · rw [mem_waiters, mem_waiters, picks.discipline, picks.mainWaiting, picks.next, chosen, empty]
        have gone := rest j
        grind
      · rw [picks.next, chosen, Option.none_or] at none
        rw [waiters, empty]
        split at none
        · cases none
        · rename_i away
          rw [if_neg away]
          rfl

theorem Settled.next {now : Ticks} {n : Noted (Selection WaitQueue)}
    (settled : q.Settled config threads pending) (done : q.next threads now = .ok n) :
    n.value.queue.Settled config n.value.threads pending ∧ q.Serves n.value.next n.value.queue := by
  obtain ⟨m, selected, picks⟩ := next_ok done
  obtain ⟨ordered, takes⟩ := settled.ordered.select selected
  have effective (j : ThreadId) : n.value.threads.effective j = m.value.threads.effective j := by
    rw [picks.threads]
    cases n.value.next with
    | none => rfl
    | some id => exact effective_unlink m.value.threads id j
  refine ⟨⟨?_, fun main => ?_⟩, picks.serves takes settled.apart⟩
  · rw [picks.discipline]
    exact ordered.congr fun j _ out => ⟨out, effective j⟩
  · rw [picks.discipline] at main
    exact settled.apart ((takes.mem .main).mp main).1

theorem Settled.head? {now : Ticks} {n : Noted (Selection WaitQueue)} (settled : q.Settled config threads pending)
    (strict : config.policy = .strict) (done : q.next threads now = .ok n) : n.value.next = q.waiters.head? := by
  obtain ⟨m, selected, picks⟩ := next_ok done
  rw [picks.next, Discipline.head?_select settled.ordered strict selected, waiters, List.head?_append]
  congr 1
  split <;> rfl

def lineUp (line : List ThreadId) (id : ThreadId) : List ThreadId := if id ∈ line then line else line ++ [id]

theorem mem_lineUp (line : List ThreadId) (id j : ThreadId) : j ∈ lineUp line id ↔ j = id ∨ j ∈ line := by
  unfold lineUp
  split
  · rename_i here
    rw [or_iff_right_of_imp]
    rintro rfl
    exact here
  · rw [List.mem_append, List.mem_singleton, or_comm]

abbrev Lined (q : WaitQueue) (line : List ThreadId) : Prop := RankedQueue.Lined q.discipline.place? q.waiters line

variable {line : List ThreadId}

theorem Lined.rearranged (lined : q.Lined line) (same : q.Rearranged q') : q'.Lined line where
  mem j member := lined.mem j ((same.mem_waiters j).mp member)
  sorted := by
    rw [funext same.place?]
    exact lined.sorted

theorem Lined.rest (lined : q.Lined line) (mem : ∀ j ∈ q'.waiters, j ∈ q.waiters)
    (places : ∀ j place, q'.discipline.place? j = some place → q.discipline.place? j = some place) : q'.Lined line where
  mem j member := lined.mem j (mem j member)
  sorted := lined.sorted.imp fun before p p' first second => before p p' (places _ p first) (places _ p' second)

theorem Lined.filter (lined : q.Lined line) : q.Lined (line.filter (· ∈ q.waiters)) where
  mem j member := List.mem_filter.mpr ⟨lined.mem j member, decide_eq_true member⟩
  sorted := lined.sorted.filter _

theorem Lined.joined {thread : Thread} (lined : q.Lined line) (whole : ∀ j ∈ line, j ∈ q.waiters)
    (settled : q.Settled config threads pending) (main : thread.isMain = true ↔ thread.id = .main) :
    (q.joined thread threads).Lined (lineUp line thread.id) := by
  have places {j : ThreadId} {place : Nat} (stands : (q.joined thread threads).discipline.place? j = some place) :=
    place?_joined settled main stands
  refine ⟨fun j member => ?_, ?_⟩
  · rw [mem_lineUp]
    exact ((mem_joined settled main j).mp member).imp_right (lined.mem j)
  · have before : line.Pairwise fun a b => ∀ p p', (q.joined thread threads).discipline.place? a = some p →
        (q.joined thread threads).discipline.place? b = some p' → p < p' := by
      refine lined.sorted.imp_of_mem fun {a b} left right before p p' first second => ?_
      rcases places first with first | ⟨-, absent, -⟩
      · rcases places second with second | ⟨-, absent, -⟩
        · exact before p p' first second
        · exact absurd (whole b right) absent
      · exact absurd (whole a left) absent
    unfold lineUp
    split
    · exact before
    · -- who is new in the line has a place behind all others
      rename_i new
      refine List.pairwise_append.mpr ⟨before, List.pairwise_singleton _ _, fun a left b right p p' first second => ?_⟩
      cases List.mem_singleton.mp right
      rcases places first with first | ⟨rfl, -, -⟩
      · rcases places second with second | ⟨-, -, behind⟩
        · exact absurd (lined.mem _ ((q.mem_waiters _).mpr (.inl (settled.ordered.mem_of_place? second)))) new
        · exact behind a p first
      · exact absurd left new

end WaitQueue

end PriorityScheduler
