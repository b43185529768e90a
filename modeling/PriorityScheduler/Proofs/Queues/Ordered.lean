import PriorityScheduler.Proofs.Queues.Banded
import PriorityScheduler.Proofs.Queues.Ranked
import PriorityScheduler.Proofs.Queues.Waiting

namespace PriorityScheduler

namespace Discipline

variable {d : Discipline} {config : Config} {threads threads' : ThreadRegistry} {pending pending' : ThreadId → Prop}
  {id j : ThreadId}

def Ordered (d : Discipline) (config : Config) (threads : ThreadRegistry) (pending : ThreadId → Prop) : Prop :=
  match d with
  | .strict q => config.policy = .strict ∧ q.Ranks threads pending
  | .aging q => config.policy = .aging ∧ q.Ranks threads pending
  | .banded q => config.policy = .multilevel ∧ q.limits = config.bandLimits ∧ q.Bands threads pending

def place? : Discipline → ThreadId → Option Nat
  | .strict q, id => q.place? id
  | .aging q, id => q.place? id
  | .banded _, _ => none

theorem ordered_ofConfig (config : Config) (threads : ThreadRegistry) (pending : ThreadId → Prop) :
    (ofConfig config).Ordered config threads pending := by
  unfold ofConfig
  cases policy : config.policy with
  | strict => exact ⟨policy, RankedQueue.ranks_empty threads pending⟩
  | aging => exact ⟨policy, RankedQueue.ranks_empty threads pending⟩
  | multilevel =>
      refine ⟨policy, rfl, fun b => ?_, fun b b' id member => ?_, fun b id member => ?_⟩
      · cases b <;> exact List.nodup_nil
      · cases b <;> cases member
      · cases b <;> cases member

theorem waiters_ofConfig (config : Config) : (ofConfig config).waiters = [] := by
  unfold ofConfig
  cases config.policy <;> rfl

namespace Ordered

theorem congr (ordered : d.Ordered config threads pending)
    (moved : ∀ id ∈ d.waiters, ¬pending' id → ¬pending id ∧ threads'.effective id = threads.effective id) :
    d.Ordered config threads' pending' := by
  cases d with
  | strict q => exact ⟨ordered.1, ordered.2.congr moved⟩
  | aging q => exact ⟨ordered.1, ordered.2.congr moved⟩
  | banded q => exact ⟨ordered.1, ordered.2.1, ordered.2.2.congr moved⟩

theorem contains_iff (ordered : d.Ordered config threads pending) (id : ThreadId) :
    d.contains id = true ↔ id ∈ d.waiters := by
  have ranked {q : RankedQueue} (ranks : q.Ranks threads pending) : q.contains id = true ↔ id ∈ q.waiters := by
    rw [ranks.mem_waiters, q.contains_eq]
  cases d with
  | strict q => exact ranked ordered.2
  | aging q => exact ranked ordered.2
  | banded q => exact decide_eq_true_iff

theorem reposition (ordered : d.Ordered config threads pending) (id : ThreadId) :
    (d.reposition id threads).Ordered config threads fun j => pending j ∧ j ≠ id := by
  cases d with
  | strict q => exact ⟨ordered.1, ordered.2.reposition id⟩
  | aging q => exact ⟨ordered.1, ordered.2.reposition id⟩
  | banded q =>
      refine ⟨ordered.1, ?_, ordered.2.2.reposition id⟩
      rw [← ordered.2.1]
      exact BandedQueue.Bands.limits_reposition q id threads

theorem mem_reposition (ordered : d.Ordered config threads pending) (id j : ThreadId) :
    j ∈ (d.reposition id threads).waiters ↔ j ∈ d.waiters := by
  have ranked {q : RankedQueue} (ranks : q.Ranks threads pending) :
      j ∈ (q.reposition id threads).waiters ↔ j ∈ q.waiters := by
    rw [(ranks.reposition id).mem_waiters, ranks.mem_waiters, RankedQueue.Ranks.place?_reposition]
  cases d with
  | strict q => exact ranked ordered.2
  | aging q => exact ranked ordered.2
  | banded q => exact BandedQueue.Bands.mem_reposition q id threads j

theorem enqueue (ordered : d.Ordered config threads pending) (id : ThreadId) :
    (d.enqueue id threads).Ordered config threads fun j => pending j ∧ j ≠ id := by
  cases d with
  | strict q => exact ⟨ordered.1, ordered.2.enqueue id⟩
  | aging q => exact ⟨ordered.1, ordered.2.enqueue id⟩
  | banded q =>
      refine ⟨ordered.1, ?_, ordered.2.2.enqueue id⟩
      rw [← ordered.2.1]
      exact BandedQueue.Bands.limits_enqueue q id threads

theorem mem_enqueue (ordered : d.Ordered config threads pending) (id j : ThreadId) :
    j ∈ (d.enqueue id threads).waiters ↔ j = id ∨ j ∈ d.waiters := by
  have ranked {q : RankedQueue} (ranks : q.Ranks threads pending) :
      j ∈ (q.enqueue id threads).waiters ↔ j = id ∨ j ∈ q.waiters := by
    rw [(ranks.enqueue id).mem_waiters, ranks.mem_waiters, RankedQueue.Ranks.place?_enqueue, q.contains_eq]
    grind
  cases d with
  | strict q => exact ranked ordered.2
  | aging q => exact ranked ordered.2
  | banded q => exact BandedQueue.Bands.mem_enqueue q id threads j

theorem remove (ordered : d.Ordered config threads pending) (id : ThreadId) :
    (d.remove id).2.Ordered config threads pending := by
  have ranked {q : RankedQueue} (ranks : q.Ranks threads pending) : (q.remove id).2.Ranks threads pending := by
    rcases ranks.remove_eq id with ⟨-, same⟩ | ⟨r, found, removed⟩
    · rw [same]
      exact ranks
    · rw [removed]
      exact ranks.drop found
  cases d with
  | strict q => exact ⟨ordered.1, ranked ordered.2⟩
  | aging q => exact ⟨ordered.1, ranked ordered.2⟩
  | banded q => exact ⟨ordered.1, ordered.2.1, ordered.2.2.remove id⟩

theorem mem_remove (ordered : d.Ordered config threads pending) (id : ThreadId) :
    ((d.remove id).1 = true ↔ id ∈ d.waiters) ∧ ∀ j, j ∈ (d.remove id).2.waiters ↔ j ∈ d.waiters ∧ j ≠ id := by
  have ranked {q : RankedQueue} (ranks : q.Ranks threads pending) :
      ((q.remove id).1 = true ↔ id ∈ q.waiters) ∧ ∀ j, j ∈ (q.remove id).2.waiters ↔ j ∈ q.waiters ∧ j ≠ id := by
    rcases ranks.remove_eq id with ⟨absent, same⟩ | ⟨r, found, removed⟩
    · have outside : id ∉ q.waiters := by
        rw [ranks.mem_waiters, RankedQueue.place?, absent]
        exact Bool.false_ne_true
      rw [same]
      refine ⟨iff_of_false Bool.false_ne_true outside, fun j => (and_iff_left_of_imp fun member => ?_).symm⟩
      rintro rfl
      exact outside member
    · have inside : id ∈ q.waiters := by
        rw [ranks.mem_waiters, RankedQueue.place?, found]
        rfl
      rw [removed]
      refine ⟨iff_of_true rfl inside, fun j => ?_⟩
      rw [(ranks.drop found).mem_waiters, ranks.mem_waiters, RankedQueue.Ranks.place?_dropped]
      split <;> simp_all
  cases d with
  | strict q => exact ranked ordered.2
  | aging q => exact ranked ordered.2
  | banded q => exact ⟨BandedQueue.Bands.fst_remove q id, BandedQueue.Bands.mem_remove q id⟩

theorem nodup_waiters (ordered : d.Ordered config threads pending) : d.waiters.Nodup := by
  cases d with
  | strict q => exact ordered.2.nodup_waiters
  | aging q => exact ordered.2.nodup_waiters
  | banded q => exact ordered.2.2.nodup_waiters

theorem pairwise_waiters (ordered : d.Ordered config threads fun _ => False) (ranked : config.policy ≠ .multilevel)
    {line : List ThreadId} (lined : RankedQueue.Lined d.place? d.waiters line) :
    d.waiters.Pairwise fun a b => threads.effective a < threads.effective b ∨
      threads.effective a = threads.effective b ∧ line.idxOf a < line.idxOf b := by
  cases d with
  | strict q => exact RankedQueue.pairwise_waiters ordered.2 lined
  | aging q => exact RankedQueue.pairwise_waiters ordered.2 lined
  | banded q => exact absurd ordered.1 ranked

theorem mem_line_iff (ordered : d.Ordered config threads fun _ => False) (banded : config.policy = .multilevel) :
    ∃ q, d = .banded q ∧ ∀ id ∈ d.waiters, ∀ band,
      id ∈ q.line band ↔ band = .classify config.bandLimits (threads.effective id) := by
  cases d with
  | strict q => cases banded.symm.trans ordered.1
  | aging q => cases banded.symm.trans ordered.1
  | banded q =>
      refine ⟨q, rfl, fun id waits band => ?_⟩
      obtain ⟨-, limits, bands⟩ := ordered
      obtain ⟨band', stands⟩ := (q.mem_waiters id).mp waits
      have target := bands.agrees band' id stands not_false
      rw [BandedQueue.target, limits] at target
      rw [target]
      refine ⟨fun member => bands.apart band band' id member stands, ?_⟩
      rintro rfl
      exact stands

theorem mem_of_place? (ordered : d.Ordered config threads pending) {place : Nat} (stands : d.place? id = some place) :
    id ∈ d.waiters := by
  have ranked {q : RankedQueue} (ranks : q.Ranks threads pending) (stands : q.place? id = some place) :
      id ∈ q.waiters := by
    rw [ranks.mem_waiters, stands]
    rfl
  cases d with
  | strict q => exact ranked ordered.2 stands
  | aging q => exact ranked ordered.2 stands
  | banded q => cases stands

theorem place?_enqueue (ordered : d.Ordered config threads pending) {place : Nat}
    (stands : (d.enqueue id threads).place? j = some place) :
    d.place? j = some place ∨
      j = id ∧ id ∉ d.waiters ∧ ∀ k place', d.place? k = some place' → place' < place := by
  have ranked {q : RankedQueue} (ranks : q.Ranks threads pending)
      (stands : (q.enqueue id threads).place? j = some place) :
      q.place? j = some place ∨ j = id ∧ id ∉ q.waiters ∧ ∀ k place', q.place? k = some place' → place' < place := by
    rw [RankedQueue.Ranks.place?_enqueue, q.contains_eq] at stands
    split at stands
    · rename_i fresh
      cases stands
      refine .inr ⟨fresh.2, ?_, fun k place' other => ?_⟩
      · rw [ranks.mem_waiters, fresh.1]
        exact nofun
      · obtain ⟨r, found, rfl⟩ := Option.map_eq_some_iff.mp other
        exact ranks.bounded k r found
    · exact .inl stands
  cases d with
  | strict q => exact ranked ordered.2 stands
  | aging q => exact ranked ordered.2 stands
  | banded q => cases stands

theorem place?_remove (ordered : d.Ordered config threads pending) {place : Nat}
    (stands : (d.remove id).2.place? j = some place) : d.place? j = some place := by
  have ranked {q : RankedQueue} (ranks : q.Ranks threads pending) (stands : (q.remove id).2.place? j = some place) :
      q.place? j = some place := by
    rcases ranks.remove_eq id with ⟨-, same⟩ | ⟨r, -, removed⟩
    · rw [same] at stands
      exact stands
    · rw [removed, RankedQueue.Ranks.place?_dropped] at stands
      split at stands
      · cases stands
      · exact stands
  cases d with
  | strict q => exact ranked ordered.2 stands
  | aging q => exact ranked ordered.2 stands
  | banded q => cases stands

end Ordered

theorem place?_reposition (d : Discipline) (id : ThreadId) (threads : ThreadRegistry) (j : ThreadId) :
    (d.reposition id threads).place? j = d.place? j := by
  cases d with
  | strict q => exact RankedQueue.Ranks.place?_reposition q id threads j
  | aging q => exact RankedQueue.Ranks.place?_reposition q id threads j
  | banded q => rfl

structure Takes (d : Discipline) (next : Option ThreadId) (rest : Discipline) : Prop where
  member : ∀ id, next = some id → id ∈ d.waiters
  none : next = none → d.waiters = []
  mem : ∀ j, j ∈ rest.waiters ↔ j ∈ d.waiters ∧ next ≠ some j
  places : ∀ j place, rest.place? j = some place → d.place? j = some place

theorem takes_ranked {q : RankedQueue} (ranks : q.Ranks threads pending) :
    q.popFirst.2.Ranks threads pending ∧ (strict q).Takes q.popFirst.1 (.strict q.popFirst.2) := by
  cases popped : q.popFirst.1 with
  | none =>
      obtain ⟨empty, same⟩ := RankedQueue.Ranks.popFirst_eq_none popped
      rw [same]
      exact ⟨ranks, nofun, fun _ => empty, fun j => by simp, fun _ _ => id⟩
  | some id =>
      obtain ⟨first, r, found, dropped⟩ := ranks.popFirst_eq_some popped
      rw [dropped]
      refine ⟨ranks.drop found, ?_, nofun, fun j => ?_, fun j place stands => ?_⟩
      · rintro j ⟨⟩
        exact List.mem_of_mem_head? first
      · show j ∈ (RankedQueue.Ranks.dropped q id r).waiters ↔ j ∈ q.waiters ∧ _
        rw [(ranks.drop found).mem_waiters, RankedQueue.Ranks.place?_dropped, ranks.mem_waiters, ne_eq, Option.some.injEq]
        split
        · rename_i here
          simp [here]
        · rename_i other
          rw [and_iff_left (Ne.symm other)]
      · rw [place?, RankedQueue.Ranks.place?_dropped] at stands
        split at stands
        · cases stands
        · exact stands

theorem takes_banded {q : BandedQueue} (bands : q.Bands threads pending) :
    q.popFirst.2.limits = q.limits ∧ q.popFirst.2.Bands threads pending ∧
      (banded q).Takes q.popFirst.1 (.banded q.popFirst.2) := by
  cases popped : q.popFirst.1 with
  | none =>
      obtain ⟨empty, same⟩ := BandedQueue.Bands.popFirst_eq_none popped
      rw [same]
      exact ⟨rfl, bands, nofun, fun _ => empty, fun j => by simp, nofun⟩
  | some id =>
      obtain ⟨band, rest, first, dropped⟩ := BandedQueue.Bands.popFirst_eq_some popped
      obtain ⟨after, mem⟩ := bands.tail first
      rw [dropped]
      refine ⟨q.limits_setLine band rest, after, ?_, nofun, fun j => ?_, nofun⟩
      · rintro j ⟨⟩
        exact (q.mem_waiters id).mpr ⟨band, first ▸ List.mem_cons_self⟩
      · refine (mem j).trans (and_congr_right fun _ => ?_)
        rw [ne_eq, ne_eq, Option.some.injEq, eq_comm]

theorem Takes.of_same {first second rest : Discipline} {next : Option ThreadId} (takes : second.Takes next rest)
    (mem : ∀ j, j ∈ second.waiters ↔ j ∈ first.waiters) (place? : ∀ j, second.place? j = first.place? j) :
    first.Takes next rest where
  member id some := (mem id).mp (takes.member id some)
  none empty := List.eq_nil_iff_forall_not_mem.mpr fun j member => by
    have waits := (mem j).mpr member
    rw [takes.none empty] at waits
    cases waits
  mem j := (takes.mem j).trans (and_congr_left fun _ => mem j)
  places j place stands := (place? j).symm.trans (takes.places j place stands)

theorem Ordered.select {now : Ticks} {m : Noted (Selection Discipline)}
    (ordered : d.Ordered config threads pending) (done : d.select threads now = .ok m) :
    m.value.queue.Ordered config m.value.threads pending ∧ d.Takes m.value.next m.value.queue := by
  cases d with
  | strict q =>
      cases done
      obtain ⟨ranks, takes⟩ := takes_ranked ordered.2
      exact ⟨⟨ordered.1, ranks⟩, takes⟩
  | aging q =>
      obtain ⟨k, selected, rfl⟩ := map_eq_ok.mp done
      obtain ⟨n, all, value⟩ := RankedQueue.selectAged_ok selected
      simp only [wrap, value]
      split
      · obtain ⟨ranks, takes⟩ := takes_ranked (ordered.2.rebuild n.value.threads)
        refine ⟨⟨ordered.1, ranks.congr fun _ _ _ => ⟨not_false, rfl⟩⟩,
          .of_same ⟨takes.member, takes.none, takes.mem, takes.places⟩ (fun j => ?_) fun j =>
          ordered.2.place?_rebuild n.value.threads j⟩
        show j ∈ (q.rebuild n.value.threads).waiters ↔ j ∈ q.waiters
        rw [(ordered.2.rebuild n.value.threads).mem_waiters, ordered.2.place?_rebuild, ordered.2.mem_waiters]
      · rename_i still
        have same := ThreadRegistry.effective_ageAll all (Bool.not_eq_true _ ▸ still)
        obtain ⟨ranks, takes⟩ := takes_ranked (ordered.2.congr fun j _ settled => ⟨settled, same j⟩)
        exact ⟨⟨ordered.1, ranks⟩, takes.member, takes.none, takes.mem, takes.places⟩
  | banded q =>
      obtain ⟨k, selected, rfl⟩ := map_eq_ok.mp done
      obtain ⟨n, all, value⟩ := BandedQueue.selectAged_ok selected
      simp only [wrap, value]
      split
      · obtain ⟨limits, bands, takes⟩ := takes_banded (ordered.2.2.migrate n.value.threads)
        refine ⟨⟨ordered.1, ?_, bands.congr fun _ _ _ => ⟨not_false, rfl⟩⟩, .of_same takes (fun j => ?_) fun _ => rfl⟩
        · rw [limits, BandedQueue.Bands.limits_migrate, ordered.2.1]
        · exact BandedQueue.Bands.mem_migrate q n.value.threads j
      · rename_i still
        have same := ThreadRegistry.effective_ageAll all (Bool.not_eq_true _ ▸ still)
        obtain ⟨limits, bands, takes⟩ := takes_banded (ordered.2.2.congr fun j _ settled => ⟨settled, same j⟩)
        exact ⟨⟨ordered.1, limits.trans ordered.2.1, bands⟩, takes⟩

theorem Ordered.look_select {now : Ticks} {m : Noted (Selection Discipline)} {s : ThreadState}
    (ordered : d.Ordered config threads pending) (ages : config.policy.ages = true) (waits : j ∈ d.waiters)
    (found : threads.get? j = some s) (done : d.select threads now = .ok m) :
    ∃ k, s.ageWaiting threads.config.agingStep threads.config now = .ok k ∧
      m.value.threads.get? j = some k.value.state := by
  have once := ordered.nodup_waiters
  obtain ⟨n, all, aged⟩ : ∃ n, ThreadRegistry.ageAll now d.waiters threads = .ok n ∧ m.value.threads = n.value.threads := by
    cases d with
    | strict q =>
        rw [ordered.1] at ages
        cases ages
    | aging q =>
        obtain ⟨k, selected, rfl⟩ := map_eq_ok.mp done
        obtain ⟨n, all, value⟩ := RankedQueue.selectAged_ok selected
        exact ⟨n, all, congrArg Selection.threads value⟩
    | banded q =>
        obtain ⟨k, selected, rfl⟩ := map_eq_ok.mp done
        obtain ⟨n, all, value⟩ := BandedQueue.selectAged_ok selected
        exact ⟨n, all, congrArg Selection.threads value⟩
  rw [aged]
  exact ThreadRegistry.get?_ageAll_of_mem once waits found all

/-- Who is taken by rank is more urgent than any other, or as urgent and first in line. -/
def Precedes (d : Discipline) (threads : ThreadRegistry) (id j : ThreadId) : Prop :=
  threads.effective id < threads.effective j ∨ threads.effective id = threads.effective j ∧
    ∃ place place', d.place? id = some place ∧ d.place? j = some place' ∧ place < place'

theorem precedes_popFirst {q : RankedQueue} (ranks : q.Ranks threads fun _ => False) (waits : j ∈ q.waiters) :
    ∃ id, q.popFirst.1 = some id ∧ (id = j ∨ (strict q).Precedes threads id j) := by
  rw [ranks.mem_waiters, RankedQueue.place?, Option.isSome_map] at waits
  obtain ⟨r', found'⟩ := Option.isSome_iff_exists.mp waits
  obtain ⟨id, r, popped, found, order⟩ := ranks.rank_popFirst found'
  rw [ranks.agrees id r found not_false, ranks.agrees j r' found' not_false] at order
  refine ⟨id, popped, order.imp_right (.imp_right fun both => ⟨both.1, r.place, r'.place, ?_, ?_, both.2⟩)⟩
  · rw [place?, RankedQueue.place?, found, Option.map_some]
  · rw [place?, RankedQueue.place?, found', Option.map_some]

theorem Ordered.first_select {now : Ticks} {m : Noted (Selection Discipline)}
    (ordered : d.Ordered config threads fun _ => False) (ranked : config.policy ≠ .multilevel)
    (done : d.select threads now = .ok m) (waits : j ∈ d.waiters) :
    ∃ id, m.value.next = some id ∧ (id = j ∨ d.Precedes m.value.threads id j) := by
  cases d with
  | strict q =>
      cases done
      exact precedes_popFirst ordered.2 waits
  | aging q =>
      obtain ⟨k, selected, rfl⟩ := map_eq_ok.mp done
      obtain ⟨n, all, value⟩ := RankedQueue.selectAged_ok selected
      simp only [wrap, value]
      split
      · have ranks := ordered.2.rebuild n.value.threads
        have place? := ordered.2.place?_rebuild n.value.threads
        have inside : j ∈ (q.rebuild n.value.threads).waiters := by
          rw [ranks.mem_waiters, place?, ← ordered.2.mem_waiters]
          exact waits
        simpa only [Precedes, Discipline.place?, place?] using precedes_popFirst ranks inside
      · rename_i still
        have same := ThreadRegistry.effective_ageAll all (Bool.not_eq_true _ ▸ still)
        exact precedes_popFirst (ordered.2.congr fun j _ settled => ⟨settled, same j⟩) waits
  | banded q => exact absurd ordered.1 ranked

theorem head?_select {now : Ticks} {m : Noted (Selection Discipline)} (ordered : d.Ordered config threads pending)
    (strict : config.policy = .strict) (done : d.select threads now = .ok m) : m.value.next = d.waiters.head? := by
  cases d with
  | strict q =>
      cases done
      show q.popFirst.1 = q.waiters.head?
      cases popped : q.popFirst.1 with
      | none => rw [(RankedQueue.Ranks.popFirst_eq_none popped).1, List.head?_nil]
      | some id => rw [(ordered.2.popFirst_eq_some popped).1]
  | aging q => cases strict.symm.trans ordered.1
  | banded q => cases strict.symm.trans ordered.1

end Discipline

end PriorityScheduler
