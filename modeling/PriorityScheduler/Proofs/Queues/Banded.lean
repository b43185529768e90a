import Mathlib.Data.List.Basic
import PriorityScheduler.Proofs.Registries
import PriorityScheduler.Queue.Banded

namespace PriorityScheduler

namespace BandedQueue

variable {q : BandedQueue} {threads threads' : ThreadRegistry} {pending pending' : ThreadId → Prop} {id j : ThreadId}
  {band : Band}

/-- Every waiter stands once in one band, and it is the right one but for threads that are still to be brought to their
new positions. -/
structure Bands (q : BandedQueue) (threads : ThreadRegistry) (pending : ThreadId → Prop) : Prop where
  nodup : ∀ band, (q.line band).Nodup
  apart : ∀ band band' id, id ∈ q.line band → id ∈ q.line band' → band = band'
  agrees : ∀ band id, id ∈ q.line band → ¬pending id → q.target threads id = band

theorem mem_waiters (q : BandedQueue) (id : ThreadId) : id ∈ q.waiters ↔ ∃ band, id ∈ q.line band := by
  simp only [waiters, List.mem_append]
  constructor
  · rintro ((hot | normal) | cold)
    · exact ⟨.hot, hot⟩
    · exact ⟨.normal, normal⟩
    · exact ⟨.cold, cold⟩
  · rintro ⟨band, member⟩
    cases band with
    | hot => exact .inl (.inl member)
    | normal => exact .inl (.inr member)
    | cold => exact .inr member

@[simp] theorem line_setLine (q : BandedQueue) (band b : Band) (ids : List ThreadId) :
    (q.setLine band ids).line b = if b = band then ids else q.line b := by
  cases band <;> cases b <;> rfl

@[simp] theorem limits_setLine (q : BandedQueue) (band : Band) (ids : List ThreadId) :
    (q.setLine band ids).limits = q.limits := by
  cases band <;> rfl

theorem line_append (q : BandedQueue) (band b : Band) (id : ThreadId) :
    (q.append band id).line b = if b = band then q.line band ++ [id] else q.line b :=
  q.line_setLine band b _

@[simp] theorem limits_append (q : BandedQueue) (band : Band) (id : ThreadId) :
    (q.append band id).limits = q.limits :=
  q.limits_setLine band _

theorem bandOf?_eq_none (none : q.bandOf? id = none) : id ∉ q.waiters := by
  rw [bandOf?, List.find?_eq_none] at none
  rw [mem_waiters]
  rintro ⟨band, member⟩
  have all : band ∈ Band.all := by cases band <;> decide
  exact none band all (decide_eq_true member)

theorem mem_of_bandOf? (some : q.bandOf? id = some band) : id ∈ q.line band := by
  simpa using List.find?_some some

namespace Bands

theorem congr (bands : q.Bands threads pending)
    (moved : ∀ id ∈ q.waiters, ¬pending' id → ¬pending id ∧ threads'.effective id = threads.effective id) :
    q.Bands threads' pending' where
  nodup := bands.nodup
  apart := bands.apart
  agrees band id member settled := by
    obtain ⟨before, same⟩ := moved id ((mem_waiters q id).mpr ⟨band, member⟩) settled
    rw [target, same]
    exact bands.agrees band id member before

theorem nodup_waiters (bands : q.Bands threads pending) : q.waiters.Nodup := by
  have disjoint (b b' : Band) (other : b ≠ b') : ∀ id ∈ q.line b, ∀ j ∈ q.line b', id ≠ j := by
    rintro id first j second rfl
    exact other (bands.apart b b' id first second)
  rw [waiters, List.nodup_append, List.nodup_append]
  refine ⟨⟨bands.nodup .hot, bands.nodup .normal, disjoint .hot .normal (by decide)⟩, bands.nodup .cold,
    fun id member j cold => ?_⟩
  rcases List.mem_append.mp member with hot | normal
  · exact disjoint .hot .cold (by decide) id hot j cold
  · exact disjoint .normal .cold (by decide) id normal j cold

theorem append (bands : q.Bands threads pending) (absent : id ∉ q.waiters) :
    (q.append (q.target threads id) id).Bands threads fun j => pending j ∧ j ≠ id := by
  rw [mem_waiters, not_exists] at absent
  refine ⟨fun b => ?_, fun b b' j first second => ?_, fun b j member settled => ?_⟩
  · rw [line_append]
    split
    · exact List.nodup_append.mpr ⟨bands.nodup _, by simp, by
        rintro j member k here rfl
        rw [List.mem_singleton] at here
        exact absent _ (here ▸ member)⟩
    · exact bands.nodup b
  · rw [line_append] at first second
    grind [bands.apart b b' j]
  · rw [line_append] at member
    rw [target, limits_append]
    by_cases here : j = id
    · rw [here] at member ⊢
      split at member
      · rename_i same
        exact same.symm
      · exact absurd member (absent b)
    · refine bands.agrees b j ?_ fun before => settled ⟨before, here⟩
      split at member
      · rename_i same
        rw [same]
        simpa [here] using member
      · exact member

theorem without (bands : q.Bands threads pending) (band : Band) (id : ThreadId) :
    (q.setLine band ((q.line band).filter (· ≠ id))).Bands threads pending := by
  have sub {b : Band} {j : ThreadId} (member : j ∈ (q.setLine band ((q.line band).filter (· ≠ id))).line b) :
      j ∈ q.line b := by
    rw [line_setLine] at member
    split at member
    · rename_i same
      rw [same]
      exact List.mem_of_mem_filter member
    · exact member
  refine ⟨fun b => ?_, fun b b' j first second => bands.apart b b' j (sub first) (sub second),
    fun b j member settled => ?_⟩
  · rw [line_setLine]
    split
    · exact (bands.nodup band).filter _
    · exact bands.nodup b
  · rw [target, limits_setLine]
    exact bands.agrees b j (sub member) settled

theorem reposition (bands : q.Bands threads pending) (id : ThreadId) :
    (q.reposition id threads).Bands threads fun j => pending j ∧ j ≠ id := by
  unfold BandedQueue.reposition
  cases found : q.bandOf? id with
  | none =>
      refine ⟨bands.nodup, bands.apart, fun b j member settled => ?_⟩
      refine bands.agrees b j member fun before => settled ⟨before, ?_⟩
      rintro rfl
      exact bandOf?_eq_none found ((mem_waiters q j).mpr ⟨b, member⟩)
  | some current =>
      have stands := mem_of_bandOf? found
      simp only
      split
      · rename_i same
        refine ⟨bands.nodup, bands.apart, fun b j member settled => ?_⟩
        by_cases here : j = id
        · rw [here] at member ⊢
          rw [same]
          exact bands.apart current b id stands member
        · exact bands.agrees b j member fun before => settled ⟨before, here⟩
      · have left := bands.without current id
        have absent : id ∉ (q.setLine current ((q.line current).filter (· ≠ id))).waiters := by
          rw [mem_waiters]
          rintro ⟨b, member⟩
          rw [line_setLine] at member
          split at member
          · simp at member
          · rename_i other
            exact other (bands.apart b current id member stands)
        have appended := left.append absent
        rw [target, limits_setLine] at appended
        exact appended

theorem limits_reposition (q : BandedQueue) (id : ThreadId) (threads : ThreadRegistry) :
    (q.reposition id threads).limits = q.limits := by
  unfold BandedQueue.reposition
  split
  · rfl
  · simp only
    split
    · rfl
    · rw [limits_append, limits_setLine]

theorem mem_reposition (q : BandedQueue) (id : ThreadId) (threads : ThreadRegistry) (j : ThreadId) :
    j ∈ (q.reposition id threads).waiters ↔ j ∈ q.waiters := by
  unfold BandedQueue.reposition
  cases found : q.bandOf? id with
  | none => rfl
  | some current =>
      have stands := mem_of_bandOf? found
      simp only
      split
      · rfl
      · simp only [mem_waiters, line_append, line_setLine]
        constructor
        · rintro ⟨b, member⟩
          grind
        · rintro ⟨b, member⟩
          by_cases here : j = id
          · exact ⟨q.target threads id, by simp [here]⟩
          · exact ⟨b, by grind⟩

theorem enqueue (bands : q.Bands threads pending) (id : ThreadId) :
    (q.enqueue id threads).Bands threads fun j => pending j ∧ j ≠ id := by
  unfold BandedQueue.enqueue
  split
  · exact bands.reposition id
  · rename_i absent
    rw [contains, decide_eq_true_eq] at absent
    exact bands.append absent

theorem limits_enqueue (q : BandedQueue) (id : ThreadId) (threads : ThreadRegistry) :
    (q.enqueue id threads).limits = q.limits := by
  unfold BandedQueue.enqueue
  split
  · exact limits_reposition q id threads
  · exact q.limits_append _ id

theorem mem_enqueue (q : BandedQueue) (id : ThreadId) (threads : ThreadRegistry) (j : ThreadId) :
    j ∈ (q.enqueue id threads).waiters ↔ j = id ∨ j ∈ q.waiters := by
  unfold BandedQueue.enqueue
  split
  · rename_i present
    rw [contains, decide_eq_true_eq] at present
    rw [mem_reposition, or_iff_right_of_imp]
    rintro rfl
    exact present
  · simp only [mem_waiters, line_append]
    constructor
    · rintro ⟨b, member⟩
      grind
    · rintro (rfl | ⟨b, member⟩)
      · exact ⟨q.target threads j, by simp⟩
      · exact ⟨b, by grind⟩

theorem line_remove (q : BandedQueue) (id : ThreadId) (b : Band) :
    (q.remove id).2.line b = (q.line b).filter (· ≠ id) := by
  cases b <;> rfl

theorem remove (bands : q.Bands threads pending) (id : ThreadId) : (q.remove id).2.Bands threads pending where
  nodup b := by
    rw [line_remove]
    exact (bands.nodup b).filter _
  apart b b' j first second := by
    rw [line_remove] at first second
    exact bands.apart b b' j (List.mem_of_mem_filter first) (List.mem_of_mem_filter second)
  agrees b j member settled := by
    rw [line_remove] at member
    exact bands.agrees b j (List.mem_of_mem_filter member) settled

theorem mem_remove (q : BandedQueue) (id j : ThreadId) : j ∈ (q.remove id).2.waiters ↔ j ∈ q.waiters ∧ j ≠ id := by
  simp only [mem_waiters, line_remove, List.mem_filter, decide_eq_true_eq, exists_and_right]

theorem fst_remove (q : BandedQueue) (id : ThreadId) : (q.remove id).1 = true ↔ id ∈ q.waiters := by
  have rest : (q.remove id).2.length = (q.waiters.filter (· ≠ id)).length := by
    simp only [length, BandedQueue.remove, waiters, List.filter_append, List.length_append]
  have all : q.length = q.waiters.length := by simp only [length, waiters, List.length_append]
  have found : (q.remove id).1 = ((q.remove id).2.length != q.length) := rfl
  rw [found, bne_iff_ne, rest, all, ne_eq, List.length_filter_eq_length_iff]
  simp only [decide_eq_true_eq, not_forall, not_not, exists_prop, exists_eq_right]

theorem line_foldl_append (moving : List (ThreadId × Band)) (q : BandedQueue) (b : Band) :
    (moving.foldl (fun q (id, band) => q.append band id) q).line b =
      q.line b ++ (moving.filter fun e => e.2 = b).map (·.1) := by
  induction moving generalizing q with
  | nil => simp
  | cons e rest ih =>
      rw [List.foldl_cons, ih, line_append, List.filter_cons]
      by_cases here : e.2 = b
      · simp [here]
      · simp [here, Ne.symm here]

theorem limits_foldl_append (moving : List (ThreadId × Band)) (q : BandedQueue) :
    (moving.foldl (fun q (id, band) => q.append band id) q).limits = q.limits := by
  induction moving generalizing q with
  | nil => rfl
  | cons e rest ih => rw [List.foldl_cons, ih, limits_append]

theorem limits_migrate (q : BandedQueue) (threads : ThreadRegistry) : (q.migrate threads).value.limits = q.limits :=
  limits_foldl_append _ _

theorem mem_movers (q : BandedQueue) (threads : ThreadRegistry) (e : ThreadId × Band) :
    e ∈ Band.all.flatMap (q.movers threads) ↔
      e.2 = q.target threads e.1 ∧ ∃ b, e.1 ∈ q.line b ∧ q.target threads e.1 ≠ b := by
  have all (b : Band) : b ∈ Band.all := by cases b <;> decide
  simp only [List.mem_flatMap, movers, List.mem_map, List.mem_filter, decide_eq_true_eq]
  constructor
  · rintro ⟨b, -, id, both, rfl⟩
    exact ⟨rfl, b, both⟩
  · rintro ⟨target, b, both⟩
    exact ⟨b, all b, e.1, both, Prod.ext rfl target.symm⟩

theorem line_migrate (q : BandedQueue) (threads : ThreadRegistry) (b : Band) :
    (q.migrate threads).value.line b = q.stayers threads b ++
      ((Band.all.flatMap (q.movers threads)).filter fun e => e.2 = b).map (·.1) := by
  apply (line_foldl_append _ _ b).trans
  cases b <;> rfl

theorem mem_line_migrate (q : BandedQueue) (threads : ThreadRegistry) (b : Band) (id : ThreadId) :
    id ∈ (q.migrate threads).value.line b ↔ q.target threads id = b ∧ id ∈ q.waiters := by
  rw [line_migrate, List.mem_append, mem_waiters]
  simp only [stayers, List.mem_filter, decide_eq_true_eq, List.mem_map, mem_movers]
  constructor
  · rintro (⟨member, target⟩ | ⟨e, ⟨⟨target, b', member, -⟩, here⟩, rfl⟩)
    · exact ⟨target, b, member⟩
    · exact ⟨target.symm.trans here, b', member⟩
  · rintro ⟨target, b', member⟩
    by_cases same : b' = b
    · exact .inl ⟨same ▸ member, target⟩
    · exact .inr ⟨(id, b), ⟨⟨target.symm, b', member, fun here => same (here.symm.trans target)⟩, rfl⟩, rfl⟩

theorem mem_migrate (q : BandedQueue) (threads : ThreadRegistry) (id : ThreadId) :
    id ∈ (q.migrate threads).value.waiters ↔ id ∈ q.waiters := by
  rw [mem_waiters]
  simp only [mem_line_migrate, exists_and_right, exists_eq', true_and]

theorem migrate (bands : q.Bands threads pending) (threads' : ThreadRegistry) :
    (q.migrate threads').value.Bands threads' fun _ => False where
  nodup b := by
    rw [line_migrate]
    have movers : ((Band.all.flatMap (q.movers threads')).map (·.1)).Nodup := by
      refine bands.nodup_waiters.sublist ?_
      simp only [Band.all, List.flatMap_cons, List.flatMap_nil, List.append_nil, List.map_append, BandedQueue.movers,
        List.map_map, Function.comp_def, List.map_id', waiters, line, ← List.append_assoc]
      exact (List.filter_sublist.append List.filter_sublist).append List.filter_sublist
    refine List.nodup_append.mpr ⟨(bands.nodup b).filter _, movers.sublist (List.filter_sublist.map _), ?_⟩
    rintro id stays j moves rfl
    simp only [stayers, List.mem_filter, decide_eq_true_eq] at stays
    simp only [List.mem_map, List.mem_filter, mem_movers, decide_eq_true_eq] at moves
    obtain ⟨e, ⟨⟨-, b', member, other⟩, -⟩, rfl⟩ := moves
    exact other (stays.2.trans (bands.apart b b' e.1 stays.1 member))
  apart b b' id first second := by
    rw [mem_line_migrate] at first second
    exact first.1.symm.trans second.1
  agrees b id member _ := by
    rw [mem_line_migrate] at member
    rw [target, limits_migrate]
    exact member.1

theorem popFirst_eq_none (popped : q.popFirst.1 = none) : q.waiters = [] ∧ q.popFirst.2 = q := by
  unfold popFirst at popped ⊢
  split at popped
  · cases popped
  · cases popped
  · cases popped
  · rename_i hot normal cold
    simp [waiters, hot, normal, cold]

theorem popFirst_eq_some (popped : q.popFirst.1 = some id) :
    ∃ band rest, q.line band = id :: rest ∧ q.popFirst.2 = q.setLine band rest := by
  unfold popFirst at popped ⊢
  split at popped
  · rename_i rest hot
    cases popped
    exact ⟨.hot, rest, hot, rfl⟩
  · rename_i rest hot normal
    cases popped
    exact ⟨.normal, rest, normal, by simp [setLine, hot]⟩
  · rename_i rest hot normal cold
    cases popped
    exact ⟨.cold, rest, cold, by simp [setLine, hot, normal]⟩
  · cases popped

theorem tail (bands : q.Bands threads pending) {rest : List ThreadId} (first : q.line band = id :: rest) :
    (q.setLine band rest).Bands threads pending ∧
      ∀ j, j ∈ (q.setLine band rest).waiters ↔ j ∈ q.waiters ∧ j ≠ id := by
  have once := bands.nodup band
  rw [first, List.nodup_cons] at once
  have equal : rest = (q.line band).filter (· ≠ id) := by
    rw [first, List.filter_cons_of_neg (by simp), eq_comm, List.filter_eq_self]
    rintro j member
    simp only [decide_eq_true_eq]
    rintro rfl
    exact once.1 member
  rw [equal]
  refine ⟨bands.without band id, fun j => ?_⟩
  have stands : id ∈ q.line band := first ▸ List.mem_cons_self
  simp only [mem_waiters, line_setLine]
  constructor
  · rintro ⟨b, member⟩
    split at member
    · simp only [List.mem_filter, decide_eq_true_eq] at member
      exact ⟨⟨band, member.1⟩, member.2⟩
    · rename_i other
      refine ⟨⟨b, member⟩, ?_⟩
      rintro rfl
      exact other (bands.apart b band j member stands)
  · rintro ⟨⟨b, member⟩, other⟩
    refine ⟨b, ?_⟩
    split
    · rename_i same
      simpa [other] using same ▸ member
    · exact member

end Bands

end BandedQueue

end PriorityScheduler
