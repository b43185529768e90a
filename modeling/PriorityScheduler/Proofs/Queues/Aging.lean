import PriorityScheduler.Proofs.Queues.Admission
import PriorityScheduler.Proofs.Queues.Settled
import PriorityScheduler.Proofs.Timeless

namespace PriorityScheduler

namespace RankedQueue

variable {q : RankedQueue} {threads threads' : ThreadRegistry} {pending : ThreadId → Prop} {line : Line} {now : Ticks}

/-- A selection that ranks all waiters anew whether a priority changed or not. -/
def selectRebuilt (q : RankedQueue) (threads : ThreadRegistry) (now : Ticks) :
    Except Fault (Noted (Selection RankedQueue)) := do
  let aged ← ThreadRegistry.ageAll now q.waiters threads
  let threads := aged.value.threads
  let (next, queue) := (q.rebuild threads).popFirst
  pure ⟨⟨next, queue, threads⟩, aged.notices⟩

theorem Ranks.rebuild_eq (ranks : q.Ranks threads fun _ => False) : q.rebuild threads = q := by
  have index : (q.rebuild threads).index = q.index := SortedMap.ext_get? fun j => by
    rw [ranks.get?_rebuild]
    cases found : q.index.get? j with
    | none => rfl
    | some r => rw [Option.map_some, ← ranks.agrees j r found not_false]
  have order : (q.rebuild threads).order = q.order := SortedMap.ext_get? fun r => Option.ext fun j => by
    rw [← (ranks.rebuild threads).inverse, index, ranks.inverse]
  have nextPlace : (q.rebuild threads).nextPlace = q.nextPlace := (ranks.index_rebuild threads).nextPlace
  calc q.rebuild threads
    _ = ⟨(q.rebuild threads).order, (q.rebuild threads).index, (q.rebuild threads).nextPlace⟩ := rfl
    _ = q := by rw [order, index, nextPlace]

theorem selectAged_eq_selectRebuilt (ranks : q.Ranks threads fun _ => False) (now : Ticks) :
    q.selectAged threads now = q.selectRebuilt threads now := by
  unfold selectAged selectRebuilt
  cases done : ThreadRegistry.ageAll now q.waiters threads with
  | error f => rfl
  | ok n =>
      cases changed : n.value.changed with
      | true => simp only [bind, Except.bind, changed, if_true]
      | false =>
          have still : q.Ranks n.value.threads fun _ => False :=
            ranks.congr fun id _ _ => ⟨not_false, ThreadRegistry.effective_ageAll done changed id⟩
          simp only [bind, Except.bind, changed, Bool.false_eq_true, if_false, still.rebuild_eq]

structure Drawn (q : RankedQueue) (threads : ThreadRegistry) (line : List ThreadId) (now : Ticks)
    (n : Selection RankedQueue) : Prop where
  aged : threads.Aged q.waiters now n.threads
  next_eq_none : n.next = none ↔ q.waiters = []
  least : ∀ id, n.next = some id → id ∈ q.waiters ∧ ∀ j ∈ q.waiters, j = id ∨
    n.threads.effective id < n.threads.effective j ∨
      n.threads.effective id = n.threads.effective j ∧ line.idxOf id < line.idxOf j
  waiters : n.next.toList ++ n.queue.waiters =
    line.mergeSort fun a b => n.threads.effective a ≤ n.threads.effective b
  index : ∀ j, n.queue.index.get? j =
    if n.next = some j then none else (q.index.get? j).map fun r => ⟨n.threads.effective j, r.place⟩
  ranks : n.queue.Ranks n.threads fun _ => False

theorem toList_popFirst (q : RankedQueue) : q.popFirst.1.toList ++ q.popFirst.2.waiters = q.waiters := by
  unfold popFirst
  cases first : q.order.popFirst? with
  | none => rfl
  | some pair => exact (SortedMap.popFirst?_eq_some first).2.1.symm

theorem Follows.lined (follows : q.Follows threads line) : Lined q.place? q.waiters line.ids where
  mem id waits := by
    rw [follows.mem_ids]
    rw [follows.ranks.mem_waiters, place?, Option.isSome_map] at waits
    exact waits
  sorted := by
    refine List.pairwise_map.mpr (follows.ascends.imp fun {a b} before p p' first second => ?_)
    obtain ⟨r, found, rfl⟩ := Option.map_eq_some_iff.mp first
    obtain ⟨r', found', rfl⟩ := Option.map_eq_some_iff.mp second
    exact before r r' found found'

theorem Ranks.mem_rebuild (ranks : q.Ranks threads pending) (id : ThreadId) :
    id ∈ (q.rebuild threads').waiters ↔ id ∈ q.waiters := by
  rw [(ranks.rebuild threads').mem_waiters, ranks.place?_rebuild, ranks.mem_waiters]

theorem Ranks.get?_popFirst (ranks : q.Ranks threads pending) (j : ThreadId) :
    q.popFirst.2.index.get? j = if q.popFirst.1 = some j then none else q.index.get? j := by
  cases popped : q.popFirst.1 with
  | none => rw [(Ranks.popFirst_eq_none popped).2, if_neg nofun]
  | some id =>
      obtain ⟨-, r, found, dropped⟩ := ranks.popFirst_eq_some popped
      rw [dropped, Ranks.dropped, SortedMap.get?_erase_eq]
      simp only [Option.some.injEq, eq_comm]

theorem Follows.waiters_rebuild (follows : q.Follows threads line) (threads' : ThreadRegistry) :
    (q.rebuild threads').waiters = line.ids.mergeSort fun a b => threads'.effective a ≤ threads'.effective b := by
  rw [(follows.reread threads').rebuild.waiters_eq, Line.ids_sorted _ threads', Line.ids_hear]
  intro id p member
  obtain ⟨before, -, same⟩ := Line.mem_hear.mp member
  exact same

theorem Follows.pairwise_rebuild (follows : q.Follows threads line) (threads' : ThreadRegistry) :
    (q.rebuild threads').waiters.Pairwise fun a b => threads'.effective a < threads'.effective b ∨
      threads'.effective a = threads'.effective b ∧ line.ids.idxOf a < line.ids.idxOf b := by
  have lined := (follows.reread threads').rebuild.lined
  rw [Line.ids_hear] at lined
  exact pairwise_waiters (follows.ranks.rebuild threads') lined

theorem drawn_rebuild (follows : q.Follows threads line) (aged : threads.Aged q.waiters now threads') :
    q.Drawn threads line.ids now ⟨(q.rebuild threads').popFirst.1, (q.rebuild threads').popFirst.2, threads'⟩ := by
  have ranks := follows.ranks.rebuild threads'
  have first := (follows.reread threads').rebuild.popFirst_eq
  have same (id : ThreadId) : id ∈ (q.rebuild threads').waiters ↔ id ∈ q.waiters := follows.ranks.mem_rebuild id
  refine ⟨aged, ?_, fun id next => ?_, ?_, fun j => ?_, (Discipline.takes_ranked ranks).1⟩
  · rw [first, List.head?_eq_none_iff, List.eq_nil_iff_forall_not_mem, List.eq_nil_iff_forall_not_mem]
    exact forall_congr' fun id => not_congr (same id)
  · obtain ⟨rest, waiters⟩ := List.head?_eq_some_iff.mp (first.symm.trans next)
    have least := follows.pairwise_rebuild threads'
    rw [waiters] at same least
    refine ⟨(same id).mp List.mem_cons_self, fun j waits => ?_⟩
    exact (List.mem_cons.mp ((same j).mpr waits)).imp_right ((List.pairwise_cons.mp least).1 j)
  · exact (toList_popFirst _).trans (follows.waiters_rebuild threads')
  · rw [ranks.get?_popFirst, follows.ranks.get?_rebuild]

theorem drawn_selectAged (follows : q.Follows threads line) (ranks : q.Ranks threads fun _ => False) (now : Ticks) :
    (∃ n, q.selectAged threads now = .ok n ∧ q.Drawn threads line.ids now n.value) ∨
      ∃ f, q.selectAged threads now = .error f ∧ threads.Stuck q.waiters now f := by
  rw [selectAged_eq_selectRebuilt ranks, selectRebuilt]
  rcases ThreadRegistry.ageAll_cases ranks.nodup_waiters threads now with ⟨n, done, aged⟩ | ⟨f, failed, stuck⟩
  · rw [done]
    exact .inl ⟨_, rfl, drawn_rebuild follows aged⟩
  · rw [failed]
    exact .inr ⟨f, rfl, stuck⟩

theorem Follows.selectAged {m : Noted (Selection RankedQueue)} (follows : q.Follows threads line)
    (done : q.selectAged threads now = .ok m) :
    ∃ line', m.value.queue.Follows m.value.threads line' ∧
      line'.ids = line.ids.filter fun id => m.value.next ≠ some id := by
  obtain ⟨n, -, value⟩ := selectAged_ok done
  have reread := follows.reread n.value.threads
  rw [value]
  split
  · refine ⟨_, reread.rebuild.popFirst, ?_⟩
    rw [← line.ids_hear (fun _ => true) n.value.threads]
    exact Line.ids_filter _ fun id => (q.rebuild n.value.threads).popFirst.1 ≠ some id
  · exact ⟨_, reread.popFirst, line.ids_filter fun id => q.popFirst.1 ≠ some id⟩

theorem selectAged_still (still : threads.config.agingStep = 0) (q : RankedQueue) (now : Ticks) :
    q.selectAged threads now = .ok ⟨⟨q.popFirst.1, q.popFirst.2, threads⟩, []⟩ := by
  rw [selectAged, ThreadRegistry.ageAll_still still]
  rfl

end RankedQueue

inductive Request where
  | enqueue (id : ThreadId)
  | reposition (id : ThreadId)
  | remove (id : ThreadId)
  | select (now : Ticks)
  | reprice (states : SortedMap ThreadId ThreadState)

inductive Answer where
  | done
  | removed (found : Bool)
  | selected (next : Option ThreadId) (notices : List Notice)

/-- A discipline with the threads that it reads, and the order in which its waiters were admitted. -/
structure Hall where
  discipline : Discipline
  threads : ThreadRegistry
  line : List ThreadId

namespace Hall

def answer (h : Hall) : Request → Except Fault (Answer × Hall)
  | .enqueue id =>
      .ok (.done, ⟨h.discipline.enqueue id h.threads, h.threads, WaitQueue.lineUp h.line id⟩)
  | .reposition id => .ok (.done, { h with discipline := h.discipline.reposition id h.threads })
  | .remove id =>
      .ok (.removed (h.discipline.remove id).1, ⟨(h.discipline.remove id).2, h.threads, h.line.filter (· ≠ id)⟩)
  | .select now => do
      let n ← h.discipline.select h.threads now
      pure (.selected n.value.next n.notices,
        ⟨n.value.queue, n.value.threads, h.line.filter fun id => n.value.next ≠ some id⟩)
  | .reprice states => .ok (.done, { h with threads.states := states })

def serve : List Request → Hall → Except Fault (List Answer × Hall)
  | [], h => .ok ([], h)
  | request :: rest, h => do
      let first ← h.answer request
      let later ← serve rest first.2
      pure (first.1 :: later.1, later.2)

def InLine (h : Hall) : Prop := ∃ q line, h.discipline = .aging q ∧ q.Follows h.threads line ∧ line.ids = h.line

theorem InLine.answer {h : Hall} {request : Request} {r : Answer × Hall} (inLine : h.InLine)
    (done : h.answer request = .ok r) : r.2.InLine := by
  obtain ⟨discipline, threads, ids⟩ := h
  obtain ⟨q, line, same, follows, lined⟩ := inLine
  dsimp only at same follows lined
  subst same lined
  cases request with
  | enqueue id =>
      cases done
      refine ⟨_, _, rfl, (follows.move (s := (line, threads)) (.enter id)).1, ?_⟩
      simp only [Line.move, WaitQueue.lineUp]
      split
      · exact line.ids_hear _ threads
      · rw [Line.ids, List.map_append]
        rfl
  | reposition id =>
      cases done
      exact ⟨_, _, rfl, follows.reposition id, line.ids_hear _ threads⟩
  | remove id =>
      cases done
      exact ⟨_, _, rfl, (follows.move (s := (line, threads)) (.remove id)).1, line.ids_filter (· ≠ id)⟩
  | select now =>
      obtain ⟨n, selected, made⟩ := bind_eq_ok.mp done
      cases made
      obtain ⟨m, aged, rfl⟩ := map_eq_ok.mp selected
      obtain ⟨line', follows', lined⟩ := follows.selectAged aged
      exact ⟨_, line', rfl, follows', lined⟩
  | reprice states =>
      cases done
      exact ⟨q, line, rfl, follows.reread _, rfl⟩

theorem InLine.serve {h : Hall} {requests : List Request} {r : List Answer × Hall} (inLine : h.InLine)
    (done : Hall.serve requests h = .ok r) : r.2.InLine := by
  induction requests generalizing h r with
  | nil =>
      cases done
      exact inLine
  | cons request rest ih =>
      obtain ⟨first, one, more⟩ := bind_eq_ok.mp done
      obtain ⟨later, all, made⟩ := bind_eq_ok.mp more
      cases made
      show later.2.InLine
      exact ih (inLine.answer one) all

theorem answer_still {threads : ThreadRegistry} (still : threads.config.agingStep = 0) (q : RankedQueue)
    (line : List ThreadId) (request : Request) :
    ∃ a q' threads' line', threads'.config = threads.config ∧
      Hall.answer ⟨.strict q, threads, line⟩ request = .ok (a, ⟨.strict q', threads', line'⟩) ∧
      Hall.answer ⟨.aging q, threads, line⟩ request = .ok (a, ⟨.aging q', threads', line'⟩) := by
  cases request with
  | enqueue id => exact ⟨_, _, _, _, rfl, rfl, rfl⟩
  | reposition id => exact ⟨_, _, _, _, rfl, rfl, rfl⟩
  | remove id => exact ⟨_, _, _, _, rfl, rfl, rfl⟩
  | select now =>
      refine ⟨_, _, _, _, rfl, rfl, ?_⟩
      simp only [answer, Discipline.select, RankedQueue.selectAged_still still]
      rfl
  | reprice states => exact ⟨_, _, { threads with states }, _, rfl, rfl, rfl⟩

theorem serve_still {threads : ThreadRegistry} (still : threads.config.agingStep = 0) (q : RankedQueue)
    (line : List ThreadId) (requests : List Request) :
    ∃ answers q' threads' line', serve requests ⟨.strict q, threads, line⟩ = .ok (answers, ⟨.strict q', threads', line'⟩) ∧
      serve requests ⟨.aging q, threads, line⟩ = .ok (answers, ⟨.aging q', threads', line'⟩) := by
  induction requests generalizing q threads line with
  | nil => exact ⟨[], q, threads, line, rfl, rfl⟩
  | cons request rest ih =>
      obtain ⟨a, q', threads', line', config, strict, aging⟩ := answer_still still q line request
      obtain ⟨answers, q'', threads'', line'', strict', aging'⟩ := ih (config ▸ still) q' line'
      exact ⟨a :: answers, q'', threads'', line'', bind_eq_ok.mpr ⟨_, strict, bind_eq_ok.mpr ⟨_, strict', rfl⟩⟩,
        bind_eq_ok.mpr ⟨_, aging, bind_eq_ok.mpr ⟨_, aging', rfl⟩⟩⟩

end Hall

/-- Whatever happened to an aging queue and to its threads before, if its ranks hold the effective priorities a selection
ages all waiters, hands out the least and lets the others wait on. Where nobody ages, the queue does what a strict one
does. -/
theorem RankedQueue.drawn_of_serve (requests : List Request) (threads : ThreadRegistry) :
    (∀ answers q threads' line,
      Hall.serve requests ⟨.aging {}, threads, []⟩ = .ok (answers, ⟨.aging q, threads', line⟩) →
      (∀ id r, q.index.get? id = some r → r.priority = threads'.effective id) → ∀ now,
        q.selectAged threads' now = q.selectRebuilt threads' now ∧
          ((∃ n, q.selectAged threads' now = .ok n ∧ q.Drawn threads' line now n.value) ∨
            ∃ f, q.selectAged threads' now = .error f ∧ threads'.Stuck q.waiters now f)) ∧
      (threads.config.agingStep = 0 → ∃ answers q threads' line,
        Hall.serve requests ⟨.strict {}, threads, []⟩ = .ok (answers, ⟨.strict q, threads', line⟩) ∧
          Hall.serve requests ⟨.aging {}, threads, []⟩ = .ok (answers, ⟨.aging q, threads', line⟩)) := by
  refine ⟨fun answers q threads' line served agrees now => ?_, fun still => Hall.serve_still still {} [] requests⟩
  have start : Hall.InLine ⟨.aging {}, threads, []⟩ := ⟨{}, [], rfl, .start threads, rfl⟩
  obtain ⟨_, line', ⟨⟩, follows, rfl⟩ := start.serve served
  have ranks : q.Ranks threads' fun _ => False :=
    ⟨follows.ranks.inverse, follows.ranks.bounded, follows.ranks.apart, fun id r found _ => agrees id r found⟩
  exact ⟨selectAged_eq_selectRebuilt ranks now, drawn_selectAged follows ranks now⟩

def RankedQueue.elderly (interval : Ticks) : ThreadRegistry :=
  .arrived { policy := .aging, agingInterval := interval }
    [(⟨⟨2⟩, "elder", .ordinary⟩, 12, 0), (⟨⟨3⟩, "newcomer", .ordinary⟩, 5, 100)]

theorem RankedQueue.drawn_of_serve_elderly :
    let q := (({} : RankedQueue).enqueue ⟨2⟩ (elderly 10)).enqueue ⟨3⟩ (elderly 10)
    q.waiters = [⟨3⟩, ⟨2⟩] ∧
      (∃ n, q.selectAged (elderly 10) 100 = .ok n ∧ q.Drawn (elderly 10) [⟨2⟩, ⟨3⟩] 100 n.value ∧
        n.value.next = some ⟨2⟩) ∧
      ∃ answers q threads' line,
        Hall.serve [.enqueue ⟨2⟩, .enqueue ⟨3⟩, .select 100] ⟨.strict {}, elderly 0, []⟩ =
          .ok (answers, ⟨.strict q, threads', line⟩) ∧
        Hall.serve [.enqueue ⟨2⟩, .enqueue ⟨3⟩, .select 100] ⟨.aging {}, elderly 0, []⟩ =
          .ok (answers, ⟨.aging q, threads', line⟩) := by
  intro q
  have agrees : ∀ id r, q.index.get? id = some r → r.priority = (elderly 10).effective id := fun id r found =>
    (((ranks_empty _ fun _ => False).enqueue ⟨2⟩).enqueue ⟨3⟩).agrees id r found fun pending => pending.1.1
  have first : (q.selectAged (elderly 10) 100).map (·.value.next) = .ok (some ⟨2⟩) := by decide
  refine ⟨by decide, ?_, (drawn_of_serve _ (elderly 0)).2 (by decide)⟩
  rcases ((drawn_of_serve [.enqueue ⟨2⟩, .enqueue ⟨3⟩] (elderly 10)).1 _ q _ [⟨2⟩, ⟨3⟩] rfl agrees 100).2 with
    ⟨n, selected, drawn⟩ | ⟨f, failed, -⟩
  · rw [selected] at first
    exact ⟨n, selected, drawn, Except.ok.inj first⟩
  · rw [failed] at first
    cases first

end PriorityScheduler
