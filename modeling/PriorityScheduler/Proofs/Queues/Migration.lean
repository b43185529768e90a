import PriorityScheduler.Proofs.Queues.Ordered

namespace PriorityScheduler

namespace BandedQueue

variable {q : BandedQueue} {threads threads' : ThreadRegistry} {pending : ThreadId → Prop} {now : Ticks} {band : Band}

/-- A band after migration: who stays, and behind them who comes, in the order of dispatch before. -/
def arranged (q : BandedQueue) (threads : ThreadRegistry) (band : Band) : List ThreadId :=
  q.stayers threads band ++ q.waiters.filter fun id => id ∉ q.line band ∧ q.target threads id = band

namespace Bands

theorem filter_movers (bands : q.Bands threads pending) (threads' : ThreadRegistry) (source band : Band) :
    ((q.movers threads' source).filter fun e => e.2 = band).map (·.1) =
      (q.line source).filter fun id => id ∉ q.line band ∧ q.target threads' id = band := by
  rw [movers, List.filter_map, List.map_map, List.filter_filter]
  refine (List.map_id _).trans (List.filter_congr fun id stands => ?_)
  -- whoever stands in the source stands in the other band only if they are the same
  have elsewhere : id ∈ q.line band ↔ source = band :=
    ⟨bands.apart source band id stands, fun same => same ▸ stands⟩
  simp only [Function.comp_def, elsewhere]
  grind

theorem line_migrate_eq (bands : q.Bands threads pending) (threads' : ThreadRegistry) (band : Band) :
    (q.migrate threads').value.line band = q.arranged threads' band := by
  rw [line_migrate, arranged]
  congr 1
  simp only [Band.all, List.flatMap_cons, List.flatMap_nil, List.append_nil, List.filter_append, List.map_append,
    bands.filter_movers, waiters, List.append_assoc]
  rfl

theorem migrate_eq (bands : q.Bands threads fun _ => False) : q.migrate threads = ⟨q, []⟩ := by
  have stays (band : Band) : q.stayers threads band = q.line band :=
    List.filter_eq_self.mpr fun id stands => decide_eq_true (bands.agrees band id stands not_false)
  have nobody (band : Band) : q.movers threads band = [] := by
    rw [movers, List.map_eq_nil_iff, List.filter_eq_nil_iff]
    intro id stands
    simp [bands.agrees band id stands not_false]
  unfold BandedQueue.migrate
  simp only [Band.all, List.flatMap_cons, List.flatMap_nil, nobody, stays, List.append_nil, List.foldl_nil, List.map_nil]
  rfl

end Bands

/-- A selection that lets waiters change bands whether a priority changed or not. -/
def selectMigrated (q : BandedQueue) (threads : ThreadRegistry) (now : Ticks) :
    Except Fault (Noted (Selection BandedQueue)) := do
  let aged ← ThreadRegistry.ageAll now q.waiters threads
  let threads := aged.value.threads
  let migrated := q.migrate threads
  let (next, queue) := migrated.value.popFirst
  pure ⟨⟨next, queue, threads⟩, aged.notices ++ migrated.notices⟩

theorem selectAged_eq_selectMigrated (bands : q.Bands threads fun _ => False) (now : Ticks) :
    q.selectAged threads now = q.selectMigrated threads now := by
  unfold selectAged selectMigrated
  cases done : ThreadRegistry.ageAll now q.waiters threads with
  | error f => rfl
  | ok n =>
      cases changed : n.value.changed with
      | true => simp only [bind, Except.bind, changed, if_true]
      | false =>
          have still : q.Bands n.value.threads fun _ => False :=
            bands.congr fun id _ _ => ⟨not_false, ThreadRegistry.effective_ageAll done changed id⟩
          simp only [bind, Except.bind, changed, Bool.false_eq_true, if_false, still.migrate_eq]

def urgent? (line : Band → List ThreadId) : Option Band := Band.all.find? fun band => line band ≠ []

theorem popFirst_eq (q : BandedQueue) :
    q.popFirst.1 = (urgent? q.line).bind (fun band => (q.line band).head?) ∧ q.popFirst.2.limits = q.limits ∧
      ∀ band, q.popFirst.2.line band = if urgent? q.line = some band then (q.line band).tail else q.line band := by
  obtain ⟨limits, hot, normal, cold⟩ := q
  rcases hot with _ | ⟨id, hot⟩ <;> rcases normal with _ | ⟨id', normal⟩ <;> rcases cold with _ | ⟨id'', cold⟩ <;>
    exact ⟨rfl, rfl, fun band => by cases band <;> rfl⟩

theorem toList_popFirst (q : BandedQueue) : q.popFirst.1.toList ++ q.popFirst.2.waiters = q.waiters := by
  obtain ⟨limits, hot, normal, cold⟩ := q
  rcases hot with _ | ⟨id, hot⟩ <;> rcases normal with _ | ⟨id', normal⟩ <;> rcases cold with _ | ⟨id'', cold⟩ <;> rfl

structure Drawn (q : BandedQueue) (threads : ThreadRegistry) (now : Ticks) (n : Selection BandedQueue) : Prop where
  aged : threads.Aged q.waiters now n.threads
  limits : n.queue.limits = q.limits
  next : n.next = (urgent? (q.arranged n.threads)).bind fun band => (q.arranged n.threads band).head?
  line : ∀ band, n.queue.line band =
    if urgent? (q.arranged n.threads) = some band then (q.arranged n.threads band).tail else q.arranged n.threads band
  conserved : (n.next.toList ++ n.queue.waiters).Perm q.waiters
  bands : n.queue.Bands n.threads fun _ => False

theorem drawn_migrate (bands : q.Bands threads pending) (aged : threads.Aged q.waiters now threads') :
    q.Drawn threads now
      ⟨(q.migrate threads').value.popFirst.1, (q.migrate threads').value.popFirst.2, threads'⟩ := by
  have migrated := bands.migrate threads'
  have arranged : (q.migrate threads').value.line = q.arranged threads' := funext (bands.line_migrate_eq threads')
  obtain ⟨next, limits, line⟩ := popFirst_eq (q.migrate threads').value
  rw [arranged] at next line
  refine ⟨aged, limits.trans (Bands.limits_migrate q threads'), next, line, ?_, (Discipline.takes_banded migrated).2.1⟩
  rw [toList_popFirst, List.perm_ext_iff_of_nodup migrated.nodup_waiters bands.nodup_waiters]
  exact Bands.mem_migrate q threads'

/-- If every waiter stands once, in the band of its effective priority, a selection ages all waiters, brings them to the
bands of their new priorities and hands out the head of the most urgent band. -/
theorem selectAged_arranged (bands : q.Bands threads fun _ => False) (now : Ticks) :
    q.selectAged threads now = q.selectMigrated threads now ∧
      ((∃ n, q.selectAged threads now = .ok n ∧ q.Drawn threads now n.value) ∨
        ∃ f, q.selectAged threads now = .error f ∧ threads.Stuck q.waiters now f) := by
  have same := selectAged_eq_selectMigrated bands now
  refine ⟨same, ?_⟩
  rw [same, selectMigrated]
  rcases ThreadRegistry.ageAll_cases bands.nodup_waiters threads now with ⟨n, done, aged⟩ | ⟨f, failed, stuck⟩
  · rw [done]
    exact .inl ⟨_, rfl, drawn_migrate bands aged⟩
  · rw [failed]
    exact .inr ⟨f, rfl, stuck⟩

def crossing : ThreadRegistry :=
  .arrived { policy := .multilevel, agingInterval := 10 }
    [(⟨⟨2⟩, "cold", .ordinary⟩, 25, 0), (⟨⟨3⟩, "normal", .ordinary⟩, 15, 0), (⟨⟨4⟩, "idle", .idle⟩, 12, 0),
      (⟨⟨5⟩, "colder", .ordinary⟩, 30, 0)]

theorem selectAged_arranged_crossing :
    let q : BandedQueue := { limits := ⟨10, 20⟩, normal := [⟨4⟩, ⟨3⟩], cold := [⟨2⟩, ⟨5⟩] }
    (q.Bands crossing fun _ => False) ∧
      ∃ n, q.selectAged crossing 160 = .ok n ∧ q.Drawn crossing 160 n.value ∧ n.value.next = some ⟨3⟩ ∧
        n.value.queue = { limits := ⟨10, 20⟩, hot := [⟨2⟩], normal := [⟨4⟩, ⟨5⟩] } := by
  intro q
  have agrees (band : Band) : ∀ id ∈ q.line band, q.target crossing id = band := by cases band <;> decide
  have bands : q.Bands crossing fun _ => False :=
    ⟨fun band => by cases band <;> decide, fun band band' id first second =>
      (agrees band id first).symm.trans (agrees band' id second), fun band id member _ => agrees band id member⟩
  have seen : (q.selectAged crossing 160).map (fun n => (n.value.next, n.value.queue)) =
      .ok (some ⟨3⟩, { limits := ⟨10, 20⟩, hot := [⟨2⟩], normal := [⟨4⟩, ⟨5⟩] }) := by decide
  refine ⟨bands, ?_⟩
  rcases (selectAged_arranged bands 160).2 with ⟨n, selected, drawn⟩ | ⟨f, failed, -⟩
  · rw [selected] at seen
    obtain ⟨next, queue⟩ := Prod.mk.inj (Except.ok.inj seen)
    exact ⟨n, selected, drawn, next, queue⟩
  · rw [failed] at seen
    cases seen

end BandedQueue

end PriorityScheduler
