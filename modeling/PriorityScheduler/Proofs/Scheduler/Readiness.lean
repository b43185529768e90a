import PriorityScheduler.Proofs.Scheduler.Lines

namespace PriorityScheduler

open PriorityScheduler.Action PriorityScheduler.Scheduler

namespace Scheduler

variable {config : Config} {s s' : Scheduler} {line line' : List ThreadId} {id : ThreadId} {q : WaitQueue}

def admissions (s s' : Scheduler) : List ThreadId := (s'.output.drop s.output.length).filterMap Output.admitted?

def sitsApart (s : Scheduler) (queue : QueueId) (id : ThreadId) : Bool :=
  s.queues.entries.any fun (other, q) => other ≠ queue && id ∈ q.waiters

/-- No thread was admitted to a queue while it sat in another one. In the course of a call threads are admitted to one
queue only, before any thread leaves a queue. -/
def Exclusive (s : Scheduler) (input : Input) (s' : Scheduler) : Prop :=
  match input with
  | .call call => ∀ id ∈ s.admissions s', s.sitsApart call.target id = false
  | _ => True

instance (s : Scheduler) (input : Input) (s' : Scheduler) : Decidable (s.Exclusive input s') :=
  match input with
  | .call _ => inferInstanceAs (Decidable (∀ _ ∈ _, _))
  | .clock _ => isTrue trivial
  | .interrupts _ => isTrue trivial
  | .processor _ => isTrue trivial

/-- The line at the ready queue after an input: who was admitted joins it at its end, and who is not ready any more
leaves it. -/
def nextLine (line : List ThreadId) (s : Scheduler) (input : Input) (s' : Scheduler) : List ThreadId :=
  match input with
  | .call call => (lineAfter call.target line (s.admissions s')).filter (· ∈ s'.readyWaiters)
  | _ => line

inductive Queueing (config : Config) : List ThreadId → Scheduler → Prop where
  | boot {s : Scheduler} (booted : s.Booted config) : Queueing config [] s
  | feed {line : List ThreadId} {s s' : Scheduler} {input : Input} (queueing : Queueing config line s)
      (legal : s.Legal input) (fed : s.feed input = some s') (exclusive : s.Exclusive input s') :
      Queueing config (nextLine line s input s') s'

structure Lining (config : Config) (line : List ThreadId) (s : Scheduler) : Prop where
  registered : s.Registered Thread.IsUser config
  seated : s.Seated config
  lined : ∀ q, s.queues.get? .ready = some q → q.Lined line
  whole : s.Whole line
  nodup : line.Nodup

theorem readyWaiters_of_get? (found : s.queues.get? .ready = some q) : s.readyWaiters = q.waiters := by
  rw [readyWaiters, found]

theorem Seated.sitsApart (seated : s.Seated config) {queue : QueueId} (free : s.sitsApart queue id = false) :
    s.Free queue id := by
  intro other sits
  obtain ⟨q, found, waits⟩ := (seated.seats id other).mp sits
  rw [Scheduler.sitsApart, List.any_eq_false] at free
  have here := free (other, q) ((SortedMap.mem_entries_iff s.queues other q).mpr found)
  simpa [waits] using here

theorem nodup_lineAfter (nodup : line.Nodup) (target : QueueId) (ids : List ThreadId) :
    (lineAfter target line ids).Nodup := by
  unfold lineAfter
  split
  · induction ids generalizing line with
    | nil => exact nodup
    | cons id rest ih =>
        apply ih
        unfold WaitQueue.lineUp
        split
        · exact nodup
        · rename_i new
          refine List.nodup_append.mpr ⟨nodup, by simp, fun j member k last same => ?_⟩
          rw [List.mem_singleton] at last
          exact new (last ▸ same ▸ member)
  · exact nodup

theorem lining_booted (booted : s.Booted config) : s.Lining config [] := by
  have get? := booted.get?_queues
  have known := @Booted.queue config s booted
  obtain ⟨idle, start, idling, rfl⟩ := booted.eq
  refine ⟨⟨rfl, fun id state found => ?_, .inl (.inl rfl), idling⟩, ⟨fun queue q found => ?_, fun id queue => ?_,
    fun queue found => ?_, ?_⟩, fun q found => ⟨fun id waits => ?_, List.Pairwise.nil⟩,
    fun q _ id member => absurd member List.not_mem_nil, List.nodup_nil⟩
  · cases (SortedMap.get?_empty id).symm.trans found
  · obtain ⟨rfl, rfl⟩ := known found
    exact ⟨rfl, WaitQueue.settled_new .ready false config _ _⟩
  · apply iff_of_false (Option.some_ne_none queue ∘ Eq.symm)
    rintro ⟨q, found, waits⟩
    rw [(known found).2, WaitQueue.waiters_new] at waits
    cases waits
  · obtain ⟨q, found⟩ := Option.isSome_iff_exists.mp found
    rw [(known found).1]
    exact Nat.zero_lt_one
  · rw [get?, if_pos rfl]
    rfl
  · rw [(known found).2, WaitQueue.waiters_new] at waits
    cases waits

namespace Lining

theorem same (lining : s.Lining config line) (registered : s'.Registered Thread.IsUser config) (stays : Stays config s s') :
    s'.Lining config line where
  registered := registered
  seated := lining.seated.stays stays
  lined q' found := by
    obtain ⟨q, before, same, -⟩ := stays.exists_queue found
    exact (lining.lined q before).rearranged same
  whole := lining.whole.stays stays
  nodup := lining.nodup

theorem call {call : Call} (lining : s.Lining config line) (legal : s.Legal (.call call))
    (performed : s.perform call = some s') (exclusive : s.Exclusive (.call call) s') :
    s'.Lining config (nextLine line s (.call call) s') := by
  have course := of_perform (ends_standing legal lining.registered lining.seated lining.lined lining.whole) performed
  obtain ⟨out, output, holds⟩ := course.told
  have admissions : s.admissions s' = out.filterMap Output.admitted? := by
    rw [Scheduler.admissions, output, List.drop_left]
  have standing := holds fun id member => lining.seated.sitsApart (exclusive id (admissions ▸ member))
  rw [← admissions] at standing
  refine ⟨course.registered, standing.seated, fun q found => ?_, fun q found id member => ?_,
    (nodup_lineAfter lining.nodup _ _).filter _⟩
  · rw [nextLine, readyWaiters_of_get? found]
    exact (standing.lined q found).filter
  · rw [nextLine, readyWaiters_of_get? found, List.mem_filter, decide_eq_true_eq] at member
    exact member.2

theorem feed {input : Input} (lining : s.Lining config line) (legal : s.Legal input) (fed : s.feed input = some s')
    (exclusive : s.Exclusive input s') : s'.Lining config (nextLine line s input s') := by
  have registered := lining.registered
  have seated := lining.seated
  cases input with
  | call call => exact lining.call legal fed exclusive
  | clock time =>
      cases fed
      exact lining.same (registered.congr (.refl _) rfl rfl) (seated.frame rfl rfl rfl)
  | interrupts state =>
      cases fed
      exact lining.same (registered.congr (.refl _) rfl rfl) (seated.frame rfl rfl rfl)
  | processor processor =>
      cases fed
      refine lining.same ⟨registered.configured, registered.filed, legal, registered.idling⟩ ?_
      exact seated.frame rfl rfl rfl

end Lining

theorem lining_of_queueing (queueing : Queueing config line s) : s.Lining config line := by
  induction queueing with
  | boot booted => exact lining_booted booted
  | feed _ legal fed exclusive ih => exact ih.feed legal fed exclusive

def Before (s : Scheduler) (line : List ThreadId) (a b : ThreadId) : Prop :=
  s.threads.effective a < s.threads.effective b ∨
    s.threads.effective a = s.threads.effective b ∧ line.idxOf a < line.idxOf b

/-- The threads in the line wait at the ready queue, main last. All others are sorted or, with bands, stand in the bands
of their effective priorities. -/
structure ReadyInOrder (config : Config) (line : List ThreadId) (s : Scheduler) : Prop where
  perm : s.readyWaiters.Perm line
  sorted : ∃ others, s.readyWaiters = others ++ (if .main ∈ line then [.main] else []) ∧ .main ∉ others ∧
    (config.policy ≠ .multilevel → others.Pairwise (s.Before line))
  banded : config.policy = .multilevel → ∃ queue q, s.queues.get? .ready = some queue ∧ queue.discipline = .banded q ∧
    ∀ id ∈ s.readyWaiters, id ≠ .main →
      ∀ band, id ∈ q.line band ↔ band = .classify config.bandLimits (s.threads.effective id)

namespace Lining

theorem exists_ready (lining : s.Lining config line) :
    ∃ q, s.queues.get? .ready = some q ∧ s.readyWaiters = q.waiters ∧ q.Settled config s.threads fun _ => False := by
  obtain ⟨q, found⟩ := Option.isSome_iff_exists.mp lining.seated.ready
  exact ⟨q, found, readyWaiters_of_get? found, (lining.seated.queues .ready q found).2⟩

theorem readyInOrder (lining : s.Lining config line) : s.ReadyInOrder config line := by
  obtain ⟨q, found, ready, settled⟩ := lining.exists_ready
  have lined := lining.lined q found
  have mem (id : ThreadId) : id ∈ q.waiters ↔ id ∈ line := ⟨lined.mem id, lining.whole q found id⟩
  have main : q.mainWaiting = decide (.main ∈ line) := by
    rw [Bool.eq_iff_iff, decide_eq_true_eq, ← mem, q.mem_waiters, or_iff_right settled.apart, and_iff_left rfl]
  have nodup : q.waiters.Nodup := by
    refine List.nodup_append.mpr ⟨settled.ordered.nodup_waiters, ?_, ?_⟩
    · split <;> simp
    · rintro id waits j last rfl
      split at last
      · rw [List.mem_singleton] at last
        exact settled.apart (last ▸ waits)
      · cases last
  refine ⟨?_, ⟨q.discipline.waiters, ?_, settled.apart, fun ranked => ?_⟩, fun banded => ?_⟩
  · rw [ready]
    exact (List.perm_ext_iff_of_nodup nodup lining.nodup).mpr mem
  · rw [ready, WaitQueue.waiters, main]
    simp only [decide_eq_true_eq]
  · refine settled.ordered.pairwise_waiters ranked ⟨fun id waits => ?_, lined.sorted⟩
    exact lined.mem id ((q.mem_waiters id).mpr (.inl waits))
  · obtain ⟨b, discipline, lines⟩ := settled.ordered.mem_line_iff banded
    refine ⟨q, b, found, discipline, fun id waits other => lines id ?_⟩
    rw [ready, q.mem_waiters] at waits
    exact waits.resolve_right fun both => other both.2

end Lining

structure DispatchedInOrder (config : Config) (s : Scheduler) (t : Thread) (s' : Scheduler) : Prop where
  current : s'.processor.current = t
  first : config.policy = .strict → s.readyWaiters.head? = if t.isIdle then none else some t.id
  ready : t.isIdle = false → t.id ∈ s.readyWaiters
  main : t.isMain = true → s.readyWaiters = [.main]
  idle : t.isIdle = true → s.readyWaiters = []

theorem dispatched_true : Dispatched fun _ => True where
  quiet _ := id
  told _ := id
  dispatched _ _ _ _ := id
  interrupted _ := id
  switched _ := id

theorem Lining.runsNext {n : Noted (Selection WaitQueue)} {t : Thread} (lining : s.Lining config line)
    (found : s.queues.get? .ready = some q) (taken : q.next s.threads s.clock.now = .ok n) (runs : s.RunsNext n t) :
    n.value.next = none ∧ t = s.idle.thread ∨ n.value.next = some t.id ∧ t.IsUser := by
  rcases runs with known | ⟨none, idle⟩
  · obtain ⟨id, chosen, thread⟩ := Option.bind_eq_some_iff.mp known
    obtain ⟨rfl, user⟩ := (lining.registered.selected taken).thread? (.inl rfl) thread
    exact .inr ⟨chosen, user⟩
  · cases chosen : n.value.next with
    | none => exact .inl ⟨rfl, idle⟩
    | some id =>
        -- who is selected has waited, and so has a state
        have serves := ((lining.seated.queues .ready q found).2.next taken).2
        have sits := lining.seated.seat?_of_mem found (serves.member id chosen)
        obtain ⟨state, present⟩ := ThreadRegistry.exists_of_seat? sits
        rw [chosen, Option.bind_some, thread?_selected taken, Scheduler.thread?, present] at none
        cases none

theorem Lining.not_refused (lining : s.Lining config line) (e : Error) (s' : Scheduler) :
    dispatch s ≠ .error (.refused e) s' := by
  intro run
  have absent (none : s.queues.get? .ready = none) : False :=
    absurd none (Option.isSome_iff_ne_none.mp lining.seated.ready)
  have ends := @Dispatched.ends_dispatch (fun _ => True) (fun _ => False) s dispatched_true absent fun _ _ _ _ => trivial
  rw [Ends, run] at ends
  exact ends

theorem Lining.dispatchedInOrder {t : Thread} (lining : s.Lining config line) (run : dispatch s = .ok t s') :
    s.DispatchedInOrder config t s' := by
  have ends := @Dispatched.ends_dispatch (fun _ => True) (fun _ => True) s dispatched_true (fun _ => trivial)
    fun _ _ _ _ => trivial
  obtain ⟨-, q, n, found, taken, runs⟩ := ends.of_ok run
  have ready := readyWaiters_of_get? found
  obtain ⟨-, settled⟩ := lining.seated.queues .ready q found
  obtain ⟨-, serves⟩ := settled.next taken
  have current := (ends_dispatch_current s).of_ok run
  rcases lining.runsNext found taken runs with ⟨none, rfl⟩ | ⟨chosen, user⟩
  · have idle := lining.registered.idling
    have empty : s.readyWaiters = [] := ready.trans (serves.none none)
    refine ⟨current, fun _ => ?_, fun busy => ?_, fun main => ?_, fun _ => empty⟩
    · rw [empty, idle]
      rfl
    · cases busy.symm.trans idle
    · simp [Thread.isMain, Thread.isIdle] at main idle
      cases main.symm.trans idle
  · have busy := user.isIdle
    refine ⟨current, fun strict => ?_, fun _ => ?_, fun main => ?_, fun idle => ?_⟩
    · rw [busy, ready, ← settled.head? strict taken, chosen]
      rfl
    · rw [ready]
      exact serves.member t.id chosen
    · have waits := serves.member t.id chosen
      rw [user.isMain_iff.mp main] at chosen waits
      have alone := serves.main chosen
      rw [q.mem_waiters, alone] at waits
      rw [ready, WaitQueue.waiters, alone, (waits.resolve_left List.not_mem_nil).1]
      rfl
    · cases busy.symm.trans idle

def playQueueing : List Input → List ThreadId → Scheduler → Option (List ThreadId × Scheduler)
  | [], line, s => some (line, s)
  | input :: rest, line, s =>
      (s.feed input).bind fun s' =>
        if s.Legal input ∧ s.Exclusive input s' then playQueueing rest (nextLine line s input s') s' else none

theorem Queueing.play {inputs : List Input} (queueing : Queueing config line s)
    (played : playQueueing inputs line s = some (line', s')) : Queueing config line' s' := by
  induction inputs generalizing s line with
  | nil =>
      cases played
      exact queueing
  | cons input rest ih =>
      obtain ⟨s₁, fed, played⟩ := Option.bind_eq_some_iff.mp played
      split at played
      · rename_i both
        exact ih (queueing.feed both.1 fed both.2) played
      · cases played

def middling : Config := { initial := 20 }

def lentTo : Option (List ThreadId × Scheduler) :=
  let second : Thread := ⟨⟨2⟩, "second", .ordinary⟩
  let third : Thread := ⟨⟨3⟩, "third", .ordinary⟩
  let fourth : Thread := ⟨⟨4⟩, "fourth", .ordinary⟩
  let fifth : Thread := ⟨⟨5⟩, "fifth", .ordinary⟩
  (boot middling ⟨⟨1⟩, "idle", .idle⟩ 0).value.toOption.bind (playQueueing
    [.interrupts ⟨false, 1⟩, .call .createLock, .call (.wake second), .call .dispatch, .call (.acquire ⟨1⟩),
      .call (.wake .main), .call (.wake third), .call (.wake fourth), .call .yield, .call (.setPriority third 10),
      .call (.wake fifth), .call (.setPriority fifth 5), .call (.acquire ⟨1⟩)] [])

theorem queueing_lentTo (reached : lentTo = some (line, s)) : Queueing middling line s := by
  unfold lentTo at reached
  obtain ⟨s₀, made, played⟩ := Option.bind_eq_some_iff.mp reached
  refine Queueing.play (.boot ⟨by decide, by decide, ⟨⟨1⟩, "idle", .idle⟩, 0, rfl, ?_⟩) played
  exact eq_ok_of_toOption made

/-- The ready queue is in the order of effective priorities and admissions, and a dispatch, which is never refused, follows
that order. -/
theorem ready_in_order (queueing : Queueing config line s) :
    s.ReadyInOrder config line ∧ (∀ e s', dispatch s ≠ .error (.refused e) s') ∧
      ∀ t s', dispatch s = .ok t s' → s.DispatchedInOrder config t s' := by
  have lining := lining_of_queueing queueing
  exact ⟨lining.readyInOrder, lining.not_refused, fun _ _ => lining.dispatchedInOrder⟩

theorem ready_in_order_lentTo :
    ∃ line s t s', lentTo = some (line, s) ∧ line = [⟨0⟩, ⟨4⟩, ⟨2⟩] ∧ s.readyWaiters = [⟨2⟩, ⟨4⟩, ⟨0⟩] ∧
      s.ReadyInOrder middling line ∧ dispatch s = .ok t s' ∧ t.id = ⟨2⟩ ∧ s.DispatchedInOrder middling t s' := by
  have reached : lentTo = some (lentTo.get (by decide)) := (Option.some_get _).symm
  have dispatched : (lentTo.get (by decide)).2.after dispatch =
      some (((lentTo.get (by decide)).2.after dispatch).get (by decide)) := (Option.some_get _).symm
  obtain ⟨order, -, next⟩ := ready_in_order (queueing_lentTo reached)
  have run := after_eq_some.mp dispatched
  exact ⟨_, _, _, _, reached, by decide, by decide, order, run, by decide, next _ _ run⟩

end Scheduler

end PriorityScheduler
