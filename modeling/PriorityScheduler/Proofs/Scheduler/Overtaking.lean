import PriorityScheduler.Proofs.Scheduler.Donation

/-!
# Selections and donations

A selection ages the waiters of a queue. A thread may wait in a queue and for a lock at the same time, and the lock is
not told that its waiter became more urgent.

Main statement: `consistent_iff_not_overtaking`, as long as no thread waits for two locks, donations agree after a call
exactly if no waiter of the queue from which it selects ages past what the lock that it waits for donates.
-/

namespace PriorityScheduler

open PriorityScheduler.Action PriorityScheduler.Scheduler

namespace Scheduler

/-- Some waiter of a queue ages, in a selection, past what the lock that it waits for donates. -/
def overtakes (s : Scheduler) (id : QueueId) : Bool :=
  (s.queues.get? id).any fun q =>
    let aged := q.discipline.aged s.threads s.clock.now
    q.discipline.waiters.any fun v =>
      (s.threads.blockedOn? v).any fun lock => (s.locks.donated? lock).any fun p => aged.effective v < p

def overtaking (s : Scheduler) (call : Call) : Bool :=
  (s.selection call).any fun (id, s') => s'.overtakes id

/-- A thread that waits for a lock queues up for another one. -/
def doubling (s : Scheduler) : Call → Bool
  | .acquire lock => (s.threads.blockedOn? s.processor.current.id).isSome && (s.locks.holder? lock).isSome
  | _ => false

structure Agreeing (config : Config) (overtook : Bool) (s : Scheduler) : Prop where
  consistent : s.donationConsistent = true ↔ overtook = false
  orderly : overtook = false → s.Orderly config

variable {config : Config} {s s' : Scheduler} {id : QueueId} {q : WaitQueue} {n : Noted (Selection WaitQueue)}

theorem Orderly.consistent (orderly : s.Orderly config) : s.donationConsistent = true :=
  isConsistent_of_coherent (orderly.sound.coherent orderly.on)

theorem Agreeing.unseen {overtook : Bool} (agreeing : s.Agreeing config overtook) (threads : s.threads.Unseen s'.threads)
    (locks : s'.locks = s.locks) : s'.Agreeing config overtook where
  consistent := by
    rw [donationConsistent, locks, isConsistent_unseen s.locks threads]
    exact agreeing.consistent
  orderly calm := (agreeing.orderly calm).unseen threads locks

theorem dispatched_agreeing (config : Config) (overtook : Bool) : Dispatched (Agreeing config overtook) where
  quiet same agreeing := agreeing.unseen (by rw [same.threads]; exact .refl _) same.locks
  told _ agreeing := agreeing.unseen (.refl _) rfl
  dispatched p _ _ charged agreeing := by
    obtain ⟨threads, rfl, same⟩ := charged.exists_threads
    exact agreeing.unseen (same.weaken fun _ => rfl) rfl
  interrupted _ agreeing := agreeing.unseen (.refl _) rfl
  switched _ agreeing := agreeing.unseen (.refl _) rfl

theorem waited_aged (orderly : s.Orderly config) (lowest : Priority.lowest ≤ config.mostUrgent) (d : Discipline)
    (now : Ticks) : Waited s.locks s.threads (d.aged s.threads now) := by
  have still : Waited s.locks s.threads s.threads :=
    ⟨rfl, orderly.sound.linked, fun h state found => (orderly.sound.coherent orderly.on).balanced h state not_false found,
      fun h state found => orderly.configured ▸ orderly.inRange h state found, fun _ => Int.le_refl _⟩
  exact d.aged_cases still fun _ => waited_ageAll still (orderly.configured ▸ lowest)

theorem overtakes_eq_false_iff (orderly : s.Orderly config) (lowest : Priority.lowest ≤ config.mostUrgent)
    (found : s.queues.get? id = some q) :
    s.overtakes id = false ↔ ∀ lock p v, s.locks.donated? lock = some p → v ∈ s.locks.waitersOf lock →
      p ≤ (q.discipline.aged s.threads s.clock.now).effective v := by
  have waited := waited_aged orderly lowest q.discipline s.clock.now
  have waiting := orderly.sound.linked.waiting
  simp only [overtakes, found, Option.any_some, List.any_eq_false, Option.any_eq_true, decide_eq_true_eq, not_exists,
    not_and, Int.not_lt]
  refine ⟨fun none lock p v donated waits => ?_, fun all v _ lock blocked p donated =>
    all lock p v donated ((waiting lock v).mpr blocked)⟩
  by_cases member : v ∈ q.discipline.waiters
  · exact none v member lock ((waiting lock v).mp waits) p donated
  · rw [ThreadRegistry.effective_congr waited.config (Discipline.get?_aged member)]
    have settled := (orderly.sound.coherent orderly.on).settled lock not_false
    refine (LockRegistry.settled_iff.mp settled p).mp ?_ v waits
    rw [donated]
    exact (below_some p p).mpr (Int.le_refl p)

theorem agreeing_selected (orderly : s.Orderly config) (lowest : Priority.lowest ≤ config.mostUrgent)
    (found : s.queues.get? id = some q) (taken : q.next s.threads s.clock.now = .ok n) :
    (s.selected id n).Agreeing config (s.overtakes id) := by
  let aged : ThreadRegistry := q.discipline.aged s.threads s.clock.now
  have waited : Waited s.locks s.threads aged := waited_aged orderly lowest q.discipline s.clock.now
  have threads : aged.Unseen n.value.threads := (WaitQueue.unqueued_next taken).weaken fun _ => rfl
  have coherent := orderly.sound.coherent orderly.on
  have agree : s.locks.isConsistent aged = true ↔ s.overtakes id = false := by
    rw [isConsistent_aged coherent orderly.on waited, overtakes_eq_false_iff orderly lowest found]
  refine ⟨?_, fun calm => ?_⟩
  · show s.locks.isConsistent n.value.threads = true ↔ _
    rw [isConsistent_unseen s.locks threads, agree]
  · have settled := ((isConsistent_iff s.locks aged).mp (agree.mpr calm) orderly.on).1
    have sound : Sound s.locks aged :=
      ⟨waited.linked, fun _ => ⟨fun lock _ => settled lock, fun h state _ => waited.balanced h state⟩⟩
    have before : ({ s with threads := aged } : Scheduler).Orderly config :=
      ⟨sound, orderly.on, waited.config.trans orderly.configured, fun h state found => by
        rw [← orderly.configured, ← waited.config]
        exact waited.inRange h state found⟩
    exact before.unseen threads rfl

theorem agreeing_call {call : Call} (initial : config.inRange config.initial = true)
    (lowest : Priority.lowest ≤ config.mostUrgent) (orderly : s.Orderly config) (legal : s.Legal (.call call))
    (single : s.doubling call = false) :
    Ends call.action s (fun _ => Agreeing config (s.overtaking call)) (Agreeing config (s.overtaking call)) := by
  refine ends_call (fun _ _ => trivial) (kept_orderly initial call.target) id (dispatched_agreeing config _) ?_
    (fun _ => trivial) ?_ ?_ ?_ orderly
  · rintro lock s₁ outcome w rfl locks blockedOn? known done before
    refine before.follow (effect_acquire done) (sound_acquire before.sound known ?_ done) _
    rw [locks, blockedOn?]
    simp only [doubling, Bool.and_eq_false_iff, Option.isSome_eq_false_iff, Option.isNone_iff_eq_none] at single
    exact single.symm
  · rintro rfl
    exact ends_depart_orderly (s := s.masked) initial (orderly.congr rfl rfl)
  · intro s₁ before unserved
    have calm : s.overtaking call = false := by
      rw [overtaking]
      cases chosen : s.selection call with
      | none => rfl
      | some pair => simp [overtakes, unserved pair.1 pair.2 chosen]
    rw [calm]
    exact ⟨iff_of_true before.consistent rfl, fun _ => before⟩
  · intro queue s₁ q n chosen before found taken
    have same : s.overtaking call = s₁.overtakes queue := by simp [overtaking, chosen]
    rw [same]
    exact agreeing_selected before lowest found taken

def Calm (s : Scheduler) : Input → Prop
  | .call call => s.doubling call = false ∧ s.overtaking call = false
  | _ => True

instance (s : Scheduler) (input : Input) : Decidable (s.Calm input) :=
  match input with
  | .call _ => inferInstanceAs (Decidable (_ ∧ _))
  | .clock _ => isTrue trivial
  | .interrupts _ => isTrue trivial
  | .processor _ => isTrue trivial

inductive Steady (config : Config) : Scheduler → Prop where
  | boot {s : Scheduler} (booted : s.Booted config) (on : config.donation = true) : Steady config s
  | feed {s s' : Scheduler} {input : Input} (steady : Steady config s) (legal : s.Legal input) (calm : s.Calm input)
      (fed : s.feed input = some s') : Steady config s'

theorem Steady.reachable (steady : s.Steady config) : s.Reachable config := by
  induction steady with
  | boot booted _ => exact .boot booted
  | feed _ legal _ fed ih => exact ih.feed legal fed

theorem orderly_booted (booted : s.Booted config) (on : config.donation = true) : s.Orderly config := by
  obtain ⟨idle, start, -, rfl⟩ := booted.eq
  refine ⟨LockSystem.sound_fresh (LockSystem.fresh_staffed config []), on, rfl, fun id state found => ?_⟩
  cases (SortedMap.get?_empty id).symm.trans found

theorem Steady.booted (steady : s.Steady config) : ∃ s₀, Booted config s₀ := by
  induction steady with
  | boot booted on => exact ⟨_, booted⟩
  | feed _ _ _ _ ih => exact ih

theorem orderly_of_steady (steady : s.Steady config) : s.Orderly config := by
  obtain ⟨s₀, booted⟩ := steady.booted
  induction steady with
  | boot booted on => exact orderly_booted booted on
  | @feed s s' input steady legal calm fed ih =>
      cases input with
      | call call =>
          obtain ⟨single, calm⟩ := calm
          have after := of_perform (agreeing_call booted.valid booted.1 ih legal single) fed
          exact after.orderly calm
      | clock time =>
          cases fed
          exact ih.congr rfl rfl
      | interrupts state =>
          cases fed
          exact ih.congr rfl rfl
      | processor processor =>
          cases fed
          exact ih.congr rfl rfl

def playCalm : List Input → Scheduler → Option Scheduler
  | [], s => some s
  | input :: rest, s => if s.Legal input ∧ s.Calm input then (s.feed input).bind (playCalm rest) else none

theorem Steady.play {inputs : List Input} (steady : s.Steady config) (played : s.playCalm inputs = some s') :
    s'.Steady config := by
  induction inputs generalizing s with
  | nil =>
      cases played
      exact steady
  | cons input rest ih =>
      rw [playCalm] at played
      split at played
      · rename_i both
        obtain ⟨s₁, fed, played⟩ := Option.bind_eq_some_iff.mp played
        exact ih (steady.feed both.1 both.2 fed) played
      · cases played

def impatient : Config := { policy := .aging, agingInterval := 1 }

def waitedLong : Option Scheduler :=
  let thread : Thread := ⟨⟨2⟩, "second", .ordinary⟩
  (boot impatient ⟨⟨1⟩, "idle", .idle⟩ 0).value.toOption.bind (playCalm
    [.interrupts ⟨false, 1⟩, .call .createLock, .call (.acquire ⟨1⟩), .call (.setPriority thread 20), .call (.wake thread),
      .call .dispatch, .call (.acquire ⟨1⟩), .call (.wake thread), .clock 5])

theorem steady_waitedLong {s : Scheduler} (reached : waitedLong = some s) : s.Steady impatient := by
  unfold waitedLong at reached
  obtain ⟨s₀, made, played⟩ := Option.bind_eq_some_iff.mp reached
  refine Steady.play (.boot ⟨by decide, by decide, ⟨⟨1⟩, "idle", .idle⟩, 0, rfl, ?_⟩ rfl) played
  exact eq_ok_of_toOption made

/-- A run may lead to donations that disagree: the waiter is selected, and its lock keeps what it donated before. -/
theorem exists_inconsistent :
    impatient.donation = true ∧ ∃ s, Reachable impatient s ∧ s.donationConsistent = false := by
  have reached : waitedLong = some (waitedLong.get (by decide)) := (Option.some_get _).symm
  have selected : (waitedLong.get (by decide)).perform .dispatch =
      some (((waitedLong.get (by decide)).perform .dispatch).get (by decide)) := (Option.some_get _).symm
  have legal : (waitedLong.get (by decide)).Legal (.call .dispatch) := by decide
  exact ⟨rfl, _, (steady_waitedLong reached).reachable.feed legal selected, by decide⟩

/-- A thread that waits for a lock of main was made ready all the same and waits for the other one, too. -/
def waitsTwice : Option Scheduler :=
  let thread : Thread := ⟨⟨2⟩, "second", .ordinary⟩
  (boot { initial := 20 } ⟨⟨1⟩, "idle", .idle⟩ 0).value.toOption.bind (playLegal
    [.interrupts ⟨false, 1⟩, .call .createLock, .call .createLock, .call (.acquire ⟨1⟩), .call (.acquire ⟨2⟩),
      .call (.wake thread), .call .dispatch, .call (.acquire ⟨1⟩), .call (.wake thread), .call .dispatch,
      .call (.acquire ⟨2⟩)])

theorem reachable_waitsTwice {s : Scheduler} (reached : waitsTwice = some s) : Reachable { initial := 20 } s := by
  unfold waitsTwice at reached
  obtain ⟨s₀, made, played⟩ := Option.bind_eq_some_iff.mp reached
  refine Reachable.play (.boot ⟨by decide, by decide, ⟨⟨1⟩, "idle", .idle⟩, 0, rfl, ?_⟩) played
  exact eq_ok_of_toOption made

/-- Without aging nobody overtakes, but of the two locks that a thread waits for only the later one learns its priority. -/
theorem exists_inconsistent_doubled :
    ∃ s s', Reachable { initial := 20 } s ∧ s.donationConsistent = true ∧
      s.perform (.setPriority ⟨⟨2⟩, "second", .ordinary⟩ 5) = some s' ∧ s'.donationConsistent = false := by
  have reached : waitsTwice = some (waitsTwice.get (by decide)) := (Option.some_get _).symm
  have moved : (waitsTwice.get (by decide)).perform (.setPriority ⟨⟨2⟩, "second", .ordinary⟩ 5) =
      some (((waitsTwice.get (by decide)).perform (.setPriority ⟨⟨2⟩, "second", .ordinary⟩ 5)).get (by decide)) :=
    (Option.some_get _).symm
  exact ⟨_, _, reachable_waitsTwice reached, by decide, moved, by decide⟩

theorem consistent_iff_not_overtaking {call : Call} (steady : s.Steady config) (legal : s.Legal (.call call))
    (single : s.doubling call = false) (performed : s.perform call = some s') :
    s.donationConsistent = true ∧ (s'.donationConsistent = true ↔ s.overtaking call = false) := by
  have orderly := orderly_of_steady steady
  obtain ⟨s₀, booted⟩ := steady.booted
  exact ⟨orderly.consistent, (of_perform (agreeing_call booted.valid booted.1 orderly legal single) performed).consistent⟩

theorem consistent_iff_not_overtaking_waitedLong :
    ∃ s s', waitedLong = some s ∧ s.perform .dispatch = some s' ∧ s.overtaking .dispatch = true ∧
      s.donationConsistent = true ∧ s'.donationConsistent = false := by
  have reached : waitedLong = some (waitedLong.get (by decide)) := (Option.some_get _).symm
  have selected : (waitedLong.get (by decide)).perform .dispatch =
      some (((waitedLong.get (by decide)).perform .dispatch).get (by decide)) := (Option.some_get _).symm
  have overtook : (waitedLong.get (by decide)).overtaking .dispatch = true := by decide
  obtain ⟨before, after⟩ := consistent_iff_not_overtaking (steady_waitedLong reached) (by decide) (by decide) selected
  refine ⟨_, _, reached, selected, overtook, before, ?_⟩
  rw [← Bool.not_eq_true, after, overtook]
  decide

end Scheduler

end PriorityScheduler
