import PriorityScheduler.Proofs.Scheduler.Kept

namespace PriorityScheduler

open PriorityScheduler.Action PriorityScheduler.Scheduler

inductive Call where
  | createQueue (transfer : Bool)
  | join (queue : QueueId) (thread : Thread)
  | serve (queue : QueueId)
  | claim (queue : QueueId) (thread : Thread)
  | readPriority (thread : Thread)
  | readEffective (thread : Thread)
  | setPriority (thread : Thread) (p : Priority)
  | requestPriority (thread : Thread) (p : Priority)
  | setNearestPriority (thread : Thread) (p : Priority)
  | promote (thread : Thread)
  | demote (thread : Thread)
  | wake (thread : Thread)
  | dispatch
  | yield
  | sleep
  | finish
  | createLock
  | acquire (lock : LockId)
  | release (lock : LockId)
  | shutdown
  deriving DecidableEq, Repr, Inhabited

namespace Call

def action : Call → Action Unit
  | .createQueue transfer => do let _ ← Action.createQueue transfer
  | .join queue thread => joinQueue queue thread
  | .serve queue => do let _ ← Action.serve queue
  | .claim queue thread => claimQueue queue thread
  | .readPriority thread => do let _ ← priorityOf thread
  | .readEffective thread => do let _ ← effectivePriorityOf thread
  | .setPriority thread p => Action.setPriority thread p
  | .requestPriority thread p => Action.requestPriority thread p
  | .setNearestPriority thread p => Action.setNearestPriority thread p
  | .promote thread => do let _ ← Action.promote thread
  | .demote thread => do let _ ← Action.demote thread
  | .wake thread => Action.wake thread
  | .dispatch => do let _ ← Action.dispatch
  | .yield => do let _ ← Action.yield
  | .sleep => do let _ ← Action.sleep
  | .finish => do let _ ← Action.finish
  | .createLock => do let _ ← Action.createLock
  | .acquire lock => do let _ ← Action.acquire lock
  | .release lock => do let _ ← Action.release lock
  | .shutdown => do let _ ← Action.shutdown

def thread? : Call → Option Thread
  | .join _ thread | .claim _ thread | .readPriority thread | .readEffective thread | .setPriority thread _
  | .requestPriority thread _ | .setNearestPriority thread _ | .promote thread | .demote thread | .wake thread =>
      some thread
  | _ => none

def takesLock : Call → Bool
  | .acquire _ => true
  | _ => false

/-- The queue that threads join in the course of a call, if any do. -/
def target : Call → QueueId
  | .join queue _ => queue
  | _ => .ready

end Call

instance (t : Thread) : Decidable t.IsUser := inferInstanceAs (Decidable (_ ∨ _))

namespace Scheduler

def masked (s : Scheduler) : Scheduler := { s with interrupts := s.interrupts.guard.2 }

def after {α : Type} (s : Scheduler) (m : Action α) : Option (α × Scheduler) :=
  match m s with
  | .ok a s' => some (a, s')
  | .error _ _ => none

def failure? {α : Type} (s : Scheduler) (m : Action α) : Option Failure :=
  match m s with
  | .ok _ _ => none
  | .error f _ => some f

def perform (s : Scheduler) (call : Call) : Option Scheduler :=
  match call.action s with
  | .ok _ s' => some s'
  | .error (.refused _) s' => some s'
  | .error (.fatal _) _ => none

def selection (s : Scheduler) : Call → Option (QueueId × Scheduler)
  | .serve queue => some (queue, s)
  | .dispatch => some (.ready, s)
  | .yield => (s.masked.after giveWay).map fun (_, s') => (.ready, s')
  | .sleep => (s.after (suspend s.processor.current)).map fun (_, s') => (.ready, s')
  | .acquire lock =>
      match s.masked.after (contend lock) with
      | some (.blocked _, s') => some (.ready, s')
      | _ => none
  | .finish => (s.masked.after depart).map fun (_, s') => (.ready, s')
  | _ => none

theorem selection_target {s s₁ : Scheduler} {call : Call} {queue : QueueId} (chosen : s.selection call = some (queue, s₁)) :
    queue = call.target ∨ s₁ = s := by
  cases call with
  | serve id =>
      cases chosen
      exact .inr rfl
  | dispatch =>
      cases chosen
      exact .inl rfl
  | yield =>
      obtain ⟨_, -, same⟩ := Option.map_eq_some_iff.mp chosen
      cases same
      exact .inl rfl
  | sleep =>
      obtain ⟨_, -, same⟩ := Option.map_eq_some_iff.mp chosen
      cases same
      exact .inl rfl
  | finish =>
      obtain ⟨_, -, same⟩ := Option.map_eq_some_iff.mp chosen
      cases same
      exact .inl rfl
  | acquire lock =>
      simp only [selection] at chosen
      split at chosen
      · cases chosen
        exact .inl rfl
      · cases chosen
  | _ => cases chosen

inductive Input where
  | call (call : Call)
  | clock (time : Ticks)
  | interrupts (state : Interrupts)
  | processor (processor : Processor)

def Input.acquired? : Input → Option LockId
  | .call (.acquire lock) => some lock
  | _ => none

def feed (s : Scheduler) : Input → Option Scheduler
  | .call call => s.perform call
  | .clock time => some { s with clock := s.clock.set time }
  | .interrupts interrupts => some { s with interrupts }
  | .processor processor => some { s with processor }

/-- Calls name no idle thread, idle threads take no locks, and what runs is a thread or an idle thread. -/
def Legal (s : Scheduler) : Input → Prop
  | .call call => (∀ t ∈ call.thread?, t.IsUser) ∧ (call.takesLock = true → s.processor.current.isIdle = false)
  | .processor processor => processor.current.IsUser ∨ processor.current.isIdle = true
  | _ => True

instance (s : Scheduler) (input : Input) : Decidable (s.Legal input) :=
  match input with
  | .call _ => inferInstanceAs (Decidable (_ ∧ _))
  | .clock _ => isTrue trivial
  | .interrupts _ => isTrue trivial
  | .processor _ => inferInstanceAs (Decidable (_ ∨ _))

def Booted (config : Config) (s : Scheduler) : Prop :=
  Priority.lowest ≤ config.mostUrgent ∧ config.leastUrgent ≤ Priority.highest ∧
    ∃ idle start, idle.isIdle = true ∧ (boot config idle start).value = .ok s

/-- What legal inputs lead to, as long as no call is fatal. -/
inductive Reachable (config : Config) : Scheduler → Prop where
  | boot {s : Scheduler} (booted : s.Booted config) : Reachable config s
  | feed {s s' : Scheduler} {input : Input} (reachable : Reachable config s) (legal : s.Legal input)
      (fed : s.feed input = some s') : Reachable config s'

def playLegal : List Input → Scheduler → Option Scheduler
  | [], s => some s
  | input :: rest, s => if s.Legal input then (s.feed input).bind (playLegal rest) else none

theorem Reachable.play {config : Config} {inputs : List Input} {s s' : Scheduler} (reachable : s.Reachable config)
    (played : playLegal inputs s = some s') : s'.Reachable config := by
  induction inputs generalizing s with
  | nil =>
      cases played
      exact reachable
  | cons input rest ih =>
      rw [playLegal] at played
      split at played
      · rename_i legal
        obtain ⟨s₁, fed, played⟩ := Option.bind_eq_some_iff.mp played
        exact ih (reachable.feed legal fed) played
      · cases played

theorem eq_ok_of_toOption {ε α : Type} {x : Except ε α} {a : α} (made : x.toOption = some a) : x = .ok a := by
  cases x with
  | ok b =>
      cases made
      rfl
  | error e => cases made

theorem Booted.valid {config : Config} {s : Scheduler} (booted : s.Booted config) :
    config.inRange config.initial = true := by
  obtain ⟨-, -, idle, start, -, made⟩ := booted
  unfold boot Config.validate at made
  by_cases empty : config.leastUrgent < config.mostUrgent
  · simp [empty] at made
  · by_cases outside : config.inRange config.initial = true
    · exact outside
    · simp [empty, outside] at made

theorem Booted.eq {config : Config} {s : Scheduler} (booted : s.Booted config) :
    ∃ idle start, idle.isIdle = true ∧ s =
    { clock := ⟨start⟩
      threads := { config }
      queues := (∅ : SortedMap QueueId WaitQueue).insert .ready (.new .ready false config)
      locks := { donation := config.donation }
      idle := (Idle.new idle).value } := by
  obtain ⟨-, -, idle, start, idling, made⟩ := booted
  refine ⟨idle, start, idling, ?_⟩
  unfold boot at made
  split at made
  · cases made
  · cases made
    rfl

theorem Booted.get?_queues {config : Config} {s : Scheduler} (booted : s.Booted config) (queue : QueueId) :
    s.queues.get? queue = if queue = .ready then some (.new .ready false config) else none := by
  obtain ⟨idle, start, -, rfl⟩ := booted.eq
  exact SortedMap.get?_insert_eq ∅ .ready queue _

theorem Booted.queue {config : Config} {s : Scheduler} (booted : s.Booted config) {queue : QueueId} {q : WaitQueue}
    (found : s.queues.get? queue = some q) : queue = .ready ∧ q = .new .ready false config := by
  rw [booted.get?_queues] at found
  split at found
  · rename_i here
    exact ⟨here, (Option.some.inj found).symm⟩
  · cases found

end Scheduler

variable {inv post refused : Scheduler → Prop} {s : Scheduler}

theorem Action.Ends.run {α : Type} {m : Action α} {done : α → Scheduler → Prop} (ends : Ends m s done refused) :
    Ends m s (fun a s' => done a s' ∧ s.after m = some (a, s')) (fun s' => refused s' ∧ s.after m = none) := by
  unfold Ends Scheduler.after at *
  cases run : m s with
  | ok a s' =>
      rw [run] at ends
      exact ⟨ends, rfl⟩
  | error f s' =>
      rw [run] at ends
      cases f with
      | refused e => exact ⟨ends, rfl⟩
      | fatal f => trivial

theorem Scheduler.after_eq_some {α : Type} {m : Action α} {a : α} {s' : Scheduler} :
    s.after m = some (a, s') ↔ m s = .ok a s' := by
  unfold Scheduler.after
  cases m s with
  | ok b s₁ => simp
  | error f s₁ => simp

theorem Scheduler.exists_of_after {α : Type} {m : Action α} {a : α} (result : (s.after m).map Prod.fst = some a) :
    ∃ s', m s = .ok a s' := by
  obtain ⟨⟨b, s'⟩, run, same⟩ := Option.map_eq_some_iff.mp result
  cases same
  exact ⟨s', after_eq_some.mp run⟩

theorem Scheduler.exists_of_failure? {α : Type} {m : Action α} {f : Failure} (result : s.failure? m = some f) :
    ∃ s', m s = .error f s' := by
  unfold Scheduler.failure? at result
  cases run : m s with
  | ok a s' =>
      rw [run] at result
      cases result
  | error g s' =>
      rw [run] at result
      cases result
      exact ⟨s', rfl⟩

theorem ends_unit {α : Type} {m : Action α} (ends : Ends m s (fun _ => post) post) :
    Ends (do let _ ← m) s (fun _ => post) post := by
  rw [ends_bind]
  exact ends.imp (fun _ _ => id) fun _ => id

theorem Scheduler.of_perform {call : Call} {s' : Scheduler} (ends : Ends call.action s (fun _ => post) post)
    (performed : s.perform call = some s') : post s' := by
  unfold Scheduler.perform at performed
  unfold Ends at ends
  cases run : call.action s with
  | ok a s₁ =>
      rw [run] at ends performed
      cases performed
      exact ends
  | error f s₁ =>
      rw [run] at ends performed
      cases f with
      | refused e =>
          cases performed
          exact ends
      | fatal f => cases performed

end PriorityScheduler
