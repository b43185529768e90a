import PriorityScheduler.SortedMap
import PriorityScheduler.Thread.Aging

namespace PriorityScheduler

structure ThreadRegistry where
  config : Config
  states : SortedMap ThreadId ThreadState := ∅

namespace ThreadRegistry

def get? (t : ThreadRegistry) (id : ThreadId) : Option ThreadState := t.states.get? id

def lookup (t : ThreadRegistry) (id : ThreadId) : Except Error ThreadState :=
  match t.get? id with
  | some s => .ok s
  | none => .error (.threadNotFound id)

def put (t : ThreadRegistry) (id : ThreadId) (s : ThreadState) : ThreadRegistry :=
  { t with states := t.states.insert id s }

def modify (t : ThreadRegistry) (id : ThreadId) (f : ThreadState → ThreadState) : ThreadRegistry :=
  { t with states := t.states.modify id f }

def remove (t : ThreadRegistry) (id : ThreadId) : ThreadRegistry := { t with states := t.states.erase id }

/-- The state of a thread, and the registry that surely has it. -/
def ensure (t : ThreadRegistry) (thread : Thread) : Noted (ThreadState × ThreadRegistry) :=
  match t.get? thread.id with
  | some s => ⟨(s, t), []⟩
  | none =>
      let s := ThreadState.new thread t.config.initial
      ⟨(s, t.put thread.id s), [.stateCreated thread]⟩

def effective (t : ThreadRegistry) (id : ThreadId) : Priority :=
  match t.get? id with
  | some s => s.effective
  | none => t.config.initial

structure Update where
  threads : ThreadRegistry
  changed : Bool

def ageRunning (t : ThreadRegistry) (id : ThreadId) (now : Ticks) : Except Fault (Noted Update) :=
  match t.get? id with
  | none => .ok ⟨⟨t, false⟩, []⟩
  | some s => do
      let aged ← s.ageRunning t.config.agingStep t.config now
      pure ⟨⟨t.put id aged.value.state, aged.value.changed⟩, aged.notices⟩

def ageWaiting (t : ThreadRegistry) (id : ThreadId) (now : Ticks) : Except Fault (Noted Update) :=
  match t.get? id with
  | none => .ok ⟨⟨t, false⟩, []⟩
  | some s => do
      let aged ← s.ageWaiting t.config.agingStep t.config now
      pure ⟨⟨t.put id aged.value.state, aged.value.changed⟩, aged.notices⟩

def ageAll (now : Ticks) : List ThreadId → ThreadRegistry → Except Fault (Noted Update)
  | [], t => .ok ⟨⟨t, false⟩, []⟩
  | id :: rest, t => do
      let first ← t.ageWaiting id now
      let later ← ageAll now rest first.value.threads
      pure ⟨⟨later.value.threads, first.value.changed || later.value.changed⟩,
        first.notices ++ later.notices⟩

end ThreadRegistry

end PriorityScheduler
