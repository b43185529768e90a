import PriorityScheduler.Notice
import PriorityScheduler.Thread.State

/-!
# Aging

Every `interval` ticks on the processor move a thread one step toward the less urgent end, every `interval`
ticks in a queue one step toward the more urgent end. What is left of an interval is carried to the next look,
so frequent looks neither lose nor double time. Interval 0 turns aging off, and exempt threads do not age.
-/

namespace PriorityScheduler

namespace Drift

def since (d : Drift) (start : Ticks) : Ticks :=
  match d.mark with
  | some mark => max mark start
  | none => start

def advance (d : Drift) (interval now since : Ticks) : Except Fault (Priority × Drift) := do
  let elapsed ← Ticks.add (Ticks.elapsed since now) d.carry
  pure (Priority.ofCount (elapsed / interval), { carry := elapsed % interval, mark := some now })

end Drift

namespace ThreadState

def ages (s : ThreadState) (interval : Ticks) : Bool := 0 < interval && !s.thread.isExempt

def unchanged (s : ThreadState) : Noted Change := ⟨⟨s, false⟩, []⟩

def ageRunning (s : ThreadState) (interval : Ticks) (config : Config) (now : Ticks) :
    Except Fault (Noted Change) :=
  if !s.ages interval then .ok s.unchanged
  else
    match s.accounts.lastScheduled with
    | none => .ok s.unchanged
    | some scheduled => do
        let (steps, runDrift) ← s.runDrift.advance interval now (s.runDrift.since scheduled)
        let s := { s with runDrift }
        if steps = 0 then pure s.unchanged
        else do
          let p ← config.clamp (s.base.plus steps)
          let change ← s.setPriority config p
          pure ⟨change, [.agedUp s.thread steps p]⟩

def ageWaiting (s : ThreadState) (interval : Ticks) (config : Config) (now : Ticks) :
    Except Fault (Noted Change) :=
  if !s.ages interval then .ok s.unchanged
  else
    match s.accounts.lastEnqueued with
    | none => .ok s.unchanged
    | some enqueued => do
        let (steps, waitDrift) ← s.waitDrift.advance interval now (s.waitDrift.since enqueued)
        let s := { s with waitDrift }
        if steps = 0 then pure s.unchanged
        else do
          let p ← config.clamp (s.base.minus steps)
          let change ← s.setPriority config p
          pure ⟨change, [.agedDown s.thread steps p]⟩

end ThreadState

end PriorityScheduler
