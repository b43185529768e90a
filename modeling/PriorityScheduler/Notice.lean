import PriorityScheduler.Band
import PriorityScheduler.Event
import PriorityScheduler.Log

namespace PriorityScheduler

inductive Notice where
  | unknownKey (key : String)
  | configRead (config : Config)
  | refused (error : Error)
  | started (config : Config)
  | idleCreated
  | enteringIdle
  | stateCreated (thread : Thread)
  | agedUp (thread : Thread) (steps priority : Priority)
  | agedDown (thread : Thread) (steps priority : Priority)
  | migrated (thread : ThreadId) (band : Band)
  | queueCreated (queue : QueueId) (transfer : Bool)
  | alreadyReady (thread : Thread)
  | donated (lock : LockId) (holder : ThreadId) (priority : Priority)
  | waitCycle (lock : LockId)
  | waits (thread : Thread) (lock : LockId) (holder : ThreadId) (priority : Priority)
  | finishedHolding (thread : Thread) (lock : LockId)
  | finished (thread : Thread) (time : Ticks)
  | shutDown
  deriving DecidableEq, Repr, Inhabited

namespace Notice

def level : Notice → Level
  | .unknownKey _ => .warn
  | .configRead _ => .debug
  | .refused _ => .error
  | .started _ => .info
  | .idleCreated => .debug
  | .enteringIdle => .debug
  | .stateCreated _ => .trace
  | .agedUp .. => .trace
  | .agedDown .. => .trace
  | .migrated .. => .trace
  | .queueCreated .. => .trace
  | .alreadyReady _ => .trace
  | .donated .. => .trace
  | .waitCycle _ => .warn
  | .waits .. => .debug
  | .finishedHolding .. => .warn
  | .finished .. => .debug
  | .shutDown => .info

def target : Notice → String
  | .unknownKey _ => "teachos_kernel::config"
  | .configRead _ => "teachos_kernel::config"
  | .idleCreated => "teachos_kernel::logger"
  | .shutDown => "teachos_kernel::logger"
  | .enteringIdle => "teachos_kernel::scheduler::idle"
  | .stateCreated _ => "teachos_kernel::scheduler::thread::table"
  | .agedUp .. => "teachos_kernel::scheduler::aging"
  | .agedDown .. => "teachos_kernel::scheduler::aging"
  | .migrated .. => "teachos_kernel::scheduler::queue::multilevel"
  | .donated .. => "teachos_kernel::scheduler::donation"
  | .waitCycle _ => "teachos_kernel::scheduler::donation"
  | .refused _ => "teachos_kernel::scheduler::core::scheduler"
  | .started _ => "teachos_kernel::scheduler::core::scheduler"
  | .queueCreated .. => "teachos_kernel::scheduler::core::scheduler"
  | .alreadyReady _ => "teachos_kernel::scheduler::core::scheduler"
  | .waits .. => "teachos_kernel::scheduler::core::scheduler"
  | .finishedHolding .. => "teachos_kernel::scheduler::core::scheduler"
  | .finished .. => "teachos_kernel::scheduler::core::scheduler"

def message : Notice → String
  | .unknownKey key => s!"config: ignoring unknown key `{key}`"
  | .configRead c =>
      s!"config: policy={c.policy} range={c.mostUrgent}..={c.leastUrgent} aging={c.agingInterval} " ++
        s!"donation={c.donation}"
  | .refused error => s!"[SCHED] Error: {error.message} (hint: {error.hint})"
  | .started c =>
      s!"[SCHED] {c.policy} scheduler, priorities {c.mostUrgent}..={c.leastUrgent}, " ++
        s!"aging {c.agingInterval}, donation " ++ if c.donation then "on" else "off"
  | .idleCreated => "idle task created"
  | .enteringIdle => "[SCHED] ready queue empty, entering idle"
  | .stateCreated thread => s!"thread table: new state for {thread}"
  | .agedUp thread steps priority => s!"age_up {thread}: +{steps} -> {priority}"
  | .agedDown thread steps priority => s!"age_down {thread}: -{steps} -> {priority}"
  | .migrated thread band => s!"mlfq: thread {thread} -> {band.title}"
  | .queueCreated queue transfer => s!"[SCHED] new {queue} (transfer_priority={transfer})"
  | .alreadyReady thread => s!"[SCHED] {thread} already ready"
  | .donated lock holder priority => s!"donation: {lock} -> thread {holder} now {priority}"
  | .waitCycle lock => s!"donation: wait cycle through {lock}, propagation stopped"
  | .waits thread lock holder priority =>
      s!"[SCHED] {thread} waits on {lock} held by {holder} (now {priority})"
  | .finishedHolding thread lock => s!"[SCHED] {thread} finished holding {lock}, releasing"
  | .finished thread time => s!"[SCHED] {thread} finished at {time}"
  | .shutDown => "[SCHED] shutdown, statistics finalized"

def record (n : Notice) : Record := ⟨n.level, n.target, n.message⟩

end Notice

structure Noted (α : Type) where
  value : α
  notices : List Notice := []
  deriving Repr

end PriorityScheduler
