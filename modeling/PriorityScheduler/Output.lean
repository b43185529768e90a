import PriorityScheduler.Notice

namespace PriorityScheduler

inductive Output where
  | event (e : Event)
  | notice (n : Notice)
  deriving DecidableEq, Repr, Inhabited

def Event.record (e : Event) : Record := ⟨.info, "sched::stats", e.line⟩

inductive Sink where
  | buffer
  | log
  | discard
  deriving DecidableEq, Repr, Inhabited

namespace Sink

def line? (sink : Sink) (o : Output) : Option String :=
  match sink, o with
  | .buffer, .event e => some e.line
  | _, _ => none

def record? (sink : Sink) (o : Output) : Option Record :=
  match sink, o with
  | _, .notice n => some n.record
  | .log, .event e => some e.record
  | _, .event _ => none

def lines (sink : Sink) (output : List Output) : List String := output.filterMap sink.line?

def records (sink : Sink) (output : List Output) : List Record := output.filterMap sink.record?

end Sink

structure EventBuffer where
  lines : List String := []
  deriving DecidableEq, Repr, Inhabited

namespace EventBuffer

def record (b : EventBuffer) (e : Event) : EventBuffer := ⟨b.lines ++ [e.line]⟩

def drain (b : EventBuffer) : List String × EventBuffer := (b.lines, {})

end EventBuffer

end PriorityScheduler
