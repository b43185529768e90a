import PriorityScheduler.Failure
import PriorityScheduler.Text.Utf8

/-!
# The kernel log

A record is written piece by piece into a line buffer of fixed size. What does not fit is lost, and so is a
character of which only a part fits. A logger hands the lines of the enabled levels to its writer.
-/

namespace PriorityScheduler

inductive Level where
  | error
  | warn
  | info
  | debug
  | trace
  deriving DecidableEq, Repr, Inhabited

namespace Level

def detail : Level → Nat
  | .error => 1
  | .warn => 2
  | .info => 3
  | .debug => 4
  | .trace => 5

def label : Level → String
  | .error => "ERROR"
  | .warn => "WARN "
  | .info => "INFO "
  | .debug => "DEBUG"
  | .trace => "TRACE"

def ofName? : String → Option Level
  | "error" => some .error
  | "warn" => some .warn
  | "info" => some .info
  | "debug" => some .debug
  | "trace" => some .trace
  | _ => none

end Level

structure LevelFilter where
  greatest? : Option Level := none
  deriving DecidableEq, Repr, Inhabited

def LevelFilter.enabled (filter : LevelFilter) (level : Level) : Bool :=
  match filter.greatest? with
  | none => false
  | some greatest => level.detail ≤ greatest.detail

structure LineBuffer where
  bytes : List UInt8
  pos : Nat := 0
  deriving DecidableEq, Repr, Inhabited

namespace LineBuffer

def zeroed (capacity pos : Nat) : LineBuffer := ⟨List.replicate capacity 0, pos⟩

def write (b : LineBuffer) (piece : List UInt8) : Except Fault LineBuffer :=
  if b.bytes.length < b.pos then .error .differenceNegative
  else
    let kept := piece.take (b.bytes.length - b.pos)
    .ok ⟨b.bytes.take b.pos ++ kept ++ b.bytes.drop (b.pos + kept.length), b.pos + kept.length⟩

def writeText (b : LineBuffer) (piece : String) : Except Fault LineBuffer :=
  b.write (Text.encode piece.toList)

def writeAll (b : LineBuffer) (pieces : List String) : Except Fault LineBuffer := pieces.foldlM writeText b

def text (b : LineBuffer) : String := String.ofList (Text.decode (b.bytes.take b.pos))

end LineBuffer

structure Record where
  level : Level
  target : String
  message : String
  deriving DecidableEq, Repr, Inhabited

namespace Record

def capacity : Nat := 512

def pieces (r : Record) : List String := ["[", r.level.label, "] ", r.target, ": ", r.message]

def line (r : Record) : Except Fault String := do
  let buffer ← (LineBuffer.zeroed capacity 0).writeAll r.pieces
  pure buffer.text

end Record

/-- A logger with a writer of type `ω`; before the first installation it has none and drops every record. -/
structure Logger (ω : Type) where
  writer? : Option ω := none
  filter : LevelFilter := {}
  deriving Repr, Inhabited

namespace Logger

variable {ω : Type}

def log (logger : Logger ω) (record : Record) : Except Fault (Option (ω × String)) :=
  match logger.writer? with
  | some writer =>
      if logger.filter.enabled record.level then do
        let line ← record.line
        pure (some (writer, line))
      else .ok none
  | none => .ok none

def linesAt (filter : LevelFilter) (records : List Record) : Except Fault (List String) :=
  (records.filter fun r => filter.enabled r.level).mapM Record.line

def ownRecord (level : Level) (message : String) : Record := ⟨level, "teachos_kernel::logger", message⟩

/-- Put in a new writer and a new level. A logger that had a writer says so, to the new writer but still at
the old level. -/
def install (logger : Logger ω) (writer : ω) (filter : LevelFilter) :
    Except Fault (Option (ω × String) × Logger ω) := do
  let said ←
    match logger.writer? with
    | some _ =>
        log { logger with writer? := some writer } (ownRecord .debug "logger already installed, writer replaced")
    | none => .ok none
  pure (said, ⟨some writer, filter⟩)

end Logger

end PriorityScheduler
