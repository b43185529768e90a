import PriorityScheduler.Notice
import PriorityScheduler.Text.Blank
import PriorityScheduler.Text.Numeral

/-!
# Reading a configuration

A configuration text holds one `key = value` per line; what follows a `#` is a comment, and blank lines are
skipped. A known key sets its field, the last one winning. An unknown key is noticed and skipped. The first bad
line decides the error; the finished configuration is validated at the end.
-/

namespace PriorityScheduler

def Policy.read (text : List Char) : Except Error Policy :=
  let word := String.ofList (Text.lowerAscii (Text.trim text))
  if word = "strict" || word = "static" then .ok .strict
  else if word = "aging" || word = "dynamic" then .ok .aging
  else if word = "multilevel" || word = "mlfq" then .ok .multilevel
  else .error (.invalidConfig "unknown scheduler.policy")

namespace Config

inductive Key where
  | policy
  | agingTime
  | minPriority
  | maxPriority
  | defaultPriority
  | donation
  | bandLimits
  | threadCount
  deriving DecidableEq, Repr, Inhabited

namespace Key

def all : List Key :=
  [.policy, .agingTime, .minPriority, .maxPriority, .defaultPriority, .donation, .bandLimits, .threadCount]

def name : Key → String
  | .policy => "scheduler.policy"
  | .agingTime => "scheduler.agingTime"
  | .minPriority => "scheduler.minPriorityValue"
  | .maxPriority => "scheduler.maxPriorityValue"
  | .defaultPriority => "scheduler.defaultPriority"
  | .donation => "scheduler.priorityDonation"
  | .bandLimits => "scheduler.bandLimits"
  | .threadCount => "Kernel.numThreads"

def ofText? (text : List Char) : Option Key := all.find? fun key => key.name.toList == text

end Key

def readPriority (value : List Char) : Except Error Priority :=
  match Text.signed? Priority.lowest Priority.highest value with
  | some p => .ok p
  | none => .error (.invalidConfig "expected a number")

def readCount (value : List Char) : Except Error Nat :=
  match Text.unsigned? Ticks.bound value with
  | some n => .ok n
  | none => .error (.invalidConfig "expected a number")

def readSwitch (value : List Char) : Except Error Bool :=
  let word := String.ofList value
  if word ∈ ["true", "1", "yes", "on"] then .ok true
  else if word ∈ ["false", "0", "no", "off"] then .ok false
  else .error (.invalidConfig "expected a boolean")

def readBands (value : List Char) : Except Error BandLimits :=
  match Text.splitFirst? ',' value with
  | none => .error (.invalidConfig "scheduler.bandLimits expects `low,high`")
  | some (hot, normal) => do
      let hot ← readPriority (Text.trim hot)
      let normal ← readPriority (Text.trim normal)
      pure ⟨hot, normal⟩

def set (c : Config) (key : Key) (value : List Char) : Except Error Config :=
  match key with
  | .policy => (Policy.read value).map fun policy => { c with policy }
  | .agingTime => (readCount value).map fun agingInterval => { c with agingInterval }
  | .minPriority => (readPriority value).map fun mostUrgent => { c with mostUrgent }
  | .maxPriority => (readPriority value).map fun leastUrgent => { c with leastUrgent }
  | .defaultPriority => (readPriority value).map fun initial => { c with initial }
  | .donation => (readSwitch value).map fun donation => { c with donation }
  | .bandLimits => (readBands value).map fun bandLimits => { c with bandLimits }
  | .threadCount => (readCount value).map fun capacity => { c with capacity }

def significant (line : List Char) : List Char := Text.trim (Text.before '#' line)

def entry? (text : List Char) : Option (List Char × List Char) :=
  (Text.splitFirst? '=' text).map fun (key, value) => (Text.trim key, Text.trim value)

def readLines : List (List Char) → Config → Noted (Except Error Config)
  | [], c =>
      match c.validate with
      | .ok _ => ⟨.ok c, [.configRead c]⟩
      | .error e => ⟨.error e, []⟩
  | line :: rest, c =>
      let text := significant line
      if text.isEmpty then readLines rest c
      else
        match entry? text with
        | none => ⟨.error (.invalidConfig "expected `key = value`"), []⟩
        | some (name, value) =>
            match Key.ofText? name with
            | none =>
                let later := readLines rest c
                ⟨later.value, .unknownKey (String.ofList name) :: later.notices⟩
            | some key =>
                match c.set key value with
                | .ok c => readLines rest c
                | .error e => ⟨.error e, []⟩

def read (text : String) : Noted (Except Error Config) := readLines (Text.lines text.toList) {}

end Config

end PriorityScheduler
