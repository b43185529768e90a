import PriorityScheduler.Identity
import PriorityScheduler.Text.Quoted

namespace PriorityScheduler

inductive Role where
  | ordinary
  | main
  | idle
  deriving DecidableEq, Repr, Inhabited

structure Thread where
  id : ThreadId
  name : String
  role : Role := .ordinary
  deriving DecidableEq, Repr, Inhabited

namespace Thread

def main : Thread := ⟨.main, "main", .main⟩

def isMain (t : Thread) : Bool := t.role == .main

def isIdle (t : Thread) : Bool := t.role == .idle

/-- Exempt threads do not age and are not counted in the statistics. -/
def isExempt (t : Thread) : Bool := t.isMain || t.isIdle

instance : ToString Thread := ⟨fun t => s!"{t.name}({t.id})"⟩

end Thread

namespace Role

def bits : Role → Nat
  | .ordinary => 0
  | .main => 1
  | .idle => 2

def flagsText : Role → String
  | .ordinary => "ThreadFlags(0x0)"
  | .main => "ThreadFlags(MAIN)"
  | .idle => "ThreadFlags(IDLE)"

end Role

def Thread.describe (t : Thread) : String :=
  "ThreadHandle \x7b id: " ++ toString t.id ++ ", name: " ++ Text.quoted t.name ++
    ", flags: " ++ t.role.flagsText ++ " \x7d"

structure ThreadIds where
  next : Nat := 1
  deriving DecidableEq, Repr, Inhabited

namespace ThreadIds

def fresh (ids : ThreadIds) (name : String) (role : Role) : Thread × ThreadIds :=
  (⟨⟨ids.next⟩, name, role⟩, ⟨ids.next + 1⟩)

def ordinary (ids : ThreadIds) (name : String) : Thread × ThreadIds := ids.fresh name .ordinary

def idle (ids : ThreadIds) : Thread × ThreadIds := ids.fresh "idle" .idle

end ThreadIds

end PriorityScheduler
