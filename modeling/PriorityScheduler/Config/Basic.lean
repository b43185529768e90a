import PriorityScheduler.Ticks

namespace PriorityScheduler

inductive Policy where
  | strict
  | aging
  | multilevel
  deriving DecidableEq, Repr, Inhabited

namespace Policy

def name : Policy → String
  | .strict => "strict"
  | .aging => "aging"
  | .multilevel => "multilevel"

def title : Policy → String
  | .strict => "Strict"
  | .aging => "Aging"
  | .multilevel => "MultiLevel"

def ages : Policy → Bool
  | .strict => false
  | .aging => true
  | .multilevel => true

instance : ToString Policy := ⟨name⟩

end Policy

structure BandLimits where
  hot : Priority
  normal : Priority
  deriving DecidableEq, Repr, Inhabited

structure Config where
  policy : Policy := .strict
  mostUrgent : Priority := 1
  leastUrgent : Priority := 40
  initial : Priority := 1
  agingInterval : Ticks := 0
  donation : Bool := true
  bandLimits : BandLimits := ⟨10, 20⟩
  capacity : Nat := 16
  deriving DecidableEq, Repr, Inhabited

namespace Config

def inRange (c : Config) (p : Priority) : Bool := c.mostUrgent ≤ p && p ≤ c.leastUrgent

def clamp (c : Config) (p : Priority) : Except Fault Priority :=
  if c.leastUrgent < c.mostUrgent then .error (.emptyRange c.mostUrgent c.leastUrgent)
  else .ok (max c.mostUrgent (min c.leastUrgent p))

def validate (c : Config) : Except Error Unit :=
  if c.leastUrgent < c.mostUrgent then .error (.invalidConfig "priority_min exceeds priority_max")
  else if !c.inRange c.initial then
    .error (.invalidConfig "priority_default outside priority range")
  else if c.bandLimits.normal ≤ c.bandLimits.hot then
    .error (.invalidConfig "band limits must be strictly increasing")
  else .ok ()

/-- Ticks per aging step under the configured policy; zero turns aging off. -/
def agingStep (c : Config) : Ticks := if c.policy.ages then c.agingInterval else 0

end Config

end PriorityScheduler
