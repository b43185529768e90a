import PriorityScheduler.Config.Basic

namespace PriorityScheduler

inductive Band where
  | hot
  | normal
  | cold
  deriving DecidableEq, Repr, Inhabited

namespace Band

def all : List Band := [.hot, .normal, .cold]

def classify (limits : BandLimits) (p : Priority) : Band :=
  if p ≤ limits.hot then .hot else if p ≤ limits.normal then .normal else .cold

def title : Band → String
  | .hot => "Hot"
  | .normal => "Normal"
  | .cold => "Cold"

end Band

end PriorityScheduler
