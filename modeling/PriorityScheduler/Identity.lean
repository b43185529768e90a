namespace PriorityScheduler

structure ThreadId where
  val : Nat
  deriving DecidableEq, Repr, Inhabited

structure LockId where
  val : Nat
  deriving DecidableEq, Repr, Inhabited

structure QueueId where
  val : Nat
  deriving DecidableEq, Repr, Inhabited

def ThreadId.main : ThreadId := ⟨0⟩

def QueueId.ready : QueueId := ⟨0⟩

instance : Ord ThreadId := ⟨compareOn ThreadId.val⟩
instance : Ord LockId := ⟨compareOn LockId.val⟩
instance : Ord QueueId := ⟨compareOn QueueId.val⟩

instance : Std.TransOrd ThreadId := inferInstanceAs (Std.TransCmp (compareOn ThreadId.val))
instance : Std.TransOrd LockId := inferInstanceAs (Std.TransCmp (compareOn LockId.val))
instance : Std.TransOrd QueueId := inferInstanceAs (Std.TransCmp (compareOn QueueId.val))

theorem eq_of_compare_val {a b : Nat} (same : compare a b = .eq) : a = b :=
  Std.LawfulEqCmp.eq_of_compare same

instance : Std.LawfulEqOrd ThreadId where
  eq_of_compare {a b} same := by
    cases a; cases b; exact congrArg _ (eq_of_compare_val same)

instance : Std.LawfulEqOrd LockId where
  eq_of_compare {a b} same := by
    cases a; cases b; exact congrArg _ (eq_of_compare_val same)

instance : Std.LawfulEqOrd QueueId where
  eq_of_compare {a b} same := by
    cases a; cases b; exact congrArg _ (eq_of_compare_val same)

instance : ToString ThreadId := ⟨fun id => toString id.val⟩
instance : ToString LockId := ⟨fun id => s!"lock#{id.val}"⟩
instance : ToString QueueId := ⟨fun id => s!"queue#{id.val}"⟩

end PriorityScheduler
