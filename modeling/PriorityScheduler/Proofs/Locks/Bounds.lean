import PriorityScheduler.Proofs.Registries

namespace PriorityScheduler

def Below (x : Priority) (o : Option Priority) : Prop := ∀ p ∈ o, x ≤ p

@[simp] theorem below_none (x : Priority) : Below x none := by
  intro p member
  cases member

@[simp] theorem below_some (x p : Priority) : Below x (some p) ↔ x ≤ p := by
  simp [Below]

theorem eq_of_below {a b : Option Priority} (same : ∀ x, Below x a ↔ Below x b) : a = b := by
  cases a with
  | none =>
      cases b with
      | none => rfl
      | some q =>
          have := same (q + 1)
          simp only [below_none, below_some, true_iff] at this
          grind
  | some p =>
      cases b with
      | none =>
          have := same (p + 1)
          simp only [below_none, below_some, iff_true] at this
          grind
      | some q =>
          have left := same p
          have right := same q
          simp only [below_some] at left right
          grind

theorem eq_of_le_iff {a b : Priority} (same : ∀ x, x ≤ a ↔ x ≤ b) : a = b := by
  have left := same a
  have right := same b
  grind

theorem below_least (x : Priority) (ps : List Priority) :
    Below x (LockRegistry.least ps) ↔ ∀ p ∈ ps, x ≤ p := by
  induction ps with
  | nil => simp [LockRegistry.least]
  | cons p rest ih =>
      rw [LockRegistry.least, below_some, List.forall_mem_cons, ← ih]
      cases LockRegistry.least rest with
      | none => simp
      | some q =>
          simp only [Option.elim_some, below_some]
          grind

theorem least_eq_min? (ps : List Priority) : LockRegistry.least ps = ps.min? := by
  induction ps with
  | nil => rfl
  | cons p rest ih => rw [LockRegistry.least, ih, List.min?_cons]

theorem le_foldl_min (x base : Priority) (ps : List Priority) :
    x ≤ ps.foldl min base ↔ x ≤ base ∧ ∀ p ∈ ps, x ≤ p := by
  induction ps generalizing base with
  | nil => simp
  | cons p rest ih =>
      rw [List.foldl_cons, ih, List.forall_mem_cons, Int.le_min]
      exact and_assoc

inductive Shift where
  | lowered (p : Priority)
  | raised (p : Priority)

namespace Shift

/-- The priorities below the old value and below the new one differ by the shift. -/
def Leads : Shift → (Priority → Prop) → (Priority → Prop) → Prop
  | .lowered p, old, new => ∀ x, new x ↔ old x ∧ x ≤ p
  | .raised p, old, new => ∀ x, old x ↔ new x ∧ x ≤ p

def passed : Shift → Option Priority → Bool
  | .lowered p, some q => q ≤ p
  | .lowered _, none => false
  | .raised p, some q => p < q
  | .raised _, none => true

variable {σ : Shift} {old new : Priority → Prop}

theorem Leads.and (leads : σ.Leads old new) (rest : Priority → Prop) :
    σ.Leads (fun x => rest x ∧ old x) (fun x => rest x ∧ new x) := by
  cases σ with
  | lowered p => exact fun x => (and_congr_right fun _ => leads x).trans and_assoc.symm
  | raised p => exact fun x => (and_congr_right fun _ => leads x).trans and_assoc.symm

theorem Leads.congr {old' new' : Priority → Prop} (leads : σ.Leads old new)
    (sameOld : ∀ x, old' x ↔ old x) (sameNew : ∀ x, new' x ↔ new x) : σ.Leads old' new' := by
  cases σ with
  | lowered p => exact fun x => by rw [sameOld, sameNew, leads x]
  | raised p => exact fun x => by rw [sameOld, sameNew, leads x]

theorem exists_leads (a b : Priority) : ∃ σ : Shift, σ.Leads (· ≤ a) (· ≤ b) := by
  by_cases down : b ≤ a
  · exact ⟨.lowered b, fun x => by grind⟩
  · exact ⟨.raised a, fun x => by grind⟩

theorem eq_of_passed {a b : Option Priority} (leads : σ.Leads (Below · a) (Below · b))
    (passed : σ.passed a = true) : a = b := by
  cases σ with
  | lowered p =>
      refine eq_of_below fun x => ⟨fun below => ?_, fun below => ((leads x).mp below).1⟩
      cases a with
      | none => cases passed
      | some q =>
          simp only [Shift.passed, decide_eq_true_eq] at passed
          rw [below_some] at below
          exact (leads x).mpr ⟨(below_some x q).mpr below, Int.le_trans below passed⟩
  | raised p =>
      -- the old value is no more than `p`, so it cannot have been passed
      exfalso
      cases a with
      | none =>
          have := ((leads (p + 1)).mp (below_none _)).2
          grind
      | some q =>
          simp only [Shift.passed, decide_eq_true_eq] at passed
          have := ((leads q).mp ((below_some q q).mpr (Int.le_refl q))).2
          grind

theorem passed_of_ne {a b : Option Priority} (leads : σ.Leads (Below · a) (Below · b))
    (moved : a ≠ b) : σ.passed b = true := by
  cases σ with
  | lowered p =>
      cases b with
      | none =>
          have := ((leads (p + 1)).mp (below_none _)).2
          grind
      | some q =>
          have := ((leads q).mp ((below_some q q).mpr (Int.le_refl q))).2
          simpa [Shift.passed] using this
  | raised p =>
      cases b with
      | none => rfl
      | some q =>
          simp only [Shift.passed, decide_eq_true_eq]
          by_cases above : p < q
          · exact above
          · refine absurd (eq_of_below fun x => ?_) moved
            refine (leads x).trans ⟨And.left, fun below => ⟨below, ?_⟩⟩
            rw [below_some] at below
            grind

end Shift

theorem countP_lt {α : Type} {before after : α → Bool} {xs : List α} {a : α} (member : a ∈ xs)
    (fewer : ∀ x ∈ xs, after x = true → before x = true) (was : before a = true) (gone : after a = false) :
    xs.countP after < xs.countP before := by
  induction xs with
  | nil => cases member
  | cons x rest ih =>
      have kept : rest.countP after ≤ rest.countP before :=
        List.countP_mono_left fun y hy => fewer y (List.mem_cons_of_mem x hy)
      have here := fewer x List.mem_cons_self
      rw [List.countP_cons, List.countP_cons]
      rcases List.mem_cons.mp member with same | later
      · rw [← same, was, gone]
        simp only [Bool.false_eq_true, if_false, if_true]
        omega
      · have drop := ih later fun y hy => fewer y (List.mem_cons_of_mem x hy)
        cases now : after x with
        | false =>
            simp only [Bool.false_eq_true, if_false]
            omega
        | true =>
            simp only [here now, if_true]
            omega

end PriorityScheduler
