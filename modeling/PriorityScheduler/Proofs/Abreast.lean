import PriorityScheduler.Proofs.Repricing

namespace PriorityScheduler

inductive Abreast {ε α β : Type} (excused : ε → Prop) (related : α → β → Prop) : Except ε α → Except ε β → Prop where
  | ok {a : α} {b : β} (same : related a b) : Abreast excused related (.ok a) (.ok b)
  | error (e : ε) : Abreast excused related (.error e) (.error e)
  | left {e : ε} {y : Except ε β} (excuse : excused e) : Abreast excused related (.error e) y
  | right {x : Except ε α} {e : ε} (excuse : excused e) : Abreast excused related x (.error e)

namespace Abreast

variable {ε α β α' β' : Type} {excused : ε → Prop} {related : α → β → Prop} {related' : α' → β' → Prop}
  {x : Except ε α} {y : Except ε β}

theorem of_ok {a : α} {b : β} (abreast : Abreast excused related (.ok a) (.ok b)) : related a b := by
  cases abreast with
  | ok same => exact same

theorem imp {weaker : α → β → Prop} (abreast : Abreast excused related x y) (weaken : ∀ a b, related a b → weaker a b) :
    Abreast excused weaker x y := by
  cases abreast with
  | ok same => exact .ok (weaken _ _ same)
  | error e => exact .error e
  | left excuse => exact .left excuse
  | right excuse => exact .right excuse

theorem bind {f : α → Except ε α'} {g : β → Except ε β'} (abreast : Abreast excused related x y)
    (next : ∀ a b, related a b → Abreast excused related' (f a) (g b)) :
    Abreast excused related' (x >>= f) (y >>= g) := by
  cases abreast with
  | ok same => exact next _ _ same
  | error e => exact .error e
  | left excuse => exact .left excuse
  | right excuse => exact .right excuse

theorem map {f : α → α'} {g : β → β'} (abreast : Abreast excused related x y)
    (next : ∀ a b, related a b → related' (f a) (g b)) : Abreast excused related' (x.map f) (y.map g) := by
  cases abreast with
  | ok same => exact .ok (next _ _ same)
  | error e => exact .error e
  | left excuse => exact .left excuse
  | right excuse => exact .right excuse

theorem withRight {holds : β → Prop} (abreast : Abreast excused related x y) (right : ∀ b, y = .ok b → holds b) :
    Abreast excused (fun a b => related a b ∧ holds b) x y := by
  cases abreast with
  | ok same => exact .ok ⟨same, right _ rfl⟩
  | error e => exact .error e
  | left excuse => exact .left excuse
  | right excuse => exact .right excuse

theorem of_eq {z w : Except ε α} (same : z = w) : Abreast excused Eq z w := by
  cases same
  cases z with
  | ok a => exact .ok rfl
  | error e => exact .error e

theorem of_map {γ : Type} {f : α → γ} {g : β → γ} (same : y.map g = x.map f)
    (relate : ∀ a b, x = .ok a → y = .ok b → g b = f a → related a b) : Abreast excused related x y := by
  cases x with
  | ok a =>
      obtain ⟨b, done, equal⟩ := map_eq_ok.mp same
      rw [done]
      exact .ok (relate a b rfl done equal)
  | error e =>
      cases y with
      | ok b => cases same
      | error e' =>
          cases same
          exact .error e

end Abreast

end PriorityScheduler
