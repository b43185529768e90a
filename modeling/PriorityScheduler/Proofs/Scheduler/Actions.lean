import PriorityScheduler.Scheduler.Dispatch

namespace PriorityScheduler.Action

def Ends {α : Type} (m : Action α) (s : Scheduler) (done : α → Scheduler → Prop) (refused : Scheduler → Prop) : Prop :=
  match m s with
  | .ok a s' => done a s'
  | .error (.refused _) s' => refused s'
  | .error (.fatal _) _ => True

def Keeps {α : Type} (inv : Scheduler → Prop) (m : Action α) : Prop := ∀ s, inv s → Ends m s (fun _ => inv) inv

variable {α β : Type} {s : Scheduler} {inv refused refused' : Scheduler → Prop}

theorem Ends.imp {m : Action α} {done done' : α → Scheduler → Prop} (ends : Ends m s done refused)
    (ok : ∀ a s', done a s' → done' a s') (no : ∀ s', refused s' → refused' s') : Ends m s done' refused' := by
  unfold Ends at ends ⊢
  split
  · rename_i a s' run
    rw [run] at ends
    exact ok a s' ends
  · rename_i e s' run
    rw [run] at ends
    exact no s' ends
  · trivial

theorem Ends.and {m : Action α} {done done' : α → Scheduler → Prop} (ends : Ends m s done refused)
    (ends' : Ends m s done' refused') :
    Ends m s (fun a s' => done a s' ∧ done' a s') fun s' => refused s' ∧ refused' s' := by
  unfold Ends at ends ends' ⊢
  split
  · rename_i run
    rw [run] at ends ends'
    exact ⟨ends, ends'⟩
  · rename_i run
    rw [run] at ends ends'
    exact ⟨ends, ends'⟩
  · trivial

theorem Ends.of_ok {m : Action α} {done : α → Scheduler → Prop} (ends : Ends m s done refused) {a : α}
    {s' : Scheduler} (run : m s = .ok a s') : done a s' := by
  rw [Ends, run] at ends
  exact ends

theorem ends_true (m : Action α) (s : Scheduler) : Ends m s (fun _ _ => True) fun _ => True := by
  unfold Ends
  split <;> trivial

section Steps

variable {done : α → Scheduler → Prop}

@[simp] theorem ends_pure (a : α) : Ends (pure a : Action α) s done refused ↔ done a s := Iff.rfl

@[simp] theorem ends_fault (f : Fault) : Ends (fault f : Action α) s done refused := trivial

@[simp] theorem ends_refuse (e : Error) : Ends (refuse e : Action α) s done refused ↔ refused s := Iff.rfl

@[simp] theorem ends_bind {m : Action β} {f : β → Action α} :
    Ends (m >>= f) s done refused ↔ Ends m s (fun b s' => Ends (f b) s' done refused) refused := by
  unfold Ends
  simp only [bind, EStateM.bind]
  cases m s with
  | ok b s' => rfl
  | error e s' =>
      cases e with
      | refused e => rfl
      | fatal f => rfl

@[simp] theorem ends_get {done : Scheduler → Scheduler → Prop} : Ends get s done refused ↔ done s s := Iff.rfl

@[simp] theorem ends_set {done : PUnit → Scheduler → Prop} (s' : Scheduler) :
    Ends (set s') s done refused ↔ done ⟨⟩ s' := Iff.rfl

@[simp] theorem ends_modify {done : PUnit → Scheduler → Prop} (f : Scheduler → Scheduler) :
    Ends (modify f) s done refused ↔ done ⟨⟩ (f s) := Iff.rfl

@[simp] theorem ends_masked {m : Action α} :
    Ends (masked m) s done refused ↔
      Ends m { s with interrupts := s.interrupts.guard.2 }
        (fun a s' => done a { s' with interrupts := s'.interrupts.release s.interrupts.guard.1 })
        (fun s' => refused { s' with interrupts := s'.interrupts.release s.interrupts.guard.1 }) := by
  simp only [Ends, masked, Interrupts.guard]
  cases m { s with interrupts := s.interrupts.disable.2 } with
  | ok a s' => rfl
  | error e s' =>
      cases e with
      | refused e => rfl
      | fatal f => rfl

end Steps

theorem ends_lift {result : Except Failure α} {done : α → Scheduler → Prop} (ok : ∀ a, result = .ok a → done a s)
    (no : refused s) : Ends (lift result) s done refused := by
  cases result with
  | ok a => exact ok a rfl
  | error f =>
      cases f with
      | refused e => exact no
      | fatal f => trivial

theorem ends_liftFault {result : Except Fault α} {done : α → Scheduler → Prop} (ok : ∀ a, result = .ok a → done a s) :
    Ends (liftFault result) s done refused := by
  cases result with
  | ok a => exact ok a rfl
  | error f => trivial

theorem ends_noted {result : Except Fault (Noted α)} {done : α → Scheduler → Prop}
    (ok : ∀ n, result = .ok n → done n.value { s with output := s.output ++ n.notices.map .notice }) :
    Ends (noted result) s done refused := by
  rw [noted, ends_bind]
  apply ends_liftFault
  intro n run
  rw [ends_bind, notices, ends_modify]
  exact ok n run

theorem Keeps.bind {m : Action β} {f : β → Action α} (first : Keeps inv m) (next : ∀ b, Keeps inv (f b)) :
    Keeps inv (m >>= f) := by
  intro s holds
  rw [ends_bind]
  exact (first s holds).imp (fun b s' holds' => next b s' holds') fun _ => id

def Settles (m : Action α) (s : Scheduler) (done : α → Scheduler → Prop) (failed : Failure → Scheduler → Prop) : Prop :=
  match m s with
  | .ok a s' => done a s'
  | .error f s' => failed f s'

section Settles

variable {failed failed' : Failure → Scheduler → Prop} {done done' : α → Scheduler → Prop}

theorem ends_iff_settles {m : Action α} :
    Ends m s done refused ↔ Settles m s done fun f s' => ∀ e, f = .refused e → refused s' := by
  unfold Ends Settles
  cases m s with
  | ok a s' => rfl
  | error f s' =>
      cases f with
      | refused e => simp
      | fatal f => simp

theorem Settles.imp {m : Action α} (settles : Settles m s done failed) (ok : ∀ a s', done a s' → done' a s')
    (no : ∀ f s', failed f s' → failed' f s') : Settles m s done' failed' := by
  unfold Settles at settles ⊢
  cases run : m s with
  | ok a s' =>
      rw [run] at settles
      exact ok a s' settles
  | error f s' =>
      rw [run] at settles
      exact no f s' settles

theorem Settles.and {m : Action α} (settles : Settles m s done failed) (ends : Ends m s done' refused) :
    Settles m s (fun a s' => done a s' ∧ done' a s') failed := by
  unfold Settles at settles ⊢
  unfold Ends at ends
  cases run : m s with
  | ok a s' =>
      rw [run] at settles ends
      exact ⟨settles, ends⟩
  | error f s' =>
      rw [run] at settles
      exact settles

theorem Settles.of_ok {m : Action α} (settles : Settles m s done failed) {a : α} {s' : Scheduler} (run : m s = .ok a s') :
    done a s' := by
  rw [Settles, run] at settles
  exact settles

theorem Settles.of_error {m : Action α} (settles : Settles m s done failed) {f : Failure} {s' : Scheduler}
    (run : m s = .error f s') : failed f s' := by
  rw [Settles, run] at settles
  exact settles

@[simp] theorem settles_pure (a : α) : Settles (pure a : Action α) s done failed ↔ done a s := Iff.rfl

@[simp] theorem settles_fault (f : Fault) : Settles (fault f : Action α) s done failed ↔ failed (.fatal f) s := Iff.rfl

@[simp] theorem settles_bind {m : Action β} {f : β → Action α} :
    Settles (m >>= f) s done failed ↔ Settles m s (fun b s' => Settles (f b) s' done failed) failed := by
  unfold Settles
  simp only [bind, EStateM.bind]
  cases m s <;> rfl

@[simp] theorem settles_get {done : Scheduler → Scheduler → Prop} : Settles get s done failed ↔ done s s := Iff.rfl

@[simp] theorem settles_set {done : PUnit → Scheduler → Prop} (s' : Scheduler) :
    Settles (set s') s done failed ↔ done ⟨⟩ s' := Iff.rfl

@[simp] theorem settles_modify {done : PUnit → Scheduler → Prop} (f : Scheduler → Scheduler) :
    Settles (modify f) s done failed ↔ done ⟨⟩ (f s) := Iff.rfl

@[simp] theorem settles_masked {m : Action α} :
    Settles (masked m) s done failed ↔
      Settles m { s with interrupts := s.interrupts.guard.2 }
        (fun a s' => done a { s' with interrupts := s'.interrupts.release s.interrupts.guard.1 })
        (fun f s' => failed f { s' with interrupts := s'.interrupts.release s.interrupts.guard.1 }) := by
  simp only [Settles, masked, Interrupts.guard]
  cases m { s with interrupts := s.interrupts.disable.2 } <;> rfl

theorem settles_lift {result : Except Failure α} (ok : ∀ a, result = .ok a → done a s)
    (no : ∀ f, result = .error f → failed f s) : Settles (lift result) s done failed := by
  cases result with
  | ok a => exact ok a rfl
  | error f => exact no f rfl

theorem settles_liftFault {result : Except Fault α} (ok : ∀ a, result = .ok a → done a s)
    (no : ∀ f, result = .error f → failed (.fatal f) s) : Settles (liftFault result) s done failed := by
  cases result with
  | ok a => exact ok a rfl
  | error f => exact no f rfl

theorem settles_noted {result : Except Fault (Noted α)}
    (ok : ∀ n, result = .ok n → done n.value { s with output := s.output ++ n.notices.map .notice })
    (no : ∀ f, result = .error f → failed (.fatal f) s) : Settles (noted result) s done failed := by
  rw [noted, settles_bind]
  refine settles_liftFault (fun n run => ?_) no
  rw [settles_bind, notices, settles_modify]
  exact ok n run

theorem settles_assertMasked (operation : Operation) {done : PUnit → Scheduler → Prop}
    (masked : s.interrupts.enabled = false) (holds : done ⟨⟩ s) : Settles (assertMasked operation) s done failed := by
  rw [assertMasked, settles_bind, settles_get, masked]
  exact holds

end Settles

end PriorityScheduler.Action
