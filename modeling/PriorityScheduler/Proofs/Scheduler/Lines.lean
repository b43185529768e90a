import PriorityScheduler.Proofs.Scheduler.Seats

namespace PriorityScheduler

open PriorityScheduler.Action PriorityScheduler.Scheduler

namespace Scheduler

variable {config : Config} {s₀ s s' : Scheduler} {target queue : QueueId} {line : List ThreadId} {id : ThreadId}

def Free (s : Scheduler) (target : QueueId) (id : ThreadId) : Prop :=
  ∀ queue, s.threads.seat? id = some queue → queue = target

def lineAfter (target : QueueId) (line ids : List ThreadId) : List ThreadId :=
  if target = .ready then ids.foldl WaitQueue.lineUp line else line

structure Standing (config : Config) (s₀ : Scheduler) (target : QueueId) (line : List ThreadId) (s : Scheduler) :
    Prop where
  seated : s.Seated config
  moved : ∀ id queue, s.threads.seat? id = some queue → s₀.threads.seat? id = some queue ∨ queue = target
  lined : ∀ q, s.queues.get? .ready = some q → q.Lined line

def Whole (line : List ThreadId) (s : Scheduler) : Prop :=
  ∀ q, s.queues.get? .ready = some q → ∀ id ∈ line, id ∈ q.waiters

namespace Standing

theorem stays (standing : Standing config s₀ target line s) (stays : Stays config s s') :
    Standing config s₀ target line s' where
  seated := standing.seated.stays stays
  moved id queue sits := standing.moved id queue (stays.seat? id ▸ sits)
  lined q' found := by
    obtain ⟨q, before, same, -⟩ := stays.exists_queue found
    exact (standing.lined q before).rearranged same

theorem leaves {gone : Option ThreadId} (standing : Standing config s₀ target line s) (leaves : Leaves config gone s s') :
    Standing config s₀ target line s' where
  seated := leaves.seated
  moved id queue sits := by
    rw [leaves.seat?] at sits
    split at sits
    · cases sits
    · exact standing.moved id queue sits
  lined q' found := by
    obtain ⟨q, before, mem, places⟩ := leaves.queues .ready q' found
    exact (standing.lined q before).rest mem places

end Standing

theorem Whole.stays (whole : s.Whole line) (stays : Stays config s s') : s'.Whole line := by
  intro q' found id member
  obtain ⟨q, before, same, -⟩ := stays.exists_queue found
  exact (same.mem_waiters id).mpr (whole q before id member)

/-- A property of lines and schedulers that only depends on who waits where. -/
structure Stable (config : Config) (good : List ThreadId → Scheduler → Prop) : Prop where
  seated : ∀ {line s}, good line s → s.Seated config
  stays : ∀ {line s s'}, good line s → Stays config s s' → good line s'

theorem stable_standing (config : Config) (s₀ : Scheduler) (target : QueueId) :
    Stable config (Standing config s₀ target) where
  seated standing := standing.seated
  stays standing := standing.stays

theorem stable_whole (config : Config) (s₀ : Scheduler) (target : QueueId) :
    Stable config fun line s => Standing config s₀ target line s ∧ s.Whole line where
  seated both := both.1.seated
  stays both stays := ⟨both.1.stays stays, both.2.stays stays⟩

/-- A property holds in the course of a call, with the line as the admissions so far have left it, unless a thread was
admitted that sat in another queue. -/
structure Underway (config : Config) (s₀ : Scheduler) (target : QueueId) (line : List ThreadId)
    (good : List ThreadId → Scheduler → Prop) (s : Scheduler) : Prop where
  registered : s.Registered Thread.IsUser config
  told : ∃ out, s.output = s₀.output ++ out ∧
    ((∀ id ∈ out.filterMap Output.admitted?, s₀.Free target id) →
      good (lineAfter target line (out.filterMap Output.admitted?)) s)

namespace Underway

variable {good good' : List ThreadId → Scheduler → Prop}

theorem step (underway : Underway config s₀ target line good s) (registered : s'.Registered Thread.IsUser config)
    (output : s'.output = s.output) (kept : ∀ line, good line s → good' line s') :
    Underway config s₀ target line good' s' := by
  obtain ⟨out, before, holds⟩ := underway.told
  exact ⟨registered, out, output.trans before, fun free => kept _ (holds free)⟩

theorem tell (underway : Underway config s₀ target line good s) (stable : Stable config good) {more : List Output}
    (silent : more.filterMap Output.admitted? = []) : Underway config s₀ target line good (s.tell more) := by
  obtain ⟨out, before, holds⟩ := underway.told
  refine ⟨underway.registered.congr (.refl _) rfl rfl, out ++ more, ?_, ?_⟩
  · rw [← List.append_assoc, ← before]
    rfl
  · rw [List.filterMap_append, silent, List.append_nil]
    exact fun free => stable.stays (holds free) ((stable.seated (holds free)).frame rfl rfl rfl)

theorem bookkept (stable : Stable config good) : Bookkept (Underway config s₀ target line good) where
  quiet {s s'} same underway := by
    refine underway.step (underway.registered.congr ?_ same.current same.idle) same.output fun line holds =>
      stable.stays holds ((stable.seated holds).frame same.threads same.queues same.nextQueue)
    rw [same.threads]
    exact .refl _
  told silent underway := underway.tell stable (List.filterMap_eq_nil_iff.mpr fun o member => (silent o member).admitted?)

theorem walked (underway : Underway config s₀ target line good s) (stable : Stable config good) {w : Walk}
    (effect : Effect s.locks s.threads w) : Underway config s₀ target line good (s.follow w w.changed) :=
  underway.step (underway.registered.congr (effect.kin.weaken fun _ => rfl) rfl rfl) rfl fun _ holds =>
    stable.stays holds ((stable.seated holds).walked effect)

end Underway

theorem lineAfter_append (target : QueueId) (line ids : List ThreadId) (id : ThreadId) :
    lineAfter target line (ids ++ [id]) =
      if target = .ready then WaitQueue.lineUp (lineAfter target line ids) id else lineAfter target line ids := by
  unfold lineAfter
  split
  · rw [List.foldl_append, List.foldl_cons, List.foldl_nil]
  · rfl

theorem standing_joined (standing : Standing config s₀ target line s) (whole : s.Whole line) {q : WaitQueue}
    {thread : Thread} {state : ThreadState} (user : thread.IsUser) (found : s.threads.get? thread.id = some state)
    (known : s.queues.get? target = some q) (free : s₀.Free target thread.id) (accounts : Accounts) :
    let s' := s.enrol target q thread { state with accounts }
    let line' := if target = .ready then WaitQueue.lineUp line thread.id else line
    Standing config s₀ target line' s' ∧ s'.Whole line' := by
  have sits (queue : QueueId) (here : s.threads.seat? thread.id = some queue) : queue = target := by
    rcases standing.moved thread.id queue here with before | now
    · exact free queue before
    · exact now
  obtain ⟨seated, seat?⟩ := standing.seated.joined user found known sits accounts
  have moved (id : ThreadId) (queue : QueueId)
      (here : (s.enrol target q thread { state with accounts }).threads.seat? id = some queue) :
      s₀.threads.seat? id = some queue ∨ queue = target := by
    rw [seat?] at here
    split at here
    · exact .inr (Option.some.inj here).symm
    · exact standing.moved id queue here
  have settled : q.Settled config (s.enrol target q thread { state with accounts }).threads fun _ => False := by
    refine (standing.seated.queues target q known).2.congr fun j _ _ => ⟨not_false, ?_⟩
    refine ThreadRegistry.effective_put_of_effective found ?_ j
    rfl
  have get? : (s.enrol target q thread { state with accounts }).queues.get? .ready =
      if QueueId.ready = target then some (q.joined thread (s.enrol target q thread { state with accounts }).threads)
      else s.queues.get? .ready :=
    s.queues.get?_insert_eq target .ready _
  by_cases ready : target = .ready
  · simp only [if_pos ready]
    rw [if_pos ready.symm] at get?
    rw [ready] at known
    refine ⟨⟨seated, moved, fun q' found' => ?_⟩, fun q' found' id member => ?_⟩
    · rw [get?] at found'
      cases found'
      exact (standing.lined q known).joined (whole q known) settled user.isMain_iff
    · rw [get?] at found'
      cases found'
      rw [WaitQueue.mem_joined settled user.isMain_iff]
      exact ((WaitQueue.mem_lineUp line thread.id id).mp member).imp_right (whole q known id)
  · simp only [if_neg ready]
    rw [if_neg (Ne.symm ready)] at get?
    refine ⟨⟨seated, moved, fun q' found' => ?_⟩, fun q' found' id member => ?_⟩
    · exact standing.lined q' (get? ▸ found')
    · exact whole q' (get? ▸ found') id member

theorem standing_queueMade (standing : Standing config s₀ target line s) (whole : s.Whole line) (transfer : Bool) :
    let s' : Scheduler :=
      { s with
        nextQueue := s.nextQueue + 1
        queues := s.queues.insert ⟨s.nextQueue⟩ (.new ⟨s.nextQueue⟩ transfer config) }
    Standing config s₀ target line s' ∧ s'.Whole line := by
  have get? : (s.queues.insert ⟨s.nextQueue⟩ (.new ⟨s.nextQueue⟩ transfer config)).get? .ready =
      s.queues.get? .ready := by
    rw [SortedMap.get?_insert_eq, if_neg]
    intro same
    have bound := standing.seated.numbered .ready standing.seated.ready
    rw [same] at bound
    exact Nat.lt_irrefl _ bound
  refine ⟨⟨standing.seated.queueMade transfer, standing.moved, fun q found => ?_⟩, fun q found => ?_⟩
  · exact standing.lined q (get? ▸ found)
  · exact whole q (get? ▸ found)

theorem kept_underway (config : Config) (s₀ : Scheduler) (target : QueueId) (line : List ThreadId) :
    Kept Thread.IsUser target
      (Underway config s₀ target line fun line s => Standing config s₀ target line s ∧ s.Whole line) where
  toBookkept := Underway.bookkept (stable_whole config s₀ target)
  known thread underway := (underway.registered.thread? (.inl rfl) thread).2
  ensured user absent underway := by
    apply underway.step (underway.registered.ensured user _) rfl
    intro line holds
    exact (stable_whole config s₀ target).stays holds (holds.1.seated.ensured absent _)
  joined {s q thread state accounts} p user found known accounted underway := by
    obtain ⟨out, before, holds⟩ := underway.told
    refine ⟨(kept_registered (.inl rfl) config target).joined p user found known accounted underway.registered,
      out ++ [.event (.enqueued s.clock.now thread p)], ?_, ?_⟩
    · rw [← List.append_assoc, ← before]
      rfl
    · have admitted : (out ++ [Output.event (.enqueued s.clock.now thread p)]).filterMap Output.admitted? =
          out.filterMap Output.admitted? ++ [thread.id] := List.filterMap_append
      rw [admitted, lineAfter_append]
      intro free
      -- the thread counts as admitted, so it sat in no other queue when the call began
      have first := holds fun id member => free id (List.mem_append_left _ member)
      have last := free thread.id (List.mem_append_right _ (List.mem_singleton_self _))
      have joined := standing_joined first.1 first.2 user found known last accounts
      exact (stable_whole config s₀ target).stays joined (joined.1.seated.frame rfl rfl rfl)
  running busy underway := underway.registered.busy busy
  interrupted _ underway :=
    underway.step (underway.registered.congr (.refl _) rfl rfl) rfl fun _ holds =>
      (stable_whole config s₀ target).stays holds (holds.1.seated.frame rfl rfl rfl)
  repriced found repriced underway := by
    refine underway.step ((kept_registered (.inl rfl) config target).repriced found repriced underway.registered) rfl
      fun line holds => ?_
    exact (stable_whole config s₀ target).stays holds (holds.1.seated.repriced found repriced)
  claimed known underway := by
    refine underway.step (underway.registered.congr (.refl _) rfl rfl) rfl fun line holds => ?_
    exact (stable_whole config s₀ target).stays holds (holds.1.seated.claimed known _)
  queueMade {s transfer} underway := by
    refine underway.step (underway.registered.congr (.refl _) rfl rfl) rfl fun line holds => ?_
    have configured : s.config = config := underway.registered.configured
    rw [configured]
    exact standing_queueMade holds.1 holds.2 transfer
  lockMade underway := by
    refine underway.step (underway.registered.congr (.refl _) rfl rfl) rfl fun line holds => ?_
    exact (stable_whole config s₀ target).stays holds (holds.1.seated.frame rfl rfl rfl)
  emitted underway := underway.tell (stable_whole config s₀ target) rfl
  released done underway := underway.walked (stable_whole config s₀ target) (effect_release done)

theorem Underway.left
    (underway : Underway config s₀ target line (fun line s => Standing config s₀ target line s ∧ s.Whole line) s)
    (id : ThreadId) :
    Underway config s₀ target line (fun line s => Standing config s₀ target line s ∧ s.threads.seat? id = none) (s.left id) := by
  refine underway.step (underway.registered.left id) ?_ fun line holds => ?_
  · obtain ⟨queues, threads, left, -⟩ := s.exists_left id
    rw [left]
  · have leaves := holds.1.seated.left id
    exact ⟨holds.1.leaves leaves, (leaves.seat? id).trans (if_pos rfl)⟩

theorem Underway.standing {rest : List ThreadId → Scheduler → Prop}
    (underway : Underway config s₀ target line (fun line s => Standing config s₀ target line s ∧ rest line s) s) :
    Underway config s₀ target line (Standing config s₀ target) s :=
  underway.step underway.registered rfl fun _ => And.left

theorem Underway.retired
    (underway : Underway config s₀ target line (fun line s => Standing config s₀ target line s ∧ s.threads.seat? id = none) s) :
    Underway config s₀ target line (Standing config s₀ target) { s with threads := s.threads.remove id } :=
  underway.step (underway.registered.retired id) rfl fun _ holds => holds.1.stays (holds.1.seated.retired holds.2)

theorem dispatched_underway (config : Config) (s₀ : Scheduler) (target : QueueId) (line : List ThreadId) :
    Dispatched (Underway config s₀ target line (Standing config s₀ target)) where
  toBookkept := Underway.bookkept (stable_standing config s₀ target)
  dispatched p _ _ charged underway := by
    refine Underway.tell ?_ (stable_standing config s₀ target) rfl
    cases charged with
    | known found _ =>
        exact underway.step (underway.registered.congr (.put found rfl) rfl rfl) rfl fun line holds =>
          holds.stays (holds.seated.put found rfl rfl)
    | unknown _ => exact underway
  interrupted _ underway :=
    underway.step (underway.registered.congr (.refl _) rfl rfl) rfl fun _ holds =>
      holds.stays (holds.seated.frame rfl rfl rfl)
  switched known underway :=
    underway.step (underway.registered.switched (.inl rfl) known) rfl fun _ holds =>
      holds.stays (holds.seated.frame rfl rfl rfl)

theorem ends_standing {call : Call} (legal : s.Legal (.call call)) (registered : s.Registered Thread.IsUser config)
    (seated : s.Seated config) (lined : ∀ q, s.queues.get? .ready = some q → q.Lined line) (whole : s.Whole line) :
    Ends call.action s (fun _ => Underway config s call.target line (Standing config s call.target))
      (Underway config s call.target line (Standing config s call.target)) := by
  have start : Underway config s call.target line
      (fun line s' => Standing config s call.target line s' ∧ s'.Whole line) s := by
    refine ⟨registered, [], (List.append_nil _).symm, fun _ => ?_⟩
    have same : lineAfter call.target line ([].filterMap Output.admitted?) = line := by
      unfold lineAfter
      split <;> rfl
    rw [same]
    exact ⟨⟨seated, fun id queue sits => .inl sits, lined⟩, whole⟩
  refine ends_call legal.1 (kept_underway config s call.target line)
    Underway.standing (dispatched_underway config s call.target line) ?_ (fun takes => registered.busy (legal.2 takes)) ?_
    (fun _ underway _ => underway) ?_ start
  · intro lock s' outcome w _ _ _ _ done underway
    exact underway.walked (stable_whole config s call.target) (effect_acquire done)
  · rintro rfl
    have kept := kept_underway config s .ready line
    have masked := kept.interrupted s.masked.interrupts start
    refine kept.ends_depart (s := s.masked) (Underway.bookkept (stable_standing config s .ready)) Underway.standing
      (masked.walked (stable_whole config s .ready) (effect_withdraw _ _ _)) (fun after => after.left _) fun after => ?_
    exact ends_retire (Underway.bookkept (stable_standing config s .ready)) _
      (fun underway => underway.tell (stable_standing config s .ready) rfl) (fun _ => after.standing) after.retired
  · intro queue s₁ q n _ underway known taken
    exact underway.step (underway.registered.selected taken) rfl fun _ holds =>
      holds.leaves (holds.seated.selected known taken)

end Scheduler

end PriorityScheduler
