import PriorityScheduler.Proofs.Scheduler.Seats

namespace PriorityScheduler

open PriorityScheduler.Action PriorityScheduler.Scheduler

/-- Who waits where, as the queues have it and as the threads have it. -/
@[ext]
structure Placement where
  waits : ThreadId → QueueId → Prop
  seat? : ThreadId → Option QueueId

namespace Placement

def join (p : Placement) (id : ThreadId) (queue : QueueId) : Placement where
  waits j other := j = id ∧ other = queue ∨ p.waits j other
  seat? j := if j = id then some queue else p.seat? j

def unseat (p : Placement) (id : ThreadId) : Placement :=
  { p with seat? := fun j => if j = id then none else p.seat? j }

def leave (p : Placement) (id : ThreadId) (queue : QueueId) : Placement :=
  { p.unseat id with waits := fun j other => p.waits j other ∧ ¬(j = id ∧ other = queue) }

end Placement

theorem WaitQueue.Settled.any {q : WaitQueue} {config : Config} {threads threads' : ThreadRegistry}
    {pending : ThreadId → Prop} (settled : q.Settled config threads pending) : q.Settled config threads' fun _ => True :=
  settled.congr fun _ _ out => absurd trivial out

namespace Scheduler

variable {named : Thread → Prop} {config : Config} {s s' : Scheduler} {id : ThreadId} {queue target : QueueId}

def Waits (s : Scheduler) (id : ThreadId) (queue : QueueId) : Prop :=
  ∃ q, s.queues.get? queue = some q ∧ id ∈ q.waiters

def placement (s : Scheduler) : Placement := ⟨s.Waits, s.threads.seat?⟩

def admitted (s : Scheduler) : List ThreadId := s.output.filterMap Output.admitted?

structure Housed (named : Thread → Prop) (config : Config) (s : Scheduler) : Prop where
  registered : s.Registered named config
  queues : ∀ queue q, s.queues.get? queue = some q → q.id = queue ∧ q.Settled config s.threads fun _ => True
  numbered : ∀ queue, (s.queues.get? queue).isSome → queue.val < s.nextQueue
  ready : (s.queues.get? .ready).isSome
  seats : ∀ id queue, s.threads.seat? id = some queue → s.Waits id queue

theorem waits_iff {q : WaitQueue} (found : s.queues.get? queue = some q) : s.Waits id queue ↔ id ∈ q.waiters := by
  simp [Waits, found]

theorem mem_readyWaiters : id ∈ s.readyWaiters ↔ s.Waits id .ready := by
  unfold readyWaiters Waits
  cases s.queues.get? .ready <;> simp

theorem waits_iff_mem {ids : List ThreadId} (waiters : s.queueWaiters queue = .ok ids) :
    s.Waits id queue ↔ id ∈ ids := by
  unfold queueWaiters queue? at waiters
  cases found : s.queues.get? queue with
  | none =>
      rw [found] at waiters
      cases waiters
  | some q =>
      rw [found] at waiters
      cases waiters
      exact waits_iff found

namespace Housed

theorem still (housed : s.Housed named config) (registered : s'.Registered named config)
    (queues : s'.queues = s.queues) (nextQueue : s'.nextQueue = s.nextQueue)
    (seat? : ∀ id, s'.threads.seat? id = s.threads.seat? id) : s'.Housed named config ∧ s'.placement = s.placement := by
  have waits : s'.Waits = s.Waits := by
    funext j other
    simp only [Waits, queues]
  refine ⟨⟨registered, fun queue q found => ?_, ?_, ?_, fun id queue sits => ?_⟩, Placement.ext waits (funext seat?)⟩
  · obtain ⟨same, settled⟩ := housed.queues queue q (queues ▸ found)
    exact ⟨same, settled.any⟩
  · rw [queues, nextQueue]
    exact housed.numbered
  · rw [queues]
    exact housed.ready
  · rw [waits]
    exact housed.seats id queue (seat? id ▸ sits)

theorem same (housed : s.Housed named config) (threads : s'.threads = s.threads) (queues : s'.queues = s.queues)
    (nextQueue : s'.nextQueue = s.nextQueue) (current : s'.processor.current = s.processor.current)
    (idle : s'.idle.thread = s.idle.thread) : s'.Housed named config ∧ s'.placement = s.placement := by
  refine housed.still (housed.registered.congr ?_ current idle) queues nextQueue fun id => by rw [threads]
  rw [threads]
  exact .refl _

theorem told (housed : s.Housed named config) (out : List Output) :
    (s.tell out).Housed named config ∧ (s.tell out).placement = s.placement :=
  housed.same rfl rfl rfl rfl rfl

theorem put (housed : s.Housed named config) {state state' : ThreadState} (found : s.threads.get? id = some state)
    (same : state'.placed = state.placed) :
    let s' := { s with threads := s.threads.put id state' }
    s'.Housed named config ∧ s'.placement = s.placement := by
  have matching : s.threads.Matches ThreadState.placed (s.threads.put id state') := .put found same
  exact housed.still (housed.registered.congr (matching.weaken fun _ => rfl) rfl rfl) rfl rfl matching.seat?

theorem charged (housed : s.Housed named config) {t : Thread} (charged : s.Charged t s') :
    s'.Housed named config ∧ s'.placement = s.placement := by
  cases charged with
  | known found _ => exact housed.put found rfl
  | unknown _ => exact ⟨housed, rfl⟩

theorem ensured (housed : s.Housed named config) {t : Thread} (listed : named t) (absent : s.threads.get? t.id = none)
    (p : Priority) :
    let s' := { s with threads := s.threads.put t.id (.new t p) }
    s'.Housed named config ∧ s'.placement = s.placement := by
  refine housed.still (housed.registered.ensured listed p) rfl rfl fun j => ?_
  simp only [ThreadRegistry.seat?, ThreadRegistry.get?_put]
  split
  · rename_i here
    rw [here, absent]
    rfl
  · rfl

theorem follow (housed : s.Housed named config) {w : Walk} (ids : List ThreadId)
    (placed : s.threads.Matches ThreadState.placed w.threads) :
    (s.follow w ids).Housed named config ∧ (s.follow w ids).placement = s.placement := by
  have get? (queue : QueueId) := get?_repositioned w.threads ids s.queues queue
  have rearranged {queue : QueueId} {q : WaitQueue} (found : s.queues.get? queue = some q) (ids : List ThreadId) := by
    have settled : q.Settled config w.threads fun _ => True := (housed.queues queue q found).2.any
    exact settled.rearranged ids
  have waits : (s.follow w ids).Waits = s.Waits := by
    funext j other
    simp only [Waits, Scheduler.follow, get?]
    cases found : s.queues.get? other with
    | none => simp
    | some q => simp [(rearranged found _).1.mem_waiters j]
  refine ⟨⟨?_, fun queue q' found => ?_, fun queue known => ?_, ?_, fun id queue sits => ?_⟩,
    Placement.ext waits (funext placed.seat?)⟩
  · exact housed.registered.congr (placed.weaken fun _ => rfl) rfl rfl
  · obtain ⟨q, before, rfl⟩ := Option.map_eq_some_iff.mp ((get? queue).symm.trans found)
    obtain ⟨same, settled⟩ := rearranged before (ids.filter fun id => w.threads.seat? id = some queue)
    exact ⟨same.id.trans (housed.queues queue q before).1, settled.any⟩
  · rw [Scheduler.follow, get?, Option.isSome_map] at known
    exact housed.numbered queue known
  · rw [Scheduler.follow, get?, Option.isSome_map]
    exact housed.ready
  · rw [waits]
    exact housed.seats id queue (placed.seat? id ▸ sits)

theorem walked (housed : s.Housed named config) {w : Walk} (effect : Effect s.locks s.threads w) :
    (s.follow w w.changed).Housed named config ∧ (s.follow w w.changed).placement = s.placement :=
  housed.follow w.changed (effect.kin.weaken fun _ => rfl)

theorem claimed (housed : s.Housed named config) {q : WaitQueue} (found : s.queues.get? queue = some q)
    (owner : Option ThreadId) :
    let s' := { s with queues := s.queues.insert queue { q with owner } }
    s'.Housed named config ∧ s'.placement = s.placement := by
  have get? (j : QueueId) := s.queues.get?_insert_eq queue j { q with owner }
  have waits : ({ s with queues := s.queues.insert queue { q with owner } } : Scheduler).Waits = s.Waits := by
    funext j other
    simp only [Waits, get?]
    split
    · rename_i here
      simp [here, found, WaitQueue.waiters]
    · rfl
  refine ⟨⟨housed.registered.congr (.refl _) rfl rfl, fun other q' found' => ?_, fun other known => ?_, ?_, ?_⟩,
    Placement.ext waits rfl⟩
  · rw [get?] at found'
    split at found'
    · rename_i here
      cases found'
      obtain ⟨same, settled⟩ := housed.queues queue q found
      exact ⟨same.trans here.symm, settled.ordered, settled.apart⟩
    · exact housed.queues other q' found'
  · rw [get?] at known
    split at known
    · rename_i here
      exact here ▸ housed.numbered queue (by rw [found]; rfl)
    · exact housed.numbered other known
  · rw [get?]
    split
    · rfl
    · exact housed.ready
  · rw [waits]
    exact housed.seats

theorem queueMade (housed : s.Housed named config) (transfer : Bool) :
    let s' : Scheduler :=
      { s with
        nextQueue := s.nextQueue + 1
        queues := s.queues.insert ⟨s.nextQueue⟩ (.new ⟨s.nextQueue⟩ transfer s.config) }
    s'.Housed named config ∧ s'.placement = s.placement := by
  have get? (j : QueueId) := s.queues.get?_insert_eq ⟨s.nextQueue⟩ j (.new ⟨s.nextQueue⟩ transfer s.config)
  have fresh : s.queues.get? ⟨s.nextQueue⟩ = none := by
    cases found : s.queues.get? ⟨s.nextQueue⟩ with
    | none => rfl
    | some q => exact absurd (housed.numbered ⟨s.nextQueue⟩ (by rw [found]; rfl)) (Nat.lt_irrefl _)
  have waits : ({ s with
      nextQueue := s.nextQueue + 1
      queues := s.queues.insert ⟨s.nextQueue⟩ (.new ⟨s.nextQueue⟩ transfer s.config) } : Scheduler).Waits = s.Waits := by
    funext j other
    simp only [Waits, get?]
    split
    · rename_i here
      simp [here, fresh, WaitQueue.waiters_new]
    · rfl
  have configured : s.config = config := housed.registered.configured
  refine ⟨⟨housed.registered.congr (.refl _) rfl rfl, fun other q' found' => ?_, fun other known => ?_, ?_, ?_⟩,
    Placement.ext waits rfl⟩
  · rw [get?] at found'
    split at found'
    · rename_i here
      cases found'
      exact ⟨here.symm, configured ▸ WaitQueue.settled_new _ transfer s.config _ _⟩
    · exact housed.queues other q' found'
  · rw [get?] at known
    split at known
    · rename_i here
      rw [here]
      exact Nat.lt_succ_self _
    · exact Nat.lt_succ_of_lt (housed.numbered other known)
  · rw [get?]
    split
    · rfl
    · exact housed.ready
  · rw [waits]
    exact housed.seats

theorem joined (housed : s.Housed named config) {q : WaitQueue} {thread : Thread} {state : ThreadState}
    (main : thread.isMain = true ↔ thread.id = .main) (found : s.threads.get? thread.id = some state)
    (known : s.queues.get? queue = some q) (accounts : Accounts) :
    let s' := s.enrol queue q thread { state with accounts }
    s'.Housed named config ∧ s'.placement = s.placement.join thread.id queue := by
  obtain ⟨same, settled⟩ := housed.queues queue q known
  let s' := s.enrol queue q thread { state with accounts }
  have settled' : q.Settled config s'.threads fun _ => True := settled.any
  have get? (j : QueueId) : s'.queues.get? j = if j = queue then some (q.joined thread s'.threads) else s.queues.get? j :=
    s.queues.get?_insert_eq queue j _
  have placed : s'.placement = s.placement.join thread.id queue := by
    refine Placement.ext (funext fun j => funext fun other => propext ?_) (funext fun j => ?_)
    · simp only [placement, Placement.join, Waits, get?]
      by_cases here : other = queue
      · simp [here, known, WaitQueue.mem_joined settled' main]
      · simp [here]
    · simp only [placement, Placement.join, s', enrol, ThreadRegistry.seat?, ThreadRegistry.get?_put]
      split
      · exact congrArg some same
      · rfl
  refine ⟨⟨housed.registered.congr (.put found rfl) rfl rfl, fun other q' found' => ?_, fun other known' => ?_, ?_,
    fun id other sits => ?_⟩, placed⟩
  · rw [get?] at found'
    split at found'
    · rename_i here
      cases found'
      refine ⟨?_, settled'.joined main⟩
      rw [here, WaitQueue.joined]
      split <;> exact same
    · obtain ⟨same, settled⟩ := housed.queues other q' found'
      exact ⟨same, settled.any⟩
  · rw [get?] at known'
    split at known'
    · rename_i here
      exact here ▸ housed.numbered queue (by rw [known]; rfl)
    · exact housed.numbered other known'
  · rw [get?]
    split
    · rfl
    · exact housed.ready
  · have sits' : s'.placement.seat? id = some other := sits
    show s'.placement.waits id other
    rw [placed] at sits' ⊢
    simp only [Placement.join] at sits' ⊢
    split at sits'
    · rename_i here
      exact .inl ⟨here, (Option.some.inj sits').symm⟩
    · exact .inr (housed.seats id other sits')

end Housed

/-! ## What joining keeps -/

def Dwelling (named : Thread → Prop) (config : Config) (good : List ThreadId → Placement → Prop) (s : Scheduler) : Prop :=
  s.Housed named config ∧ good s.admitted s.placement

structure Joinable (named : Thread → Prop) (target : QueueId) (good : List ThreadId → Placement → Prop) : Prop where
  mains : ∀ t, named t → (t.isMain = true ↔ t.id = .main)
  join : ∀ {ids : List ThreadId} {p : Placement} {t : Thread}, named t → good ids p → good (ids ++ [t.id]) (p.join t.id target)

variable {good : List ThreadId → Placement → Prop}

namespace Dwelling

theorem congr (dwelling : s.Dwelling named config good) (admitted : s'.admitted = s.admitted)
    (after : s'.Housed named config ∧ s'.placement = s.placement) : s'.Dwelling named config good := by
  refine ⟨after.1, ?_⟩
  rw [admitted, after.2]
  exact dwelling.2

theorem still (dwelling : s.Dwelling named config good) (output : s'.output = s.output) (threads : s'.threads = s.threads)
    (queues : s'.queues = s.queues) (nextQueue : s'.nextQueue = s.nextQueue)
    (current : s'.processor.current = s.processor.current) (idle : s'.idle.thread = s.idle.thread) :
    s'.Dwelling named config good :=
  dwelling.congr (by rw [admitted, admitted, output]) (dwelling.1.same threads queues nextQueue current idle)

theorem told (dwelling : s.Dwelling named config good) {out : List Output} (silent : out.filterMap Output.admitted? = []) :
    (s.tell out).Dwelling named config good := by
  refine dwelling.congr ?_ (dwelling.1.told out)
  rw [admitted, tell, List.filterMap_append, silent, List.append_nil, admitted]

theorem walked (dwelling : s.Dwelling named config good) {w : Walk} (effect : Effect s.locks s.threads w) :
    (s.follow w w.changed).Dwelling named config good :=
  dwelling.congr rfl (dwelling.1.walked effect)

end Dwelling

theorem bookkept_placement (good : List ThreadId → Placement → Prop) : Bookkept (Dwelling named config good) where
  quiet same dwelling :=
    dwelling.still same.output same.threads same.queues same.nextQueue same.current same.idle
  told silent dwelling := dwelling.told (List.filterMap_eq_nil_iff.mpr fun o member => (silent o member).admitted?)

theorem accounted_placement (good : List ThreadId → Placement → Prop) : Accounted (Dwelling named config good) where
  toBookkept := bookkept_placement good
  dispatched p _ _ charged dwelling := by
    have placed := dwelling.1.charged charged
    obtain ⟨threads, rfl, -⟩ := charged.exists_threads
    refine Dwelling.told ?_ rfl
    exact dwelling.congr rfl placed

theorem admitting_placement {admissible : Thread → Prop} (listed : ∀ t, admissible t → named t)
    (joinable : Joinable admissible target good) : Admitting admissible target (Dwelling named config good) where
  toBookkept := bookkept_placement good
  ensured admissible absent dwelling := dwelling.congr rfl (dwelling.1.ensured (listed _ admissible) absent _)
  joined {s q thread state accounts} p listed found known _ dwelling := by
    obtain ⟨housed, placed⟩ := dwelling.1.joined (joinable.mains thread listed) found known accounts
    obtain ⟨told, same⟩ := housed.told [.event (.enqueued s.clock.now thread p)]
    refine ⟨told, ?_⟩
    have admitted : ((s.enrol target q thread { state with accounts }).tell
        [.event (.enqueued s.clock.now thread p)]).admitted = s.admitted ++ [thread.id] := List.filterMap_append
    rw [admitted, same, placed]
    exact joinable.join listed dwelling.2

theorem ends_wake_waits {admissible : Thread → Prop} {inv : Scheduler → Prop} (admits : Admitting admissible .ready inv)
    (housed : ∀ {s}, inv s → s.Housed named config) {thread : Thread} (listed : admissible thread)
    (main : thread.isMain = true ↔ thread.id = .main) (holds : inv s) :
    Ends (wake thread) s (fun _ s' => inv s' ∧ s'.Waits thread.id .ready) inv := by
  refine admits.ends_wake listed holds (fun ready holds => ⟨holds, (housed holds).seats _ _ ready⟩) ?_
  intro s q state accounts p _ _ found known accounted holds
  refine ⟨admits.joined p listed found known accounted holds, ?_⟩
  obtain ⟨enrolled, placed⟩ := (housed holds).joined main found known accounts
  show (Scheduler.placement _).waits thread.id .ready
  rw [(enrolled.told _).2, placed]
  exact .inl ⟨rfl, rfl⟩

theorem kept_placement (main : named .main) (joinable : Joinable named target good) :
    Kept named target (Dwelling named config good) where
  toAdmitting := admitting_placement (fun _ => id) joinable
  known thread dwelling := (dwelling.1.registered.thread? main thread).2
  running busy dwelling := dwelling.1.registered.busy busy
  interrupted _ dwelling := dwelling.still rfl rfl rfl rfl rfl rfl
  repriced found repriced dwelling := dwelling.congr rfl (dwelling.1.follow _ (placed_reprice found repriced))
  claimed found dwelling := dwelling.congr rfl (dwelling.1.claimed found _)
  queueMade dwelling := dwelling.congr rfl (dwelling.1.queueMade _)
  lockMade dwelling := dwelling.still rfl rfl rfl rfl rfl rfl
  emitted dwelling := dwelling.told rfl
  released done dwelling := dwelling.walked (effect_release done)

theorem dispatched_placement {named : Thread → Prop} (main : named .main) (good : List ThreadId → Placement → Prop) :
    Dispatched (Dwelling named config good) where
  toAccounted := accounted_placement good
  interrupted _ dwelling := dwelling.still rfl rfl rfl rfl rfl rfl
  switched known dwelling :=
    dwelling.congr rfl (dwelling.1.still (dwelling.1.registered.switched main known) rfl rfl fun _ => rfl)

/-! ## Departures -/

theorem Housed.loses (housed : s.Housed named config) {q rest : WaitQueue} {gone : Option ThreadId}
    {threads : ThreadRegistry} (found : s.queues.get? queue = some q) (loses : q.Loses gone rest)
    (settled : rest.Settled config threads fun _ => True) (same : s.threads.Matches ThreadState.named threads)
    (seat? : ∀ j, threads.seat? j = if gone = some j then none else s.threads.seat? j) :
    let s' := { s with queues := s.queues.insert queue rest, threads }
    s'.Housed named config ∧ s'.placement = gone.elim s.placement (s.placement.leave · queue) := by
  let s' : Scheduler := { s with queues := s.queues.insert queue rest, threads }
  have get? (j : QueueId) : s'.queues.get? j = if j = queue then some rest else s.queues.get? j :=
    s.queues.get?_insert_eq queue j rest
  have waits (j : ThreadId) (other : QueueId) : s'.Waits j other ↔ s.Waits j other ∧ ¬(gone = some j ∧ other = queue) := by
    simp only [Waits, get?]
    by_cases here : other = queue
    · simp [here, found, loses.mem]
    · simp [here]
  have placed : s'.placement = gone.elim s.placement (s.placement.leave · queue) := by
    cases gone with
    | none =>
        refine Placement.ext (funext fun j => funext fun other => propext ?_) (funext fun j => ?_)
        · simp [placement, waits]
        · exact seat? j
    | some id =>
        refine Placement.ext (funext fun j => funext fun other => propext ?_) (funext fun j => ?_)
        · simp [placement, waits, Placement.leave, eq_comm]
        · simp [placement, s', seat?, Placement.leave, Placement.unseat, eq_comm]
  refine ⟨⟨housed.registered.congr same rfl rfl, fun other q' found' => ?_, fun other known => ?_, ?_,
    fun j other sits => ?_⟩, placed⟩
  · rw [get?] at found'
    split at found'
    · rename_i here
      cases found'
      exact ⟨loses.id.trans ((housed.queues queue q found).1.trans here.symm), settled⟩
    · obtain ⟨same, settled⟩ := housed.queues other q' found'
      exact ⟨same, settled.any⟩
  · rw [get?] at known
    split at known
    · rename_i here
      exact here ▸ housed.numbered queue (by rw [found]; rfl)
    · exact housed.numbered other known
  · rw [get?]
    split
    · rfl
    · exact housed.ready
  · rw [seat?] at sits
    split at sits
    · cases sits
    · rename_i stays
      exact (waits j other).mpr ⟨housed.seats j other sits, fun both => stays both.1⟩

theorem Housed.left (housed : s.Housed named config) (id : ThreadId) :
    (s.left id).Housed named config ∧
      (s.left id).placement = (s.threads.seat? id).elim s.placement (s.placement.leave id) := by
  unfold Scheduler.left
  have seat : (s.threads.get? id).bind (·.queuedOn) = s.threads.seat? id := rfl
  rw [seat]
  cases sits : s.threads.seat? id with
  | none => exact ⟨housed, rfl⟩
  | some queue =>
      obtain ⟨q, found, waits⟩ := housed.seats id queue sits
      obtain ⟨threads, settled, loses⟩ := (housed.queues queue q found).2.remove waits
      simp only [found, threads]
      exact housed.loses found loses settled.any (.modify _ id fun _ => rfl) (seat?_unlink s.threads id)

theorem Housed.retired (housed : s.Housed named config) (id : ThreadId) :
    let s' := { s with threads := s.threads.remove id }
    s'.Housed named config ∧ s'.placement = s.placement.unseat id := by
  have seat? (j : ThreadId) : (s.threads.remove id).seat? j = if j = id then none else s.threads.seat? j := by
    simp only [ThreadRegistry.seat?, ThreadRegistry.get?_remove]
    split <;> rfl
  refine ⟨⟨housed.registered.retired id, fun queue q found => ?_, housed.numbered, housed.ready, fun j queue sits => ?_⟩,
    Placement.ext rfl (funext seat?)⟩
  · obtain ⟨same, settled⟩ := housed.queues queue q found
    exact ⟨same, settled.any⟩
  · rw [seat?] at sits
    split at sits
    · cases sits
    · exact housed.seats j queue sits

theorem Housed.selected (housed : s.Housed named config) {q : WaitQueue} {n : Noted (Selection WaitQueue)}
    (found : s.queues.get? queue = some q) (taken : q.next s.threads s.clock.now = .ok n) :
    (s.selected queue n).Housed named config ∧ q.Serves n.value.next n.value.queue ∧
      (s.selected queue n).placement = n.value.next.elim s.placement (s.placement.leave · queue) := by
  obtain ⟨settled, serves⟩ := (housed.queues queue q found).2.next taken
  have named' : s.threads.Matches ThreadState.named (s.selected queue n).threads := named_selected taken
  obtain ⟨housed', placed⟩ := housed.loses found serves.toLoses settled named' (seat?_selected taken)
  exact ⟨housed', serves, placed⟩

end Scheduler

end PriorityScheduler
