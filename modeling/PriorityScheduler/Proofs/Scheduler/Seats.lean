import PriorityScheduler.Proofs.Locks.Effects
import PriorityScheduler.Proofs.Queues.Settled
import PriorityScheduler.Proofs.Scheduler.Steps

namespace PriorityScheduler

def ThreadState.unseated (s : ThreadState) : ThreadState := { s.unpriced with queuedOn := none }

def ThreadState.placed (s : ThreadState) : ThreadState := { ThreadState.new s.thread 0 with queuedOn := s.queuedOn }

def ThreadRegistry.seat? (t : ThreadRegistry) (id : ThreadId) : Option QueueId := (t.get? id).bind (·.queuedOn)

theorem ThreadRegistry.exists_of_seat? {t : ThreadRegistry} {id : ThreadId} {queue : QueueId}
    (sits : t.seat? id = some queue) : ∃ s, t.get? id = some s := by
  obtain ⟨s, found, -⟩ := Option.bind_eq_some_iff.mp sits
  exact ⟨s, found⟩

theorem ThreadRegistry.Matches.seat? {a b : ThreadRegistry} (same : Matches ThreadState.placed a b) (id : ThreadId) :
    b.seat? id = a.seat? id :=
  same.bind ThreadState.queuedOn (fun _ => rfl) id

theorem Thread.IsUser.isMain_iff {t : Thread} (user : t.IsUser) : t.isMain = true ↔ t.id = .main := by
  rcases user with rfl | ⟨ordinary, other⟩
  · exact iff_of_true rfl rfl
  · exact iff_of_false (by simp [isMain, ordinary]) other

theorem Thread.IsUser.isIdle {t : Thread} (user : t.IsUser) : t.isIdle = false := by
  rcases user with rfl | ⟨ordinary, -⟩
  · rfl
  · simp [Thread.isIdle, ordinary]

namespace Scheduler

variable {named : Thread → Prop} {config : Config} {s s' : Scheduler} {id : ThreadId} {queue : QueueId}

/-! ## Names -/

structure Registered (named : Thread → Prop) (config : Config) (s : Scheduler) : Prop where
  configured : s.threads.config = config
  filed : ∀ id state, s.threads.get? id = some state → state.thread.id = id ∧ named state.thread
  running : named s.processor.current ∨ s.processor.current.isIdle = true
  idling : s.idle.thread.isIdle = true

namespace Registered

theorem congr (registered : s.Registered named config) (threads : s.threads.Matches ThreadState.named s'.threads)
    (current : s'.processor.current = s.processor.current) (idle : s'.idle.thread = s.idle.thread) :
    s'.Registered named config where
  configured := threads.config.trans registered.configured
  filed id state found := by
    obtain ⟨state', before, same⟩ := threads.exists_view found
    have thread : state'.named.thread = state.named.thread := congrArg ThreadState.thread same
    change state'.thread = state.thread at thread
    rw [← thread]
    exact registered.filed id state' before
  running := current ▸ registered.running
  idling := idle ▸ registered.idling

theorem thread? (registered : s.Registered named config) (main : named .main) {t : Thread}
    (known : s.thread? id = some t) : t.id = id ∧ named t := by
  unfold Scheduler.thread? at known
  cases found : s.threads.get? id with
  | some state =>
      rw [found] at known
      cases known
      exact registered.filed id state found
  | none =>
      rw [found] at known
      simp only at known
      split at known
      · rename_i here
        cases known
        exact ⟨here.symm, main⟩
      · cases known

theorem busy (registered : s.Registered named config) (busy : s.processor.current.isIdle = false) :
    named s.processor.current := by
  apply registered.running.resolve_right
  rw [busy]
  exact nofun

theorem ensured (registered : s.Registered named config) {t : Thread} (listed : named t) (p : Priority) :
    ({ s with threads := s.threads.put t.id (.new t p) } : Scheduler).Registered named config where
  configured := registered.configured
  filed j state found := by
    rw [ThreadRegistry.get?_put] at found
    split at found
    · rename_i here
      cases found
      exact ⟨here.symm, listed⟩
    · exact registered.filed j state found
  running := registered.running
  idling := registered.idling

end Registered

theorem placed_reprice {state : ThreadState} {c : Change} (found : s.threads.get? id = some state)
    (repriced : state.Repriced s.threads.config c) :
    s.threads.Matches ThreadState.placed (s.locks.reprice id c s.threads).threads := by
  have put : s.threads.Matches ThreadState.placed (s.threads.put id c.state) :=
    .put found (repriced.congr ThreadState.placed)
  exact put.trans ((effect_reprice s.locks id c s.threads).kin.weaken fun _ => rfl)

theorem kept_registered (main : named .main) (config : Config) (target : QueueId) :
    Kept named target (Registered named config) where
  quiet same registered := registered.congr (by rw [same.threads]; exact .refl _) same.current same.idle
  told _ registered := registered.congr (.refl _) rfl rfl
  known thread registered := (registered.thread? main thread).2
  ensured listed _ registered := registered.ensured listed _
  joined _ _ found _ _ registered := registered.congr (.put found rfl) rfl rfl
  running busy registered := registered.busy busy
  interrupted _ registered := registered.congr (.refl _) rfl rfl
  repriced found repriced registered := registered.congr ((placed_reprice found repriced).weaken fun _ => rfl) rfl rfl
  claimed _ registered := registered.congr (.refl _) rfl rfl
  queueMade registered := registered.congr (.refl _) rfl rfl
  lockMade registered := registered.congr (.refl _) rfl rfl
  emitted registered := registered.congr (.refl _) rfl rfl
  released done registered := registered.congr ((effect_release done).kin.weaken fun _ => rfl) rfl rfl

theorem Registered.left (registered : s.Registered named config) (id : ThreadId) : (s.left id).Registered named config := by
  obtain ⟨queues, threads, left, same⟩ := s.exists_left id
  rw [left]
  exact registered.congr (same.weaken fun _ => rfl) rfl rfl

theorem Registered.retired (registered : s.Registered named config) (id : ThreadId) :
    ({ s with threads := s.threads.remove id } : Scheduler).Registered named config where
  configured := registered.configured
  filed j state found := by
    rw [ThreadRegistry.get?_remove] at found
    split at found
    · cases found
    · exact registered.filed j state found
  running := registered.running
  idling := registered.idling

theorem unseated_selected {q : WaitQueue} {n : Noted (Selection WaitQueue)}
    (taken : q.next s.threads s.clock.now = .ok n) :
    s.threads.Matches ThreadState.unseated (s.selected queue n).threads := by
  have aged : s.threads.Matches ThreadState.unseated (q.discipline.aged s.threads s.clock.now) :=
    (Discipline.matches_aged q.discipline s.threads s.clock.now).weaken fun _ => rfl
  exact aged.trans ((WaitQueue.unqueued_next taken).weaken fun _ => rfl)

theorem named_selected {q : WaitQueue} {n : Noted (Selection WaitQueue)} (taken : q.next s.threads s.clock.now = .ok n) :
    s.threads.Matches ThreadState.named (s.selected queue n).threads :=
  (unseated_selected taken).weaken fun _ => rfl

theorem thread?_selected {q : WaitQueue} {n : Noted (Selection WaitQueue)} (taken : q.next s.threads s.clock.now = .ok n) :
    (s.selected queue n).thread? = s.thread? :=
  thread?_of_matches (named_selected taken)

theorem Registered.selected (registered : s.Registered named config) {q : WaitQueue} {n : Noted (Selection WaitQueue)}
    (taken : q.next s.threads s.clock.now = .ok n) : (s.selected queue n).Registered named config :=
  registered.congr (named_selected taken) rfl rfl

theorem Registered.switched (registered : s.Registered named config) (main : named .main) {next : Thread}
    (known : (∃ id, s.thread? id = some next) ∨ next = s.idle.thread) :
    ({ s with processor := s.processor.switchTo next } : Scheduler).Registered named config where
  configured := registered.configured
  filed := registered.filed
  running := by
    rcases known with ⟨id, known⟩ | rfl
    · exact .inl (registered.thread? main known).2
    · exact .inr registered.idling
  idling := registered.idling

/-! ## Seats -/

structure Seated (config : Config) (s : Scheduler) : Prop where
  queues : ∀ queue q, s.queues.get? queue = some q → q.id = queue ∧ q.Settled config s.threads fun _ => False
  seats : ∀ id queue, s.threads.seat? id = some queue ↔ ∃ q, s.queues.get? queue = some q ∧ id ∈ q.waiters
  numbered : ∀ queue, (s.queues.get? queue).isSome → queue.val < s.nextQueue
  ready : (s.queues.get? .ready).isSome

structure Stays (config : Config) (s s' : Scheduler) : Prop where
  seat? : ∀ id, s'.threads.seat? id = s.threads.seat? id
  nextQueue : s'.nextQueue = s.nextQueue
  queues : ∀ queue, ∃ f, s'.queues.get? queue = (s.queues.get? queue).map f ∧
    ∀ q, s.queues.get? queue = some q → q.Rearranged (f q) ∧ (f q).Settled config s'.threads fun _ => False

theorem Stays.exists_queue (stays : Stays config s s') {q' : WaitQueue} (found : s'.queues.get? queue = some q') :
    ∃ q, s.queues.get? queue = some q ∧ q.Rearranged q' ∧ q'.Settled config s'.threads fun _ => False := by
  obtain ⟨f, mapped, after⟩ := stays.queues queue
  rw [found, eq_comm, Option.map_eq_some_iff] at mapped
  obtain ⟨q, before, rfl⟩ := mapped
  exact ⟨q, before, after q before⟩

theorem Stays.isSome (stays : Stays config s s') (queue : QueueId) :
    (s'.queues.get? queue).isSome = (s.queues.get? queue).isSome := by
  obtain ⟨f, mapped, -⟩ := stays.queues queue
  rw [mapped, Option.isSome_map]

namespace Seated

theorem seat?_of_mem (seated : s.Seated config) {q : WaitQueue} (found : s.queues.get? queue = some q)
    (waits : id ∈ q.waiters) : s.threads.seat? id = some queue :=
  (seated.seats id queue).mpr ⟨q, found, waits⟩

theorem stays (seated : s.Seated config) (stays : Stays config s s') : s'.Seated config where
  queues queue q' found := by
    obtain ⟨q, before, same, settled⟩ := stays.exists_queue found
    exact ⟨same.id.trans (seated.queues queue q before).1, settled⟩
  seats id queue := by
    rw [stays.seat?, seated.seats]
    constructor
    · rintro ⟨q, before, waits⟩
      obtain ⟨f, mapped, after⟩ := stays.queues queue
      rw [before] at mapped
      exact ⟨f q, mapped, ((after q before).1.mem_waiters id).mpr waits⟩
    · rintro ⟨q', found, waits⟩
      obtain ⟨q, before, same, -⟩ := stays.exists_queue found
      exact ⟨q, before, (same.mem_waiters id).mp waits⟩
  numbered queue known := by
    rw [stays.nextQueue]
    exact seated.numbered queue (stays.isSome queue ▸ known)
  ready := stays.isSome .ready ▸ seated.ready

theorem still (seated : s.Seated config) (queues : s'.queues = s.queues) (nextQueue : s'.nextQueue = s.nextQueue)
    (seat? : ∀ id, s'.threads.seat? id = s.threads.seat? id)
    (effective : ∀ id, (s.threads.seat? id).isSome → s'.threads.effective id = s.threads.effective id) :
    Stays config s s' := by
  refine ⟨seat?, nextQueue, fun queue => ⟨id, by rw [queues, Option.map_id, id], fun q found => ⟨.refl q, ?_⟩⟩⟩
  refine (seated.queues queue q found).2.congr fun j waits _ => ⟨not_false, effective j ?_⟩
  rw [seated.seat?_of_mem found waits]
  rfl

theorem frame (seated : s.Seated config) (threads : s'.threads = s.threads) (queues : s'.queues = s.queues)
    (nextQueue : s'.nextQueue = s.nextQueue) : Stays config s s' :=
  seated.still queues nextQueue (fun _ => by rw [threads]) fun _ _ => by rw [threads]

theorem put (seated : s.Seated config) {state state' : ThreadState} (found : s.threads.get? id = some state)
    (queuedOn : state'.queuedOn = state.queuedOn) (effective : state'.effective = state.effective) :
    Stays config s { s with threads := s.threads.put id state' } := by
  refine seated.still rfl rfl (fun j => ?_) fun j _ => ThreadRegistry.effective_put_of_effective found effective j
  simp only [ThreadRegistry.seat?, ThreadRegistry.get?_put]
  split
  · rename_i here
    rw [here, found, Option.bind_some, Option.bind_some, queuedOn]
  · rfl

theorem ensured (seated : s.Seated config) {t : Thread} (absent : s.threads.get? t.id = none) (p : Priority) :
    Stays config s { s with threads := s.threads.put t.id (.new t p) } := by
  refine seated.still rfl rfl (fun j => ?_) fun j sits => ?_
  · simp only [ThreadRegistry.seat?, ThreadRegistry.get?_put]
    split
    · rename_i here
      rw [here, absent]
      rfl
    · rfl
  · refine ThreadRegistry.effective_congr rfl ((s.threads.get?_put t.id j _).trans (if_neg ?_))
    rintro rfl
    rw [ThreadRegistry.seat?, absent] at sits
    cases sits

theorem retired (seated : s.Seated config) (gone : s.threads.seat? id = none) :
    Stays config s { s with threads := s.threads.remove id } := by
  refine seated.still rfl rfl (fun j => ?_) fun j sits => ?_
  · simp only [ThreadRegistry.seat?, ThreadRegistry.get?_remove]
    split
    · rename_i here
      rw [here]
      exact gone.symm
    · rfl
  · refine ThreadRegistry.effective_congr rfl ((s.threads.get?_remove id j).trans (if_neg ?_))
    rintro rfl
    rw [gone] at sits
    cases sits

theorem claimed (seated : s.Seated config) {q : WaitQueue} (found : s.queues.get? queue = some q)
    (owner : Option ThreadId) : Stays config s { s with queues := s.queues.insert queue { q with owner } } := by
  refine ⟨fun _ => rfl, rfl, fun j => ?_⟩
  by_cases here : j = queue
  · refine ⟨fun q => { q with owner }, ?_, fun q' found' => ⟨⟨rfl, rfl, fun _ => Iff.rfl, fun _ => rfl⟩, ?_⟩⟩
    · rw [SortedMap.get?_insert_eq, if_pos here, here, found]
      rfl
    · have settled := (seated.queues j q' found').2
      exact ⟨settled.ordered, settled.apart⟩
  · refine ⟨id, ?_, fun q' found' => ⟨.refl q', (seated.queues j q' found').2⟩⟩
    rw [SortedMap.get?_insert_eq, if_neg here, Option.map_id, id]

end Seated

/-! ## New positions -/

theorem get?_repositioned (threads : ThreadRegistry) (ids : List ThreadId) (queues : SortedMap QueueId WaitQueue)
    (queue : QueueId) :
    (repositioned threads ids queues).get? queue =
      (queues.get? queue).map fun q => q.rearrange (ids.filter fun id => threads.seat? id = some queue) threads := by
  induction ids generalizing queues with
  | nil => exact Option.map_id'.symm
  | cons id rest ih =>
      rw [repositioned, List.foldl_cons]
      apply (ih _).trans
      have seat : (threads.get? id).bind (·.queuedOn) = threads.seat? id := rfl
      rw [seat, List.filter_cons]
      cases sits : threads.seat? id with
      | none => rfl
      | some other =>
          simp only [SortedMap.get?_modify_eq]
          by_cases here : queue = other
          · rw [if_pos here, here, Option.map_map, if_pos (by simp)]
            rfl
          · rw [if_neg here, if_neg (by simpa using Ne.symm here)]

theorem Seated.follow (seated : s.Seated config) {w : Walk} {ids : List ThreadId}
    (placed : s.threads.Matches ThreadState.placed w.threads)
    (marked : ∀ id, w.threads.effective id ≠ s.threads.effective id → id ∈ ids) : Stays config s (s.follow w ids) := by
  refine ⟨placed.seat?, rfl, fun queue => ⟨_, get?_repositioned w.threads ids s.queues queue, fun q found => ?_⟩⟩
  have moved : q.Settled config w.threads fun j => w.threads.effective j ≠ s.threads.effective j := by
    refine (seated.queues queue q found).2.congr fun j _ same => ⟨not_false, ?_⟩
    exact Classical.not_not.mp same
  obtain ⟨same, settled⟩ := moved.rearranged (ids.filter fun id => w.threads.seat? id = some queue)
  refine ⟨same, settled.congr fun j waits _ => ⟨fun out => out.2 ?_, rfl⟩⟩
  -- a waiter that moved is in the list, and its seat leads to this queue
  have sits := seated.seat?_of_mem found ((same.mem_waiters j).mp waits)
  rw [List.mem_filter, placed.seat?, sits]
  exact ⟨marked j out.1, decide_eq_true rfl⟩

theorem Seated.repriced (seated : s.Seated config) {state : ThreadState} {c : Change}
    (found : s.threads.get? id = some state) (repriced : state.Repriced s.threads.config c) :
    let w := s.locks.reprice id c s.threads
    Stays config s (s.follow w (if c.changed then w.changed ++ [id] else [])) := by
  apply seated.follow (placed_reprice found repriced)
  intro j moved
  have marked := (effect_reprice s.locks id c s.threads).marked j
  have others (other : j ≠ id) : (s.threads.put id c.state).effective j = s.threads.effective j :=
    ThreadRegistry.effective_congr rfl ((s.threads.get?_put id j c.state).trans (if_neg other))
  cases changed : c.changed with
  | true =>
      rw [if_pos rfl, List.mem_append, List.mem_singleton]
      by_cases here : j = id
      · exact .inr here
      · refine .inl (marked ?_)
        rw [others here]
        exact moved
  | false =>
      refine absurd ?_ moved
      have silent : (s.locks.reprice id c s.threads).threads = s.threads.put id c.state := by
        rw [LockRegistry.reprice, changed]
        rfl
      rw [silent]
      by_cases here : j = id
      · rw [here, ThreadRegistry.effective_of_get? found,
          ThreadRegistry.effective_of_get? ((s.threads.get?_put id id c.state).trans (if_pos rfl))]
        apply Classical.byContradiction
        intro different
        rw [repriced.changed.mpr different] at changed
        cases changed
      · exact others here

theorem Seated.walked (seated : s.Seated config) {w : Walk} (effect : Effect s.locks s.threads w) :
    Stays config s (s.follow w w.changed) :=
  seated.follow (effect.kin.weaken fun _ => rfl) effect.marked

/-! ## Coming and going -/

theorem Seated.queueMade (seated : s.Seated config) (transfer : Bool) :
    ({ s with
      nextQueue := s.nextQueue + 1
      queues := s.queues.insert ⟨s.nextQueue⟩ (.new ⟨s.nextQueue⟩ transfer config) } : Scheduler).Seated config where
  queues queue q found := by
    rw [SortedMap.get?_insert_eq] at found
    split at found
    · rename_i here
      cases found
      exact ⟨here.symm, WaitQueue.settled_new _ transfer config _ _⟩
    · exact seated.queues queue q found
  seats id queue := by
    rw [seated.seats]
    simp only [SortedMap.get?_insert_eq]
    by_cases here : queue = ⟨s.nextQueue⟩
    · rw [if_pos here]
      refine iff_of_false ?_ ?_
      · rintro ⟨q, found, -⟩
        have bound := seated.numbered queue (by rw [found]; rfl)
        rw [here] at bound
        exact absurd bound (Nat.lt_irrefl _)
      · rintro ⟨q, made, waits⟩
        cases made
        rw [WaitQueue.waiters_new] at waits
        cases waits
    · rw [if_neg here]
  numbered queue known := by
    rw [SortedMap.get?_insert_eq] at known
    split at known
    · rename_i here
      rw [here]
      exact Nat.lt_succ_self _
    · exact Nat.lt_succ_of_lt (seated.numbered queue known)
  ready := by
    rw [SortedMap.get?_insert_eq]
    split
    · rfl
    · exact seated.ready

theorem Seated.joined (seated : s.Seated config) {q : WaitQueue} {thread : Thread} {state : ThreadState}
    (user : thread.IsUser) (found : s.threads.get? thread.id = some state) (known : s.queues.get? queue = some q)
    (free : ∀ other, s.threads.seat? thread.id = some other → other = queue) (accounts : Accounts) :
    (s.enrol queue q thread { state with accounts }).Seated config ∧
      ∀ id, (s.enrol queue q thread { state with accounts }).threads.seat? id =
        if id = thread.id then some queue else s.threads.seat? id := by
  obtain ⟨same, settled⟩ := seated.queues queue q known
  have effective (j : ThreadId) : (s.enrol queue q thread { state with accounts }).threads.effective j =
      s.threads.effective j := by
    refine ThreadRegistry.effective_put_of_effective found ?_ j
    rfl
  have sits (j : ThreadId) : (s.enrol queue q thread { state with accounts }).threads.seat? j =
      if j = thread.id then some queue else s.threads.seat? j := by
    simp only [enrol, ThreadRegistry.seat?, ThreadRegistry.get?_put]
    split
    · exact congrArg some same
    · rfl
  have settled' : q.Settled config (s.enrol queue q thread { state with accounts }).threads fun _ => False :=
    settled.congr fun j _ _ => ⟨not_false, effective j⟩
  have main := user.isMain_iff
  have get? (j : QueueId) : (s.enrol queue q thread { state with accounts }).queues.get? j =
      if j = queue then some (q.joined thread (s.enrol queue q thread { state with accounts }).threads)
      else s.queues.get? j :=
    s.queues.get?_insert_eq queue j _
  refine ⟨⟨fun j q' found' => ?_, fun id j => ?_, fun j known' => ?_, ?_⟩, sits⟩
  · rw [get?] at found'
    split at found'
    · rename_i here
      cases found'
      refine ⟨?_, settled'.joined main⟩
      rw [here, WaitQueue.joined]
      split <;> exact same
    · obtain ⟨named, settled⟩ := seated.queues j q' found'
      exact ⟨named, settled.congr fun j _ _ => ⟨not_false, effective j⟩⟩
  · rw [sits]
    simp only [get?]
    by_cases there : j = queue
    · simp only [if_pos there, Option.some.injEq, exists_eq_left', WaitQueue.mem_joined settled' main]
      split
      · rename_i here
        exact iff_of_true (congrArg some there.symm) (.inl here)
      · rename_i other
        rw [or_iff_right other, seated.seats, there, known]
        simp only [Option.some.injEq, exists_eq_left']
    · simp only [if_neg there]
      rw [← seated.seats]
      split
      · rename_i here
        rw [here, Option.some.injEq]
        exact iff_of_false (Ne.symm there) fun elsewhere => there (free j elsewhere)
      · rfl
  · rw [get?] at known'
    split at known'
    · rename_i here
      rw [here]
      exact seated.numbered queue (by rw [known]; rfl)
    · exact seated.numbered j known'
  · rw [get?]
    split
    · rfl
    · exact seated.ready

structure Leaves (config : Config) (gone : Option ThreadId) (s s' : Scheduler) : Prop where
  seated : s'.Seated config
  seat? : ∀ id, s'.threads.seat? id = if gone = some id then none else s.threads.seat? id
  queues : ∀ queue q', s'.queues.get? queue = some q' → ∃ q, s.queues.get? queue = some q ∧
    (∀ id ∈ q'.waiters, id ∈ q.waiters) ∧
      ∀ id place, q'.discipline.place? id = some place → q.discipline.place? id = some place

theorem Seated.loses (seated : s.Seated config) {q rest : WaitQueue} {gone : Option ThreadId} {threads : ThreadRegistry}
    (known : s.queues.get? queue = some q) (loses : q.Loses gone rest)
    (settled : rest.Settled config threads fun _ => False)
    (seat? : ∀ id, threads.seat? id = if gone = some id then none else s.threads.seat? id)
    (effective : ∀ id, id ∉ q.waiters → threads.effective id = s.threads.effective id) :
    Leaves config gone s { s with queues := s.queues.insert queue rest, threads } := by
  have get? (j : QueueId) : (s.queues.insert queue rest).get? j = if j = queue then some rest else s.queues.get? j :=
    s.queues.get?_insert_eq queue j rest
  refine ⟨⟨fun j q' found => ?_, fun id j => ?_, fun j found => ?_, ?_⟩, seat?, fun j q' found => ?_⟩
  · rw [get?] at found
    split at found
    · rename_i here
      cases found
      rw [here, loses.id]
      exact ⟨(seated.queues queue q known).1, settled⟩
    · rename_i other
      obtain ⟨named, before⟩ := seated.queues j q' found
      refine ⟨named, before.congr fun id waits _ => ⟨not_false, effective id fun here => other ?_⟩⟩
      have sits := seated.seat?_of_mem found waits
      rw [seated.seat?_of_mem known here] at sits
      exact (Option.some.inj sits).symm
  · rw [seat?]
    simp only [get?]
    by_cases there : j = queue
    · simp only [if_pos there, Option.some.injEq, exists_eq_left', loses.mem]
      split
      · rename_i here
        exact iff_of_false (Option.some_ne_none j ∘ Eq.symm) fun both => both.2 here
      · rename_i stays
        rw [and_iff_left stays, seated.seats, there, known]
        simp only [Option.some.injEq, exists_eq_left']
    · simp only [if_neg there]
      rw [← seated.seats]
      split
      · rename_i here
        have sits := seated.seat?_of_mem known (loses.member id here)
        rw [sits, Option.some.injEq]
        exact iff_of_false (Option.some_ne_none j ∘ Eq.symm) (Ne.symm there)
      · rfl
  · rw [get?] at found
    split at found
    · rename_i here
      rw [here]
      exact seated.numbered queue (by rw [known]; rfl)
    · exact seated.numbered j found
  · rw [get?]
    split
    · rfl
    · exact seated.ready
  · rw [get?] at found
    split at found
    · rename_i here
      cases found
      exact ⟨q, here ▸ known, fun id waits => ((loses.mem id).mp waits).1, loses.places⟩
    · exact ⟨q', found, fun _ => id, fun _ _ => id⟩

theorem seat?_unlink (threads : ThreadRegistry) (id j : ThreadId) :
    (WaitQueue.unlink threads id).seat? j = if some id = some j then none else threads.seat? j := by
  simp only [WaitQueue.unlink, ThreadRegistry.seat?, ThreadRegistry.get?_modify, Option.some.injEq]
  by_cases here : j = id
  · rw [if_pos here, if_pos here.symm, Option.bind_map]
    cases threads.get? id <;> rfl
  · rw [if_neg here, if_neg (Ne.symm here)]

theorem Seated.left (seated : s.Seated config) (id : ThreadId) : Leaves config (some id) s (s.left id) := by
  unfold Scheduler.left
  have seat : (s.threads.get? id).bind (·.queuedOn) = s.threads.seat? id := rfl
  rw [seat]
  cases sits : s.threads.seat? id with
  | none =>
      refine ⟨seated, fun j => ?_, fun queue q found => ⟨q, found, fun _ waits => waits, fun _ _ stands => stands⟩⟩
      by_cases here : some id = some j
      · rw [if_pos here]
        cases here
        exact sits
      · rw [if_neg here]
  | some queue =>
      obtain ⟨q, known, waits⟩ := (seated.seats id queue).mp sits
      simp only [known]
      obtain ⟨threads, settled, loses⟩ := (seated.queues queue q known).2.remove waits
      rw [threads]
      refine seated.loses known loses ?_ (seat?_unlink s.threads id) fun j _ => WaitQueue.effective_unlink s.threads id j
      exact settled.congr fun j _ _ => ⟨not_false, WaitQueue.effective_unlink s.threads id j⟩

theorem seat?_selected {q : WaitQueue} {threads : ThreadRegistry} {now : Ticks} {n : Noted (Selection WaitQueue)}
    (taken : q.next threads now = .ok n) (id : ThreadId) :
    n.value.threads.seat? id = if n.value.next = some id then none else threads.seat? id := by
  obtain ⟨m, selected, picks⟩ := WaitQueue.next_ok taken
  have before : m.value.threads.seat? id = threads.seat? id := by
    rw [Discipline.threads_select selected]
    exact ((Discipline.matches_aged q.discipline threads now).weaken fun _ => rfl).seat? id
  rw [picks.threads]
  cases n.value.next with
  | none => exact before
  | some j =>
      refine (seat?_unlink m.value.threads j id).trans ?_
      rw [before]

theorem Seated.selected (seated : s.Seated config) {q : WaitQueue} {n : Noted (Selection WaitQueue)}
    (known : s.queues.get? queue = some q) (taken : q.next s.threads s.clock.now = .ok n) :
    Leaves config n.value.next s (s.selected queue n) := by
  obtain ⟨settled, serves⟩ := (seated.queues queue q known).2.next taken
  refine seated.loses known serves.toLoses settled (seat?_selected taken) fun id out => ?_
  have before : (q.discipline.aged s.threads s.clock.now).effective id = s.threads.effective id := by
    apply ThreadRegistry.effective_congr (Discipline.matches_aged q.discipline s.threads s.clock.now).config
    exact Discipline.get?_aged fun member => out ((q.mem_waiters id).mpr (.inl member))
  exact ((WaitQueue.unqueued_next taken).effective (fun _ => rfl) id).trans before

end Scheduler

end PriorityScheduler
