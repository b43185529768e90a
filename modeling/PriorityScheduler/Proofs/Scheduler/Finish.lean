import PriorityScheduler.Proofs.Locks.Hands
import PriorityScheduler.Proofs.Scheduler.Attainable

namespace PriorityScheduler

open PriorityScheduler.Action PriorityScheduler.Scheduler PriorityScheduler.LockRegistry

theorem Output.admitted?_handedOver (ns : List Notice) (lock : LockId) (time : Ticks) (holder : ThreadId) (p p' : Priority)
    (next : Option ThreadId) :
    (ns.map Output.notice ++ handOver lock time holder p next p').filterMap Output.admitted? = [] := by
  rw [List.filterMap_append, List.append_eq_nil_iff]
  refine ⟨List.filterMap_eq_nil_iff.mpr fun o member => (Bookkept.silent_notices ns o member).admitted?, ?_⟩
  cases next <;> rfl

namespace Scheduler

variable {roster : Roster} {config : Config} {s s' s₀ : Scheduler} {id : ThreadId} {lock : LockId} {locks : List LockId}

/-- The state of a thread names every place where it waits, and threads that wait for its locks are still known. -/
structure Traceable (s : Scheduler) (id : ThreadId) : Prop where
  seat : ∀ queue, s.Waits id queue → s.threads.seat? id = some queue
  line : ∀ lock, id ∈ s.locks.waitersOf lock → s.threads.blockedOn? id = some lock
  heirs : ∀ lock, s.locks.holder? lock = some id → ∀ heir ∈ s.locks.waitersOf lock, (s.thread? heir).isSome

instance (s : Scheduler) (id : ThreadId) : Decidable (s.Traceable id) :=
  decidable_of_iff
    ((∀ e ∈ s.queues.entries, id ∈ e.2.waiters → s.threads.seat? id = some e.1) ∧
      (∀ e ∈ s.locks.locks.entries, id ∈ e.2.waiters → s.threads.blockedOn? id = some e.1) ∧
      ∀ e ∈ s.locks.locks.entries, e.2.holder = some id → ∀ heir ∈ e.2.waiters, (s.thread? heir).isSome) <| by
    simp only [SortedMap.mem_entries_iff, Prod.forall]
    constructor
    · rintro ⟨seat, line, heirs⟩
      refine ⟨fun queue ⟨q, found, waits⟩ => seat queue q found waits, fun lock waits => ?_, fun lock holds heir waits => ?_⟩
      · obtain ⟨l, found⟩ := Option.isSome_iff_exists.mp ((s.locks.mem_ids lock).mp (s.locks.mem_ids_of_mem_waitersOf waits))
        exact line lock l found (LockRegistry.waitersOf_of_get? found ▸ waits)
      · obtain ⟨l, found, holder⟩ := Option.bind_eq_some_iff.mp holds
        exact heirs lock l found holder heir (LockRegistry.waitersOf_of_get? found ▸ waits)
    · intro traceable
      refine ⟨fun queue q found waits => traceable.seat queue ⟨q, found, waits⟩, fun lock l found waits => ?_,
        fun lock l found holder heir waits => ?_⟩
      · exact traceable.line lock (LockRegistry.waitersOf_of_get? found ▸ waits)
      · exact traceable.heirs lock ((LockRegistry.holder?_of_get? found).trans holder) heir
          (LockRegistry.waitersOf_of_get? found ▸ waits)

def others (s : Scheduler) (id : ThreadId) (lock : LockId) : List ThreadId := (s.locks.waitersOf lock).filter (· ≠ id)

/-- The hands in which a thread leaves a lock that it held, unless it still has the lock to hand on, or did not hold. -/
def handsAfter (s : Scheduler) (id : ThreadId) (locks : List LockId) (lock : LockId) : Option Hands :=
  if s.locks.holder? lock = some id ∧ lock ∉ locks then some ((s.others id lock).head?, (s.others id lock).tail)
  else (s.locks.hands? lock).map fun hands => (hands.1, hands.2.filter (· ≠ id))

def Heir (s : Scheduler) (id : ThreadId) (locks : List LockId) (heir : ThreadId) : Prop :=
  ∃ lock, s.locks.holder? lock = some id ∧ lock ∉ locks ∧ (s.others id lock).head? = some heir

theorem mem_others {heir : ThreadId} : heir ∈ s.others id lock ↔ heir ∈ s.locks.waitersOf lock ∧ heir ≠ id := by
  simp [others]

theorem apart_handsAfter {holder : Option ThreadId} {waiters : List ThreadId}
    (hands : s.handsAfter id [] lock = some (holder, waiters)) : holder ≠ some id ∧ id ∉ waiters := by
  have out : id ∉ s.others id lock := fun member => (mem_others.mp member).2 rfl
  unfold handsAfter at hands
  split at hands
  · obtain ⟨rfl, rfl⟩ := Prod.mk.inj (Option.some.inj hands)
    exact ⟨fun first => out (List.mem_of_mem_head? first), fun member => out (List.mem_of_mem_tail member)⟩
  · rename_i other
    obtain ⟨⟨before, line⟩, found, same⟩ := Option.map_eq_some_iff.mp hands
    obtain ⟨rfl, rfl⟩ := Prod.mk.inj same
    refine ⟨fun holds => other ⟨(holder?_of_hands? found).1.trans holds, List.not_mem_nil⟩, by simp⟩

theorem Heir.ne {heir : ThreadId} (inherits : s.Heir id locks heir) : heir ≠ id := by
  obtain ⟨lock, -, -, first⟩ := inherits
  exact (mem_others.mp (List.mem_of_mem_head? first)).2

theorem Heir.known {heir : ThreadId} (traceable : s.Traceable id) (inherits : s.Heir id locks heir) :
    (s.thread? heir).isSome := by
  obtain ⟨lock, holds, -, first⟩ := inherits
  exact traceable.heirs lock holds heir (mem_others.mp (List.mem_of_mem_head? first)).1

theorem Heir.cons {heir : ThreadId} (inherits : s.Heir id locks heir) (lock : LockId) :
    s.Heir id (lock :: locks) heir ∨ (s.others id lock).head? = some heir := by
  obtain ⟨j, holds, left, first⟩ := inherits
  by_cases here : j = lock
  · exact .inr (here ▸ first)
  · exact .inl ⟨j, holds, by simp [here, left], first⟩

/-! ## The locks -/

structure Clearing (s₀ : Scheduler) (id : ThreadId) (locks : List LockId) (s : Scheduler) : Prop where
  once : locks.Nodup
  held : ∀ lock ∈ locks, s₀.locks.holder? lock = some id
  hands : ∀ lock, s.locks.hands? lock = s₀.handsAfter id locks lock
  known : ∀ heir, heir ≠ id → (s₀.thread? heir).isSome → (s.thread? heir).isSome

namespace Clearing

theorem congr (clearing : Clearing s₀ id locks s) (same : s'.locks = s.locks)
    (known : ∀ heir, heir ≠ id → (s.thread? heir).isSome → (s'.thread? heir).isSome) : Clearing s₀ id locks s' where
  once := clearing.once
  held := clearing.held
  hands lock := same ▸ clearing.hands lock
  known heir other before := known heir other (clearing.known heir other before)

theorem same (clearing : Clearing s₀ id locks s) (same : s'.locks = s.locks)
    (threads : s.threads.Matches ThreadState.named s'.threads) : Clearing s₀ id locks s' := by
  refine clearing.congr same fun heir _ known => ?_
  rwa [thread?_of_matches threads]

theorem admitting (s₀ : Scheduler) (id : ThreadId) (locks : List LockId) (named : Thread → Prop) (target : QueueId) :
    Admitting named target (Clearing s₀ id locks) where
  quiet same clearing := clearing.same same.locks (same.threads ▸ .refl _)
  told _ clearing := clearing.same rfl (.refl _)
  ensured {s thread} _ absent clearing := by
    refine clearing.congr rfl fun heir _ known => ?_
    by_cases here : heir = thread.id
    · simp only [Scheduler.thread?, ThreadRegistry.get?_put, if_pos here, Option.isSome_some]
    · simpa only [Scheduler.thread?, ThreadRegistry.get?_put, if_neg here] using known
  joined _ _ found _ _ clearing := clearing.same rfl (.put found rfl)

theorem withdrawn (traceable : s.Traceable id) (ids : List ThreadId) :
    let w := s.locks.withdraw id s.threads
    Clearing s id (w.locks.heldBy id) (s.follow w ids) := by
  let w := s.locks.withdraw id s.threads
  have hands (lock : LockId) :
      w.locks.hands? lock = (s.locks.hands? lock).map fun hands => (hands.1, hands.2.filter (· ≠ id)) := by
    rw [hands?_withdraw]
    split
    · rfl
    · rename_i elsewhere
      -- the thread is in no other line
      cases found : s.locks.hands? lock with
      | none => rfl
      | some hands =>
          obtain ⟨holder, waiters⟩ := hands
          obtain ⟨-, line⟩ := holder?_of_hands? found
          have out : id ∉ waiters := fun member => elsewhere (traceable.line lock (line ▸ member))
          have same : waiters.filter (· ≠ id) = waiters :=
            List.filter_eq_self.mpr fun j member => decide_eq_true fun here => out (here ▸ member)
          rw [Option.map_some, same]
  refine ⟨w.locks.nodup_heldBy id, fun lock member => ?_, fun lock => ?_, fun heir _ known => ?_⟩
  · rw [← holder?_withdraw s.locks id s.threads, ← LockRegistry.mem_heldBy]
    exact member
  · rw [handsAfter, if_neg]
    · exact hands lock
    · rintro ⟨holds, out⟩
      rw [LockRegistry.mem_heldBy, holder?_withdraw] at out
      exact out holds
  · rw [thread?_of_matches (s := s) ((effect_withdraw s.locks id s.threads).kin.weaken fun _ => rfl)]
    exact known

theorem released {next : Option ThreadId} {w : Walk} (clearing : Clearing s₀ id (lock :: locks) s)
    (done : s.locks.release lock id s.threads = .ok (next, w)) (ids : List ThreadId) :
    next = (s₀.others id lock).head? ∧ Clearing s₀ id locks (s.follow w ids) := by
  obtain ⟨out, once⟩ := List.nodup_cons.mp clearing.once
  have held : s₀.locks.holder? lock = some id := clearing.held lock List.mem_cons_self
  obtain ⟨waiters, before, rfl, after⟩ := release_hands done
  have line : s₀.others id lock = waiters := by
    rw [clearing.hands, handsAfter, if_neg (by simp), hands?_of_holder? held] at before
    exact congrArg Prod.snd (Option.some.inj before)
  refine ⟨congrArg List.head? line.symm, once, fun j member => clearing.held j (List.mem_cons_of_mem lock member),
    fun j => ?_, fun heir other known => ?_⟩
  · refine (after j).trans ?_
    by_cases here : j = lock
    · rw [if_pos here, handsAfter, here, if_pos ⟨held, out⟩, line]
    · rw [if_neg here, clearing.hands]
      simp only [handsAfter, List.mem_cons, here, false_or]
  · rw [thread?_of_matches (s := s) ((effect_release done).kin.weaken fun _ => rfl)]
    exact clearing.known heir other known

end Clearing

/-! ## The queues -/

def Tidy (id : ThreadId) (heirs : ThreadId → Prop) (_ : List ThreadId) (p : Placement) : Prop :=
  (∀ queue, p.waits id queue → p.seat? id = some queue) ∧ ∀ heir, heirs heir → p.waits heir .ready

def Gone (id : ThreadId) (heirs : ThreadId → Prop) (next : Option ThreadId) (_ : List ThreadId) (p : Placement) : Prop :=
  (∀ queue, ¬p.waits id queue) ∧ ∀ heir, heirs heir → p.waits heir .ready ∨ next = some heir

def Admissible (roster : Roster) (id : ThreadId) (t : Thread) : Prop := roster.Lists t ∧ t.id ≠ id

theorem joinable_tidy (roster : Roster) (id : ThreadId) (heirs : ThreadId → Prop) :
    Joinable (Admissible roster id) .ready (Tidy id heirs) where
  mains _ admissible := admissible.1.isMain_iff
  join {ids p t} admissible tidy := by
    refine ⟨fun queue waits => ?_, fun heir inherits => .inr (tidy.2 heir inherits)⟩
    rcases waits with ⟨here, -⟩ | waits
    · exact absurd here.symm admissible.2
    · exact (if_neg admissible.2.symm).trans (tidy.1 queue waits)

theorem Tidy.left {heirs : ThreadId → Prop} {ids : List ThreadId} {p : Placement} (tidy : Tidy id heirs ids p)
    (others : ∀ heir, heirs heir → heir ≠ id) : Gone id heirs none ids ((p.seat? id).elim p (p.leave id)) := by
  cases sits : p.seat? id with
  | none =>
      refine ⟨fun queue waits => ?_, fun heir inherits => .inl (tidy.2 heir inherits)⟩
      rw [tidy.1 queue waits] at sits
      cases sits
  | some queue =>
      refine ⟨fun other waits => waits.2 ⟨rfl, ?_⟩, fun heir inherits => .inl ⟨tidy.2 heir inherits, fun same => ?_⟩⟩
      · exact Option.some.inj ((tidy.1 other waits.1).symm.trans sits)
      · exact others heir inherits same.1

theorem Gone.chosen {heirs : ThreadId → Prop} {ids : List ThreadId} {p : Placement} (gone : Gone id heirs none ids p)
    (next : Option ThreadId) : Gone id heirs next ids (next.elim p (p.leave · .ready)) := by
  cases next with
  | none => exact gone
  | some chosen =>
      refine ⟨fun queue waits => gone.1 queue waits.1, fun heir inherits => ?_⟩
      by_cases same : heir = chosen
      · exact .inr (congrArg some same.symm)
      · exact .inl ⟨(gone.2 heir inherits).resolve_right nofun, fun both => same both.1⟩

/-! ## The end of a thread -/

/-- What is left of a thread: its state is dropped, and others have its locks. -/
structure Retired (roster : Roster) (config : Config) (s₀ : Scheduler) (id : ThreadId) (next : Option ThreadId)
    (s : Scheduler) : Prop where
  dwelling : Dwelling roster.Lists config (Gone id (s₀.Heir id []) next) s
  clearing : Clearing s₀ id [] s
  dropped : s.threads.get? id = none

theorem accounted_retired (roster : Roster) (config : Config) (s₀ : Scheduler) (id : ThreadId) (next : Option ThreadId) :
    Accounted (Retired roster config s₀ id next) where
  quiet same retired :=
    ⟨(bookkept_placement _).quiet same retired.dwelling,
      (Clearing.admitting s₀ id [] roster.Lists .ready).quiet same retired.clearing, same.threads ▸ retired.dropped⟩
  told silent retired :=
    ⟨(bookkept_placement _).told silent retired.dwelling, retired.clearing.same rfl (.refl _), retired.dropped⟩
  dispatched p busy known charged retired := by
    have dwelling := (accounted_placement _).dispatched p busy known charged retired.dwelling
    obtain ⟨threads, rfl, same⟩ := charged.exists_threads
    refine ⟨dwelling, retired.clearing.same rfl (same.weaken fun _ => rfl), ?_⟩
    exact Option.map_eq_none_iff.mp ((same.get? id).trans (by rw [retired.dropped]; rfl))

def Bequeathing (roster : Roster) (config : Config) (s₀ : Scheduler) (id : ThreadId) (locks : List LockId)
    (s : Scheduler) : Prop :=
  Dwelling roster.Lists config (Tidy id (s₀.Heir id locks)) s ∧ Clearing s₀ id locks s

def Bequeathed (roster : Roster) (config : Config) (s₀ : Scheduler) (id : ThreadId) (s : Scheduler) : Prop :=
  Dwelling roster.Lists config (Gone id (s₀.Heir id []) none) s ∧ Clearing s₀ id [] s

theorem bequeathing_withdrawn (traceable : s.Traceable id) (housed : s.Housed roster.Lists config) :
    let w := s.locks.withdraw id s.threads
    Bequeathing roster config s id (w.locks.heldBy id) (s.follow w w.changed) := by
  refine ⟨Dwelling.walked ⟨housed, traceable.seat, fun heir inherits => ?_⟩ (effect_withdraw _ _ _),
    Clearing.withdrawn traceable _⟩
  -- every lock that it holds is still to be handed on
  obtain ⟨lock, holds, out, -⟩ := inherits
  rw [LockRegistry.mem_heldBy, holder?_withdraw] at out
  exact absurd holds out

theorem Bequeathing.ends_handedOn {thread : Thread} (traceable : s₀.Traceable thread.id)
    (holding : Bequeathing roster config s₀ thread.id (lock :: locks) s) (time : Ticks) :
    Ends (handOn lock thread time) s (fun _ => Bequeathing roster config s₀ thread.id locks) fun _ => True := by
  obtain ⟨dwelling, clearing⟩ := holding
  have held : s₀.locks.holder? lock = some thread.id := clearing.held lock List.mem_cons_self
  have out : lock ∉ locks := (List.nodup_cons.mp clearing.once).1
  -- between the release and the wake of the heir, only that heir is not ready
  let released (s : Scheduler) : Prop :=
    Dwelling roster.Lists config (Tidy thread.id (s₀.Heir thread.id (lock :: locks))) s ∧ Clearing s₀ thread.id locks s
  let Told (next : Option ThreadId) (s : Scheduler) : Prop := released s ∧ next = (s₀.others thread.id lock).head?
  refine ends_handOn Told time trivial (fun next w p done => ?_) (fun next s' told unknown => ?_)
    fun heir named s' told known => ?_
  · obtain ⟨next, clearing⟩ := clearing.released done w.changed
    refine ⟨⟨(dwelling.walked (effect_release done)).told (Output.admitted?_handedOver _ _ _ _ _ _ _), ?_⟩, next⟩
    exact clearing.same rfl (.refl _)
  · obtain ⟨⟨dwelling, clearing⟩, next⟩ := told
    refine ⟨⟨dwelling.1, dwelling.2.1, fun heir inherits => ?_⟩, clearing⟩
    refine dwelling.2.2 heir ((inherits.cons lock).resolve_right fun first => ?_)
    -- an heir that nobody knows would not be in line
    have inherits : s₀.Heir thread.id locks heir := ⟨lock, held, out, first⟩
    have known := clearing.known heir inherits.ne (inherits.known traceable)
    rw [next, first, Option.bind_some] at unknown
    rw [unknown] at known
    cases known
  · have inherits : s₀.Heir thread.id locks heir := ⟨lock, held, out, told.2.symm⟩
    obtain ⟨same, listed⟩ := told.1.1.1.registered.thread? roster.lists_main known
    have admissible : Admissible roster thread.id named := ⟨listed, same ▸ inherits.ne⟩
    have admits : Admitting (Admissible roster thread.id) .ready released :=
      (admitting_placement (fun _ => And.left) (joinable_tidy roster thread.id _)).and
        (Clearing.admitting s₀ thread.id locks _ .ready)
    refine (ends_wake_waits admits (fun both => both.1.1) admissible listed.isMain_iff told.1).imp ?_ fun _ _ => trivial
    rintro _ s' ⟨⟨dwelling, clearing⟩, waits⟩
    refine ⟨⟨dwelling.1, dwelling.2.1, fun other inherits => ?_⟩, clearing⟩
    rcases inherits.cons lock with before | first
    · exact dwelling.2.2 other before
    · rw [← told.2] at first
      rw [← Option.some.inj first, ← same]
      exact waits

theorem Bequeathing.left (holding : Bequeathing roster config s₀ id [] s) : Bequeathed roster config s₀ id (s.left id) := by
  obtain ⟨⟨housed, tidy⟩, clearing⟩ := holding
  obtain ⟨housed', placed⟩ := housed.left id
  refine ⟨⟨housed', ?_⟩, ?_⟩
  · rw [placed]
    exact tidy.left fun heir inherits => inherits.ne
  · obtain ⟨queues, threads, left, same⟩ := s.exists_left id
    rw [left]
    exact clearing.same rfl (same.weaken fun _ => rfl)

theorem Bequeathed.retired (gone : Bequeathed roster config s₀ id s) :
    Retired roster config s₀ id none { s with threads := s.threads.remove id } := by
  obtain ⟨⟨housed, gone⟩, clearing⟩ := gone
  obtain ⟨housed', placed⟩ := housed.retired id
  refine ⟨⟨housed', ?_⟩, clearing.congr rfl fun heir other known => ?_, ?_⟩
  · rw [placed]
    exact gone
  · rw [Scheduler.thread?, ThreadRegistry.get?_remove, if_neg other]
    exact known
  · exact (s.threads.get?_remove id id).trans (if_pos rfl)

theorem departs_bequeathing {thread : Thread} (traceable : s₀.Traceable thread.id)
    (housed : s₀.Housed roster.Lists config) :
    Departs (· = s₀) (Retired roster config s₀ thread.id none) (fun _ => True) thread s₀.clock.now
      (Bequeathing roster config s₀ thread.id) (Bequeathed roster config s₀ thread.id) where
  books locks :=
    ((bookkept_placement _).and (Clearing.admitting s₀ thread.id locks roster.Lists .ready).toBookkept).toRecorded
  weaken _ := trivial
  withdrawn {s} same := by
    subst same
    exact bequeathing_withdrawn traceable housed
  handed holding := holding.ends_handedOn traceable _
  left holding := holding.left
  retires gone := by
    refine ends_retire (accounted_retired roster config s₀ thread.id none).toBookkept _ (fun retired => ?_)
      (fun absent => ⟨gone.1, gone.2, absent⟩) gone.retired
    exact ⟨retired.dwelling.told rfl, retired.clearing.same rfl (.refl _), retired.dropped⟩

theorem Retired.selected {q : WaitQueue} {n : Noted (Selection WaitQueue)} (retired : Retired roster config s₀ id none s)
    (found : s.queues.get? .ready = some q) (taken : q.next s.threads s.clock.now = .ok n) :
    Retired roster config s₀ id n.value.next (s.selected .ready n) where
  dwelling := by
    obtain ⟨housed, -, placed⟩ := retired.dwelling.1.selected found taken
    refine ⟨housed, ?_⟩
    rw [placed]
    exact retired.dwelling.2.chosen n.value.next
  clearing := retired.clearing.same rfl (named_selected taken)
  dropped := by
    have still : ((s.selected .ready n).threads.get? id).isSome = (s.threads.get? id).isSome :=
      (named_selected taken).isSome id
    rw [retired.dropped] at still
    exact Option.isNone_iff_eq_none.mp (by simpa using still)

structure Cleared (s₀ : Scheduler) (id : ThreadId) (s : Scheduler) : Prop where
  gone : Gone id (s₀.Heir id []) (some s.processor.current.id) s.admitted s.placement
  hands : ∀ lock, s.locks.hands? lock = s₀.handsAfter id [] lock
  dropped : s.threads.get? id = none

theorem ends_finish (staffed : s.Staffed roster config) (traceable : s.Traceable s.processor.current.id) :
    Ends finish s (fun _ => Cleared s s.processor.current.id) fun _ => True := by
  let id := s.processor.current.id
  have traceable : s.masked.Traceable id := ⟨traceable.seat, traceable.line, traceable.heirs⟩
  have books : Bookkept (Retired roster config s.masked id none) :=
    (accounted_retired roster config s.masked id none).toBookkept
  have departs := departs_bequeathing traceable ((kept_staffed roster config .ready).interrupted _ staffed).1.1
  rw [finish, ends_masked, ends_bind]
  refine (ends_depart (s := s.masked) books (fun _ => departs) rfl).imp (fun _ s₁ retired => ?_)
    fun _ _ => trivial
  have chosen {q : WaitQueue} {n : Noted (Selection WaitQueue)} (found : s₁.queues.get? .ready = some q)
      (taken : q.next s₁.threads s₁.clock.now = .ok n) := retired.selected found taken
  have dispatched : Ends dispatch s₁ (fun t s₂ => Cleared s id s₂ ∧ ∃ q n, s₁.queues.get? .ready = some q ∧
      q.next s₁.threads s₁.clock.now = .ok n ∧ s₁.RunsNext n t) fun _ => True := by
    refine ends_dispatch (fun n => accounted_retired roster config s.masked id n.value.next) (fun _ => trivial)
      (fun q n found taken => chosen found taken) ?_
    intro q n t s₂ found taken runs _ retired
    refine ⟨⟨retired.dwelling.2.1, fun heir inherits => ?_⟩, retired.clearing.hands, retired.dropped⟩
    refine (retired.dwelling.2.2 heir inherits).imp_right fun next => ?_
    -- the heir is known, so it is what was selected that runs
    obtain ⟨named, known⟩ := Option.isSome_iff_exists.mp
      ((chosen found taken).clearing.known heir inherits.ne (inherits.known traceable))
    rcases runs with runs | ⟨nobody, -⟩
    · rw [next, Option.bind_some, known] at runs
      obtain rfl := Option.some.inj runs
      exact congrArg some ((chosen found taken).dwelling.1.registered.thread? roster.lists_main known).1
    · rw [next, Option.bind_some, known] at nobody
      cases nobody
  refine dispatched.imp ?_ fun _ _ => trivial
  rintro t s₂ ⟨cleared, -⟩
  exact ⟨cleared.gone, cleared.hands, cleared.dropped⟩

/-- A thread that finishes leaves no trace, if its state names every place where it waits: it has no state, waits in no
queue and for no lock, and holds none. Each lock that it held is free or went to the oldest of the others in line, which
is ready or runs, and the other locks stay as they are, without the thread in their lines. -/
theorem finish_clears {next : Thread} (attainable : s.Attainable roster config)
    (traceable : s.Traceable s.processor.current.id) (finished : finish s = .ok next s') :
    let id := s.processor.current.id
    s'.threads.get? id = none ∧ (∀ queue ids, s'.queueWaiters queue = .ok ids → id ∉ ids) ∧
      (∀ lock, s'.locks.holder? lock ≠ some id ∧ id ∉ s'.locks.waitersOf lock) ∧
      ∀ lock, if s.locks.holder? lock = some id then
          let line := (s.locks.waitersOf lock).filter (· ≠ id)
          s'.lockHolder lock = .ok line.head? ∧ s'.lockWaiters lock = .ok line.tail ∧
            ∀ heir, line.head? = some heir → heir ∈ s'.readyWaiters ∨ s'.processor.current.id = heir
        else s'.locks.hands? lock = (s.locks.hands? lock).map fun hands => (hands.1, hands.2.filter (· ≠ id)) := by
  intro id
  have cleared : Cleared s id s' := (ends_finish (staffed_of_attainable attainable) traceable).of_ok finished
  refine ⟨cleared.dropped, fun queue ids waiters member => ?_, fun lock => ?_, fun lock => ?_⟩
  · exact cleared.gone.1 queue ((waits_iff_mem waiters).mpr member)
  · cases found : s'.locks.hands? lock with
    | none =>
        have absent : s'.locks.get? lock = none := Option.map_eq_none_iff.mp found
        simp [LockRegistry.holder?, LockRegistry.waitersOf, absent]
    | some hands =>
        obtain ⟨last, waiters⟩ := hands
        obtain ⟨holder, line⟩ := holder?_of_hands? found
        rw [holder, line]
        exact apart_handsAfter ((cleared.hands lock).symm.trans found)
  · have hands := cleared.hands lock
    split
    · rename_i holds
      rw [handsAfter, if_pos ⟨holds, List.not_mem_nil⟩] at hands
      obtain ⟨holder, waiters⟩ := lockHolder_of_hands? hands
      refine ⟨holder, waiters, fun heir first => ?_⟩
      refine (cleared.gone.2 heir ⟨lock, holds, List.not_mem_nil, first⟩).imp (fun waits => ?_) Option.some.inj
      obtain ⟨q, found, member⟩ := waits
      rw [readyWaiters, found]
      exact member
    · rename_i other
      rw [handsAfter, if_neg fun both => other both.1] at hands
      exact hands

def bequest : Option Scheduler :=
  opened [.interrupts ⟨false, 1⟩, .call (.createQueue false), .call .createLock, .call (.acquire ⟨1⟩),
    .call (.wake ⟨⟨2⟩, "worker", .ordinary⟩), .call .yield, .call (.acquire ⟨1⟩), .call (.join ⟨1⟩ .main)]

theorem finish_clears_bequest :
    ∃ s next s', bequest = some s ∧ s.processor.current = .main ∧ s.queueWaiters ⟨1⟩ = .ok [.main] ∧
      s.lockWaiters ⟨1⟩ = .ok [⟨2⟩] ∧ finish s = .ok next s' ∧ s'.threads.get? .main = none ∧
      s'.lockHolder ⟨1⟩ = .ok (some ⟨2⟩) ∧ (⟨2⟩ ∈ s'.readyWaiters ∨ s'.processor.current.id = ⟨2⟩) := by
  have reached : bequest = some (bequest.get (by decide)) := (Option.some_get _).symm
  have traceable : (bequest.get (by decide)).Traceable (bequest.get (by decide)).processor.current.id := by decide
  have runs : (bequest.get (by decide)).processor.current = .main := by decide
  have finished : ((bequest.get (by decide)).after finish).map Prod.fst = some ⟨⟨2⟩, "worker", .ordinary⟩ := by
    decide +kernel
  obtain ⟨s', finished⟩ := exists_of_after finished
  obtain ⟨dropped, -, -, locks⟩ := finish_clears (attainable_opened reached) traceable finished
  rw [runs] at dropped locks
  have held := locks ⟨1⟩
  rw [if_pos (by decide)] at held
  obtain ⟨holder, -, heirs⟩ := held
  exact ⟨_, _, s', reached, runs, by decide, by decide, finished, dropped, holder, heirs ⟨2⟩ (by decide)⟩

def registered : Option Scheduler :=
  opened [.interrupts ⟨false, 1⟩, .call (.createQueue false), .call (.wake ⟨⟨2⟩, "worker", .ordinary⟩), .call .dispatch,
    .call (.join ⟨1⟩ ⟨⟨2⟩, "worker", .ordinary⟩), .call .yield]

/-- A thread that finishes may stay among the waiters of a queue that its state no longer names. -/
theorem exists_not_cleared :
    ∃ s next s', s.Attainable .workers {} ∧ s.processor.current.isIdle = false ∧ finish s = .ok next s' ∧
      s'.queueWaiters ⟨1⟩ = .ok [s.processor.current.id] := by
  have reached : registered = some (registered.get (by decide)) := (Option.some_get _).symm
  have outcome : ((registered.get (by decide)).after finish).map (fun (next, s') => (next, s'.queueWaiters ⟨1⟩)) =
      some (⟨⟨1⟩, "idle", .idle⟩, .ok [⟨2⟩]) := by decide +kernel
  obtain ⟨⟨next, s'⟩, finished, same⟩ := Option.map_eq_some_iff.mp outcome
  refine ⟨_, next, s', attainable_opened reached, by decide, after_eq_some.mp finished, ?_⟩
  exact (congrArg Prod.snd same).trans (by decide)

end Scheduler

end PriorityScheduler
