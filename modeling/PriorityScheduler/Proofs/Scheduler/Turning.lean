import PriorityScheduler.Proofs.Locks.Single
import PriorityScheduler.Proofs.Scheduler.Ledger
import PriorityScheduler.Proofs.Scheduler.Wakeful
import PriorityScheduler.Proofs.Turns

/-!
# Threads that take turns

Threads wait in the ready queue only, they are not in line for a lock then, and their lives are in turns: the last turn of
a life has only begun exactly while its thread waits. Whoever was taken off the ready queue without being dispatched is an
exception, until its life ends.

Main statements: `Turning.ends_handOn`, `ends_wake_manned`, `ends_handOn_manned` and `ends_contend_manned`.
-/

namespace PriorityScheduler

open PriorityScheduler.Action PriorityScheduler.Scheduler PriorityScheduler.LockRegistry

/-- Who was taken off the ready queue in its life, and how much had been told when that was noted. -/
structure Takings where
  taken : ThreadId → Bool
  told : Nat

variable {roster : Roster} {config : Config} {takings : Takings}

/-- Threads wait in the ready queue only, where they know that they wait, and no idle thread does. -/
def Gathered (roster : Roster) (p : Placement) : Prop :=
  ∀ id queue, p.waits id queue → queue = .ready ∧ p.seat? id = some .ready ∧ (roster.thread id).isIdle = false

structure Life.Paced (taken : Bool) (seat : Option QueueId) (life : Life) : Prop where
  begun : seat = some .ready → life.Begun
  turn : taken = false → seat = some .ready → life.InTurn
  turns : taken = false → seat ≠ some .ready → life.InTurns

/-- The lives that ended since, but for those of threads that were taken, were in turns. -/
def Takings.Spares (takings : Takings) (before : List Output) (thread : Thread) (_ : Lifetime) : Prop :=
  takings.told ≤ before.length → takings.taken thread.id = false → (lifeOf thread.id before).InTurns

def Apart (roster : Roster) (p : Placement) (t : LockRegistry) : Prop :=
  ∀ id, (roster.thread id).isIdle = false → t.InLine id → p.seat? id ≠ some .ready

section

variable {p : Placement} {id : ThreadId} {t u : LockRegistry}

theorem Gathered.join (gathered : Gathered roster p) (busy : (roster.thread id).isIdle = false) :
    Gathered roster (p.join id .ready) := by
  rintro j queue (⟨rfl, rfl⟩ | waits)
  · exact ⟨rfl, if_pos rfl, busy⟩
  · obtain ⟨rfl, sits, busy⟩ := gathered j queue waits
    refine ⟨rfl, ?_, busy⟩
    simp only [Placement.join, sits, ite_self]

theorem Gathered.leave (gathered : Gathered roster p) (id : ThreadId) : Gathered roster (p.leave id .ready) := by
  rintro j queue ⟨waits, stays⟩
  obtain ⟨rfl, sits, busy⟩ := gathered j queue waits
  refine ⟨rfl, ?_, busy⟩
  simp only [Placement.leave, Placement.unseat]
  rw [if_neg fun same => stays ⟨same, rfl⟩, sits]

theorem Apart.shrink (apart : Apart roster p t) (shrinks : t.Shrinks u) : Apart roster p u :=
  fun id busy waits => apart id busy (shrinks.inLine waits)

end

namespace Scheduler

variable {s s' : Scheduler} {id : ThreadId} {c t : Thread} {off : Prop}

structure Turning (roster : Roster) (config : Config) (takings : Takings) (s : Scheduler) : Prop where
  housed : s.Housed roster.Lists config
  gathered : Gathered roster s.placement
  paced : ∀ id, (lifeOf id s.output).Paced (takings.taken id) (s.placement.seat? id)
  audited : Audited takings.Spares s.output
  single : s.locks.Single fun id => (roster.thread id).isIdle = false
  apart : Apart roster s.placement s.locks

namespace Turning

theorem relined (turning : s.Turning roster config takings)
    (after : s'.Housed roster.Lists config ∧ s'.placement = s.placement) (output : s'.output = s.output)
    (single : s'.locks.Single fun id => (roster.thread id).isIdle = false)
    (apart : Apart roster s.placement s'.locks) : s'.Turning roster config takings where
  housed := after.1
  gathered := after.2 ▸ turning.gathered
  paced := by
    rw [after.2, output]
    exact turning.paced
  audited := output ▸ turning.audited
  single := single
  apart := after.2 ▸ apart

theorem still (turning : s.Turning roster config takings)
    (after : s'.Housed roster.Lists config ∧ s'.placement = s.placement) (output : s'.output = s.output)
    (shrinks : s.locks.Shrinks s'.locks) : s'.Turning roster config takings :=
  turning.relined after output (turning.single.shrink shrinks) (turning.apart.shrink shrinks)

theorem told (turning : s.Turning roster config takings) {out : List Output} (quiet : ∀ o ∈ out, o.milestone? = none) :
    (s.tell out).Turning roster config takings where
  housed := (turning.housed.told out).1
  gathered := turning.gathered
  paced id := by
    show (lifeOf id (s.output ++ out)).Paced _ _
    rw [lifeOf_quiet quiet]
    exact turning.paced id
  audited := turning.audited.quiet quiet
  single := turning.single
  apart := turning.apart

theorem step (turning : s.Turning roster config takings) {p : Placement} {o : Output} {m : Milestone}
    (after : s'.Housed roster.Lists config ∧ s'.placement = p) (tells : o.milestone? = some (id, m))
    (output : s'.output = s.output ++ [o]) (locks : s'.locks = s.locks) (gathered : Gathered roster p)
    (others : ∀ j, j ≠ id → p.seat? j = s.placement.seat? j)
    (awake : p.seat? id = some .ready → ¬s.locks.InLine id)
    (paced : ((lifeOf id s.output).prolong m).Paced (takings.taken id) (p.seat? id))
    (audits : ∀ thread record, o = .event (.finished thread record) → takings.Spares s.output thread record) :
    s'.Turning roster config takings where
  housed := after.1
  gathered := after.2 ▸ gathered
  paced j := by
    rw [after.2, output, lifeOf_milestone tells]
    by_cases here : id = j
    · subst here
      rwa [if_pos rfl]
    · rw [if_neg here, others j (Ne.symm here)]
      exact turning.paced j
  audited := output ▸ turning.audited.concat audits
  single := locks ▸ turning.single
  apart j busy waits := by
    rw [locks] at waits
    rw [after.2]
    by_cases here : j = id
    · subst here
      exact fun ready => awake ready waits
    · rw [others j here]
      exact turning.apart j busy waits

theorem same (turning : s.Turning roster config takings) (threads : s'.threads = s.threads) (queues : s'.queues = s.queues)
    (nextQueue : s'.nextQueue = s.nextQueue) (current : s'.processor.current = s.processor.current)
    (idle : s'.idle.thread = s.idle.thread) (output : s'.output = s.output) (shrinks : s.locks.Shrinks s'.locks) :
    s'.Turning roster config takings :=
  turning.still (turning.housed.same threads queues nextQueue current idle) output shrinks

theorem seat?_eq_none (turning : s.Turning roster config takings) (elsewhere : s.placement.seat? id ≠ some .ready) :
    s.placement.seat? id = none := by
  cases sits : s.placement.seat? id with
  | none => rfl
  | some queue =>
      have here := (turning.gathered id queue (turning.housed.seats id queue sits)).1
      exact absurd (here ▸ sits) elsewhere

end Turning

theorem neutral_turning (roster : Roster) (config : Config) (takings : Takings) :
    Neutral roster.Lists (Turning roster config takings) where
  quiet still turning := turning.same still.threads still.queues still.nextQueue still.current still.idle still.output
    (.of_eq still.locks)
  told silent turning := turning.told fun o member => (silent o member).milestone?
  ensured listed absent turning := turning.still (turning.housed.ensured listed absent _) rfl (.of_eq rfl)
  known thread turning := (turning.housed.registered.thread? roster.lists_main thread).2
  running busy turning := turning.housed.registered.busy busy
  interrupted _ turning := turning.same rfl rfl rfl rfl rfl rfl (.of_eq rfl)
  repriced found repriced turning :=
    turning.still (turning.housed.follow _ (placed_reprice found repriced)) rfl (shrinks_reprice _ _ _ _)
  claimed found turning := turning.still (turning.housed.claimed found _) rfl (.of_eq rfl)
  queueMade turning := turning.still (turning.housed.queueMade _) rfl (.of_eq rfl)
  lockMade turning := turning.same rfl rfl rfl rfl rfl rfl (shrinks_create _)

def Off (id : ThreadId) (s : Scheduler) : Prop := s.threads.seat? id ≠ some .ready ∧ ¬s.locks.InLine id

theorem Off.congr (isOff : s.Off id) (seat? : s'.threads.seat? id = s.threads.seat? id)
    (shrinks : s.locks.Shrinks s'.locks) : s'.Off id :=
  ⟨fun ready => isOff.1 (seat?.symm.trans ready), fun waits => isOff.2 (shrinks.inLine waits)⟩

theorem neutral_off (id : ThreadId) : Neutral (fun _ => True) (Off id) where
  quiet same isOff := isOff.congr (by rw [same.threads]) (.of_eq same.locks)
  told _ isOff := isOff
  ensured {s t} _ _ isOff := by
    refine ⟨?_, isOff.2⟩
    show (s.threads.put t.id _).seat? id ≠ some .ready
    rw [ThreadRegistry.seat?, ThreadRegistry.get?_put]
    split
    · simp [ThreadState.new]
    · exact isOff.1
  known _ _ := trivial
  running _ _ := trivial
  interrupted _ isOff := isOff
  repriced found repriced isOff := isOff.congr ((placed_reprice found repriced).seat? id) (shrinks_reprice _ _ _ _)
  claimed _ isOff := isOff
  queueMade isOff := isOff
  lockMade isOff := isOff.congr rfl (shrinks_create _)

/-- Threads take turns, and `c` runs. If `off` holds, it is neither ready nor in line. -/
def Manned (roster : Roster) (config : Config) (takings : Takings) (c : Thread) (off : Prop) (s : Scheduler) : Prop :=
  (s.Turning roster config takings ∧ s.processor.current = c) ∧ (off → s.Off c.id)

theorem neutral_manned (roster : Roster) (config : Config) (takings : Takings) (c : Thread) (off : Prop) :
    Neutral roster.Lists (Manned roster config takings c off) :=
  ((neutral_turning roster config takings).beside fun current _ _ => current = c).and ((neutral_off c.id).when off)

theorem Manned.weaken {off' : Prop} (manned : s.Manned roster config takings c off) (fewer : off' → off) :
    s.Manned roster config takings c off' := ⟨manned.1, fun yes => manned.2 (fewer yes)⟩

theorem Turning.joined (turning : s.Turning roster config takings) {q : WaitQueue} {state : ThreadState} {accounts : Accounts}
    (p : Priority) (listed : roster.Lists t) (busy : t.isIdle = false) (elsewhere : state.queuedOn ≠ some .ready)
    (found : s.threads.get? t.id = some state) (queue : s.queues.get? .ready = some q) (awake : ¬s.locks.InLine t.id) :
    let s' := (s.enrol .ready q t { state with accounts }).tell [.event (.enqueued s.clock.now t p)]
    s'.Turning roster config takings ∧ ∀ j, j ≠ t.id → s'.threads.seat? j = s.threads.seat? j := by
  obtain ⟨housed, placed⟩ := turning.housed.joined listed.isMain_iff found queue accounts
  have after := (housed.told [.event (.enqueued s.clock.now t p)]).imp_right (·.trans placed)
  have unready : s.placement.seat? t.id ≠ some .ready := by
    show (s.threads.get? t.id).bind (·.queuedOn) ≠ some .ready
    rwa [found]
  have others (j : ThreadId) (other : j ≠ t.id) : (s.placement.join t.id .ready).seat? j = s.placement.seat? j :=
    if_neg other
  refine ⟨?_, fun j other => (congrFun (congrArg Placement.seat? after.2) j).trans (others j other)⟩
  refine turning.step (m := .admitted s.clock.now) after rfl rfl rfl ?_ others (fun _ => awake) ⟨fun _ => ?_, ?_, ?_⟩ nofun
  · exact turning.gathered.join (by rw [listed, busy])
  · exact Life.begun_admitted _ _
  · exact fun spared _ => ((turning.paced t.id).turns spared unready).admitted s.clock.now
  · exact fun _ out => absurd (if_pos rfl) out

theorem ends_wake_manned {off' : Prop} (listed : roster.Lists t) (manned : s.Manned roster config takings c off)
    (awake : t.isIdle = false → ¬s.locks.InLine t.id) (fewer : off' → off)
    (other : off' → t.isIdle = false → t.id ≠ c.id) :
    Ends (wake t) s (fun _ => Manned roster config takings c off') (Manned roster config takings c off) := by
  have lasting : Lasting fun locks => ¬locks.InLine t.id :=
    lasting_of_shrinks fun shrinks out waits => out (shrinks.inLine waits)
  have lines : Filing (fun _ => True) fun s => t.isIdle = false → ¬s.locks.InLine t.id :=
    ((kept_lasting lasting .ready).toNeutral.when _).toFiling
  have files := (neutral_manned roster config takings c off).toFiling.and (lines.mono fun _ _ => trivial)
  refine (files.ends_wake listed ⟨manned, awake⟩ (fun _ both => both.1.weaken fewer) ?_).imp (fun _ _ => id)
    fun _ => And.left
  rintro s q state accounts p busy elsewhere found queue - ⟨⟨⟨turning, current⟩, isOff⟩, awake⟩
  obtain ⟨turning', others⟩ := turning.joined p listed busy elsewhere found queue (awake busy)
  refine ⟨⟨turning', current⟩, fun yes => (isOff (fewer yes)).congr ?_ (.of_eq rfl)⟩
  exact others c.id fun same => other yes busy same.symm

theorem Manned.told (manned : s.Manned roster config takings c off) {out : List Output}
    (quiet : ∀ o ∈ out, o.milestone? = none) : (s.tell out).Manned roster config takings c off :=
  ⟨⟨manned.1.1.told quiet, manned.1.2⟩, manned.2⟩

theorem Manned.walked (manned : s.Manned roster config takings c off) {w : Walk} (effect : Effect s.locks s.threads w)
    (shrinks : s.locks.Shrinks w.locks) : (s.follow w w.changed).Manned roster config takings c off := by
  have after := manned.1.1.housed.walked effect
  have seat? := congrFun (congrArg Placement.seat? after.2) c.id
  exact ⟨⟨manned.1.1.still after rfl shrinks, manned.1.2⟩, fun yes => (manned.2 yes).congr seat? shrinks⟩

theorem milestone?_handOver (ns : List Notice) (lock : LockId) (time : Ticks) (holder : ThreadId) (p p' : Priority)
    (next : Option ThreadId) :
    ∀ o ∈ ns.map Output.notice ++ Output.handOver lock time holder p next p', o.milestone? = none := by
  intro o member
  rcases List.mem_append.mp member with notice | event
  · exact (Bookkept.silent_notices ns o notice).milestone?
  · cases next with
    | none =>
        cases List.mem_singleton.mp event
        rfl
    | some heir =>
        rcases List.mem_cons.mp event with rfl | event
        · rfl
        · cases List.mem_singleton.mp event
          rfl

theorem milestone?_lock (ns : List Notice) (action : LockTransition) (lock : LockId) (time : Ticks) (id : ThreadId)
    (p : Priority) : ∀ o ∈ ns.map Output.notice ++ [.event (.lock action lock time id p)], o.milestone? = none := by
  intro o member
  rcases List.mem_append.mp member with notice | event
  · exact (Bookkept.silent_notices ns o notice).milestone?
  · cases List.mem_singleton.mp event
    rfl

theorem Turning.ends_handOn {kept refused : Scheduler → Prop} (turning : s.Turning roster config takings) (lock : LockId)
    (time : Ticks) (rest : refused s)
    (released : ∀ next w p, s.locks.release lock c.id s.threads = .ok (next, w) →
      kept ((s.follow w w.changed).tell
        (w.notices.map .notice ++ Output.handOver lock time c.id (s.threads.effective c.id) next p)))
    (woken : ∀ {t : Thread} {s' : Scheduler}, roster.Lists t →
      (t.isIdle = false → s.locks.InLine t.id ∧ ¬s'.locks.InLine t.id) → kept s' →
      Ends (wake t) s' (fun _ => kept) refused) : Ends (handOn lock c time) s (fun _ => kept) refused := by
  let told (next : Option ThreadId) (s' : Scheduler) := kept s' ∧ s'.Registered roster.Lists config ∧
    ∀ heir ∈ next, (roster.thread heir).isIdle = false → s.locks.InLine heir ∧ ¬s'.locks.InLine heir
  refine PriorityScheduler.ends_handOn told time rest (fun next w p done => ⟨released next w p done, ?_, ?_⟩)
    (fun _ _ both _ => both.1) ?_
  · exact turning.housed.registered.congr ((effect_release done).kin.weaken fun _ => rfl) rfl rfl
  · rintro heir rfl busy
    exact turning.single.handed busy done
  · rintro heir thread s' ⟨holds, registered, apart⟩ known
    obtain ⟨rfl, listed⟩ := registered.thread? roster.lists_main known
    exact woken listed (fun busy => apart thread.id rfl (by rw [listed, busy])) holds

theorem ends_handOn_manned (lock : LockId) (time : Ticks) (manned : s.Manned roster config takings c off) :
    Ends (handOn lock c time) s (fun _ => Manned roster config takings c off) (Manned roster config takings c off) := by
  refine manned.1.1.ends_handOn lock time manned (fun next w p done => ?_) fun {t s'} listed apart manned' => ?_
  · exact (manned.walked (effect_release done) (shrinks_release done)).told (milestone?_handOver _ _ _ _ _ _ _)
  · refine ends_wake_manned listed manned' (fun busy => (apart busy).2) id fun yes busy same => ?_
    exact (manned.2 yes).2 (same ▸ (apart busy).1)

theorem ends_contend_manned (lock : LockId) (listed : roster.Lists c)
    (manned : s.Manned roster config takings c (c.isIdle = false)) :
    Ends (contend lock) s (fun outcome => Manned roster config takings c (outcome = .acquired ∧ c.isIdle = false))
      (Manned roster config takings c (c.isIdle = false)) := by
  have current := manned.1.2
  refine (neutral_manned roster config takings c (c.isIdle = false)).ends_contend (current ▸ listed) manned
    (fun outcome => neutral_manned roster config takings c _) ?_
  intro s' outcome w p _ _ _ done manned
  rw [current] at done
  have quiet := milestone?_lock w.notices outcome.transition lock s.clock.now s.processor.current.id p
  cases outcome with
  | acquired =>
      exact ((manned.walked (effect_acquire done) (shrinks_acquire done)).told quiet).weaken And.right
  | blocked holder =>
      obtain ⟨⟨turning, current⟩, isOff⟩ := manned
      have free (busy : (roster.thread c.id).isIdle = false) : s'.Off c.id := isOff (listed ▸ busy)
      have single := turning.single.blocked (fun busy => (free busy).2) done
      have after := turning.housed.walked (effect_acquire done)
      refine ⟨⟨(turning.relined after rfl single fun j busy waits => ?_).told quiet, current⟩, nofun⟩
      rcases inLine_blocked done waits with waits | rfl
      · exact turning.apart j busy waits
      · exact (free busy).1

end Scheduler

end PriorityScheduler
