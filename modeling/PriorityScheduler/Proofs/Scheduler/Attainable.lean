import PriorityScheduler.Proofs.Scheduler.Placement

namespace PriorityScheduler

open PriorityScheduler.Action PriorityScheduler.Scheduler

/-- Who has which number. Nobody but main is the bootstrap thread. -/
structure Roster where
  thread : ThreadId → Thread
  main : thread .main = .main
  others : ∀ id, (thread id).isMain = true → id = .main

namespace Roster

variable {roster : Roster} {t : Thread}

def Lists (roster : Roster) (t : Thread) : Prop := roster.thread t.id = t

instance (roster : Roster) (t : Thread) : Decidable (roster.Lists t) := inferInstanceAs (Decidable (_ = _))

theorem lists_main (roster : Roster) : roster.Lists .main := roster.main

theorem Lists.isMain_iff (listed : roster.Lists t) : t.isMain = true ↔ t.id = .main := by
  constructor
  · intro main
    exact roster.others t.id (listed.symm ▸ main)
  · intro here
    have same : t = .main := by rw [← listed, here, roster.main]
    rw [same]
    rfl

theorem Lists.ne_main (listed : roster.Lists t) (ordinary : t.role = .ordinary) : t.id ≠ .main := by
  intro here
  have main := listed.isMain_iff.mpr here
  rw [Thread.isMain, ordinary] at main
  cases main

end Roster

def Roster.workers : Roster where
  thread id := if id = .main then .main else if id = ⟨1⟩ then ⟨id, "idle", .idle⟩ else ⟨id, "worker", .ordinary⟩
  main := rfl
  others id main := by
    split at main
    · assumption
    · split at main <;> cases main

namespace Scheduler

variable {roster : Roster} {config : Config} {s s' : Scheduler}

def Open (roster : Roster) (_ : Scheduler) : Input → Prop
  | .call call => ∀ t ∈ call.thread?, roster.Lists t
  | .clock time => time < Ticks.bound
  | .interrupts _ => True
  | .processor processor => roster.Lists processor.current

instance (roster : Roster) (s : Scheduler) (input : Input) : Decidable (Open roster s input) :=
  match input with
  | .call call => inferInstanceAs (Decidable (∀ t ∈ call.thread?, roster.Lists t))
  | .clock time => inferInstanceAs (Decidable (time < Ticks.bound))
  | .interrupts _ => isTrue trivial
  | .processor processor => inferInstanceAs (Decidable (roster.Lists processor.current))

inductive Attainable (roster : Roster) (config : Config) : Scheduler → Prop where
  | boot {s : Scheduler} (booted : s.Booted config) (listed : roster.Lists s.idle.thread)
      (early : s.clock.now < Ticks.bound) : Attainable roster config s
  | feed {s s' : Scheduler} {input : Input} (attainable : Attainable roster config s) (fits : Open roster s input)
      (fed : s.feed input = some s') : Attainable roster config s'

inductive Obeying (rule : Scheduler → Input → Prop) (roster : Roster) (config : Config) : Scheduler → Prop where
  | boot {s : Scheduler} (booted : s.Booted config) (listed : roster.Lists s.idle.thread)
      (early : s.clock.now < Ticks.bound) : Obeying rule roster config s
  | feed {s s' : Scheduler} {input : Input} (obeying : Obeying rule roster config s) (fits : Open roster s input)
      (obeys : rule s input) (fed : s.feed input = some s') : Obeying rule roster config s'

theorem Obeying.attainable {rule : Scheduler → Input → Prop} (obeying : s.Obeying rule roster config) :
    s.Attainable roster config := by
  induction obeying with
  | boot booted listed early => exact .boot booted listed early
  | feed _ fits _ fed ih => exact ih.feed fits fed

theorem Obeying.mono {rule rule' : Scheduler → Input → Prop} (obeying : s.Obeying rule roster config)
    (weaker : ∀ s input, rule s input → rule' s input) : s.Obeying rule' roster config := by
  induction obeying with
  | boot booted listed early => exact .boot booted listed early
  | feed _ fits obeys fed ih => exact ih.feed fits (weaker _ _ obeys) fed

/-- An open run in which every input obeys a rule, and what a watcher who saw it all remembers. -/
inductive Watched {α : Type} (start : α) (next : α → Scheduler → Input → Scheduler → α)
    (rule : Scheduler → Input → Prop) (roster : Roster) (config : Config) : α → Scheduler → Prop where
  | boot {s : Scheduler} (booted : s.Booted config) (listed : roster.Lists s.idle.thread)
      (early : s.clock.now < Ticks.bound) : Watched start next rule roster config start s
  | feed {memory : α} {s s' : Scheduler} {input : Input} (watched : Watched start next rule roster config memory s)
      (fits : Open roster s input) (obeys : rule s input) (fed : s.feed input = some s') :
      Watched start next rule roster config (next memory s input s') s'

section

variable {α β : Type} {start : α} {next : α → Scheduler → Input → Scheduler → α} {rule : Scheduler → Input → Prop}
  {memory : α}

theorem Watched.obeying (watched : s.Watched start next rule roster config memory) : s.Obeying rule roster config := by
  induction watched with
  | boot booted listed early => exact .boot booted listed early
  | feed _ fits obeys fed ih => exact ih.feed fits obeys fed

theorem Obeying.exists_watched (obeying : s.Obeying rule roster config) (start : α)
    (next : α → Scheduler → Input → Scheduler → α) : ∃ memory, s.Watched start next rule roster config memory := by
  induction obeying with
  | boot booted listed early => exact ⟨start, .boot booted listed early⟩
  | feed _ fits obeys fed ih =>
      obtain ⟨memory, watched⟩ := ih
      exact ⟨_, watched.feed fits obeys fed⟩

theorem Watched.map (watched : s.Watched start next rule roster config memory) (f : α → β)
    {next' : β → Scheduler → Input → Scheduler → β}
    (follows : ∀ memory s input s', f (next memory s input s') = next' (f memory) s input s') :
    s.Watched (f start) next' rule roster config (f memory) := by
  induction watched with
  | boot booted listed early => exact .boot booted listed early
  | feed _ fits obeys fed ih =>
      rw [follows]
      exact ih.feed fits obeys fed

end

def playWhile (fits : Scheduler → Input → Prop) [∀ s input, Decidable (fits s input)] :
    List Input → Scheduler → Option Scheduler
  | [], s => some s
  | input :: rest, s => if fits s input then (s.feed input).bind (playWhile fits rest) else none

theorem playWhile_induction {fits : Scheduler → Input → Prop} [∀ s input, Decidable (fits s input)]
    {inv : Scheduler → Prop} (step : ∀ {s s' input}, inv s → fits s input → s.feed input = some s' → inv s')
    {inputs : List Input} (start : inv s) (played : playWhile fits inputs s = some s') : inv s' := by
  induction inputs generalizing s with
  | nil =>
      cases played
      exact start
  | cons input rest ih =>
      rw [playWhile] at played
      split at played
      · rename_i fits
        obtain ⟨s₁, fed, played⟩ := Option.bind_eq_some_iff.mp played
        exact ih (step start fits fed) played
      · cases played

section

variable {rule : Scheduler → Input → Prop} [∀ s input, Decidable (rule s input)] {inputs : List Input}

theorem Obeying.play (obeying : s.Obeying rule roster config)
    (played : playWhile (fun s input => Open roster s input ∧ rule s input) inputs s = some s') :
    s'.Obeying rule roster config :=
  playWhile_induction (fun obeying fits fed => obeying.feed fits.1 fits.2 fed) obeying played

def openedUnder (rule : Scheduler → Input → Prop) [∀ s input, Decidable (rule s input)] (inputs : List Input) :
    Option Scheduler :=
  (boot {} (Roster.workers.thread ⟨1⟩) 0).value.toOption.bind
    (playWhile (fun s input => Open .workers s input ∧ rule s input) inputs)

theorem booted_workers (lowest : Priority.lowest ≤ config.mostUrgent) (highest : config.leastUrgent ≤ Priority.highest)
    (made : (boot config (Roster.workers.thread ⟨1⟩) 0).value.toOption = some s) :
    s.Booted config ∧ Roster.workers.Lists s.idle.thread ∧ s.clock.now < Ticks.bound := by
  have made := eq_ok_of_toOption made
  have booted : s.Booted config := ⟨lowest, highest, Roster.workers.thread ⟨1⟩, 0, rfl, made⟩
  have early : (0 : Ticks) < Ticks.bound := by decide
  unfold boot at made
  split at made
  · cases made
  · cases made
    exact ⟨booted, rfl, early⟩

theorem obeying_openedUnder (reached : openedUnder rule inputs = some s) : s.Obeying rule .workers {} := by
  obtain ⟨s₀, made, played⟩ := Option.bind_eq_some_iff.mp reached
  obtain ⟨booted, listed, early⟩ := booted_workers (by decide) (by decide) made
  exact (Obeying.boot booted listed early).play played

end

section

variable {α : Type} {next : α → Scheduler → Input → Scheduler → α} {rule : Scheduler → Input → Prop}
  [∀ s input, Decidable (rule s input)] {inputs : List Input}

/-- The scheduler after a list of inputs with the memory of a watcher, if all inputs fit, obey a rule and go through. -/
def playWatched (next : α → Scheduler → Input → Scheduler → α) (rule : Scheduler → Input → Prop)
    [∀ s input, Decidable (rule s input)] (roster : Roster) : List Input → α → Scheduler → Option (α × Scheduler)
  | [], memory, s => some (memory, s)
  | input :: rest, memory, s =>
      if Open roster s input ∧ rule s input then
        (s.feed input).bind fun s' => playWatched next rule roster rest (next memory s input s') s'
      else none

theorem Watched.play {start memory memory' : α} (watched : s.Watched start next rule roster config memory)
    (played : playWatched next rule roster inputs memory s = some (memory', s')) :
    s'.Watched start next rule roster config memory' := by
  induction inputs generalizing s memory with
  | nil =>
      cases played
      exact watched
  | cons input rest ih =>
      rw [playWatched] at played
      split at played
      · rename_i both
        obtain ⟨s₁, fed, played⟩ := Option.bind_eq_some_iff.mp played
        exact ih (watched.feed both.1 both.2 fed) played
      · cases played

def watchedUnder (config : Config) (start : α) (next : α → Scheduler → Input → Scheduler → α)
    (rule : Scheduler → Input → Prop) [∀ s input, Decidable (rule s input)] (inputs : List Input) : Option (α × Scheduler) :=
  (boot config (Roster.workers.thread ⟨1⟩) 0).value.toOption.bind (playWatched next rule .workers inputs start)

theorem watched_watchedUnder {start memory : α} (lowest : Priority.lowest ≤ config.mostUrgent)
    (highest : config.leastUrgent ≤ Priority.highest)
    (reached : watchedUnder config start next rule inputs = some (memory, s)) :
    s.Watched start next rule .workers config memory := by
  obtain ⟨s₀, made, played⟩ := Option.bind_eq_some_iff.mp reached
  obtain ⟨booted, listed, early⟩ := booted_workers lowest highest made
  exact (Watched.boot booted listed early).play played

end

def opened (inputs : List Input) : Option Scheduler := openedUnder (fun _ _ => True) inputs

theorem attainable_opened {inputs : List Input} (reached : opened inputs = some s) : s.Attainable .workers {} :=
  (obeying_openedUnder reached).attainable

/-- A property of admissions and placements that lasts while threads join queues and leave them. -/
structure Durable (roster : Roster) (good : List ThreadId → Placement → Prop) : Prop where
  join : ∀ {ids : List ThreadId} {p : Placement} {t : Thread} (queue : QueueId), roster.Lists t → good ids p →
    good (ids ++ [t.id]) (p.join t.id queue)
  leave : ∀ {ids : List ThreadId} {p : Placement} (id : ThreadId) (queue : QueueId), good ids p → good ids (p.leave id queue)
  unseat : ∀ {ids : List ThreadId} {p : Placement} (id : ThreadId), good ids p → good ids (p.unseat id)

theorem durable_true (roster : Roster) : Durable roster fun _ _ => True :=
  ⟨fun _ _ _ => trivial, fun _ _ _ => trivial, fun _ _ => trivial⟩

def Crewed (roster : Roster) (config : Config) (good : List ThreadId → Placement → Prop) (s : Scheduler) : Prop :=
  Dwelling roster.Lists config good s ∧ roster.Lists s.processor.current ∧ roster.Lists s.idle.thread

def Staffed (roster : Roster) (config : Config) (s : Scheduler) : Prop :=
  Dwelling roster.Lists config (fun _ _ => True) s ∧ roster.Lists s.processor.current ∧ roster.Lists s.idle.thread

section

variable {good : List ThreadId → Placement → Prop} (durable : Durable roster good)

include durable in
theorem Durable.joinable (target : QueueId) : Joinable roster.Lists target good where
  mains _ listed := listed.isMain_iff
  join listed before := durable.join target listed before

include durable in
theorem kept_crewed (config : Config) (target : QueueId) : Kept roster.Lists target (Crewed roster config good) :=
  (kept_placement roster.lists_main (durable.joinable target)).beside fun current idle _ =>
    roster.Lists current ∧ roster.Lists idle

theorem dispatched_crewed (roster : Roster) (config : Config) (good : List ThreadId → Placement → Prop) :
    Dispatched (Crewed roster config good) where
  quiet same crewed :=
    ⟨(bookkept_placement good).quiet same crewed.1, same.current ▸ crewed.2.1, same.idle ▸ crewed.2.2⟩
  told silent crewed := ⟨(bookkept_placement good).told silent crewed.1, crewed.2⟩
  dispatched p busy known charged crewed := by
    have dwelling := (accounted_placement _).dispatched p busy known charged crewed.1
    obtain ⟨threads, rfl, -⟩ := charged.exists_threads
    exact ⟨dwelling, crewed.2⟩
  interrupted interrupts crewed :=
    ⟨(dispatched_placement roster.lists_main good).interrupted interrupts crewed.1, crewed.2⟩
  switched {s next} known crewed := by
    refine ⟨(dispatched_placement roster.lists_main _).switched known crewed.1, ?_, crewed.2.2⟩
    rcases known with ⟨id, known⟩ | rfl
    · exact (crewed.1.1.registered.thread? roster.lists_main known).2
    · exact crewed.2.2

include durable in
theorem Crewed.left (crewed : s.Crewed roster config good) (id : ThreadId) : (s.left id).Crewed roster config good := by
  obtain ⟨housed, placed⟩ := crewed.1.1.left id
  obtain ⟨queues, threads, left, -⟩ := s.exists_left id
  have admitted : (s.left id).admitted = s.admitted := by
    rw [left]
    rfl
  refine ⟨⟨housed, ?_⟩, ?_⟩
  · rw [admitted, placed]
    cases s.threads.seat? id with
    | none => exact crewed.1.2
    | some queue => exact durable.leave id queue crewed.1.2
  · rw [left]
    exact crewed.2

include durable in
theorem Crewed.retired (crewed : s.Crewed roster config good) (id : ThreadId) :
    ({ s with threads := s.threads.remove id } : Scheduler).Crewed roster config good := by
  obtain ⟨housed, placed⟩ := crewed.1.1.retired id
  refine ⟨⟨housed, ?_⟩, crewed.2⟩
  rw [placed]
  exact durable.unseat id crewed.1.2

include durable in
theorem Crewed.selected {queue : QueueId} {q : WaitQueue} {n : Noted (Selection WaitQueue)}
    (crewed : s.Crewed roster config good) (found : s.queues.get? queue = some q)
    (taken : q.next s.threads s.clock.now = .ok n) : (s.selected queue n).Crewed roster config good := by
  obtain ⟨housed, -, placed⟩ := crewed.1.1.selected found taken
  refine ⟨⟨housed, ?_⟩, crewed.2⟩
  rw [placed]
  cases n.value.next with
  | none => exact crewed.1.2
  | some id => exact durable.leave id queue crewed.1.2

include durable in
theorem ends_crewed {call : Call} (listed : ∀ t ∈ call.thread?, roster.Lists t) (crewed : s.Crewed roster config good) :
    Ends call.action s (fun _ => Crewed roster config good) (Crewed roster config good) := by
  refine ends_call listed (kept_crewed durable config call.target) id (dispatched_crewed roster config good) ?_
    (fun _ => crewed.2.1) ?_ (fun _ after _ => after) (fun _ after => after.selected durable) crewed
  · intro lock s' outcome w _ _ _ _ done after
    exact ⟨after.1.walked (effect_acquire done), after.2⟩
  · rintro rfl
    have kept := kept_crewed durable config .ready
    have masked : s.masked.Crewed roster config good := kept.interrupted _ crewed
    refine kept.ends_depart kept.toBookkept id ⟨masked.1.walked (effect_withdraw _ _ _), masked.2⟩
      (fun after => after.left durable _) fun after => ?_
    exact ends_retire kept.toBookkept _ (fun crewed => ⟨crewed.1.told rfl, crewed.2⟩) (fun _ => after) (after.retired durable _)

include durable in
theorem Crewed.feed {input : Input} (crewed : s.Crewed roster config good) (fits : Open roster s input)
    (fed : s.feed input = some s') : s'.Crewed roster config good := by
  cases input with
  | call call => exact of_perform (ends_crewed durable fits crewed) fed
  | clock time =>
      cases fed
      exact ⟨crewed.1.still rfl rfl rfl rfl rfl rfl, crewed.2⟩
  | interrupts interrupts =>
      cases fed
      exact (kept_crewed durable config .ready).interrupted interrupts crewed
  | processor processor =>
      cases fed
      have registered : ({ s with processor } : Scheduler).Registered roster.Lists config :=
        ⟨crewed.1.1.registered.configured, crewed.1.1.registered.filed, .inl fits, crewed.1.1.registered.idling⟩
      exact ⟨crewed.1.congr rfl (crewed.1.1.still registered rfl rfl fun _ => rfl), fits, crewed.2.2⟩

end

theorem joinable_true (roster : Roster) (target : QueueId) : Joinable roster.Lists target fun _ _ => True :=
  (durable_true roster).joinable target

theorem kept_staffed (roster : Roster) (config : Config) (target : QueueId) :
    Kept roster.Lists target (Staffed roster config) := kept_crewed (durable_true roster) config target

theorem dispatched_staffed (roster : Roster) (config : Config) : Dispatched (Staffed roster config) :=
  dispatched_crewed roster config _

theorem Staffed.left (staffed : s.Staffed roster config) (id : ThreadId) : (s.left id).Staffed roster config :=
  Crewed.left (durable_true roster) staffed id

theorem Staffed.retired (staffed : s.Staffed roster config) (id : ThreadId) :
    ({ s with threads := s.threads.remove id } : Scheduler).Staffed roster config :=
  Crewed.retired (durable_true roster) staffed id

theorem Staffed.selected {queue : QueueId} {q : WaitQueue} {n : Noted (Selection WaitQueue)}
    (staffed : s.Staffed roster config) (found : s.queues.get? queue = some q)
    (taken : q.next s.threads s.clock.now = .ok n) : (s.selected queue n).Staffed roster config :=
  Crewed.selected (durable_true roster) staffed found taken

theorem Booted.staffed (booted : s.Booted config) (listed : roster.Lists s.idle.thread) : s.Staffed roster config := by
  have get? := booted.get?_queues
  have known := @Booted.queue config s booted
  obtain ⟨idle, start, idling, rfl⟩ := booted.eq
  refine ⟨⟨⟨⟨rfl, fun id state found => ?_, .inl roster.main, idling⟩, fun queue q found => ?_, fun queue found => ?_, ?_,
    fun id queue sits => ?_⟩, trivial⟩, roster.main, listed⟩
  · cases (SortedMap.get?_empty id).symm.trans found
  · obtain ⟨rfl, rfl⟩ := known found
    exact ⟨rfl, WaitQueue.settled_new .ready false config _ _⟩
  · obtain ⟨q, found⟩ := Option.isSome_iff_exists.mp found
    rw [(known found).1]
    exact Nat.zero_lt_one
  · rw [get?, if_pos rfl]
    rfl
  · cases sits

theorem staffed_of_attainable (attainable : s.Attainable roster config) : s.Staffed roster config := by
  induction attainable with
  | boot booted listed _ => exact booted.staffed listed
  | feed _ fits fed ih => exact Crewed.feed (durable_true roster) ih fits fed

end Scheduler

end PriorityScheduler
