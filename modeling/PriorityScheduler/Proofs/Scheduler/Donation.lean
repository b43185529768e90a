import PriorityScheduler.Proofs.Locks.Aging
import PriorityScheduler.Proofs.Locks.Runs
import PriorityScheduler.Proofs.Scheduler.Awake

namespace PriorityScheduler

open PriorityScheduler.Action PriorityScheduler.Scheduler

namespace Scheduler

variable {config : Config} {s s' : Scheduler}

structure Orderly (config : Config) (s : Scheduler) : Prop where
  sound : Sound s.locks s.threads
  on : s.locks.donation = true
  configured : s.threads.config = config
  inRange : ∀ id state, s.threads.get? id = some state → config.inRange state.base = true

theorem inRange_of_matches {a b : ThreadRegistry} {view : ThreadState → ThreadState}
    (same : ThreadRegistry.Matches view a b) (shown : ∀ s, (view s).base = s.base)
    (inRange : ∀ id state, a.get? id = some state → config.inRange state.base = true) :
    ∀ id state, b.get? id = some state → config.inRange state.base = true := by
  intro id state found
  obtain ⟨state', before, equal⟩ := same.exists_view found
  rw [← shown, ← equal, shown]
  exact inRange id state' before

namespace Orderly

theorem congr (orderly : s.Orderly config) (threads : s'.threads = s.threads) (locks : s'.locks = s.locks) :
    s'.Orderly config where
  sound := by
    rw [threads, locks]
    exact orderly.sound
  on := locks ▸ orderly.on
  configured := threads ▸ orderly.configured
  inRange := by
    rw [threads]
    exact orderly.inRange

theorem unseen (orderly : s.Orderly config) (threads : s.threads.Unseen s'.threads) (locks : s'.locks = s.locks) :
    s'.Orderly config where
  sound := by
    rw [locks]
    exact sound_unseen orderly.sound threads
  on := locks ▸ orderly.on
  configured := threads.config.trans orderly.configured
  inRange := inRange_of_matches threads (fun _ => rfl) orderly.inRange

theorem follow {w : Walk} (orderly : s.Orderly config) (effect : Effect s.locks s.threads w)
    (sound : Sound w.locks w.threads) (ids : List ThreadId) : (s.follow w ids).Orderly config where
  sound := sound
  on := effect.donation.trans orderly.on
  configured := effect.kin.config.trans orderly.configured
  inRange := inRange_of_matches effect.kin (fun _ => rfl) orderly.inRange

theorem repriced {id : ThreadId} {state : ThreadState} {c : Change} (orderly : s.Orderly config)
    (found : s.threads.get? id = some state) (repriced : state.Repriced s.threads.config c) (ids : List ThreadId) :
    (s.follow (s.locks.reprice id c s.threads) ids).Orderly config where
  sound := sound_reprice orderly.sound found repriced
  on := (effect_reprice s.locks id c s.threads).donation.trans orderly.on
  configured := (effect_reprice s.locks id c s.threads).kin.config.trans orderly.configured
  inRange := by
    apply inRange_of_matches (effect_reprice s.locks id c s.threads).kin (fun _ => rfl)
    intro j state' found'
    rw [ThreadRegistry.get?_put] at found'
    split at found'
    · cases found'
      rw [← orderly.configured]
      exact repriced.inRange (orderly.configured ▸ orderly.inRange id state found)
    · exact orderly.inRange j state' found'

theorem ensured {thread : Thread} (orderly : s.Orderly config) (initial : config.inRange config.initial = true)
    (absent : s.threads.get? thread.id = none) :
    ({ s with threads := s.threads.put thread.id (.new thread s.threads.config.initial) } : Scheduler).Orderly config where
  sound := sound_made orderly.sound absent
  on := orderly.on
  configured := orderly.configured
  inRange j state found := by
    rw [ThreadRegistry.get?_put] at found
    split at found
    · cases found
      rw [orderly.configured]
      exact initial
    · exact orderly.inRange j state found

end Orderly

theorem kept_orderly (initial : config.inRange config.initial = true) (target : QueueId) :
    Kept (fun _ => True) target (Orderly config) where
  quiet same orderly := orderly.congr same.threads same.locks
  told _ orderly := orderly.congr rfl rfl
  known _ _ := trivial
  ensured _ absent orderly := orderly.ensured initial absent
  joined _ _ found _ _ orderly := orderly.unseen (.put found rfl) rfl
  running _ _ := trivial
  interrupted _ orderly := orderly.congr rfl rfl
  repriced found repriced orderly := orderly.repriced found repriced _
  claimed _ orderly := orderly.congr rfl rfl
  queueMade orderly := orderly.congr rfl rfl
  lockMade orderly := ⟨sound_create orderly.sound, orderly.on, orderly.configured, orderly.inRange⟩
  emitted orderly := orderly.congr rfl rfl
  released done orderly := orderly.follow (effect_release done) (sound_release orderly.sound done) _

theorem ends_depart_orderly (initial : config.inRange config.initial = true) (orderly : s.Orderly config) :
    Ends depart s (fun _ => Orderly config) (Orderly config) := by
  have kept := kept_orderly initial .ready
  let id := s.processor.current.id
  refine (ends_depart_awake kept.toLockless (fun orderly => orderly.sound.linked) ?_ ?_ ?_
    (fun orderly => orderly.congr rfl rfl) ?_).imp (fun _ _ => And.left) fun _ => And.left
  · exact orderly.follow (effect_withdraw s.locks id s.threads) (sound_withdraw orderly.sound id) _
  · intro s' lock next w time p _ done orderly
    exact kept.handedOver _ (kept.released done orderly)
  · intro s' orderly
    exact orderly.unseen (s'.unseen_left id) (s'.locks_left id)
  · intro s' orderly awake
    refine ⟨sound_retired orderly.sound awake.1 awake.2, orderly.on, orderly.configured, fun j state found => ?_⟩
    rw [ThreadRegistry.get?_remove] at found
    split at found
    · cases found
    · exact orderly.inRange j state found

end Scheduler

end PriorityScheduler
