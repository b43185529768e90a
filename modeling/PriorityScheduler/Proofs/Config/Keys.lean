import PriorityScheduler.Config.Reader
import PriorityScheduler.Proofs.Text.Grammar

namespace PriorityScheduler.Config

open Text

/-- A reading yields the value that is spelled, and one complaint where there is none. -/
structure Reads {α : Type} (result : Except Error α) (spelled : α → Prop) (complaint : Error) : Prop where
  accepts : ∀ x, result = .ok x ↔ spelled x
  refuses : ∀ e, result = .error e ↔ (∀ x, ¬ spelled x) ∧ e = complaint

section Reads

variable {α β : Type} {result : Except Error α} {spelled : α → Prop} {complaint : Error}

theorem reads_ok {x : α} (only : ∀ y, x = y ↔ spelled y) : Reads (.ok x) spelled complaint := by
  constructor
  · simpa using only
  · intro e
    exact iff_of_false nofun fun ⟨nothing, _⟩ => nothing x ((only x).mp rfl)

theorem reads_error (nothing : ∀ x, ¬ spelled x) : Reads (.error complaint) spelled complaint := by
  constructor
  · exact fun x => iff_of_false nofun (nothing x)
  · intro e
    simp [nothing, eq_comm]

theorem reads_option {found : Option α} (spells : ∀ x, found = some x ↔ spelled x)
    (yields : ∀ x ∈ found, result = .ok x) (fails : found = none → result = .error complaint) :
    Reads result spelled complaint := by
  cases found with
  | none =>
      rw [fails rfl]
      exact reads_error fun x => by simp [← spells]
  | some x =>
      rw [yields x rfl]
      exact reads_ok fun y => by simp [← spells]

theorem Reads.congr {spelled' : α → Prop} (reads : Reads result spelled complaint) (same : ∀ x, spelled x ↔ spelled' x) :
    Reads result spelled' complaint := by
  obtain rfl : spelled = spelled' := funext fun x => propext (same x)
  exact reads

theorem Reads.bind {f : α → Except Error β} {follows : α → β → Prop} (reads : Reads result spelled complaint)
    (next : ∀ x, Reads (f x) (follows x) complaint) :
    Reads (result >>= f) (fun y => ∃ x, spelled x ∧ follows x y) complaint := by
  cases result with
  | error e =>
      obtain ⟨nothing, rfl⟩ := (reads.refuses e).mp rfl
      exact reads_error fun _ ⟨x, spells, _⟩ => nothing x spells
  | ok x =>
      have only (y : β) : follows x y ↔ ∃ x, spelled x ∧ follows x y := by simp [← reads.accepts]
      exact (next x).congr only

theorem Reads.map (reads : Reads result spelled complaint) (f : α → β) :
    Reads (result.map f) (fun y => ∃ x, spelled x ∧ f x = y) complaint := by
  have bound : result.map f = result >>= fun x => .ok (f x) := by cases result <;> rfl
  rw [bound]
  exact reads.bind fun x => reads_ok fun y => Iff.rfl

theorem Reads.unique {x y : α} (reads : Reads result spelled complaint) (left : spelled x) (right : spelled y) : x = y :=
  Except.ok.inj (((reads.accepts x).mpr left).symm.trans ((reads.accepts y).mpr right))

end Reads

def policyWords : Policy → List String
  | .strict => ["strict", "static"]
  | .aging => ["aging", "dynamic"]
  | .multilevel => ["multilevel", "mlfq"]

def switchWords : Bool → List String
  | true => ["true", "1", "yes", "on"]
  | false => ["false", "0", "no", "off"]

def Count (text : List Char) (n : Nat) : Prop := Unsigned text n ∧ n < Ticks.bound

def Number (text : List Char) (p : Priority) : Prop := Signed text p ∧ Priority.lowest ≤ p ∧ p ≤ Priority.highest

def Bands (text : List Char) (limits : BandLimits) : Prop :=
  ∃ low high, text = low ++ ',' :: high ∧ ',' ∉ low ∧
    (∃ core, Trimmed low core ∧ Number core limits.hot) ∧ ∃ core, Trimmed high core ∧ Number core limits.normal

namespace Key

def Value : Key → Type
  | .policy => Policy
  | .agingTime => Ticks
  | .minPriority => Priority
  | .maxPriority => Priority
  | .defaultPriority => Priority
  | .donation => Bool
  | .bandLimits => BandLimits
  | .threadCount => Nat

def Spells : (key : Key) → List Char → key.Value → Prop
  | .policy, text, kind => String.ofList (lowerAscii text) ∈ policyWords kind
  | .agingTime, text, n => Count text n
  | .minPriority, text, p => Number text p
  | .maxPriority, text, p => Number text p
  | .defaultPriority, text, p => Number text p
  | .donation, text, on => String.ofList text ∈ switchWords on
  | .bandLimits, text, limits => Bands text limits
  | .threadCount, text, n => Count text n

def complaint (key : Key) (text : List Char) : Error :=
  match key with
  | .policy => .invalidConfig "unknown scheduler.policy"
  | .donation => .invalidConfig "expected a boolean"
  | .bandLimits =>
      if ',' ∈ text then .invalidConfig "expected a number" else .invalidConfig "scheduler.bandLimits expects `low,high`"
  | _ => .invalidConfig "expected a number"

end Key

def get (c : Config) : (key : Key) → key.Value
  | .policy => c.policy
  | .agingTime => c.agingInterval
  | .minPriority => c.mostUrgent
  | .maxPriority => c.leastUrgent
  | .defaultPriority => c.initial
  | .donation => c.donation
  | .bandLimits => c.bandLimits
  | .threadCount => c.capacity

def put (c : Config) : (key : Key) → key.Value → Config
  | .policy, policy => { c with policy }
  | .agingTime, agingInterval => { c with agingInterval }
  | .minPriority, mostUrgent => { c with mostUrgent }
  | .maxPriority, leastUrgent => { c with leastUrgent }
  | .defaultPriority, initial => { c with initial }
  | .donation, donation => { c with donation }
  | .bandLimits, bandLimits => { c with bandLimits }
  | .threadCount, capacity => { c with capacity }

variable {c c' : Config} {key other : Key} {text : List Char}

theorem get_put_eq (c : Config) (key other : Key) (x : key.Value) :
    (c.put key x).get other = if same : other = key then same ▸ x else c.get other := by
  cases key <;> cases other <;> rfl

@[simp]
theorem get_put (c : Config) (key : Key) (x : key.Value) : (c.put key x).get key = x := by
  rw [get_put_eq, dif_pos rfl]

theorem get_put_of_ne (x : key.Value) (apart : other ≠ key) : (c.put key x).get other = c.get other := by
  rw [get_put_eq, dif_neg apart]

theorem ext_get (same : ∀ key, c.get key = c'.get key) : c = c' := by
  have policy : c.policy = c'.policy := same .policy
  have agingInterval : c.agingInterval = c'.agingInterval := same .agingTime
  have mostUrgent : c.mostUrgent = c'.mostUrgent := same .minPriority
  have leastUrgent : c.leastUrgent = c'.leastUrgent := same .maxPriority
  have initial : c.initial = c'.initial := same .defaultPriority
  have donation : c.donation = c'.donation := same .donation
  have bandLimits : c.bandLimits = c'.bandLimits := same .bandLimits
  have capacity : c.capacity = c'.capacity := same .threadCount
  cases c
  cases c'
  congr

theorem policy_reads (still : trim text = text) :
    Reads (Policy.read text) (fun kind => String.ofList (lowerAscii text) ∈ policyWords kind)
      (.invalidConfig "unknown scheduler.policy") := by
  unfold Policy.read
  rw [still]
  generalize String.ofList (lowerAscii text) = word
  simp only [Bool.or_eq_true, decide_eq_true_eq]
  split_ifs with strict aging multilevel
  · apply reads_ok
    rcases strict with rfl | rfl <;> rintro ⟨⟩ <;> decide
  · apply reads_ok
    rcases aging with rfl | rfl <;> rintro ⟨⟩ <;> decide
  · apply reads_ok
    rcases multilevel with rfl | rfl <;> rintro ⟨⟩ <;> decide
  · apply reads_error
    intro kind
    cases kind with
    | strict => simpa [policyWords] using strict
    | aging => simpa [policyWords] using aging
    | multilevel => simpa [policyWords] using multilevel

theorem switch_reads (text : List Char) :
    Reads (readSwitch text) (fun on => String.ofList text ∈ switchWords on) (.invalidConfig "expected a boolean") := by
  unfold readSwitch
  generalize String.ofList text = word
  dsimp only
  split_ifs with on off
  · apply reads_ok
    simp only [List.mem_cons, List.not_mem_nil, or_false] at on
    rcases on with rfl | rfl | rfl | rfl <;> decide
  · apply reads_ok
    simp only [List.mem_cons, List.not_mem_nil, or_false] at off
    rcases off with rfl | rfl | rfl | rfl <;> decide
  · apply reads_error
    intro switch
    cases switch with
    | true => exact on
    | false => exact off

theorem count_reads (text : List Char) : Reads (readCount text) (Count text) (.invalidConfig "expected a number") := by
  apply reads_option fun n => unsigned?_eq_some_iff
  · intro n found
    rw [readCount, Option.mem_def.mp found]
  · intro missing
    rw [readCount, missing]

theorem number_reads (text : List Char) : Reads (readPriority text) (Number text) (.invalidConfig "expected a number") := by
  apply reads_option fun p => signed?_eq_some_iff
  · intro p found
    rw [readPriority, Option.mem_def.mp found]
  · intro missing
    rw [readPriority, missing]

theorem bands_iff {low high : List Char} {limits : BandLimits} (absent : ',' ∉ low) :
    Bands (low ++ ',' :: high) limits ↔ Number (trim low) limits.hot ∧ Number (trim high) limits.normal := by
  constructor
  · rintro ⟨low', high', same, absent', ⟨hot, around, spells⟩, ⟨normal, around', spells'⟩⟩
    have split : splitFirst? ',' (low ++ ',' :: high) = some (low, high) := splitFirst?_eq_some_iff.mpr ⟨rfl, absent⟩
    rw [splitFirst?_eq_some_iff.mpr ⟨same, absent'⟩] at split
    cases split
    rw [trim_eq_iff.mpr around, trim_eq_iff.mpr around']
    exact ⟨spells, spells'⟩
  · rintro ⟨spells, spells'⟩
    exact ⟨low, high, rfl, absent, ⟨_, trimmed_trim low, spells⟩, _, trimmed_trim high, spells'⟩

theorem bands_reads (text : List Char) : Reads (readBands text) (Bands text) (Key.bandLimits.complaint text) := by
  cases split : splitFirst? ',' text with
  | none =>
      have absent : ',' ∉ text := splitFirst?_eq_none.mp split
      rw [readBands, split, Key.complaint, if_neg absent]
      apply reads_error
      rintro limits ⟨low, high, rfl, -⟩
      simp at absent
  | some parts =>
      obtain ⟨low, high⟩ := parts
      obtain ⟨rfl, absent⟩ := splitFirst?_eq_some_iff.mp split
      rw [readBands, split, Key.complaint, if_pos (by simp)]
      have reads := (number_reads (trim low)).bind fun hot =>
        (number_reads (trim high)).bind fun normal => reads_ok (x := BandLimits.mk hot normal) fun limits => Iff.rfl
      apply reads.congr
      rintro ⟨hot, normal⟩
      rw [bands_iff absent]
      simp

theorem set_reads (c : Config) (key : Key) (still : trim text = text) :
    Reads (c.set key text) (fun c' => ∃ x, key.Spells text x ∧ c.put key x = c') (key.complaint text) := by
  cases key with
  | policy => exact (policy_reads still).map (c.put .policy)
  | agingTime => exact (count_reads text).map (c.put .agingTime)
  | minPriority => exact (number_reads text).map (c.put .minPriority)
  | maxPriority => exact (number_reads text).map (c.put .maxPriority)
  | defaultPriority => exact (number_reads text).map (c.put .defaultPriority)
  | donation => exact (switch_reads text).map (c.put .donation)
  | bandLimits => exact (bands_reads text).map (c.put .bandLimits)
  | threadCount => exact (count_reads text).map (c.put .threadCount)

end PriorityScheduler.Config
