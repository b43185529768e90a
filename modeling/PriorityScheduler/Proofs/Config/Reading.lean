import PriorityScheduler.Proofs.Config.Keys

/-!
# What a configuration text says

The grammar of a configuration text, line by line, and the configuration that it tells: every known key holds the last of its
values, and without any the default. Reading accepts exactly the texts whose lines are all sound and whose configuration is
consistent; only the finished configuration is checked. Otherwise the first offending line decides the error.

Main statements: `readLines_eq_ok_iff`, `readLines_eq_error_iff` and `read_value`.
-/

namespace PriorityScheduler.Config

open Text

variable {c c' : Config} {key other : Key} {text name value line : List Char} {e : Error}

/-! ## Lines -/

/-- What a line says: the part before the comment, without the blanks around it. -/
def Content (line text : List Char) : Prop := ∃ part, Ahead '#' line part ∧ Trimmed part text

def Entry (text name value : List Char) : Prop :=
  ∃ left right, text = left ++ '=' :: right ∧ '=' ∉ left ∧ Trimmed left name ∧ Trimmed right value

def Formed (line : List Char) : Prop := ∀ text, Content line text → text ≠ [] → ∃ name value, Entry text name value

def Assigns (line : List Char) (key : Key) (value : List Char) : Prop :=
  ∃ text, Content line text ∧ Entry text key.name.toList value

structure Sound (line : List Char) : Prop where
  formed : Formed line
  spelled : ∀ key value, Assigns line key value → ∃ x, key.Spells value x

inductive Offends (line : List Char) : Error → Prop where
  | shape {text : List Char} (content : Content line text) (nonempty : text ≠ [])
      (shapeless : ∀ name value, ¬ Entry text name value) : Offends line (.invalidConfig "expected `key = value`")
  | value {key : Key} {value : List Char} (assigns : Assigns line key value) (unspelled : ∀ x, ¬ key.Spells value x) :
      Offends line (key.complaint value)

theorem content_iff : Content line text ↔ significant line = text := by
  constructor
  · rintro ⟨part, ahead, trimmed⟩
    rw [significant, before_eq_iff.mpr ahead, trim_eq_iff.mpr trimmed]
  · rintro rfl
    exact ⟨_, ahead_before '#' line, trimmed_trim _⟩

theorem entry?_eq_some_iff : entry? text = some (name, value) ↔ Entry text name value := by
  constructor
  · intro found
    obtain ⟨⟨left, right⟩, split, same⟩ := Option.map_eq_some_iff.mp found
    cases same
    obtain ⟨parts, absent⟩ := splitFirst?_eq_some_iff.mp split
    exact ⟨left, right, parts, absent, trimmed_trim left, trimmed_trim right⟩
  · rintro ⟨left, right, parts, absent, trimmed, trimmed'⟩
    unfold entry?
    rw [splitFirst?_eq_some_iff.mpr ⟨parts, absent⟩, ← trim_eq_iff.mpr trimmed, ← trim_eq_iff.mpr trimmed']
    rfl

theorem Entry.ne_nil (entry : Entry text name value) : text ≠ [] := by
  obtain ⟨left, right, rfl, -⟩ := entry
  simp

theorem formed_iff : Formed line ↔ significant line = [] ∨ (significant line |> entry?).isSome := by
  unfold Formed
  simp only [content_iff, forall_eq', ← entry?_eq_some_iff, Option.isSome_iff_exists, Prod.exists, or_iff_not_imp_left, ne_eq]

instance : DecidablePred Formed := fun _ => decidable_of_iff _ formed_iff.symm

theorem Assigns.still (assigns : Assigns line key value) : trim value = value := by
  obtain ⟨_, _, _, right, _, _, _, trimmed⟩ := assigns
  rw [← trim_eq_iff.mpr trimmed, trim_trim]

theorem ofText?_eq_some_iff : Key.ofText? name = some key ↔ name = key.name.toList := by
  constructor
  · intro found
    have same := List.find?_some found
    exact (beq_iff_eq.mp same).symm
  · rintro rfl
    cases key <;> rfl

def assignment? (line : List Char) : Option (Key × List Char) :=
  entry? (significant line) >>= fun (name, value) => (Key.ofText? name).map (·, value)

theorem assigns_iff : Assigns line key value ↔ assignment? line = some (key, value) := by
  simp only [Assigns, content_iff, exists_eq_left', ← entry?_eq_some_iff, assignment?, Option.bind_eq_bind,
    Option.bind_eq_some_iff, Prod.exists, Option.map_eq_some_iff, ofText?_eq_some_iff, Prod.mk.injEq]
  grind

theorem Assigns.unique {value' : List Char} (left : Assigns line key value) (right : Assigns line other value') :
    key = other ∧ value = value' := by
  have both := (assigns_iff.mp left).symm.trans (assigns_iff.mp right)
  simpa using both

theorem Assigns.sound {x : key.Value} (assigns : Assigns line key value) (spells : key.Spells value x) : Sound line := by
  constructor
  · obtain ⟨text, content, entry⟩ := assigns
    intro text' content' _
    obtain rfl : text = text' := (content_iff.mp content).symm.trans (content_iff.mp content')
    exact ⟨_, _, entry⟩
  · intro other value' assigns'
    obtain ⟨rfl, rfl⟩ := assigns.unique assigns'
    exact ⟨x, spells⟩

theorem Sound.not_offends (sound : Sound line) : ¬ Offends line e := by
  intro offends
  cases offends with
  | shape content nonempty shapeless =>
      obtain ⟨name, value, entry⟩ := sound.formed _ content nonempty
      exact shapeless name value entry
  | value assigns unspelled =>
      obtain ⟨x, spells⟩ := sound.spelled _ _ assigns
      exact unspelled x spells

theorem line_cases (line : List Char) : (Sound line ∧ ∀ key value, ¬ Assigns line key value) ∨
    (∃ key value x, Assigns line key value ∧ key.Spells value x) ∨ ∃ e, Offends line e := by
  by_cases assigned : ∃ key value, Assigns line key value
  · obtain ⟨key, value, assigns⟩ := assigned
    by_cases spelled : ∃ x, key.Spells value x
    · obtain ⟨x, spells⟩ := spelled
      exact .inr (.inl ⟨key, value, x, assigns, spells⟩)
    · exact .inr (.inr ⟨_, .value assigns (not_exists.mp spelled)⟩)
  · have silent (key : Key) (value : List Char) : ¬ Assigns line key value := fun assigns => assigned ⟨key, value, assigns⟩
    by_cases formed : Formed line
    · exact .inl ⟨⟨formed, fun key value assigns => absurd assigns (silent key value)⟩, silent⟩
    · unfold Formed at formed
      push Not at formed
      obtain ⟨text, content, nonempty, shapeless⟩ := formed
      exact .inr (.inr ⟨_, .shape content nonempty shapeless⟩)

variable {rest lines lines' values : List (List Char)}

theorem readLines_silent (sound : Sound line) (silent : ∀ key value, ¬ Assigns line key value) :
    (readLines (line :: rest) c).value = (readLines rest c).value := by
  rw [readLines]
  dsimp only
  split_ifs with empty
  · rfl
  · obtain ⟨name, value, entry⟩ := sound.formed _ (content_iff.mpr rfl) (by simpa using empty)
    rw [entry?_eq_some_iff.mpr entry]
    dsimp only
    cases known : Key.ofText? name with
    | none => rfl
    | some key =>
        rw [ofText?_eq_some_iff.mp known] at entry
        exact absurd ⟨_, content_iff.mpr rfl, entry⟩ (silent key value)

theorem readLines_assigns (assigns : Assigns line key value) :
    (∀ c', c.set key value = .ok c' → readLines (line :: rest) c = readLines rest c') ∧
      ∀ e, c.set key value = .error e → readLines (line :: rest) c = ⟨.error e, []⟩ := by
  obtain ⟨text, content, entry⟩ := assigns
  have nonempty : text.isEmpty = false := by simpa using entry.ne_nil
  have known : Key.ofText? key.name.toList = some key := ofText?_eq_some_iff.mpr rfl
  rw [readLines]
  dsimp only
  rw [content_iff.mp content, nonempty, entry?_eq_some_iff.mpr entry, if_neg Bool.false_ne_true]
  simp only [known]
  constructor
  · intro c' accepted
    rw [accepted]
  · intro e refused
    rw [refused]

theorem readLines_spelled {x : key.Value} (assigns : Assigns line key value) (spells : key.Spells value x) :
    readLines (line :: rest) c = readLines rest (c.put key x) := by
  apply (readLines_assigns assigns).1
  exact ((set_reads c key assigns.still).accepts _).mpr ⟨x, spells, rfl⟩

theorem readLines_offends (offends : Offends line e) : (readLines (line :: rest) c).value = .error e := by
  cases offends with
  | @shape text content nonempty shapeless =>
      have missing : entry? text = none := by
        rw [Option.eq_none_iff_forall_ne_some]
        rintro ⟨name, value⟩ found
        exact shapeless name value (entry?_eq_some_iff.mp found)
      rw [readLines]
      dsimp only
      rw [content_iff.mp content, missing, if_neg (by simpa using nonempty)]
  | @value key value assigns unspelled =>
      have refused : c.set key value = .error (key.complaint value) :=
        ((set_reads c key assigns.still).refuses _).mpr ⟨fun _ ⟨x, spells, _⟩ => unspelled x spells, rfl⟩
      rw [(readLines_assigns assigns).2 _ refused]

/-! ## Texts -/

/-- The values that lines give a key, in their order. -/
inductive Values (key : Key) : List (List Char) → List (List Char) → Prop where
  | nil : Values key [] []
  | skip {line : List Char} {rest values : List (List Char)} (silent : ∀ value, ¬ Assigns line key value)
      (more : Values key rest values) : Values key (line :: rest) values
  | give {line value : List Char} {rest values : List (List Char)} (assigns : Assigns line key value)
      (more : Values key rest values) : Values key (line :: rest) (value :: values)

/-- Every key holds the last of its values, and without any what it held before. -/
structure Told (base : Config) (lines : List (List Char)) (c : Config) : Prop where
  last : ∀ key values value, Values key lines (values ++ [value]) → key.Spells value (c.get key)
  absent : ∀ key, Values key lines [] → c.get key = base.get key

inductive FirstOffence : List (List Char) → Error → Prop where
  | here {line : List Char} {rest : List (List Char)} {e : Error} (offends : Offends line e) : FirstOffence (line :: rest) e
  | later {line : List Char} {rest : List (List Char)} {e : Error} (sound : Sound line) (more : FirstOffence rest e) :
      FirstOffence (line :: rest) e

theorem spells_unique {x y : key.Value} (still : trim value = value) (left : key.Spells value x) (right : key.Spells value y) :
    x = y := by
  have same : put {} key x = put {} key y := (set_reads {} key still).unique ⟨x, left, rfl⟩ ⟨y, right, rfl⟩
  rw [← get_put {} key x, same, get_put]

theorem values_nil : Values key [] values ↔ values = [] := by
  constructor
  · intro given
    cases given
    rfl
  · rintro rfl
    exact .nil

theorem values_skip (silent : ∀ value, ¬ Assigns line key value) :
    Values key (line :: rest) values ↔ Values key rest values := by
  constructor
  · intro given
    cases given with
    | skip _ more => exact more
    | give assigns _ => exact absurd assigns (silent _)
  · exact .skip silent

theorem values_give (assigns : Assigns line key value) :
    Values key (line :: rest) values ↔ ∃ more, values = value :: more ∧ Values key rest more := by
  constructor
  · intro given
    cases given with
    | skip silent _ => exact absurd assigns (silent _)
    | give assigns' more =>
        obtain ⟨-, rfl⟩ := assigns.unique assigns'
        exact ⟨_, rfl, more⟩
  · rintro ⟨more, rfl, given⟩
    exact .give assigns given

theorem values_iff : Values key lines values ↔
    ((lines.filterMap assignment?).filter (·.1 = key)).map (·.2) = values := by
  induction lines generalizing values with
  | nil => simp [values_nil, eq_comm]
  | cons line rest ih =>
      cases given : assignment? line with
      | none =>
          have silent (value : List Char) : ¬ Assigns line key value := by simp [assigns_iff, given]
          rw [values_skip silent, ih, List.filterMap_cons_none given]
      | some assigned =>
          obtain ⟨other, value⟩ := assigned
          rw [List.filterMap_cons_some given]
          by_cases same : other = key
          · subst same
            rw [values_give (assigns_iff.mpr given), List.filter_cons_of_pos (by simp), List.map_cons]
            constructor
            · rintro ⟨more, rfl, gives⟩
              rw [ih.mp gives]
            · rintro rfl
              exact ⟨_, rfl, ih.mpr rfl⟩
          · have silent (value : List Char) : ¬ Assigns line key value := by simp [assigns_iff, given, same]
            rw [values_skip silent, ih, List.filter_cons_of_neg (by simpa using same)]

theorem Values.mem_iff (given : Values key lines values) : value ∈ values ↔ ∃ line ∈ lines, Assigns line key value := by
  induction given with
  | nil => simp
  | skip silent _ ih => simp [ih, silent]
  | give assigns _ ih =>
      rw [List.mem_cons, ih, List.exists_mem_cons_iff]
      apply or_congr_left
      constructor
      · rintro rfl
        exact assigns
      · exact fun assigns' => (assigns.unique assigns').2.symm

theorem told_nil : Told c [] c' ↔ c' = c := by
  constructor
  · intro told
    exact ext_get fun key => told.absent key .nil
  · rintro rfl
    constructor
    · intro key values value given
      simp [values_nil] at given
    · exact fun _ _ => rfl

theorem Told.congr (told : Told c lines c')
    (agree : ∀ key values, Values key lines values ↔ Values key lines' values) : Told c lines' c' := by
  constructor
  · intro key values value given
    exact told.last key values value ((agree key _).mpr given)
  · intro key given
    exact told.absent key ((agree key _).mpr given)

theorem told_silent (silent : ∀ key value, ¬ Assigns line key value) : Told c (line :: rest) c' ↔ Told c rest c' := by
  constructor
  · exact fun told => told.congr fun key _ => values_skip (silent key)
  · exact fun told => told.congr fun key _ => (values_skip (silent key)).symm

theorem told_assigns {x : key.Value} (assigns : Assigns line key value) (spells : key.Spells value x) :
    Told c (line :: rest) c' ↔ Told (c.put key x) rest c' := by
  have silent {other : Key} (apart : other ≠ key) (value' : List Char) : ¬ Assigns line other value' :=
    fun assigns' => apart (assigns'.unique assigns).1
  constructor
  · rintro ⟨last, absent⟩
    constructor
    · intro other values value' given
      by_cases same : other = key
      · subst same
        exact last other (value :: values) value' (.give assigns given)
      · exact last other values value' (.skip (silent same) given)
    · intro other given
      by_cases same : other = key
      · subst same
        rw [get_put]
        exact spells_unique assigns.still (last other [] value (.give assigns given)) spells
      · rw [get_put_of_ne x same]
        exact absent other (.skip (silent same) given)
  · rintro ⟨last, absent⟩
    constructor
    · intro other values value' given
      by_cases same : other = key
      · subst same
        obtain ⟨more, parts, given⟩ := (values_give assigns).mp given
        cases values with
        | nil =>
            cases parts
            rw [absent other given, get_put]
            exact spells
        | cons first values =>
            cases parts
            exact last other values value' given
      · exact last other values value' ((values_skip (silent same)).mp given)
    · intro other given
      by_cases same : other = key
      · subst same
        obtain ⟨_, parts, _⟩ := (values_give assigns).mp given
        cases parts
      · rw [absent other ((values_skip (silent same)).mp given), get_put_of_ne x same]

theorem firstOffence_cons (sound : Sound line) : FirstOffence (line :: rest) e ↔ FirstOffence rest e := by
  constructor
  · intro first
    cases first with
    | here offends => exact absurd offends sound.not_offends
    | later _ more => exact more
  · exact .later sound

theorem readLines_nil_eq_ok : (readLines [] c).value = .ok c' ↔ c' = c ∧ c'.validate = .ok () := by
  rw [readLines]
  cases valid : c.validate with
  | ok _ =>
      constructor
      · rintro ⟨⟩
        exact ⟨rfl, valid⟩
      · rintro ⟨rfl, -⟩
        rfl
  | error e =>
      constructor
      · nofun
      · rintro ⟨rfl, accepted⟩
        cases valid.symm.trans accepted

theorem readLines_nil_eq_error : (readLines [] c).value = .error e ↔ c.validate = .error e := by
  rw [readLines]
  cases c.validate <;> simp

theorem readLines_eq_ok_iff : (readLines lines c).value = .ok c' ↔
    (∀ line ∈ lines, Sound line) ∧ Told c lines c' ∧ c'.validate = .ok () := by
  -- what a line sets is part of the configuration that the rest of the lines starts from
  induction lines generalizing c with
  | nil =>
      rw [readLines_nil_eq_ok, told_nil]
      exact (and_iff_right (List.forall_mem_nil _)).symm
  | cons line rest ih =>
      rw [List.forall_mem_cons]
      rcases line_cases line with ⟨sound, silent⟩ | ⟨key, value, x, assigns, spells⟩ | ⟨e, offends⟩
      · rw [readLines_silent sound silent, ih, told_silent silent, and_iff_right sound]
      · rw [readLines_spelled assigns spells, ih, told_assigns assigns spells, and_iff_right (assigns.sound spells)]
      · rw [readLines_offends offends]
        exact iff_of_false nofun fun ⟨⟨sound, _⟩, _⟩ => sound.not_offends offends

theorem readLines_eq_error_iff : (readLines lines c).value = .error e ↔
    FirstOffence lines e ∨ (∀ line ∈ lines, Sound line) ∧ ∃ c', Told c lines c' ∧ c'.validate = .error e := by
  induction lines generalizing c with
  | nil =>
      rw [readLines_nil_eq_error]
      constructor
      · exact fun failed => .inr ⟨List.forall_mem_nil _, c, told_nil.mpr rfl, failed⟩
      · rintro (first | ⟨-, c', told, failed⟩)
        · cases first
        · rwa [told_nil.mp told] at failed
  | cons line rest ih =>
      rw [List.forall_mem_cons]
      rcases line_cases line with ⟨sound, silent⟩ | ⟨key, value, x, assigns, spells⟩ | ⟨e', offends⟩
      · simp only [readLines_silent sound silent, ih, told_silent silent, firstOffence_cons sound, sound, true_and]
      · have sound : Sound line := assigns.sound spells
        simp only [readLines_spelled assigns spells, ih, told_assigns assigns spells, firstOffence_cons sound, sound, true_and]
      · rw [readLines_offends offends]
        constructor
        · rintro ⟨⟩
          exact .inl (.here offends)
        · rintro (first | ⟨⟨sound, _⟩, _⟩)
          · cases first with
            | here offends' =>
                have refused : (readLines (line :: rest) c).value = .error e := readLines_offends offends'
                rw [readLines_offends offends] at refused
                exact refused
            | later sound _ => exact absurd offends sound.not_offends
          · exact absurd offends sound.not_offends

theorem readLines_congr (read : (readLines lines c).value = .ok c') (formed : ∀ line ∈ lines', Formed line)
    (agree : ∀ key values, Values key lines values ↔ Values key lines' values) : (readLines lines' c).value = .ok c' := by
  obtain ⟨sound, told, valid⟩ := readLines_eq_ok_iff.mp read
  have sound' (line : List Char) (member : line ∈ lines') : Sound line := by
    apply Sound.mk (formed line member)
    intro key value assigns
    have given := values_iff.mpr (rfl : ((lines'.filterMap assignment?).filter (·.1 = key)).map (·.2) = _)
    have among := given.mem_iff.mpr ⟨line, member, assigns⟩
    obtain ⟨origin, member', assigns'⟩ := ((agree key _).mpr given).mem_iff.mp among
    exact (sound origin member').spelled key value assigns'
  exact readLines_eq_ok_iff.mpr ⟨sound', told.congr agree, valid⟩

/-! ## Reading -/

def linesOf (text : String) : List (List Char) := text.toList.splitOn '\n'

theorem read_eq (text : String) : read text = readLines (linesOf text) {} := by
  rw [read, lines_eq, linesOf]

/-- Reading accepts exactly the sound and consistent texts, with the configuration that they tell. Otherwise the first offence
decides the error, and without any the check. Only the values of the keys matter to what is read. -/
theorem read_value (text : String) :
    (∀ c, (read text).value = .ok c ↔
      (∀ line ∈ linesOf text, Sound line) ∧ Told {} (linesOf text) c ∧ c.validate = .ok ()) ∧
    (∀ e, (read text).value = .error e ↔ FirstOffence (linesOf text) e ∨
      (∀ line ∈ linesOf text, Sound line) ∧ ∃ c, Told {} (linesOf text) c ∧ c.validate = .error e) ∧
    ∀ (c : Config) (text' : String), (read text).value = .ok c → (∀ line ∈ linesOf text', Formed line) →
      (∀ key values, Values key (linesOf text) values ↔ Values key (linesOf text') values) → (read text').value = .ok c := by
  rw [read_eq]
  refine ⟨fun c => readLines_eq_ok_iff, fun e => readLines_eq_error_iff, ?_⟩
  intro c text' accepted formed agree
  rw [read_eq]
  exact readLines_congr accepted formed agree

def retried : String :=
  "scheduler.maxPriorityValue = -3\nscheduler.maxPriorityValue = 9\nscheduler.policy = MLFQ"

def retried' : String :=
  "scheduler.policy=MLFQ # three queues\n\nscheduler.maxPriorityValue = -3\nlogFile = x\nscheduler.maxPriorityValue=9"

theorem read_value_retried : (read retried).value = .ok { policy := .multilevel, leastUrgent := 9 } ∧
    (∀ line ∈ linesOf retried, Sound line) ∧
    (read retried').value = .ok { policy := .multilevel, leastUrgent := 9 } := by
  have accepted : (read retried).value = .ok { policy := .multilevel, leastUrgent := 9 } := rfl
  obtain ⟨described, -, rewritten⟩ := read_value retried
  have formed : ∀ line ∈ linesOf retried', Formed line := by decide +kernel
  have given : (linesOf retried).filterMap assignment? =
      [(.maxPriority, "-3".toList), (.maxPriority, "9".toList), (.policy, "MLFQ".toList)] := by decide +kernel
  have given' : (linesOf retried').filterMap assignment? =
      [(.policy, "MLFQ".toList), (.maxPriority, "-3".toList), (.maxPriority, "9".toList)] := by decide +kernel
  have agree (key : Key) (values : List (List Char)) :
      Values key (linesOf retried) values ↔ Values key (linesOf retried') values := by
    rw [values_iff, values_iff, given, given']
    cases key <;> exact Iff.rfl
  exact ⟨accepted, ((described _).mp accepted).1, rewritten _ retried' accepted formed agree⟩

end PriorityScheduler.Config
