import Mathlib.Data.List.TakeWhile
import Mathlib.Data.Nat.Digits.Lemmas
import PriorityScheduler.Text.Blank
import PriorityScheduler.Text.Numeral

namespace PriorityScheduler.Text

structure Trimmed (text core : List Char) : Prop where
  around : ∃ front back, text = front ++ core ++ back ∧ (∀ c ∈ front, isBlank c = true) ∧ ∀ c ∈ back, isBlank c = true
  first : ∀ c ∈ core.head?, isBlank c = false
  last : ∀ c ∈ core.getLast?, isBlank c = false

variable {text core part left right : List Char} {separator : Char}

theorem trimStart_append {front : List Char} (blank : ∀ c ∈ front, isBlank c = true) (rest : List Char) :
    trimStart (front ++ rest) = trimStart rest :=
  List.dropWhile_append_of_pos blank

theorem trimEnd_append {back : List Char} (blank : ∀ c ∈ back, isBlank c = true) (text : List Char) :
    trimEnd (text ++ back) = trimEnd text := by
  rw [trimEnd, List.reverse_append, List.dropWhile_append_of_pos, trimEnd]
  simpa using blank

theorem trimStart_of_head (first : ∀ c ∈ text.head?, isBlank c = false) : trimStart text = text := by
  cases text with
  | nil => rfl
  | cons c rest => simp [trimStart, first c rfl]

theorem trimEnd_of_last (last : ∀ c ∈ text.getLast?, isBlank c = false) : trimEnd text = text := by
  have still : trimStart text.reverse = text.reverse := trimStart_of_head (by simpa using last)
  rw [trimEnd, ← trimStart, still, List.reverse_reverse]

theorem head?_trimStart (text : List Char) : ∀ c ∈ (trimStart text).head?, isBlank c = false := by
  intro c head
  have first := List.head?_dropWhile_not isBlank text
  rw [← trimStart, Option.mem_def.mp head] at first
  exact first

theorem exists_trimStart (text : List Char) : ∃ front, text = front ++ trimStart text ∧ ∀ c ∈ front, isBlank c = true :=
  ⟨text.takeWhile isBlank, List.takeWhile_append_dropWhile.symm, fun _ => List.mem_takeWhile_imp⟩

theorem exists_trimEnd (text : List Char) : ∃ back, text = trimEnd text ++ back ∧ ∀ c ∈ back, isBlank c = true := by
  obtain ⟨front, parts, blank⟩ := exists_trimStart text.reverse
  refine ⟨front.reverse, ?_, by simpa using blank⟩
  rw [trimEnd, ← trimStart, ← List.reverse_append, ← parts, List.reverse_reverse]

theorem trimmed_trim (text : List Char) : Trimmed text (trim text) := by
  obtain ⟨front, parts, before⟩ := exists_trimStart text
  obtain ⟨back, parts', behind⟩ := exists_trimEnd (trimStart text)
  constructor
  · refine ⟨front, back, ?_, before, behind⟩
    rw [trim, List.append_assoc, ← parts', ← parts]
  · intro c head
    apply head?_trimStart text
    rw [parts', List.head?_append, ← trim, Option.mem_def.mp head]
    rfl
  · intro c last
    apply head?_trimStart (trimStart text).reverse
    simpa [trim, trimEnd, trimStart] using last

theorem trim_eq_iff : trim text = core ↔ Trimmed text core := by
  constructor
  · rintro rfl
    exact trimmed_trim text
  · rintro ⟨⟨front, back, rfl, before, behind⟩, first, last⟩
    rw [trim, List.append_assoc, trimStart_append before]
    cases core with
    | nil =>
        have nothing : trimStart back = [] := List.dropWhile_eq_nil_iff.mpr behind
        rw [List.nil_append, nothing]
        rfl
    | cons c rest =>
        have still : trimStart (c :: rest ++ back) = c :: rest ++ back := trimStart_of_head first
        rw [still, trimEnd_append behind, trimEnd_of_last last]

theorem trim_trim (text : List Char) : trim (trim text) = trim text := by
  obtain ⟨-, first, last⟩ := trimmed_trim text
  exact trim_eq_iff.mpr ⟨⟨[], [], by simp, nofun, nofun⟩, first, last⟩

/-- The part of a text before the first separator, which is all of it if there is none. -/
def Ahead (separator : Char) (text part : List Char) : Prop :=
  separator ∉ part ∧ (text = part ∨ ∃ rest, text = part ++ separator :: rest)

theorem ahead_before (separator : Char) (text : List Char) : Ahead separator text (before separator text) := by
  constructor
  · intro member
    simpa using List.mem_takeWhile_imp member
  · have parts : before separator text ++ text.dropWhile (· != separator) = text := List.takeWhile_append_dropWhile
    cases behind : text.dropWhile (· != separator) with
    | nil =>
        left
        rw [behind, List.append_nil] at parts
        exact parts.symm
    | cons c rest =>
        right
        have first := List.head?_dropWhile_not (· != separator) text
        simp only [behind, List.head?_cons, bne_eq_false_iff_eq] at first
        rw [behind, first] at parts
        exact ⟨rest, parts.symm⟩

theorem before_eq_iff : before separator text = part ↔ Ahead separator text part := by
  constructor
  · rintro rfl
    exact ahead_before separator text
  · rintro ⟨absent, same⟩
    have apart : ∀ c ∈ part, (c != separator) = true := by
      intro c member
      simpa using ne_of_mem_of_not_mem member absent
    rcases same with rfl | ⟨rest, rfl⟩
    · exact List.takeWhile_eq_self_iff.mpr apart
    · rw [before, List.takeWhile_append_of_pos apart]
      simp

theorem splitFirst?_eq_some_iff :
    splitFirst? separator text = some (left, right) ↔ text = left ++ separator :: right ∧ separator ∉ left := by
  constructor
  · exact splitFirst?_eq_some
  · rintro ⟨rfl, absent⟩
    induction left with
    | nil => simp [splitFirst?]
    | cons c rest ih =>
        rw [List.mem_cons, not_or] at absent
        rw [List.cons_append, splitFirst?, if_neg (Ne.symm absent.1), ih absent.2]
        rfl

theorem lines_ne_nil (text : List Char) : lines text ≠ [] := by
  cases text with
  | nil => simp [lines]
  | cons c rest =>
      rw [lines]
      split
      · simp
      · split <;> simp

theorem lines_eq (text : List Char) : lines text = text.splitOn '\n' := by
  induction text with
  | nil => rfl
  | cons c rest ih =>
      rw [lines, List.splitOn, List.splitOnP_cons_eq_if_modifyHead, ← List.splitOn, ← ih]
      by_cases feed : c = '\n'
      · simp [feed]
      · simp only [feed, beq_iff_eq, if_false]
        cases found : lines rest with
        | nil => exact absurd found (lines_ne_nil rest)
        | cons line more => rfl

def digitValue (c : Char) : Nat := c.toNat - '0'.toNat

structure Digits (text : List Char) (n : Nat) : Prop where
  nonempty : text ≠ []
  digits : ∀ c ∈ text, c.isDigit = true
  value : n = Nat.ofDigits 10 (text.reverse.map digitValue)

inductive Unsigned : List Char → Nat → Prop where
  | plain {text : List Char} {n : Nat} (digits : Digits text n) : Unsigned text n
  | plus {text : List Char} {n : Nat} (digits : Digits text n) : Unsigned ('+' :: text) n

inductive Signed : List Char → Int → Prop where
  | unsigned {text : List Char} {n : Nat} (numeral : Unsigned text n) : Signed text n
  | minus {text : List Char} {n : Nat} (digits : Digits text n) : Signed ('-' :: text) (-n)

variable {n : Nat} {p : Int}

theorem digitsFrom?_eq_some_iff {value : Nat} : digitsFrom? value text = some n ↔
    (∀ c ∈ text, c.isDigit = true) ∧ n = Nat.ofDigits 10 (text.reverse.map digitValue) + 10 ^ text.length * value := by
  induction text generalizing value with
  | nil => simpa [digitsFrom?] using eq_comm
  | cons c rest ih =>
      rw [digitsFrom?, digit?, List.forall_mem_cons]
      by_cases digit : c.isDigit = true
      · have shifted : 10 ^ rest.length * (10 * value + digitValue c) =
            10 ^ rest.length * digitValue c + 10 ^ (rest.length + 1) * value := by ring
        rw [if_pos digit, Option.bind_some, ih, ← digitValue, shifted, List.reverse_cons, List.map_append, List.map_singleton,
          Nat.ofDigits_append, Nat.ofDigits_singleton, List.length_map, List.length_reverse, List.length_cons, Nat.add_assoc]
        exact ⟨fun ⟨digits, total⟩ => ⟨⟨digit, digits⟩, total⟩, fun ⟨⟨_, digits⟩, total⟩ => ⟨digits, total⟩⟩
      · simp [digit]

theorem digits?_eq_some_iff : digits? text = some n ↔ Digits text n := by
  cases text with
  | nil => exact iff_of_false nofun fun digits => digits.nonempty rfl
  | cons c rest =>
      rw [digits?, digitsFrom?_eq_some_iff, Nat.mul_zero, Nat.add_zero]
      exact ⟨fun ⟨digits, value⟩ => ⟨List.cons_ne_nil c rest, digits, value⟩, fun ⟨_, digits, value⟩ => ⟨digits, value⟩⟩

theorem Digits.head {c : Char} (digits : Digits (c :: text) n) : c.isDigit = true :=
  digits.digits c List.mem_cons_self

theorem unsigned_plus : Unsigned ('+' :: text) n ↔ Digits text n := by
  constructor
  · intro numeral
    cases numeral with
    | plain digits => exact absurd digits.head (by decide)
    | plus digits => exact digits
  · exact .plus

theorem unsigned_of_ne (unsigned : ∀ rest, text ≠ '+' :: rest) : Unsigned text n ↔ Digits text n := by
  constructor
  · intro numeral
    cases numeral with
    | plain digits => exact digits
    | plus digits => exact absurd rfl (unsigned _)
  · exact .plain

theorem signed_minus : Signed ('-' :: text) p ↔ ∃ n, Digits text n ∧ -Int.ofNat n = p := by
  constructor
  · intro numeral
    cases numeral with
    | unsigned numeral =>
        rw [unsigned_of_ne (by simp)] at numeral
        exact absurd numeral.head (by decide)
    | minus digits => exact ⟨_, digits, rfl⟩
  · rintro ⟨n, digits, rfl⟩
    exact .minus digits

theorem signed_of_ne (unsigned : ∀ rest, text ≠ '-' :: rest) : Signed text p ↔ ∃ n, Unsigned text n ∧ Int.ofNat n = p := by
  constructor
  · intro numeral
    cases numeral with
    | unsigned numeral => exact ⟨_, numeral, rfl⟩
    | minus digits => exact absurd rfl (unsigned _)
  · rintro ⟨n, numeral, rfl⟩
    exact .unsigned numeral

theorem unsigned?_eq_some_iff {bound : Nat} : unsigned? bound text = some n ↔ Unsigned text n ∧ n < bound := by
  simp only [unsigned?, Option.filter_eq_some_iff, decide_eq_true_eq]
  split
  · rw [digits?_eq_some_iff, unsigned_plus]
  · rename_i unsigned
    rw [digits?_eq_some_iff, unsigned_of_ne fun rest same => unsigned rest same]

theorem signed?_eq_some_iff {low high : Int} :
    signed? low high text = some p ↔ Signed text p ∧ low ≤ p ∧ p ≤ high := by
  simp only [signed?, Option.filter_eq_some_iff, Bool.and_eq_true, decide_eq_true_eq]
  apply and_congr_left'
  split
  · rw [signed_of_ne (by simp), Option.map_eq_some_iff]
    simp only [digits?_eq_some_iff, unsigned_plus]
  · rw [signed_minus, Option.map_eq_some_iff]
    simp only [digits?_eq_some_iff]
  · rename_i plus minus
    rw [signed_of_ne fun rest same => minus rest same, Option.map_eq_some_iff]
    simp only [digits?_eq_some_iff, unsigned_of_ne fun rest same => plus rest same]

end PriorityScheduler.Text
