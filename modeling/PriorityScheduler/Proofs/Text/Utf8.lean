import PriorityScheduler.Text.Utf8

namespace PriorityScheduler.Text

open String (utf8EncodeChar length_utf8EncodeChar)

variable {c c' : Char} {bytes : List UInt8} {text : List Char} {n limit : Nat}

def byteCount (text : List Char) : Nat := (String.ofList text).utf8ByteSize

theorem length_encode (text : List Char) : (encode text).length = byteCount text := by
  rw [byteCount, ← String.size_toByteArray, String.toByteArray_ofList]
  exact List.size_toByteArray.symm

theorem encode_cons (c : Char) (text : List Char) : encode (c :: text) = utf8EncodeChar c ++ encode text := rfl

theorem byteCount_cons (c : Char) (text : List Char) : byteCount (c :: text) = c.utf8Size + byteCount text := by
  rw [← length_encode, ← length_encode, encode_cons, List.length_append, length_utf8EncodeChar]

theorem decodeChar?_eq_some : decodeChar? bytes = some c ↔ utf8EncodeChar c <+: bytes := by
  constructor
  · intro read
    obtain ⟨rest, begins⟩ := ByteArray.exists_of_utf8DecodeChar?_eq_some read
    have same : bytes.take 4 = utf8EncodeChar c ++ rest.data.toList := by
      simpa using congrArg (·.data.toList) begins
    exact List.IsPrefix.trans ⟨_, same.symm⟩ (List.take_prefix 4 bytes)
  · rintro ⟨rest, rfl⟩
    have size := length_utf8EncodeChar c
    have small := c.utf8Size_le_four
    unfold decodeChar?
    rw [List.take_append, List.take_of_length_le (by omega), List.toByteArray_append]
    exact ByteArray.utf8DecodeChar?_utf8EncodeChar_append

theorem decodeChar?_nil : decodeChar? [] = none := by
  cases read : decodeChar? [] with
  | none => rfl
  | some c => simpa using decodeChar?_eq_some.mp read

theorem decodeChar?_take (short : n < c.utf8Size) : decodeChar? ((utf8EncodeChar c).take n) = none := by
  cases read : decodeChar? ((utf8EncodeChar c).take n) with
  | none => rfl
  | some c' =>
      have begins := decodeChar?_eq_some.mp read
      have whole : decodeChar? (utf8EncodeChar c) = some c := decodeChar?_eq_some.mpr List.prefix_rfl
      have other := decodeChar?_eq_some.mpr (begins.trans (List.take_prefix n _))
      cases whole.symm.trans other
      have long := begins.length_le
      rw [List.length_take, length_utf8EncodeChar] at long
      omega

/-- The longest beginning of a text that takes no more than `n` bytes. -/
structure Cut (n : Nat) (text line : List Char) : Prop where
  begins : line <+: text
  fits : byteCount line ≤ n
  longest : ∀ other, other <+: text → byteCount other ≤ n → other <+: line

theorem cut_nil (n : Nat) : Cut n [] [] := ⟨List.prefix_rfl, Nat.zero_le n, fun _ begins _ => begins⟩

theorem Cut.cons {line : List Char} (cut : Cut (n - c.utf8Size) text line) (room : c.utf8Size ≤ n) :
    Cut n (c :: text) (c :: line) := by
  constructor
  · exact (List.prefix_cons_inj c).mpr cut.begins
  · have fits := cut.fits
    rw [byteCount_cons]
    omega
  · intro other begins fits
    cases other with
    | nil => exact List.nil_prefix
    | cons c' rest =>
        obtain ⟨rfl, more⟩ := List.cons_prefix_cons.mp begins
        rw [byteCount_cons] at fits
        exact (List.prefix_cons_inj c').mpr (cut.longest rest more (by omega))

theorem cut_short (short : n < c.utf8Size) : Cut n (c :: text) [] := by
  refine ⟨List.nil_prefix, Nat.zero_le n, ?_⟩
  intro other begins fits
  cases other with
  | nil => exact List.prefix_rfl
  | cons c' rest =>
      obtain ⟨rfl, -⟩ := List.cons_prefix_cons.mp begins
      rw [byteCount_cons] at fits
      omega

theorem Cut.eq_of_fits {line : List Char} (cut : Cut n text line) (fits : byteCount text ≤ n) : line = text :=
  cut.begins.eq_of_length_le (cut.longest text List.prefix_rfl fits).length_le

theorem decodeWithin_of_none (none : decodeChar? bytes = none) (limit : Nat) : decodeWithin limit bytes = [] := by
  cases limit with
  | zero => rfl
  | succ limit => rw [decodeWithin, none]

theorem cut_decodeWithin (text : List Char) (enough : ((encode text).take n).length ≤ limit) :
    Cut n text (decodeWithin limit ((encode text).take n)) := by
  induction text generalizing n limit with
  | nil =>
      have nothing : (encode []).take n = [] := List.take_nil
      rw [nothing, decodeWithin_of_none decodeChar?_nil]
      exact cut_nil n
  | cons c text ih =>
      have size := length_utf8EncodeChar c
      rw [encode_cons] at enough ⊢
      rw [List.take_append, size] at enough ⊢
      by_cases room : c.utf8Size ≤ n
      · rw [List.take_of_length_le (by omega), List.length_append] at enough
        rw [List.take_of_length_le (by omega)]
        have positive := c.utf8Size_pos
        obtain ⟨limit, rfl⟩ := Nat.exists_eq_succ_of_ne_zero (n := limit) (by omega)
        have read : decodeChar? (utf8EncodeChar c ++ (encode text).take (n - c.utf8Size)) = some c :=
          decodeChar?_eq_some.mpr (List.prefix_append _ _)
        rw [decodeWithin, read]
        dsimp only
        rw [List.drop_left' size]
        exact (ih (by omega)).cons room
      · have short := Nat.lt_of_not_le room
        rw [Nat.sub_eq_zero_of_le (Nat.le_of_lt short), List.take_zero, List.append_nil,
          decodeWithin_of_none (decodeChar?_take short)]
        exact cut_short short

/-- The bytes of a text that was cut are read as the longest beginning of whole characters. -/
theorem cut_decode (n : Nat) (text : List Char) : Cut n text (decode ((encode text).take n)) :=
  cut_decodeWithin text (Nat.le_refl _)

end PriorityScheduler.Text
