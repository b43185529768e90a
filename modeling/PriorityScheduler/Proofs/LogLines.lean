import PriorityScheduler.Log
import PriorityScheduler.Proofs.Repricing
import PriorityScheduler.Proofs.Text.Utf8

namespace PriorityScheduler

open Text (encode Cut cut_decode)

namespace LineBuffer

variable {b : LineBuffer} {bytes : List UInt8}

def filled (b : LineBuffer) (bytes : List UInt8) : LineBuffer :=
  let kept := bytes.take (b.bytes.length - b.pos)
  ⟨b.bytes.take b.pos ++ kept ++ b.bytes.drop (b.pos + kept.length), b.pos + kept.length⟩

theorem write_of_le (inside : b.pos ≤ b.bytes.length) (bytes : List UInt8) : b.write bytes = .ok (b.filled bytes) :=
  if_neg (Nat.not_lt.mpr inside)

theorem pos_filled (b : LineBuffer) (bytes : List UInt8) :
    (b.filled bytes).pos = b.pos + min (b.bytes.length - b.pos) bytes.length := by
  simp [filled]

theorem length_filled (inside : b.pos ≤ b.bytes.length) (bytes : List UInt8) :
    (b.filled bytes).bytes.length = b.bytes.length := by
  simp only [filled, List.length_append, List.length_take, List.length_drop]
  omega

theorem pos_filled_le (inside : b.pos ≤ b.bytes.length) (bytes : List UInt8) :
    (b.filled bytes).pos ≤ (b.filled bytes).bytes.length := by
  rw [length_filled inside, pos_filled]
  omega

theorem filled_nil (b : LineBuffer) : b.filled [] = b := by
  simp [filled]

theorem length_front (inside : b.pos ≤ b.bytes.length) (bytes : List UInt8) :
    (b.bytes.take b.pos ++ bytes.take (b.bytes.length - b.pos)).length = (b.filled bytes).pos := by
  rw [List.length_append, List.length_take, Nat.min_eq_left inside]
  rfl

theorem take_filled (inside : b.pos ≤ b.bytes.length) (bytes : List UInt8) :
    (b.filled bytes).bytes.take (b.filled bytes).pos = b.bytes.take b.pos ++ bytes.take (b.bytes.length - b.pos) :=
  List.take_left' (length_front inside bytes)

theorem drop_filled (inside : b.pos ≤ b.bytes.length) (bytes : List UInt8) :
    (b.filled bytes).bytes.drop (b.filled bytes).pos = b.bytes.drop (b.filled bytes).pos :=
  List.drop_left' (length_front inside bytes)

theorem filled_filled (inside : b.pos ≤ b.bytes.length) (first second : List UInt8) :
    (b.filled first).filled second = b.filled (first ++ second) := by
  have room : (b.filled first).bytes.length - (b.filled first).pos = b.bytes.length - b.pos - first.length := by
    rw [length_filled inside, pos_filled]
    omega
  have behind (n : Nat) : (b.filled first).bytes.drop ((b.filled first).pos + n) =
      b.bytes.drop ((b.filled first).pos + n) := by
    rw [← List.drop_drop, ← List.drop_drop, drop_filled inside]
  rw [filled, room, take_filled inside, behind]
  simp only [filled, List.take_append, List.length_append, List.append_assoc, Nat.add_assoc]

theorem writeText_of_le (inside : b.pos ≤ b.bytes.length) (piece : String) :
    b.writeText piece = .ok (b.filled (encode piece.toList)) :=
  write_of_le inside _

theorem encode_join (pieces : List String) :
    encode (String.join pieces).toList = pieces.flatMap fun piece => encode piece.toList := by
  rw [String.toList_join, encode, List.flatMap_assoc]
  rfl

theorem writeAll_of_le (inside : b.pos ≤ b.bytes.length) (pieces : List String) :
    b.writeAll pieces = .ok (b.filled (encode (String.join pieces).toList)) := by
  rw [encode_join]
  unfold writeAll
  induction pieces generalizing b with
  | nil =>
      rw [List.flatMap_nil, filled_nil]
      rfl
  | cons piece rest ih =>
      rw [List.foldlM_cons, writeText_of_le inside, List.flatMap_cons, ← filled_filled inside]
      exact ih (pos_filled_le inside _)

theorem text_filled (capacity : Nat) (bytes : List UInt8) :
    ((zeroed capacity 0).filled bytes).text = String.ofList (Text.decode (bytes.take capacity)) := by
  simp [text, filled, zeroed]

/-- A buffer after a writing: the bytes have gone in from the position on as far as there was room, and nothing else has
changed. -/
structure Written (b : LineBuffer) (bytes : List UInt8) (b' : LineBuffer) : Prop where
  length : b'.bytes.length = b.bytes.length
  pos : b'.pos = b.pos + min (b.bytes.length - b.pos) bytes.length
  before : b'.bytes.take b.pos = b.bytes.take b.pos
  kept : (b'.bytes.take b'.pos).drop b.pos = bytes.take (b.bytes.length - b.pos)
  behind : b'.bytes.drop b'.pos = b.bytes.drop b'.pos

theorem written_filled (inside : b.pos ≤ b.bytes.length) (bytes : List UInt8) : b.Written bytes (b.filled bytes) := by
  have start : (b.bytes.take b.pos).length = b.pos := List.length_take_of_le inside
  constructor
  · exact length_filled inside bytes
  · exact pos_filled b bytes
  · have reached : b.pos ≤ (b.filled bytes).pos := Nat.le_add_right _ _
    rw [← Nat.min_eq_left reached, ← List.take_take, take_filled inside, List.take_left' start, Nat.min_eq_left reached]
  · rw [take_filled inside, List.drop_left' start]
  · exact drop_filled inside bytes

end LineBuffer

def Record.text (r : Record) : String := "[" ++ r.level.label ++ "] " ++ r.target ++ ": " ++ r.message

theorem Record.join_pieces (r : Record) : String.join r.pieces = r.text := by
  simp [pieces, text, String.append_assoc]

theorem writeAll_zeroed {pieces : List String} {text : String} (joined : String.join pieces = text) (capacity : Nat) :
    ∃ b, (LineBuffer.zeroed capacity 0).writeAll pieces = .ok b ∧
      b.text = String.ofList (Text.decode ((encode text.toList).take capacity)) := by
  subst joined
  exact ⟨_, LineBuffer.writeAll_of_le (Nat.zero_le _) pieces, LineBuffer.text_filled capacity _⟩

def oversize : Record := ⟨.warn, "sched", String.ofList (List.replicate 200 '€')⟩

end PriorityScheduler
