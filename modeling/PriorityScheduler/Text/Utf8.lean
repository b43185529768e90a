namespace PriorityScheduler.Text

def encode (text : List Char) : List UInt8 := text.flatMap String.utf8EncodeChar

/-- No character needs more than four bytes. -/
def decodeChar? (bytes : List UInt8) : Option Char := (bytes.take 4).toByteArray.utf8DecodeChar? 0

def decodeWithin : Nat → List UInt8 → List Char
  | 0, _ => []
  | limit + 1, bytes =>
      match decodeChar? bytes with
      | some c => c :: decodeWithin limit (bytes.drop c.utf8Size)
      | none => []

def decode (bytes : List UInt8) : List Char := decodeWithin bytes.length bytes

end PriorityScheduler.Text
