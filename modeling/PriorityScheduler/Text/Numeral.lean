namespace PriorityScheduler.Text

def digit? (c : Char) : Option Nat := if c.isDigit then some (c.toNat - '0'.toNat) else none

def digitsFrom? : Nat → List Char → Option Nat
  | value, [] => some value
  | value, c :: rest => (digit? c).bind fun d => digitsFrom? (10 * value + d) rest

def digits? : List Char → Option Nat
  | [] => none
  | c :: rest => digitsFrom? 0 (c :: rest)

def unsigned? (bound : Nat) (text : List Char) : Option Nat :=
  let value :=
    match text with
    | '+' :: rest => digits? rest
    | _ => digits? text
  value.filter (· < bound)

def signed? (low high : Int) (text : List Char) : Option Int :=
  let value :=
    match text with
    | '+' :: rest => (digits? rest).map Int.ofNat
    | '-' :: rest => (digits? rest).map fun n => -Int.ofNat n
    | _ => (digits? text).map Int.ofNat
  value.filter fun n => low ≤ n && n ≤ high

end PriorityScheduler.Text
