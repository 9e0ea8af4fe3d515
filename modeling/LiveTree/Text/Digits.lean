/-! Numbers as digits: hexadecimal digits of a fixed width, and the reading of a decimal number
that has to fit a word. -/
namespace LiveTree.Text

/-- The lower-case hexadecimal digit of a number below sixteen. -/
def hexDigit (n : Nat) : Char :=
  if n < 10 then Char.ofNat ('0'.toNat + n) else Char.ofNat ('a'.toNat + (n - 10))

/-- The last `width` hexadecimal digits of a number, the most significant first. -/
def hexDigits : Nat → Nat → List Char
  | 0, _ => []
  | width + 1, n => hexDigits width (n / 16) ++ [hexDigit (n % 16)]

/-- The hexadecimal digits of a number without leading zeros. -/
def hexText (n : Nat) : String :=
  let significant := (hexDigits 16 n).dropWhile (· == '0')
  if significant.isEmpty then "0" else String.ofList significant

/-- Decimal digits read after the value `value` of the digits before them. Reading stops without
a result as soon as a value reaches `limit`, so the outcome never depends on a value that was cut
off. -/
def readDigitsFrom (limit : Nat) : Nat → List Char → Option Nat
  | value, [] => some value
  | value, c :: rest =>
    if c.isDigit then
      let next := value * 10 + (c.toNat - '0'.toNat)
      if next < limit then readDigitsFrom limit next rest else none
    else none

/-- A number of at least one decimal digit, below `limit`, with an optional plus sign in front. -/
def readBelow (limit : Nat) (text : List Char) : Option Nat :=
  match text with
  | [] => none
  | '+' :: [] => none
  | '+' :: digits => readDigitsFrom limit 0 digits
  | digits => readDigitsFrom limit 0 digits

@[simp]
theorem length_hexDigits (width n : Nat) : (hexDigits width n).length = width := by
  induction width generalizing n with
  | zero => rfl
  | succ width ih => simp [hexDigits, ih]

end LiveTree.Text
