import QueryLang.Type.Table

/-!
# Constants

The values of literals. Numbers are 64-bit integers. A number that is written with a fraction, or
that is too large, is first rounded to a binary floating-point number of 53 significant digits,
whose whole part then counts, up to the largest 64-bit integer.
-/

namespace QueryLang

/-- The value of a literal. -/
inductive Constant
  | int (value : Int)
  | string (value : String)
  | bool (value : Bool)
deriving DecidableEq, Inhabited

/-- The type of a literal. -/
def Constant.type : Constant → TypeId
  | int _ => .int
  | string _ => .string
  | bool _ => .bool

/-- The largest 64-bit integer. -/
def largestInt : Nat := 9223372036854775807

/-- A quotient rounded to the nearest whole number, a half to the nearest even one. -/
def roundQuotient (numerator denominator : Nat) : Nat :=
  let whole := numerator / denominator
  let double := 2 * (numerator % denominator)
  if denominator < double || (double == denominator && whole % 2 == 1) then whole + 1 else whole

/-- How many binary digits a number has. Zero has none. -/
def bitLength (number : Nat) : Nat :=
  if number = 0 then 0 else number.log2 + 1

/-- The whole part of a quotient that was rounded to 53 significant binary digits. -/
def wholePartRounded (numerator denominator : Nat) : Nat :=
  let bits := bitLength (numerator / denominator)
  if bits ≤ 53 then
    let scale := Nat.pow 2 (53 - bits)
    roundQuotient (numerator * scale) denominator / scale
  else
    let scale := Nat.pow 2 (bits - 53)
    roundQuotient numerator (denominator * scale) * scale

/-- The number that decimal digits write. -/
def decimalValue (digits : List Char) : Nat :=
  digits.foldl (fun value digit => 10 * value + (digit.toNat - '0'.toNat)) 0

/-- The value of a numeric literal: digits, with a point and more digits after it if it has a
fraction. -/
def numberValue (text : List Char) : Nat :=
  let whole := text.takeWhile (· != '.')
  match text.dropWhile (· != '.') with
  | [] => min (decimalValue whole) largestInt
  | _ :: fraction =>
    let numerator := decimalValue (whole ++ fraction)
    min (wholePartRounded numerator (Nat.pow 10 fraction.length)) largestInt

/-- A text without one quote at its start and one at its end. -/
def unquote (text : List Char) : List Char :=
  let inner := match text with
    | '"' :: rest => rest
    | _ => text
  if inner.getLast? = some '"' then inner.dropLast else inner

end QueryLang
