/-!
# JSON texts

Reading and writing JSON as options files hold it. Reading is strict: nothing but white space
may follow the value, and there are no comments and no commas to spare. A value keeps what
options need of it. Of a number that is the value when it is written with digits alone. Of a
string it is the text, unless an escape stands for half of a surrogate pair; such a string has
no text.
-/

namespace QueryLang

/-- A JSON value. An object keeps its fields in order, repeated ones included. -/
inductive JsonValue
  | null
  | bool (value : Bool)
  | number (digits : Option Nat)
  | string (text : Option String)
  | array (items : List JsonValue)
  | object (fields : List (Option String × JsonValue))
deriving Inhabited

namespace JsonText

/-! ### Reading

Each step gives what it read and what is left of the text.
-/

/-- Leaves out white space. -/
def skipSpace (text : List Char) : List Char :=
  text.dropWhile fun char => char == ' ' || char == '\t' || char == '\n' || char == '\r'

/-- What is left after a fixed word. -/
def readWord : (word : List Char) → List Char → Option (List Char)
  | [], text => some text
  | expected :: word, char :: text => if expected = char then readWord word text else none
  | _ :: _, [] => none

/-- Reads one digit of a hexadecimal number. -/
def hexDigit? (char : Char) : Option Nat :=
  if '0' ≤ char && char ≤ '9' then some (char.toNat - '0'.toNat)
  else if 'a' ≤ char && char ≤ 'f' then some (char.toNat - 'a'.toNat + 10)
  else if 'A' ≤ char && char ≤ 'F' then some (char.toNat - 'A'.toNat + 10)
  else none

/-- Reads four hexadecimal digits. -/
def readHex4 : List Char → Option (Nat × List Char)
  | first :: second :: third :: fourth :: rest => do
    let value := 4096 * (← hexDigit? first) + 256 * (← hexDigit? second)
      + 16 * (← hexDigit? third) + (← hexDigit? fourth)
    return (value, rest)
  | _ => none

/-- Reads the character that a backslash and a letter stand for. -/
def simpleEscape? : Char → Option Char
  | '"' => some '"'
  | '\\' => some '\\'
  | '/' => some '/'
  | 'b' => some '\x08'
  | 'f' => some '\x0c'
  | 'n' => some '\n'
  | 'r' => some '\r'
  | 't' => some '\t'
  | _ => none

/-- A unit of a string: a character, or half of a surrogate pair. -/
inductive StringUnit
  | char (char : Char)
  | half (unit : Nat)

/-- Reads the units of a string up to its closing quote. -/
def readUnits : (limit : Nat) → List Char → Option ((List StringUnit) × List Char)
  | 0, _ => none
  | _ + 1, [] => none
  | limit + 1, char :: rest =>
    if char = '"' then
      some ([], rest)
    else if char.toNat < 0x20 then
      none
    else if char = '\\' then
      match rest with
      | 'u' :: rest => do
        let (value, rest) ← readHex4 rest
        let (units, rest) ← readUnits limit rest
        if 0xD800 ≤ value && value < 0xE000 then
          return (.half value :: units, rest)
        else
          return (.char (Char.ofNat value) :: units, rest)
      | letter :: rest => do
        let escaped ← simpleEscape? letter
        let (units, rest) ← readUnits limit rest
        return (.char escaped :: units, rest)
      | [] => none
    else do
      let (units, rest) ← readUnits limit rest
      return (.char char :: units, rest)

/-- The text that units make, unless a half has no other half. -/
def joinUnits : List StringUnit → Option (List Char)
  | [] => some []
  | .char char :: rest => (joinUnits rest).map (char :: ·)
  | .half high :: .half low :: rest =>
    if high < 0xDC00 && 0xDC00 ≤ low then
      (joinUnits rest).map (Char.ofNat (0x10000 + (high - 0xD800) * 0x400 + (low - 0xDC00)) :: ·)
    else
      none
  | .half _ :: _ => none

/-- Reads a string after its opening quote. -/
def readString (text : List Char) : Option ((Option String) × List Char) := do
  let (units, rest) ← readUnits (text.length + 1) text
  return ((joinUnits units).map String.ofList, rest)

/-- Reads decimal digits, of which there must be one. -/
def readDigits (text : List Char) : Option ((List Char) × List Char) :=
  let digits := text.takeWhile Char.isDigit
  if digits.isEmpty then none else some (digits, text.dropWhile Char.isDigit)

/-- Reads the fraction of a number, and says whether there is one. -/
def readFraction : List Char → Option (Bool × List Char)
  | '.' :: rest => do
    let (_, rest) ← readDigits rest
    return (true, rest)
  | text => some (false, text)

/-- Reads the exponent of a number, and says whether there is one. -/
def readExponent : List Char → Option (Bool × List Char)
  | 'e' :: rest | 'E' :: rest => do
    let unsigned := match rest with
      | '+' :: rest | '-' :: rest => rest
      | rest => rest
    let (_, rest) ← readDigits unsigned
    return (true, rest)
  | text => some (false, text)

/-- Reads a number. It has no digit before it that is a useless zero. -/
def readNumber (text : List Char) : Option (JsonValue × List Char) := do
  let (isNegative, unsigned) := match text with
    | '-' :: rest => (true, rest)
    | rest => (false, rest)
  let (digits, rest) ← readDigits unsigned
  if digits.head? = some '0' && 1 < digits.length then
    none
  else
    let (hasFraction, rest) ← readFraction rest
    let (hasExponent, rest) ← readExponent rest
    if isNegative || hasFraction || hasExponent then
      return (.number none, rest)
    else
      let value := digits.foldl (fun value digit => 10 * value + (digit.toNat - '0'.toNat)) 0
      return (.number (some value), rest)

mutual

/-- Reads a value. Each value takes at least one of the steps. -/
def readValue : (steps : Nat) → List Char → Option (JsonValue × List Char)
  | 0, _ => none
  | steps + 1, text =>
    match skipSpace text with
    | [] => none
    | '{' :: rest =>
      match skipSpace rest with
      | '}' :: rest => some (.object [], rest)
      | rest => do
        let (fields, rest) ← readFields steps rest
        return (.object fields, rest)
    | '[' :: rest =>
      match skipSpace rest with
      | ']' :: rest => some (.array [], rest)
      | rest => do
        let (items, rest) ← readItems steps rest
        return (.array items, rest)
    | '"' :: rest => do
      let (text, rest) ← readString rest
      return (.string text, rest)
    | 'n' :: rest => do return (.null, ← readWord ['u', 'l', 'l'] rest)
    | 't' :: rest => do return (.bool true, ← readWord ['r', 'u', 'e'] rest)
    | 'f' :: rest => do return (.bool false, ← readWord ['a', 'l', 's', 'e'] rest)
    | text => readNumber text

/-- Reads the items of an array up to its closing bracket. There is at least one. -/
def readItems : (steps : Nat) → List Char → Option ((List JsonValue) × List Char)
  | 0, _ => none
  | steps + 1, text => do
    let (item, rest) ← readValue steps text
    match skipSpace rest with
    | ',' :: rest => do
      let (items, rest) ← readItems steps rest
      return (item :: items, rest)
    | ']' :: rest => return ([item], rest)
    | _ => none

/-- Reads the fields of an object up to its closing brace. There is at least one. -/
def readFields : (steps : Nat) → List Char → Option ((List (Option String × JsonValue)) × List Char)
  | 0, _ => none
  | steps + 1, text =>
    match skipSpace text with
    | '"' :: rest => do
      let (name, rest) ← readString rest
      match skipSpace rest with
      | ':' :: rest => do
        let (value, rest) ← readValue steps rest
        match skipSpace rest with
        | ',' :: rest => do
          let (fields, rest) ← readFields steps rest
          return ((name, value) :: fields, rest)
        | '}' :: rest => return ([(name, value)], rest)
        | _ => none
      | _ => none
    | _ => none

end

/-- The value that a whole text writes. -/
def read (text : List Char) : Option JsonValue := do
  let (value, rest) ← readValue (text.length + 1) text
  if (skipSpace rest).isEmpty then some value else none

/-! ### Writing -/

/-- A hexadecimal digit. -/
def hexDigit (value : Nat) : Char :=
  if value < 10 then Char.ofNat ('0'.toNat + value) else Char.ofNat ('a'.toNat + (value - 10))

/-- How a character is written inside a string. -/
def escape (char : Char) : List Char :=
  match char with
  | '"' => ['\\', '"']
  | '\\' => ['\\', '\\']
  | '\n' => ['\\', 'n']
  | '\r' => ['\\', 'r']
  | '\t' => ['\\', 't']
  | _ =>
    if char = '\x08' then ['\\', 'b']
    else if char = '\x0c' then ['\\', 'f']
    else if char.toNat < 0x20 then
      ['\\', 'u', '0', '0', hexDigit (char.toNat / 16), hexDigit (char.toNat % 16)]
    else [char]

/-- A string as JSON writes it. -/
def writeString (text : String) : String :=
  String.ofList ('"' :: (text.toList.flatMap escape ++ ['"']))

/-- Items between an opening and a closing character. -/
def writeGroup (first last : Char) (items : List String) : String :=
  first.toString ++ ",".intercalate items ++ last.toString

end JsonText

end QueryLang
