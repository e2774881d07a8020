import ProfileCompiler.ReadFault
import ProfileCompiler.Text.Numeral
import ProfileCompiler.Value.Basic

/-!
# Reading JSON

`Json.read` reads a text that is one JSON value with blanks around it.  Beyond the standard
it takes the words `Infinity` and `-Infinity`; a byte order mark in front is refused.  A number
without a fraction and an exponent is an integer, which must not have too many digits.  A name
that occurs twice keeps its first place and its last value.
-/

namespace ProfileCompiler

namespace Json

/-- The blanks of JSON. -/
def isBlank (c : Char) : Bool := c == ' ' || c == '\t' || c == '\n' || c == '\r'

/-- The text after its blanks. -/
def skip (cs : List Char) : List Char := cs.dropWhile isBlank

/-- The UTF-16 unit that four hexadecimal digits stand for. -/
def unit? : List Char → Option (Nat × List Char)
  | a :: b :: c :: d :: rest => do
    let a ← Text.hexValue? a
    let b ← Text.hexValue? b
    let c ← Text.hexValue? c
    let d ← Text.hexValue? d
    some (((a * 16 + b) * 16 + c) * 16 + d, rest)
  | _ => none

/-- The character that a backslash and a letter stand for. -/
def letterEscape? : Char → Option Char
  | '"' => some '"'
  | '\\' => some '\\'
  | '/' => some '/'
  | 'b' => some '\x08'
  | 'f' => some '\x0c'
  | 'n' => some '\n'
  | 'r' => some '\r'
  | 't' => some '\t'
  | _ => none

/-- The character of an escape by numbers, a pair of surrogate units being one character, and
the text after it. -/
def numberEscape? (cs : List Char) : Option (Char × List Char) := do
  let (high, rest) ← unit? cs
  match rest with
  | '\\' :: 'u' :: more =>
    match unit? more with
    | some (low, after) =>
      if 0xD800 ≤ high ∧ high < 0xDC00 ∧ 0xDC00 ≤ low ∧ low < 0xE000 then
        some (Char.ofNat (0x10000 + (high - 0xD800) * 0x400 + (low - 0xDC00)), after)
      else some (Char.ofNat high, rest)
    | none => some (Char.ofNat high, rest)
  | _ => some (Char.ofNat high, rest)

/-- The rest of a string after its opening mark, the characters read so far being in reverse
order. -/
def stringRest? : Nat → List Char → List Char → Option (String × List Char)
  | 0, _, _ => none
  | fuel + 1, done, cs =>
    match cs with
    | [] => none
    | '"' :: rest => some (String.ofList done.reverse, rest)
    | '\\' :: 'u' :: rest =>
      match numberEscape? rest with
      | some (c, after) => stringRest? fuel (c :: done) after
      | none => none
    | '\\' :: c :: rest =>
      match letterEscape? c with
      | some d => stringRest? fuel (d :: done) rest
      | none => none
    | c :: rest => if c.toNat < 0x20 then none else stringRest? fuel (c :: done) rest

/-- The number that digits stand for. -/
def decimal (digits : List Char) : Nat :=
  digits.foldl (fun n c => 10 * n + (c.toNat - 48)) 0

/-- The digits after a point, if one with digits follows. -/
def fraction : List Char → List Char × List Char
  | '.' :: rest =>
    let digits := rest.takeWhile Char.isDigit
    if digits.isEmpty then ([], '.' :: rest) else (digits, rest.dropWhile Char.isDigit)
  | cs => ([], cs)

/-- The power of ten after an exponent mark, if one with digits follows. -/
def exponent (cs : List Char) : Option Int × List Char :=
  match cs with
  | mark :: rest =>
    if mark == 'e' || mark == 'E' then
      let (negative, body) :=
        match rest with
        | '-' :: body => (true, body)
        | '+' :: body => (false, body)
        | body => (false, body)
      let digits := body.takeWhile Char.isDigit
      if digits.isEmpty then (none, cs)
      else
        let n : Int := decimal digits
        (some (if negative then -n else n), body.dropWhile Char.isDigit)
    else (none, cs)
  | [] => (none, [])

/-- A number without its sign. -/
def unsigned (negative : Bool) (cs : List Char) : Except ReadFault (Scalar × List Char) :=
  let whole := cs.takeWhile Char.isDigit
  let whole := if whole.head? == some '0' then ['0'] else whole
  if whole.isEmpty then .error .badJson
  else
    let rest := cs.drop whole.length
    let (decimals, rest) := fraction rest
    let (power, rest) := exponent rest
    match decimals, power with
    | [], none =>
      if Text.isOverlong whole then .error .badNumber
      else
        let n : Int := decimal whole
        .ok (.int (if negative then -n else n), rest)
    | _, _ =>
      let shift := power.getD 0 - decimals.length
      .ok (.float (Binary64.ofDecimal negative (decimal (whole ++ decimals)) shift), rest)

/-- A word at the start of a text, and what follows it. -/
def word? (word : String) (cs : List Char) : Option (List Char) :=
  if word.toList.isPrefixOf cs then some (cs.drop word.length) else none

/-- A scalar that is no string. -/
def plainScalar (cs : List Char) : Except ReadFault (Scalar × List Char) :=
  match cs with
  | '-' :: rest =>
    match word? "Infinity" rest with
    | some after => .ok (.float (.infinite true), after)
    | none => unsigned true rest
  | _ =>
    match word? "null" cs, word? "true" cs, word? "false" cs, word? "Infinity" cs with
    | some after, _, _, _ => .ok (.null, after)
    | _, some after, _, _ => .ok (.bool true, after)
    | _, _, some after, _ => .ok (.bool false, after)
    | _, _, _, some after => .ok (.float (.infinite false), after)
    | _, _, _, _ => unsigned false cs

/-- A string after its opening mark. -/
def string (fuel : Nat) (cs : List Char) : Except ReadFault (String × List Char) :=
  match stringRest? fuel [] cs with
  | some parsed => .ok parsed
  | none => .error .badJson

mutual

/-- A value at the start of a text without blanks in front. -/
def value : Nat → List Char → Except ReadFault (Value × List Char)
  | 0, _ => .error .badJson
  | fuel + 1, cs =>
    match cs with
    | '"' :: rest => (string fuel rest).map fun (s, after) => (.text s, after)
    | '[' :: rest =>
      match skip rest with
      | ']' :: after => .ok (.list [], after)
      | body => (items fuel body).map fun (items, after) => (.list items, after)
    | '\x7b' :: rest =>
      match skip rest with
      | '\x7d' :: after => .ok (.mapping [], after)
      | body =>
        (members fuel body).map fun (members, after) =>
          (.mapping (Table.ofList members), after)
    | _ => (plainScalar cs).map fun (s, after) => (.scalar s, after)

/-- The items of a list up to its closing bracket. -/
def items : Nat → List Char → Except ReadFault (List Value × List Char)
  | 0, _ => .error .badJson
  | fuel + 1, cs => do
    let (item, rest) ← value fuel cs
    match skip rest with
    | ']' :: after => .ok ([item], after)
    | ',' :: more =>
      (items fuel (skip more)).map fun (items, after) => (item :: items, after)
    | _ => .error .badJson

/-- The members of a mapping up to its closing brace. -/
def members : Nat → List Char → Except ReadFault (List (Scalar × Value) × List Char)
  | 0, _ => .error .badJson
  | fuel + 1, cs =>
    match cs with
    | '"' :: start => do
      let (name, rest) ← string fuel start
      match skip rest with
      | ':' :: body => do
        let (v, rest) ← value fuel (skip body)
        match skip rest with
        | '\x7d' :: after => .ok ([(.text name, v)], after)
        | ',' :: more =>
          (members fuel (skip more)).map fun (members, after) =>
            ((.text name, v) :: members, after)
        | _ => .error .badJson
      | _ => .error .badJson
    | _ => .error .badJson

end

/-- The value that a text is.  Every step of the reader passes over a character or descends
once from one reader to another, so twice the length is fuel enough. -/
def read (cs : List Char) : Except ReadFault Value := do
  let (v, rest) ← value (2 * cs.length + 2) (skip cs)
  if (skip rest).isEmpty then .ok v else .error .badJson

/-- The value that a text is, if it is one. -/
def read? (cs : List Char) : Option Value := (read cs).toOption

end Json

end ProfileCompiler
