import ProfileCompiler.Number.Rounded
import ProfileCompiler.Value.Printer

/-!
# Message templates

A template is a text with places for arguments.  A place is a percent sign, the name of an
argument in brackets where arguments have names, flags, a width, a precision, and a letter
that says how the argument is written:

* `s` plainly, `r` quoted, `a` quoted in ASCII, `c` as a single character;
* `d`, `i`, `u` as an integer, `o` in eights, `x` in sixteens;
* `f` with a fixed number of decimals, `e` with an exponent, `g` in the layout that suits.

Two percent signs stand for one.  A star instead of a width or a precision takes it from the
arguments.

`Template.fill` reads a template from left to right and stops at the first fault.
-/

namespace ProfileCompiler

namespace Template

/-- Why a template cannot be filled. -/
inductive TemplateFault where
  /-- There are fewer arguments than places. -/
  | tooFew
  /-- There are more arguments than places. -/
  | tooMany
  /-- An argument is not of the kind that its place asks for. -/
  | wrongKind
  /-- A number is beyond what its place can hold. -/
  | outOfRange
  /-- A place is wider than any text can be. -/
  | tooWide
  /-- An integer has too many digits to be written in its place. -/
  | overlongNumber
  /-- A place names an argument that is not there. -/
  | unnamed (name : String)
  /-- A place is not finished, or has a letter without meaning. -/
  | unknownPlace
deriving DecidableEq, Repr

/-- A place for an argument. -/
structure Place where
  flags : List Char
  width : Nat
  precision : Option Nat
  letter : Char
deriving Repr

/-! ## Arguments in their places -/

namespace Place

/-- Whether a place has a flag. -/
def has (p : Place) (flag : Char) : Bool := p.flags.contains flag

/-- A text filled up with blanks to the width of its place. -/
def pad (p : Place) (cs : List Char) : List Char :=
  let blanks := List.replicate (p.width - cs.length) ' '
  if p.has '-' then cs ++ blanks else blanks ++ cs

/-- The sign of a number in a place. -/
def sign (p : Place) (negative : Bool) : List Char :=
  if negative then ['-'] else if p.has '+' then ['+'] else if p.has ' ' then [' '] else []

/-- The digits of a number with its sign and the mark of its base, filled up to the width of
the place: with zeros before the digits where a flag asks for them, else with blanks. -/
def numeral (p : Place) (negative : Bool) (mark digits : List Char) : List Char :=
  let start := p.sign negative ++ mark
  if p.has '0' && !p.has '-' then
    start ++ List.replicate (p.width - start.length - digits.length) '0' ++ digits
  else p.pad (start ++ digits)

/-- Digits with zeros in front up to the precision of the place. -/
def atLeast (p : Place) (digits : List Char) : List Char :=
  List.replicate (p.precision.getD 0 - digits.length) '0' ++ digits

/-- A text cut to the precision of the place and filled up to its width. -/
def fit (p : Place) (cs : List Char) : List Char :=
  p.pad (p.precision.elim cs fun n => cs.take n)

/-- Letters in capitals where the letter of the place is one. -/
def inCase (p : Place) (cs : List Char) : List Char :=
  if p.letter.isUpper then cs.map Char.toUpper else cs

end Place

/-- The integer that an argument is. -/
def wholeNumber (v : Value) : Except TemplateFault Int :=
  match v with
  | .scalar (.int n) => .ok n
  | .scalar (.bool b) => .ok (if b then 1 else 0)
  | _ => .error .wrongKind

/-- The integer that an argument is or is cut to. -/
def integer (v : Value) : Except TemplateFault Int :=
  match v with
  | .scalar (.float x) =>
    match x.quantity with
    | .finite q => .ok (q.num.tdiv q.den)
    | .infinite _ => .error .outOfRange
  | v => wholeNumber v

/-- The floating-point number that an argument stands for. -/
def float (v : Value) : Except TemplateFault Binary64 :=
  match v with
  | .scalar (.float x) => .ok x
  | v => do
    match Binary64.ofRat (← wholeNumber v) with
    | .infinite _ => .error .outOfRange
    | x => .ok x

/-- The character that an argument is or is the number of. -/
def character (v : Value) : Except TemplateFault Char :=
  match v with
  | .scalar (.text s) =>
    match s.toList with
    | [c] => .ok c
    | _ => .error .wrongKind
  | v => do
    let n ← wholeNumber v
    if 0 ≤ n ∧ n < 0x110000 then .ok (Char.ofNat n.toNat) else .error .outOfRange

/-- The precisions that an integer may be written with lie below this. -/
def digitsLimit : Nat := Nat.pow 2 31 - 3

/-- An integer written in a base. -/
def writeInBase (p : Place) (base : Nat) (mark : List Char) (n : Int) :
    Except TemplateFault (List Char) :=
  if digitsLimit ≤ p.precision.getD 0 then .error .outOfRange
  else
    let mark := if p.has '#' then mark else []
    .ok (p.numeral (n < 0) (p.inCase mark) (p.inCase (p.atLeast (Nat.toDigits base n.natAbs))))

/-- An integer written in decimal digits, if they are not too many. -/
def writeDecimal (p : Place) (n : Int) : Except TemplateFault (List Char) := do
  let digits ← writeInBase p 10 [] n
  let _ ← Text.written .overlongNumber (Text.decimal? n)
  .ok digits

/-- A floating-point number written with the layout given for magnitudes. -/
def writeFloat (p : Place) (layout : Bool → Nat → Rat → List Char) (x : Binary64) : List Char :=
  match x with
  | .infinite negative => p.numeral negative [] (p.inCase ['i', 'n', 'f'])
  | .finite negative significand exponent =>
    let magnitude := significand * twoTo exponent
    p.numeral negative [] (p.inCase (layout (p.has '#') (p.precision.getD 6) magnitude))

/-- A written form of an argument, if it has one. -/
def shown (form? : Option String) : Except TemplateFault (List Char) :=
  (Text.written .overlongNumber form?).map String.toList

/-- An argument written in its place. -/
def write (p : Place) (v : Value) : Except TemplateFault (List Char) :=
  match p.letter with
  | 's' => (shown v.plain?).map p.fit
  | 'r' => (shown v.quoted?).map p.fit
  | 'a' => (shown v.quoted?).map fun cs => p.fit (cs.flatMap Text.asciiChar)
  | 'c' => (character v).map fun c => p.pad [c]
  | 'd' | 'i' | 'u' => integer v >>= writeDecimal p
  | 'o' => wholeNumber v >>= writeInBase p 8 ['0', 'o']
  | 'x' | 'X' => wholeNumber v >>= writeInBase p 16 ['0', 'x']
  | 'f' | 'F' => (float v).map (writeFloat p fixedText)
  | 'e' | 'E' => (float v).map (writeFloat p scientificText)
  | 'g' | 'G' => (float v).map (writeFloat p generalText)
  | _ => .error .unknownPlace

/-- The widths that a text can have lie below this. -/
def textLimit : Nat := Nat.pow 2 32

/-- An argument written in its place, if a text can be as wide as the place. -/
def put (p : Place) (v : Value) : Except TemplateFault (List Char) :=
  if p.width < textLimit then write p v
  else write ⟨p.flags, 0, p.precision, p.letter⟩ v >>= fun _ => .error .tooWide

/-! ## Reading places -/

/-- The size of the name that ends at the bracket which closes the given number of open ones,
if that bracket is there. -/
def nameSize? : Nat → List Char → Option Nat
  | 0, _ => some 0
  | _ + 1, [] => none
  | depth + 1, c :: rest =>
    let deeper := if c == '(' then depth + 2 else if c == ')' then depth else depth + 1
    if deeper = 0 then some 0 else (nameSize? deeper rest).map (· + 1)

/-- What is left of a template and of its arguments. -/
structure Rest where
  text : List Char
  arguments : List Value
deriving Repr

/-- Reads the name of an argument, if there is one.  From then on the argument of that name is
the only one left. -/
def readName (named : Option Entries) (r : Rest) : Except TemplateFault Rest :=
  match r.text with
  | '(' :: text =>
    match named, nameSize? 1 text with
    | none, _ => .error .wrongKind
    | some _, none => .error .unknownPlace
    | some entries, some size =>
      let name := String.ofList (text.take size)
      match Table.get? (Scalar.text name) entries with
      | none => .error (.unnamed name)
      | some v => .ok ⟨text.drop (size + 1), [v]⟩
  | _ => .ok r

/-- The number that digits stand for. -/
def number (digits : List Char) : Nat := digits.foldl (fun n c => 10 * n + (c.toNat - 48)) 0

/-- Reads a size: digits, or a star that takes an argument.  It lies below the limit, and not
below the limit's negative.  Without digits the size is zero. -/
def readSize (limit : Nat) (r : Rest) : Except TemplateFault (Int × Rest) :=
  match r.text with
  | '*' :: text =>
    match r.arguments with
    | [] => .error .tooFew
    | v :: arguments => do
      let n ← wholeNumber v
      if -(limit : Int) ≤ n ∧ n < limit then .ok (n, ⟨text, arguments⟩) else .error .outOfRange
  | text =>
    let digits := text.takeWhile Char.isDigit
    if number digits < limit then .ok (number digits, ⟨text.drop digits.length, r.arguments⟩)
    else .error .unknownPlace

/-- The sizes that a width may have lie below this. -/
def widthLimit : Nat := Nat.pow 2 63

/-- The sizes that a precision may have lie below this. -/
def precisionLimit : Nat := Nat.pow 2 31

/-- Reads a precision, if there is one.  A precision below zero counts as zero. -/
def readPrecision (r : Rest) : Except TemplateFault (Option Nat × Rest) :=
  match r.text with
  | '.' :: text => (readSize precisionLimit ⟨text, r.arguments⟩).map fun (n, r) => (some n.toNat, r)
  | _ => .ok (none, r)

/-- Reads the place that starts after a percent sign.  A width below zero asks for filling up
on the right; the least of all asks for none.  One letter that tells of a size is passed
over. -/
def readPlace (named : Option Entries) (r : Rest) : Except TemplateFault (Place × Rest) := do
  let r ← readName named r
  let flags := r.text.takeWhile ("-+ 0#".toList.contains ·)
  let (width, r) ← readSize widthLimit ⟨r.text.drop flags.length, r.arguments⟩
  let flags := if width < 0 then '-' :: flags else flags
  let (precision, r) ← readPrecision r
  let text :=
    match r.text with
    | 'h' :: text | 'l' :: text | 'L' :: text => text
    | text => text
  match text with
  | [] => .error .unknownPlace
  | letter :: text =>
    let width := if width.natAbs < widthLimit then width.natAbs else 0
    .ok (⟨flags, width, precision, letter⟩, ⟨text, r.arguments⟩)

/-! ## Filling a template -/

/-- The template with the given arguments in its places.  Arguments that are named need not be
used; others must be. -/
def fillFrom (named : Option Entries) : Nat → Rest → Except TemplateFault (List Char)
  | 0, _ => .error .unknownPlace
  | fuel + 1, r =>
    match r.text with
    | [] => if r.arguments.isEmpty || named.isSome then .ok [] else .error .tooMany
    | '%' :: '%' :: text => (fillFrom named fuel ⟨text, r.arguments⟩).map ('%' :: ·)
    | '%' :: text => do
      let (p, r) ← readPlace named ⟨text, r.arguments⟩
      match r.arguments with
      | [] => .error .tooFew
      | v :: arguments => do
        let written ← put p v
        (fillFrom named fuel ⟨r.text, arguments⟩).map (written ++ ·)
    | c :: text => (fillFrom named fuel ⟨text, r.arguments⟩).map (c :: ·)

/-- The only argument as a mapping, if it is one that is not empty. -/
def named? : List Value → Option Entries
  | [.mapping (e :: entries)] => some (e :: entries)
  | _ => none

/-- The template with arguments in its places.  Without arguments it stays as it is. -/
def fill (template : String) (args : List Value) : Except TemplateFault String :=
  if args.isEmpty then .ok template
  else
    let cs := template.toList
    (fillFrom (named? args) (cs.length + 1) ⟨cs, args⟩).map String.ofList

end Template

end ProfileCompiler
