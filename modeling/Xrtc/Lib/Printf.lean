import Mathlib.Data.Int.Log
import Mathlib.Data.Rat.Floor
import Xrtc.Lib.Utf8

/-!
# Go's fmt.Sprintf

A directive is parsed in one step, since where it ends does not depend on the arguments, and then
carried out. Formats and texts are byte strings. What an argument looks like to the formatter is an
`Operand`, so it may have methods of its own.
-/

namespace Xrtc.Lib.Printf

def text (s : String) : List UInt8 := Utf8.encode s.toList

def percent : UInt8 := '%'.toUInt8

structure Flags where
  sharp : Bool := false
  zero : Bool := false
  plus : Bool := false
  minus : Bool := false
  space : Bool := false
  deriving DecidableEq

structure Spec extends Flags where
  wid : Option Nat := none
  prec : Option Nat := none
  deriving DecidableEq

/-- An argument: the name of its type, if it is not nil; its value, if it is an integer; and what
it prints for a verb. -/
structure Operand where
  typeString : Option (List UInt8)
  asInt : Option Int
  print : Spec → Char → List UInt8

/-! ## Parsing a directive -/

inductive Index
  | absent
  | malformed
  | number (n : Nat)
  deriving DecidableEq

inductive Size
  | absent
  | star
  | digits (n : Nat)
  deriving DecidableEq

/-- What stands between a `%` and the end of its verb. -/
structure Directive where
  flags : Flags
  index : Index
  width : Size
  precision : Option (Index × Size)
  last : Index
  verb : Option Char
  deriving DecidableEq

def parseFlags (flags : Flags) : List UInt8 → Flags × List UInt8
  | [] => (flags, [])
  | c :: format =>
      if c = '#'.toUInt8 then parseFlags { flags with sharp := true } format
      else if c = '0'.toUInt8 then parseFlags { flags with zero := !flags.minus } format
      else if c = '+'.toUInt8 then parseFlags { flags with plus := true } format
      else if c = '-'.toUInt8 then parseFlags { flags with minus := true, zero := false } format
      else if c = ' '.toUInt8 then parseFlags { flags with space := true } format
      else (flags, c :: format)

def limit : Nat := 1000000

/-- The loop of `parsenum`, which has read `num`; a long number takes the rest of the text with it. -/
def parsenumFrom (num : Option Nat) : List UInt8 → Option Nat × List UInt8
  | [] => (num, [])
  | c :: s =>
      if '0'.toUInt8 ≤ c ∧ c ≤ '9'.toUInt8 then
        if limit < num.getD 0 then (none, [])
        else parsenumFrom (some (num.getD 0 * 10 + (c.toNat - '0'.toNat))) s
      else (num, c :: s)

def parsenum (s : List UInt8) : Option Nat × List UInt8 := parsenumFrom none s

def parseBracket (format : List UInt8) : Index × List UInt8 :=
  if format.length < 2 then (.malformed, format)
  else
    match format.dropWhile (· ≠ ']'.toUInt8) with
    | [] => (.malformed, format)
    | _ :: behind =>
        match parsenum (format.takeWhile (· ≠ ']'.toUInt8)) with
        | (some n, []) => (.number n, behind)
        | _ => (.malformed, behind)

def parseIndex : List UInt8 → Index × List UInt8
  | [] => (.absent, [])
  | c :: format => if c = '['.toUInt8 then parseBracket format else (.absent, c :: format)

def parseNumber (format : List UInt8) : Size × List UInt8 :=
  match parsenum format with
  | (none, format) => (.absent, format)
  | (some n, format) => (.digits n, format)

def parseSize : List UInt8 → Size × List UInt8
  | [] => (.absent, [])
  | c :: format => if c = '*'.toUInt8 then (.star, format) else parseNumber (c :: format)

def parsePrecision : List UInt8 → Option (Index × Size) × List UInt8
  | [] => (none, [])
  | c :: format =>
      if c = '.'.toUInt8 then
        let (index, format) := parseIndex format
        let (size, format) := parseSize format
        (some (index, size), format)
      else (none, c :: format)

def parseVerb : List UInt8 → Option Char × List UInt8
  | [] => (none, [])
  | c :: format =>
      if c < 0x80 then (some (Char.ofUInt8 c), format)
      else
        match Utf8.decodeRune (c :: format) with
        | none => (some Utf8.replacement, format)
        | some verb => (some verb, format.drop (verb.utf8Size - 1))

def Index.found : Index → Bool
  | .number _ => true
  | _ => false

/-- `afterIndex` behind an index and a width or a precision. -/
def afterIndex (index : Index) (size : Size) : Bool := index.found && size ≠ .star

def parse (format : List UInt8) : Directive × List UInt8 :=
  let (flags, format) := parseFlags {} format
  let (index, format) := parseIndex format
  let (width, format) := parseSize format
  let (precision, format) := parsePrecision format
  let after := precision.elim (afterIndex index width) fun p => afterIndex p.1 p.2
  let (last, format) := if after then (.absent, format) else parseIndex format
  let (verb, format) := parseVerb format
  (⟨flags, index, width, precision, last, verb⟩, format)

/-! ## Carrying it out -/

/-- `buf` is what the present directive has written. -/
structure Pp where
  argNum : Nat := 0
  reordered : Bool := false
  goodArgNum : Bool := true
  fmt : Spec := {}
  buf : List UInt8 := []

namespace Pp

def writeString (p : Pp) (s : List UInt8) : Pp := { p with buf := p.buf ++ s }

def argNumber (p : Pp) (numArgs : Nat) : Index → Pp
  | .absent => p
  | .malformed => { p with reordered := true, goodArgNum := false }
  | .number n =>
      if 1 ≤ n ∧ n ≤ numArgs then { p with reordered := true, argNum := n - 1 }
      else { p with reordered := true, goodArgNum := false }

/-- The number at `argNum`, if it is one of a bearable size, and the next position. -/
def intFromArg (p : Pp) (args : List Operand) : Option Int × Nat :=
  match args[p.argNum]? with
  | none => (none, p.argNum)
  | some arg => (arg.asInt.filter fun num => num.natAbs ≤ limit, p.argNum + 1)

/-- A negative width is a flag and a width. -/
def starWidth (fmt : Spec) (num : Int) : Spec :=
  if num < 0 then { fmt with wid := some num.natAbs, minus := true, zero := false }
  else { fmt with wid := some num.natAbs }

def width (p : Pp) (args : List Operand) (afterIndex : Bool) : Size → Pp
  | .absent => p
  | .digits n => { p with fmt := { p.fmt with wid := some n }, goodArgNum := p.goodArgNum && !afterIndex }
  | .star =>
      match p.intFromArg args with
      | (none, next) => { p with argNum := next }.writeString (text "%!(BADWIDTH)")
      | (some num, next) => { p with argNum := next, fmt := starWidth p.fmt num }

def precision (p : Pp) (args : List Operand) : Size → Pp
  | .absent => { p with fmt := { p.fmt with prec := some 0 } }
  | .digits n => { p with fmt := { p.fmt with prec := some n } }
  | .star =>
      match p.intFromArg args with
      | (none, next) => { p with argNum := next }.writeString (text "%!(BADPREC)")
      | (some num, next) =>
          if num < 0 then { p with argNum := next }.writeString (text "%!(BADPREC)")
          else { p with argNum := next, fmt := { p.fmt with prec := some num.natAbs } }

/-- `%!v(reason)`, and `%!(reason)` without a verb. -/
def complaint (verb : List Char) (reason : String) : List UInt8 :=
  text "%!" ++ Utf8.encode verb ++ text reason

def verb (p : Pp) (args : List Operand) : Option Char → Pp
  | none => p.writeString (complaint [] "(NOVERB)")
  | some verb =>
      if verb = '%' then p.writeString [percent]
      else if !p.goodArgNum then p.writeString (complaint [verb] "(BADINDEX)")
      else
        match args[p.argNum]? with
        | none => p.writeString (complaint [verb] "(MISSING)")
        | some arg => { p with argNum := p.argNum + 1 }.writeString (arg.print p.fmt verb)

def afterDot (p : Pp) (args : List Operand) (afterIndex : Bool) : Option (Index × Size) → Pp
  | none => p
  | some (index, size) =>
      ({ p with goodArgNum := p.goodArgNum && !afterIndex }.argNumber args.length index).precision args size

def directive (p : Pp) (args : List Operand) (d : Directive) : Pp :=
  let p := { p with goodArgNum := true, fmt := { d.flags with }, buf := [] }
  let p := p.argNumber args.length d.index
  let p := p.width args d.index.found d.width
  let p := p.afterDot args (afterIndex d.index d.width) d.precision
  let p := p.argNumber args.length d.last
  p.verb args d.verb

end Pp

def extraText (arg : Operand) : List UInt8 :=
  match arg.typeString with
  | none => text "<nil>"
  | some name => name ++ text "=" ++ arg.print {} 'v'

def extra (args : List Operand) (p : Pp) : List UInt8 :=
  if !p.reordered ∧ p.argNum < args.length then
    text "%!(EXTRA " ++ (text ", ").intercalate ((args.drop p.argNum).map extraText) ++ text ")"
  else []

/-- The loop of `doPrintf`; every turn takes at least one byte of the format. -/
def doPrintf (args : List Operand) : (fuel : Nat) → Pp → List UInt8 → List UInt8
  | _, p, [] => extra args p
  | 0, _, _ => []
  | fuel + 1, p, c :: format =>
      if c ≠ percent then c :: doPrintf args fuel p format
      else
        let (d, format) := parse format
        let p := p.directive args d
        p.buf ++ doPrintf args fuel p format

def sprintf (format : List UInt8) (args : List Operand) : List UInt8 :=
  doPrintf args format.length {} format

/-! ## Strings and floating-point numbers as operands -/

/-- The first `n` characters; the first `skip` bytes belong to a character that is already there. -/
def takeRunes : (n skip : Nat) → List UInt8 → List UInt8
  | _, _, [] => []
  | n, skip + 1, c :: s => c :: takeRunes n skip s
  | 0, 0, _ => []
  | n + 1, 0, c :: s =>
      let size := (Utf8.decodeRune (c :: s)).elim 1 Char.utf8Size
      c :: takeRunes n (size - 1) s

def padString (fmt : Spec) (s : List UInt8) : List UInt8 :=
  match fmt.wid with
  | none => s
  | some wid =>
      let padding := List.replicate (wid - (Utf8.runes s).length)
        (if fmt.zero then '0'.toUInt8 else ' '.toUInt8)
      if fmt.minus then s ++ padding else padding ++ s

def fmtS (fmt : Spec) (s : List UInt8) : List UInt8 :=
  padString fmt (fmt.prec.elim s fun n => takeRunes n 0 s)

def badVerb (name value : List UInt8) (verb : Char) : List UInt8 :=
  Pp.complaint [verb] "(" ++ (name ++ text "=" ++ value ++ text ")")

/-- A string, with the verb `%s` only. -/
def Operand.string (s : List UInt8) : Operand where
  typeString := text "string"
  asInt := none
  print fmt verb := if verb = 's' then fmtS fmt s else badVerb (text "string") s verb

/-- The nearest integer, and the even one of two. -/
def roundEven (x : ℚ) : Int :=
  let below := x.floor
  let rest := x - below
  if rest < 1 / 2 ∨ rest = 1 / 2 ∧ below % 2 = 0 then below else below + 1

/-- The nearest number with a significand of 53 bits, for a number in the range of `float64`. -/
def round64 (x : ℚ) : ℚ :=
  let unit : ℚ := 2 ^ (Int.log 2 |x| - 52)
  roundEven (x / unit) * unit

def decimal (n : Nat) : List UInt8 := text (toString n)

/-- A number that is not negative, with `prec` decimals. -/
def fixed (prec : Nat) (x : ℚ) : List UInt8 :=
  let n := (roundEven (x * 10 ^ prec)).toNat
  let decimals := decimal (n % 10 ^ prec)
  if prec = 0 then decimal n
  else decimal (n / 10 ^ prec) ++ text "." ++
    List.replicate (prec - decimals.length) '0'.toUInt8 ++ decimals

/-- A `float64` that is not negative, with the verb `%f` without flags only. -/
def Operand.float64 (x : ℚ) : Operand where
  typeString := text "float64"
  asInt := none
  print fmt verb :=
    if verb = 'f' then padString fmt (fixed (fmt.prec.getD 6) x)
    else badVerb (text "float64") (fixed 6 x) verb

end Xrtc.Lib.Printf
