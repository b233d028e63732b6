import TracingConsole.Library.BinaryFormat

/-!
# Modal inputs

The buffers a user types into (core.rs:20-43, 66-77) and what is read from them
(graph.rs:470-537).  A number that was typed becomes the nearest `f64`, which may be an infinity
or zero; a double is the rational it stands for.
-/

set_option autoImplicit false

namespace TracingConsole.Model

open TracingConsole.Library

/-! ## Buffers -/

/-- INTERNAL: SRCLINE: core.rs:28-30 -/
def openModal : Option String := some ""

/-- INTERNAL: SRCLINE: core.rs:32-36 -/
def closeModal : Option String := none

/-- INTERNAL: SRCLINE: core.rs:38-43 -/
def backspaceModal (slot : Option String) : Option String :=
  slot.map fun buf => String.ofList buf.toList.dropLast

/-- INTERNAL: the buffer with `c` at its end, if `c` is kept.
SRCLINE: core.rs:66-77 -/
def pushDigitOrDecimal (buf : String) (c : Char) : Option String :=
  if c.isDigit || (c = '.' && !buf.contains '.') then some (buf.push c) else none

/-! ## Reading a number -/

/-- INTERNAL: the number the digits denote. -/
def digitsValue (digits : List Char) : ℕ :=
  digits.foldl (fun n c => 10 * n + (c.toNat - '0'.toNat)) 0

/-- INTERNAL: a sign, and what follows it. -/
def parseSign : List Char → Bool × List Char
  | '-' :: rest => (true, rest)
  | '+' :: rest => (false, rest)
  | rest => (false, rest)

/-- INTERNAL: an exponent, up to the end. -/
def parseExponent : List Char → Option ℤ
  | [] => some 0
  | c :: rest =>
    let (negative, digits) := parseSign rest
    if (c = 'e' ∨ c = 'E') ∧ digits ≠ [] ∧ digits.all Char.isDigit then
      some (if negative then -(digitsValue digits : ℤ) else digitsValue digits)
    else none

/-- INTERNAL: a number without sign: digits, possibly with a point, and an exponent. -/
def parseNumber (text : List Char) : Option ℚ :=
  let (whole, rest) := text.span Char.isDigit
  let (fraction, rest) := match rest with
    | '.' :: rest => rest.span Char.isDigit
    | rest => ([], rest)
  if whole = [] ∧ fraction = [] then none
  else
    (parseExponent rest).map fun exponent =>
      (digitsValue (whole ++ fraction) : ℚ) * (10 : ℚ) ^ (exponent - (fraction.length : ℤ))

/-- INTERNAL: the nearest `f64` of a number that is not negative; `none` is an infinity. -/
def nearestDouble (v : ℚ) : Option ℚ :=
  let r := roundNearest 53 (-1074) v
  if 2 ^ 1024 ≤ r then none else some r

/-- INTERNAL: `parse::<f64>` where only a finite number is of use: `none` also stands for an
infinity and a NaN. -/
def parseDouble (text : String) : Option ℚ :=
  let (negative, rest) := parseSign text.toList
  (parseNumber rest).bind fun v =>
    (nearestDouble v).map fun r => if negative then -r else r

/-- INTERNAL: the number itself, not yet rounded, of a text whose nearest double is finite; what
rounds to zero is zero. -/
def parseFinite (text : String) : Option ℚ :=
  let (negative, rest) := parseSign text.toList
  (parseNumber rest).bind fun v =>
    (nearestDouble v).map fun r => if r = 0 then 0 else if negative then -v else v

/-- INTERNAL: Unicode white space. -/
def isWhiteSpace (c : Char) : Bool :=
  let n := c.toNat
  (9 ≤ n ∧ n ≤ 13) ∨ n = 0x20 ∨ n = 0x85 ∨ n = 0xA0 ∨ n = 0x1680 ∨ (0x2000 ≤ n ∧ n ≤ 0x200A) ∨
    n = 0x2028 ∨ n = 0x2029 ∨ n = 0x202F ∨ n = 0x205F ∨ n = 0x3000

/-- INTERNAL: `str::trim`. -/
def trimText (text : String) : String :=
  String.ofList (((text.toList.dropWhile isWhiteSpace).reverse.dropWhile isWhiteSpace).reverse)

/-- INTERNAL: `str::to_ascii_lowercase`. -/
def asciiLowercase (text : String) : String := String.ofList (text.toList.map Char.toLower)

/-- INTERNAL: the product of two doubles, of which none is negative; it may be infinite. -/
def timesDouble (v multiplier : ℚ) : WithTop ℚ :=
  match nearestDouble (v * multiplier) with
  | some r => (r : WithTop ℚ)
  | none => ⊤

/-- INTERNAL: seconds, or minutes with the suffix `m`.
SRCLINE: graph.rs:470-499 -/
def parseLookbackInput (s : String) : Option (WithTop ℚ) :=
  let s := trimText s
  if s.toList = [] then none
  else
    let (num, multiplier) := match s.toList.getLast? with
      | some 'm' => (String.ofList s.toList.dropLast, (60 : ℚ))
      | some 's' => (String.ofList s.toList.dropLast, 1)
      | _ => (s, 1)
    (parseDouble num).bind fun v => if v ≤ 0 then none else some (timesDouble v multiplier)

/-- INTERNAL: how the samples of a bin become one value.
SRCLINE: graph.rs:60-70 -/
inductive AggMode where
  | min
  | max
  | avg
  | percentile (p : ℚ)
deriving DecidableEq

/-- INTERNAL: SRCLINE: graph.rs:501-537 -/
def parseAggInput (s : String) : Option AggMode :=
  let s := asciiLowercase (trimText s)
  if s = "a" ∨ s = "avg" then some .avg
  else if s = "min" then some .min
  else if s = "max" then some .max
  else
    match s.toList with
    | 'p' :: rest =>
      if rest = [] then none
      else
        (parseDouble (String.ofList rest)).bind fun v =>
          if v < 0 then none
          else if v = 0 then some .min
          else if 100 ≤ v then some .max
          else some (.percentile v)
    | _ => none

end TracingConsole.Model
