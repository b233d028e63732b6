import Mathlib

/-!
# Wire records

The closed spans the console receives (protocol.rs).  Identifiers and times are the
`u64`s of the source, kept as naturals; a field value prints through
`WireFieldValue.toStringValue`, which for a float is the standard library's `Display`:
the shortest decimal that reads back as the same float, written without an exponent.
-/

set_option autoImplicit false

namespace TracingConsole.Model

/-! ## Printing a float -/

/-- INTERNAL: an IEEE double, by its bit pattern.
SRCLINE: protocol.rs:17-24 -/
structure F64 where
  bits : BitVec 64
deriving DecidableEq

namespace F64

/-- INTERNAL: the decimal `digits · 10^exp10` in positional notation. -/
def positional (digits : ℕ) (exp10 : ℤ) : String :=
  let text := toString digits
  if 0 ≤ exp10 then text ++ "".pushn '0' exp10.toNat
  else
    let places := (-exp10).toNat
    if places < text.length then
      String.ofList (text.toList.take (text.length - places)) ++ "." ++
        String.ofList (text.toList.drop (text.length - places))
    else "0." ++ "".pushn '0' (places - text.length) ++ text

/-- INTERNAL: the shortest decimal between the two neighbours' midpoints of
`mant · 2^exp2`, nearest to it; `minus` and `plus` are the distances to the midpoints in
the unit of `mant`, which are attained when `inclusive`.  The exponent is searched from
`exp10` down. -/
def shortest (mant minus plus : ℕ) (exp2 : ℤ) (inclusive : Bool) : ℕ → ℤ → ℕ × ℤ
  | 0, exp10 => (mant, exp10)
  | fuel + 1, exp10 =>
    -- both sides of a comparison are scaled to integers
    let num := 2 ^ exp2.toNat * 10 ^ (-exp10).toNat
    let den := 2 ^ (-exp2).toNat * 10 ^ exp10.toNat
    let low := (mant - minus) * num
    let high := (mant + plus) * num
    let digits := mant * num / den
    let rem := mant * num % den
    let down := if inclusive then low ≤ digits * den else low < digits * den
    let up := if inclusive then (digits + 1) * den ≤ high else (digits + 1) * den < high
    if up ∧ (¬ down ∨ den ≤ 2 * rem) then (digits + 1, exp10)
    else if down then (digits, exp10)
    else shortest mant minus plus exp2 inclusive fuel (exp10 - 1)

/-- INTERNAL: `Display` of a double.
SRCLINE: protocol.rs:26-36 -/
def display (x : F64) : String :=
  let sign := if x.bits.msb then "-" else ""
  let exponent : ℕ := (x.bits.toNat / 2 ^ 52) % 2 ^ 11
  let fraction := x.bits.toNat % 2 ^ 52
  if exponent = 2 ^ 11 - 1 then
    if fraction = 0 then sign ++ "inf" else "NaN"
  else if exponent = 0 ∧ fraction = 0 then sign ++ "0"
  else
    let mant := if exponent = 0 then 2 * fraction else fraction + 2 ^ 52
    let exp2 : ℤ := (exponent : ℤ) - 1075
    -- the neighbour below a power of two is half as far away as the one above
    let (digits, exp10) :=
      if exponent = 0 then shortest mant 1 1 exp2 (mant / 2 % 2 = 0) 700 310
      else if fraction = 0 then shortest (4 * mant) 1 2 (exp2 - 2) (mant % 2 = 0) 700 310
      else shortest (2 * mant) 1 1 (exp2 - 1) (mant % 2 = 0) 700 310
    sign ++ positional digits exp10

end F64

/-! ## Field values, events and spans -/

/-- INTERNAL: the wire representation of a captured field value.
SRCLINE: protocol.rs:11-24 -/
inductive WireFieldValue where
  | u64 (v : ℕ)
  | i64 (v : ℤ)
  | f64 (v : F64)
  | bool (v : Bool)
  | str (s : String)
deriving DecidableEq

/-- INTERNAL: the printable form of a field value.
SRCLINE: protocol.rs:26-36 -/
def WireFieldValue.toStringValue : WireFieldValue → String
  | .u64 v => toString v
  | .i64 v => toString v
  | .f64 v => v.display
  | .bool v => toString v
  | .str s => s

/-- INTERNAL: the level of a span or an event.
SRCLINE: protocol.rs:62-69 -/
inductive WireLevel where
  | trace | debug | info | warn | error
deriving DecidableEq

/-- INTERNAL: an event recorded inside a span.
SRCLINE: protocol.rs:95-102 -/
structure WireEvent where
  name : String
  level : WireLevel
  fields : List (String × WireFieldValue)
  recordedAtNs : ℕ
deriving DecidableEq

/-- INTERNAL: a span as the host streams it; `closedAtNs` is `none` while it is open.
SRCLINE: protocol.rs:104-117 -/
structure WireSpan where
  id : ℕ
  parentId : Option ℕ
  name : String
  target : String
  level : WireLevel
  fields : List (String × WireFieldValue)
  events : List WireEvent
  openedAtNs : ℕ
  closedAtNs : Option ℕ
deriving DecidableEq

end TracingConsole.Model
