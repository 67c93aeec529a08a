/-!
# Numbers

A number is kept by its digits. Where its size matters it stands for an integer of 64 bits if it is
written as one and fits, and for a double otherwise. The double is an estimate in two roundings: the
digits are gathered into a significand of 64 bits, and that is scaled by a power of ten.
-/

namespace FilterTree

/-- The parts of a written number. There is no exponent if none is written. -/
structure Number where
  negative : Bool
  whole : List Char
  fraction : List Char
  exponent : Option Int

namespace Number

def digit (c : Char) : Nat := c.toNat - '0'.toNat

def ofDigits (ds : List Char) : Nat := ds.foldl (fun n d => 10 * n + digit d) 0

/-- The digits of an exponent with the sign before them. -/
def signed : List Char → Int
  | '-' :: ds => -(ofDigits ds : Int)
  | '+' :: ds => ofDigits ds
  | ds => ofDigits ds

/-- The parts of a number that is written according to the grammar. -/
def read (text : String) : Number :=
  let (sign, rest) := text.toList.span (· = '-')
  let (whole, rest) := rest.span Char.isDigit
  let (fraction, rest) :=
    match rest with
    | '.' :: rest => rest.span Char.isDigit
    | rest => ([], rest)
  let exponent :=
    match rest with
    | [] => none
    | _ :: power => some (signed power)
  { negative := !sign.isEmpty, whole, fraction, exponent }

/-- The integer that is written without fraction and exponent, if 64 bits hold it. A zero with a
sign is none. -/
def integer? (x : Number) : Option Int :=
  let n := ofDigits x.whole
  if !x.fraction.isEmpty || x.exponent.isSome then none
  else if x.negative then
    if 0 < n ∧ 2 * n ≤ UInt64.size then some (-(n : Int)) else none
  else if n < UInt64.size then some n
  else none

/-- The number `n` with further digits after it, and the digits left over: the first that does not
fit into 64 bits and all after it. -/
def gather (n : Nat) : List Char → Nat × List Char
  | [] => (n, [])
  | d :: ds => if 10 * n + digit d < UInt64.size then gather (10 * n + digit d) ds else (n, d :: ds)

/-- The significand and the power of ten. Digits of the whole part that are left over still count as
places; those of the fraction do not. -/
def scientific (x : Number) : Nat × Int :=
  let (n, places) := gather 0 x.whole
  let (significand, unread) := gather n x.fraction
  let point : Int := places.length - (x.fraction.length - unread.length)
  (significand, point + x.exponent.getD 0)

/-- The exponent of the largest power of ten that is a double. -/
def maxPower : Nat := 308

/-- The double nearest to a power of ten. -/
def power (e : Nat) : Float := Float.ofScientific 1 false e

/-- A significand scaled by a power of ten. Beyond the largest power a zero alone stays finite;
downwards there are two steps at most, since after them nothing of 64 bits is left. -/
def scale (significand : Nat) : Int → Float
  | .ofNat e =>
    if e ≤ maxPower then significand.toUInt64.toFloat * power e
    else if significand = 0 then 0
    else 1 / 0
  | .negSucc e =>
    let f := significand.toUInt64.toFloat
    if e < maxPower then f / power (e + 1)
    else if e < 2 * maxPower then f / power maxPower / power (e + 1 - maxPower)
    else 0

/-- The double that a number stands for. -/
def estimate (x : Number) : Float :=
  let f := scale x.scientific.1 x.scientific.2
  if x.negative then -f else f

def inRange (x : Number) : Bool := x.estimate.isFinite

end Number

end FilterTree
