/-!
# Decimals

The shortest decimal that names a double: on each decimal grid, from one digit to seventeen, the two
neighbours of the double are tried, and the first grid with a neighbour that rounds to it wins.
-/

namespace FilterTree

/-- The value `digits * 10 ^ exponent`. -/
structure Decimal where
  digits : Nat
  exponent : Int
  deriving DecidableEq

namespace Decimal

/-- The double `mantissa * 2 ^ exponent` as it is stored: the mantissa has 53 binary digits, fewer
only at the least exponent. -/
structure Binary where
  mantissa : Nat
  exponent : Int

namespace Binary

/-- The mantissa of 53 binary digits that begins with a one and goes on with zeros. -/
def hidden : Nat := Nat.pow 2 52

def least : Int := -1074

/-- The absolute value of a finite double. -/
def ofFloat (f : Float) : Binary :=
  let bits := f.toBits.toNat
  let fraction := bits % hidden
  let power := bits / hidden % 2048
  if power = 0 then ⟨fraction, least⟩ else ⟨hidden + fraction, least + power - 1⟩

/-- How far below the double the values reach that round to it, in quarters of its last place. Below
a power of two the places are half as large. -/
def below (b : Binary) : Nat := if b.mantissa = hidden ∧ b.exponent ≠ least then 1 else 2

end Binary

def width (n : Nat) : Nat := (Nat.toDigits 10 n).length

/-- The number of places before the point of `num / den`; if there are none, minus the number of
zeros that follow the point. -/
def places (num den : Nat) : Int :=
  if den ≤ num then width (num / den) else 1 - (width ((den - 1) / num) : Int)

def neighbour? (low value high den : Nat) (closed : Bool) (k : Int) : Option Nat :=
  let unit := Nat.pow 10 (-k).toNat
  let step := den * Nat.pow 10 k.toNat
  let floor := value * unit / step
  let rest := value * unit % step
  let inside (n : Nat) : Bool :=
    if closed then low * unit ≤ n * step && n * step ≤ high * unit
    else low * unit < n * step && n * step < high * unit
  let up : Bool := step < 2 * rest || (step = 2 * rest && floor % 2 = 1)
  if inside floor && inside (floor + 1) then some (if up then floor + 1 else floor)
  else if inside floor then some floor
  else if inside (floor + 1) then some (floor + 1)
  else none

/-- The decimal without zeros at the end of its digits. -/
def trimmed (d : Decimal) : Decimal :=
  let zeros := ((Nat.toDigits 10 d.digits).reverse.takeWhile (· = '0')).length
  ⟨d.digits / Nat.pow 10 zeros, d.exponent + zeros⟩

/-- The shortest decimal that rounds to the absolute value of a finite double other than zero.
Seventeen digits are always enough. -/
def ofFloat (f : Float) : Decimal :=
  let b := Binary.ofFloat f
  let quarter := b.exponent - 2
  let scale := Nat.pow 2 quarter.toNat
  let den := Nat.pow 2 (-quarter).toNat
  let low := (4 * b.mantissa - b.below) * scale
  let value := 4 * b.mantissa * scale
  let high := (4 * b.mantissa + 2) * scale
  let top := places value den
  let grid (i : Nat) : Option Decimal :=
    let k : Int := top - 1 - i
    (neighbour? low value high den (b.mantissa % 2 = 0) k).map (⟨·, k⟩)
  (((List.range 17).findSome? grid).getD ⟨0, 0⟩).trimmed

def zeros (n : Int) : List Char := List.replicate n.toNat '0'

/-- The characters of the decimal: positional for sizes from `10 ^ -5` up to `10 ^ 16`, with an exponent
otherwise. There is always a digit on both sides of a point, and an exponent always has a sign. -/
def write (d : Decimal) : List Char :=
  let ds := Nat.toDigits 10 d.digits
  let top : Int := ds.length + d.exponent
  if 0 ≤ d.exponent ∧ top ≤ 16 then ds ++ zeros d.exponent ++ ".0".toList
  else if 0 < top ∧ top ≤ 16 then ds.take top.toNat ++ '.' :: ds.drop top.toNat
  else if -5 < top ∧ top ≤ 0 then "0.".toList ++ zeros (-top) ++ ds
  else
    let point := if ds.length = 1 then [] else '.' :: ds.drop 1
    let plus := if 0 < top then ['+'] else []
    ds.take 1 ++ point ++ 'e' :: plus ++ (toString (top - 1)).toList

/-- The text of a finite double. A negative zero keeps its sign. -/
def render (f : Float) : String :=
  let sign := if f.toBits.toNat < Nat.pow 2 63 then [] else ['-']
  String.ofList (sign ++ if f == 0 then "0.0".toList else (ofFloat f).write)

end Decimal

end FilterTree
