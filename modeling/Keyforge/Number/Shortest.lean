import Keyforge.Number.Dyadic

/-!
# Shortest decimals

The decimal text of a floating point number has the fewest digits that still read back as the same
number; of several such decimals it is the one nearest to the exact value.
-/

namespace Keyforge.Number

/-- The decimal number `digits · 10 ^ exponent`. -/
structure Decimal where
  digits : Nat
  exponent : Int
  deriving Repr, DecidableEq

def compareScaled (a : Nat) (s : Int) (b : Nat) (p : Int) : Ordering :=
  compare (a * powPos 10 s * powPos 2 (-p)) (b * powPos 2 p * powPos 10 (-s))

/-- Whether a decimal lies in the interval of reals that round to `d`. The ends belong to it iff
the mantissa is even. -/
def Dyadic.reads (d : Dyadic) (t : Decimal) : Bool :=
  let low := if d.narrowBelow then 4 * d.mantissa - 1 else 4 * d.mantissa - 2
  let high := 4 * d.mantissa + 2
  let closed := d.mantissa % 2 = 0
  let above := compareScaled t.digits t.exponent low (d.exponent - 2)
  let below := compareScaled t.digits t.exponent high (d.exponent - 2)
  (above == .gt || (closed && above == .eq)) && (below == .lt || (closed && below == .eq))

def leadingExponent (num den : Nat) : Int :=
  if den ≤ num then ((Nat.toDigits 10 (num / den)).length : Int) - 1
  else
    let size := (Nat.toDigits 10 (den / num)).length
    if den ≤ num * Nat.pow 10 (size - 1) then -((size - 1 : Nat) : Int) else -(size : Int)

def Dyadic.neighbours (d : Dyadic) (s : Int) : Decimal × Decimal :=
  let num := d.mantissa * powPos 2 d.exponent * powPos 10 (-s)
  let den := powPos 2 (-d.exponent) * powPos 10 s
  let floor := num / den
  let twice := 2 * (num % den)
  let up := den < twice || (den == twice && floor % 2 == 1)
  if up then (⟨floor + 1, s⟩, ⟨floor, s⟩) else (⟨floor, s⟩, ⟨floor + 1, s⟩)

def Dyadic.search (d : Dyadic) (lead : Int) (count : Nat) : Nat → Decimal
  | 0 => (d.neighbours (lead - count + 1)).1
  | fuel + 1 =>
    let (near, far) := d.neighbours (lead - count + 1)
    if d.reads near then near
    else if d.reads far then far
    else d.search lead (count + 1) fuel

def Decimal.dropZeros (t : Decimal) : Nat → Decimal
  | 0 => t
  | fuel + 1 =>
    if t.digits ≠ 0 ∧ t.digits % 10 = 0 then
      Decimal.dropZeros ⟨t.digits / 10, t.exponent + 1⟩ fuel
    else t

def Dyadic.shortest (d : Dyadic) : Decimal :=
  let lead := leadingExponent (d.mantissa * powPos 2 d.exponent) (powPos 2 (-d.exponent))
  (d.search lead 1 17).dropZeros 20

structure Style where
  /-- Positional notation is used if the leading digit's exponent is at least this, -/
  leastExponent : Int
  exponentLimit : Int
  exponentWidth : Nat
  nan : String
  infinity : String

def Style.exponentText (style : Style) (e : Int) : String :=
  let digits := Nat.toDigits 10 e.natAbs
  let padded := List.replicate (style.exponentWidth - digits.length) '0' ++ digits
  "e" ++ (if e < 0 then "-" else "+") ++ String.ofList padded

def Style.decimalText (style : Style) (t : Decimal) : String :=
  let digits := Nat.toDigits 10 t.digits
  let lead : Int := digits.length - 1 + t.exponent
  if style.leastExponent ≤ lead && lead < style.exponentLimit then
    if lead < 0 then
      "0." ++ String.ofList (List.replicate (-lead - 1).toNat '0' ++ digits)
    else
      let whole := lead.toNat + 1
      let padded := digits ++ List.replicate (whole - digits.length) '0'
      let fraction := padded.drop whole
      String.ofList (padded.take whole) ++ "." ++
        (if fraction.isEmpty then "0" else String.ofList fraction)
  else
    let fraction := digits.drop 1
    String.ofList (digits.take 1) ++
      (if fraction.isEmpty then "" else "." ++ String.ofList fraction) ++ style.exponentText lead

def Style.floatText (style : Style) (x : Float) : String :=
  match view x with
  | .nan => style.nan
  | .infinite negative => (if negative then "-" else "") ++ style.infinity
  | .finite d =>
    (if d.negative then "-" else "") ++
      (if d.mantissa = 0 then "0.0" else style.decimalText d.shortest)

end Keyforge.Number
