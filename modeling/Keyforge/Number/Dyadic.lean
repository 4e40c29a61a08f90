/-!
# Floating point numbers as exact numbers

A finite floating point number is an integer times a power of two. `view` takes a number apart into
that exact form, which the other modules of this folder compute with.
-/

namespace Keyforge.Number

/-- The number `± mantissa · 2 ^ exponent`. `narrowBelow` tells that the next smaller number in
size is only half as far away as the next larger one. -/
structure Dyadic where
  negative : Bool
  mantissa : Nat
  exponent : Int
  narrowBelow : Bool
  deriving Repr, DecidableEq

inductive View where
  | nan
  | infinite (negative : Bool)
  | finite (value : Dyadic)
  deriving Repr, DecidableEq

def fractionSize : Nat := 0x10000000000000

def exponentSize : Nat := 0x800

def view (x : Float) : View :=
  let bits := x.toBits.toNat
  let negative : Bool := exponentSize * fractionSize ≤ bits
  let biased : Nat := bits / fractionSize % exponentSize
  let fraction : Nat := bits % fractionSize
  if biased = exponentSize - 1 then
    if fraction = 0 then .infinite negative else .nan
  else if biased = 0 then .finite ⟨negative, fraction, -1074, false⟩
  else
    .finite ⟨negative, fraction + fractionSize, Int.ofNat biased - 1075, fraction == 0 && 1 < biased⟩

def powPos (base : Nat) (e : Int) : Nat := Nat.pow base e.toNat

def roundDiv (num den : Nat) : Nat :=
  let quotient := num / den
  let twice := 2 * (num % den)
  if twice < den then quotient
  else if den < twice then quotient + 1
  else if quotient % 2 = 0 then quotient else quotient + 1

def Dyadic.round (d : Dyadic) : Int :=
  let size := roundDiv (d.mantissa * powPos 2 d.exponent) (powPos 2 (-d.exponent))
  if d.negative then -size else size

def Dyadic.toInt? (d : Dyadic) : Option Int :=
  let num := d.mantissa * powPos 2 d.exponent
  let den := powPos 2 (-d.exponent)
  if num % den = 0 then
    some (if d.negative then -((num / den : Nat) : Int) else ((num / den : Nat) : Int))
  else none

end Keyforge.Number
