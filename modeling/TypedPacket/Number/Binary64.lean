import TypedPacket.Instances

/-!
# Binary floating point numbers of 64 bits

A number is its bit pattern: a sign, eleven bits of exponent and 52 of fraction. A finite pattern
stands for `m * 2 ^ q` with the integers of `mantissa` and `exponent`; `nearest` goes the other way
and rounds a positive quotient of natural numbers to the nearest pattern, a tie to the even one.
Everything is computed on natural numbers, so nothing depends on floating point operations.
-/

set_option autoImplicit false
set_option relaxedAutoImplicit false

namespace TypedPacket.Binary64

def signBit (bits : UInt64) : Bool := bits >>> 63 != 0

/-- The eleven exponent bits; all ones for infinities and for what is not a number. -/
def exponentField (bits : UInt64) : Nat := ((bits >>> 52) &&& 0x7FF).toNat

def fractionField (bits : UInt64) : Nat := (bits &&& 0xFFFFFFFFFFFFF).toNat

def isFinite (bits : UInt64) : Bool := exponentField bits != 0x7FF

def isZero (bits : UInt64) : Bool := bits &&& 0x7FFFFFFFFFFFFFFF == 0

/-- The integer `m` of the value `m * 2 ^ q`. -/
def mantissa (bits : UInt64) : Nat :=
  if exponentField bits = 0 then fractionField bits else fractionField bits + 2 ^ 52

/-- The integer `q` of the value `m * 2 ^ q`. -/
def exponent (bits : UInt64) : Int := (max (exponentField bits) 1 : Int) - 1075

/-- A quotient rounded to the nearest integer, a tie to the even one. -/
def roundDiv (num den : Nat) : Nat :=
  let floor := num / den
  let twice := 2 * (num % den)
  if twice < den then floor
  else if den < twice then floor + 1
  else floor + floor % 2

/-- The quotient `num / (den * 2 ^ q)` of the scaled operands. -/
def scaled (num den : Nat) (q : Int) : Nat × Nat := (num * 2 ^ (-q).toNat, den * 2 ^ q.toNat)

/-- The bit pattern nearest to the positive quotient `num / den`; none beyond the finite ones.
The exponent is chosen so that the mantissa fills its 53 bits, or is the least there is. -/
def nearest (num den : Nat) : Option UInt64 :=
  let guess : Int := max ((Nat.log2 num : Int) - Nat.log2 den - 53) (-1074)
  let trial := scaled num den guess
  let q := if trial.1 / trial.2 < 2 ^ 53 then guess else guess + 1
  let fraction := scaled num den q
  let bits := (q + 1074).toNat * 2 ^ 52 + roundDiv fraction.1 fraction.2
  if bits < 0x7FF * 2 ^ 52 then some (UInt64.ofNat bits) else none

def negate (bits : UInt64) : UInt64 := bits ^^^ 0x8000000000000000

/-- The pattern nearest to `digits * 10 ^ power`; none beyond the finite ones. Powers that decide the
answer alone are not multiplied out. -/
def ofDecimal (digits : Nat) (power : Int) : Option UInt64 :=
  if digits = 0 then some 0
  else if 400 < power then none
  else if power + (Nat.log2 digits / 3 + 1 : Nat) < -400 then some 0
  else nearest (digits * 10 ^ power.toNat) (10 ^ (-power).toNat)

/-- The pattern of the same value as one of 32 bits. -/
def ofBinary32 (bits : UInt32) : UInt64 :=
  let sign : UInt64 := (bits >>> 31).toUInt64 <<< 63
  let field := (bits >>> 23) &&& 0xFF
  let fraction := (bits &&& 0x7FFFFF).toNat
  if field == 0xFF then sign ||| (0x7FF0000000000000 : UInt64) ||| (UInt64.ofNat fraction <<< 29)
  else if fraction = 0 ∧ field = 0 then sign
  else
    let m := if field = 0 then fraction else fraction + 2 ^ 23
    let q : Int := (max field.toNat 1 : Int) - 150
    sign ||| (nearest (m * 2 ^ q.toNat) (2 ^ (-q).toNat)).getD 0

end TypedPacket.Binary64
