import TypedPacket.Number.Binary64

/-!
# The shortest decimal that reads back

A finite number other than zero is written with the fewest digits that are read back as the same
number: among the grids of the multiples of `10 ^ k`, the coarsest that has a point in the interval
of the reals that round to the number; and of its two candidates, the nearer. How the digits are set
down is up to a `NumberStyle`.
-/

set_option autoImplicit false
set_option relaxedAutoImplicit false

namespace TypedPacket

/-- A decimal `digits * 10 ^ power`. -/
structure Decimal where
  digits : Nat
  power : Int
  deriving DecidableEq, Repr

namespace Decimal

/-- The candidate of the grid `10 ^ k`, if it has one. In units of a quarter of the last place the
number is `4 * m`, and the reals that round to it reach from `low` to `high`, ends included when `m`
is even. -/
def onGrid (bits : UInt64) (k : Int) : Option Decimal :=
  let m := Binary64.mantissa bits
  let q := Binary64.exponent bits - 2
  let low := if m = 2 ^ 52 ∧ 1 < Binary64.exponentField bits then 4 * m - 1 else 4 * m - 2
  let high := 4 * m + 2
  let unit := 2 ^ q.toNat * 10 ^ (-k).toNat
  let cell := 2 ^ (-q).toNat * 10 ^ k.toNat
  let floor := 4 * m * unit / cell
  let below := floor * cell
  let above := (floor + 1) * cell
  let reaches (near far : Nat) : Bool := if m % 2 = 0 then near ≤ far else near < far
  match reaches (low * unit) below, reaches above (high * unit) with
  | true, true =>
    let down := 4 * m * unit - below
    let up := above - 4 * m * unit
    some ⟨if down < up ∨ down = up ∧ floor % 2 = 0 then floor else floor + 1, k⟩
  | true, false => some ⟨floor, k⟩
  | false, true => some ⟨floor + 1, k⟩
  | false, false => none

/-- A power of ten not below the number: one more than the estimate of its decimal exponent. -/
def topPower (bits : UInt64) : Int :=
  let log2 : Int := Nat.log2 (Binary64.mantissa bits) + Binary64.exponent bits
  log2 * 30103 / 100000 + 1

/-- The shortest decimal of a finite number, its sign apart. Twenty grids are enough: the seventeenth
digit is always finer than the interval. -/
def shortest (bits : UInt64) : Decimal :=
  if Binary64.isZero bits then ⟨0, 0⟩
  else ((List.range 20).findSome? fun (i : Nat) => onGrid bits (topPower bits - i)).getD ⟨0, 0⟩

end Decimal

/-- A way to set down a decimal: which decimal exponents are written positionally. The rest are
written with one digit before the point and a signed exponent. -/
structure NumberStyle where
  positional : Int → Bool

namespace NumberStyle

/-- No exponent is written. -/
def plain : NumberStyle := ⟨fun _ => true⟩

def zeros (n : Nat) : String := String.ofList (List.replicate n '0')

/-- A decimal, with at least one digit on each side of a point that is written. -/
def decimal (style : NumberStyle) (d : Decimal) : String :=
  let digits := Nat.toDigits 10 d.digits
  let point : Int := digits.length + d.power
  if style.positional (point - 1) then
    if 0 ≤ d.power then String.ofList digits ++ zeros d.power.toNat ++ ".0"
    else if 0 < point then
      String.ofList (digits.take point.toNat) ++ "." ++ String.ofList (digits.drop point.toNat)
    else "0." ++ zeros (-point).toNat ++ String.ofList digits
  else
    let head := String.ofList (digits.take 1)
    let tail := if digits.length = 1 then "" else "." ++ String.ofList (digits.drop 1)
    let power := point - 1
    let sign := if power < 0 then "-" else "+"
    head ++ tail ++ "e" ++ sign ++ toString power.natAbs

/-- The text of a number. -/
def double (style : NumberStyle) (bits : UInt64) : String :=
  let sign := if Binary64.signBit bits then "-" else ""
  if Binary64.isFinite bits then sign ++ style.decimal (Decimal.shortest bits)
  else if Binary64.fractionField bits = 0 then sign ++ "inf"
  else "NaN"

end NumberStyle

end TypedPacket
