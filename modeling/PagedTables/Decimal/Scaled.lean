import PagedTables.Double

namespace PagedTables.Decimal

/-- A decimal numeral as it is collected digit by digit: a digit that would lift the significand
above 64 bits is not taken in. -/
structure Numeral where
  significand : Nat
  exponent : Int

def fits (significand digit : Nat) : Bool := significand * 10 + digit < 1 <<< 64

def digitValue (c : Char) : Nat := c.toNat - '0'.toNat

/-- From the first whole digit that does not fit on, each digit counts as a power of ten. -/
def wholeDigits : Numeral → List Char → Numeral
  | n, [] => n
  | n, c :: cs =>
    if fits n.significand (digitValue c) then
      wholeDigits ⟨n.significand * 10 + digitValue c, n.exponent⟩ cs
    else ⟨n.significand, n.exponent + (cs.length + 1)⟩

/-- From the first fraction digit that does not fit on, the digits are dropped. -/
def fractionDigits : Numeral → List Char → Numeral
  | n, [] => n
  | n, c :: cs =>
    if fits n.significand (digitValue c) then
      fractionDigits ⟨n.significand * 10 + digitValue c, n.exponent - 1⟩ cs
    else n

def natOfDigits (cs : List Char) : Nat := cs.foldl (fun n c => n * 10 + digitValue c) 0

def powerOfTen (e : Nat) : Float := OfScientific.ofScientific 1 false e

/-- Division by `10 ^ 308` until the rest of the exponent has a power of ten of its own. -/
def divideDown : Nat → Float → Nat → Float
  | 0, f, _ => f
  | steps + 1, f, e =>
    if e ≤ 308 then f / powerOfTen e else divideDown steps (f / powerOfTen 308) (e - 308)

/-- The significand as a double, then multiplied or divided by a power of ten in double arithmetic.
Three divisions by `10 ^ 308` leave nothing of a 64-bit significand. -/
def Numeral.toDouble (n : Numeral) (negative : Bool) : Option Double :=
  let f := n.significand.toUInt64.toFloat
  let size : Option Float :=
    if n.exponent < 0 then some (divideDown 4 f (min (-n.exponent).toNat 1200))
    else if n.exponent ≤ 308 then some (f * powerOfTen n.exponent.toNat)
    else if n.significand = 0 then some f
    else none
  match size with
  | none => none
  | some f =>
    let d := Double.ofFloat (if negative then -f else f)
    if d.isFinite then some d else none

end PagedTables.Decimal
