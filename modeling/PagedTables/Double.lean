namespace PagedTables

/-- A binary64 number, told apart from every other by its bit pattern: zero and minus zero differ.
-/
structure Double where
  bits : UInt64
deriving DecidableEq

namespace Double

def ofFloat (f : Float) : Double := ⟨f.toBits⟩

def toFloat (d : Double) : Float := Float.ofBits d.bits

def negative (d : Double) : Bool := 1 <<< 63 ≤ d.bits.toNat

def exponentField (d : Double) : Nat := d.bits.toNat / (1 <<< 52) % (1 <<< 11)

def fractionField (d : Double) : Nat := d.bits.toNat % (1 <<< 52)

/-- The highest exponent field is kept for the infinities and for what is not a number. -/
def isFinite (d : Double) : Bool := d.exponentField < 2047

def zero : Double := ⟨0⟩

def minusZero : Double := ⟨0x8000000000000000⟩

def infinity : Double := ⟨0x7ff0000000000000⟩

def minusInfinity : Double := ⟨0xfff0000000000000⟩

def notANumber : Double := ⟨0x7ff8000000000000⟩

/-- The size of a finite number is `significand * 2 ^ (scale - 1074)`. -/
def significand (d : Double) : Nat :=
  if d.exponentField = 0 then d.fractionField else (1 <<< 52) + d.fractionField

def scale (d : Double) : Nat := d.exponentField - 1

def ofInt (i : Int) : Double := ofFloat (Float.ofInt i)

theorem isFinite_zero : zero.isFinite = true := by decide

theorem isFinite_minusZero : minusZero.isFinite = true := by decide

end Double

end PagedTables
