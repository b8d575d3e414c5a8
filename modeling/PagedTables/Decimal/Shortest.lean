import PagedTables.Double

namespace PagedTables

/-- The number `digits * 10 ^ exponent`. -/
structure Decimal where
  digits : Nat
  exponent : Int
deriving DecidableEq

namespace Decimal

def digitChars (n : Nat) : List Char := Nat.toDigits 10 n

/-- A number of the form `numerator / denominator`, both positive. -/
structure Ratio where
  numerator : Nat
  denominator : Nat

def Ratio.scale (r : Ratio) (e : Int) (base : Nat) : Ratio :=
  if 0 ≤ e then ⟨r.numerator * Nat.pow base e.toNat, r.denominator⟩
  else ⟨r.numerator, r.denominator * Nat.pow base (-e).toNat⟩

def Ratio.lt (r s : Ratio) : Bool := r.numerator * s.denominator < s.numerator * r.denominator

def Ratio.le (r s : Ratio) : Bool := r.numerator * s.denominator ≤ s.numerator * r.denominator

def Ratio.floor (r : Ratio) : Nat := r.numerator / r.denominator

/-- The numbers that are read as one double: those between `low` and `high`, the ends counted when
`closed`. -/
structure Interval where
  low : Ratio
  high : Ratio
  closed : Bool

def Interval.contains (i : Interval) (r : Ratio) : Bool :=
  if i.closed then i.low.le r && r.le i.high else i.low.lt r && r.lt i.high

/-- All numbers here are multiples of a quarter of the last place of the double. -/
def quarters (d : Double) (n : Nat) : Ratio := Ratio.scale ⟨n, 1⟩ (d.scale - 1076) 2

/-- The gap below a power of two is half the gap above it. -/
def interval (d : Double) : Interval :=
  let m := d.significand
  let below := if d.fractionField = 0 ∧ 1 < d.exponentField then 1 else 2
  ⟨quarters d (4 * m - below), quarters d (4 * m + 2), m % 2 = 0⟩

/-- No positive double is below `10 ^ -400`. -/
def magnitude (value : Ratio) : Int :=
  (digitChars (Ratio.scale value 400 10).floor).length - 401

/-- Of the two neighbours of `value` among the multiples of `10 ^ e`, the nearer one that lies in
the interval; a tie goes to the even one. -/
def neighbour (i : Interval) (value : Ratio) (e : Int) : Option Nat :=
  let scaled := value.scale (-e) 10
  let low := scaled.floor
  let lowIn := i.contains (Ratio.scale ⟨low, 1⟩ e 10)
  let highIn := i.contains (Ratio.scale ⟨low + 1, 1⟩ e 10)
  let twiceRest := 2 * (scaled.numerator % scaled.denominator)
  let lowNearer := twiceRest < scaled.denominator ∨ (twiceRest = scaled.denominator ∧ low % 2 = 0)
  if lowIn && highIn then some (if lowNearer then low else low + 1)
  else if lowIn then some low
  else if highIn then some (low + 1)
  else none

/-- Seventeen digits always suffice, so the search stops there. -/
def search (i : Interval) (value : Ratio) (top : Int) : Nat → Nat → Decimal
  | 0, used => ⟨(value.scale (used - 1 - top) 10).floor, top - used + 1⟩
  | left + 1, used =>
    match neighbour i value (top - used) with
    | some digits => ⟨digits, top - used⟩
    | none => search i value top left (used + 1)

/-- Powers of ten move from the digits to the exponent. -/
def normalize : Nat → Decimal → Decimal
  | 0, d => d
  | left + 1, d => if d.digits % 10 = 0 then normalize left ⟨d.digits / 10, d.exponent + 1⟩ else d

/-- The fewest digits that are read back as the size of `d`, which is finite and not zero; of
several such numbers the nearest. -/
def shortest (d : Double) : Decimal :=
  let value := quarters d (4 * d.significand)
  normalize 20 (search (interval d) value (magnitude value) 17 0)

end Decimal

end PagedTables
