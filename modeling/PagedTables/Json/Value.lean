import PagedTables.Double
import PagedTables.KeyMap

namespace PagedTables

/-- A whole number is exact up to 64 bits; every other number is a finite double. -/
inductive Number where
  | int (i : Int64)
  | large (n : UInt64) (above : 1 <<< 63 ≤ n.toNat)
  | double (d : Double) (finite : d.isFinite = true)
deriving DecidableEq

namespace Number

def toInt64? : Number → Option Int64
  | int i => some i
  | _ => none

def toDouble : Number → Double
  | int i => .ofInt i.toInt
  | large n _ => .ofFloat n.toFloat
  | double d _ => d

/-- A count is written with up to 64 bits; a greater one stands for the greatest of those. -/
def ofNat (n : Nat) : Number :=
  if n < 1 <<< 63 then int (Int64.ofNat n)
  else if h : n < 1 <<< 64 then
    if h' : 1 <<< 63 ≤ n then large (UInt64.ofNatLT n h) h' else int 0
  else large (UInt64.ofNatLT ((1 <<< 64) - 1) (by decide)) (by decide)

/-- `none` when the whole number needs more than 64 bits, or is minus zero. -/
def ofWhole? (negative : Bool) (size : Nat) : Option Number :=
  if negative then
    if 0 < size ∧ size ≤ 1 <<< 63 then some (int (Int64.ofInt (-size))) else none
  else if size < 1 <<< 64 then some (ofNat size) else none

/-- The counts from zero up to 64 bits. -/
def toNat? : Number → Option Nat
  | int i => if 0 ≤ i.toInt then some i.toInt.toNat else none
  | large n _ => some n.toNat
  | double _ _ => none

end Number

/-- A JSON value. The members of an object are in the order of their keys. -/
inductive Json where
  | null
  | bool (b : Bool)
  | num (n : Number)
  | str (s : String)
  | arr (items : List Json)
  | obj (members : List (String × Json))

namespace Json

instance : Inhabited Json := ⟨null⟩

def int (i : Int64) : Json := num (.int i)

def count (n : Nat) : Json := num (.ofNat n)

/-- Of two members with one key the later one counts. -/
def object (members : List (String × Json)) : Json := obj (KeyMap.ofList members)

def member? (v : Json) (key : String) : Option Json :=
  match v with
  | obj members => KeyMap.get? members key
  | _ => none

mutual

/-- Every object inside has its keys in strictly ascending order. -/
def Sorted : Json → Prop
  | arr items => SortedItems items
  | obj members => KeyMap.Sorted members ∧ SortedMembers members
  | _ => True

def SortedItems : List Json → Prop
  | [] => True
  | v :: vs => v.Sorted ∧ SortedItems vs

def SortedMembers : List (String × Json) → Prop
  | [] => True
  | (_, v) :: ms => v.Sorted ∧ SortedMembers ms

end

end Json

end PagedTables
