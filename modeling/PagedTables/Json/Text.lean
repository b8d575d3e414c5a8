import PagedTables.Decimal.Shortest
import PagedTables.Json.Value

namespace PagedTables

/-- Where a double is written without an exponent: its leading digit stands for a power of ten in
this range. -/
structure PositionalRange where
  least : Int
  greatest : Int

/-- From `0.00001` up to `1000000000000000.0`. -/
def Json.positional : PositionalRange := ⟨-5, 15⟩

/-- A part after the point is always written, except between a single digit and an exponent. -/
def Decimal.render (range : PositionalRange) (d : Decimal) : String :=
  let digits := digitChars d.digits
  let lead : Int := d.exponent + digits.length - 1
  if lead < range.least ∨ range.greatest < lead then
    let tail := digits.drop 1
    let mantissa := digits.take 1 ++ (if tail.isEmpty then [] else '.' :: tail)
    let sign := if lead < 0 then '-' else '+'
    String.ofList (mantissa ++ 'e' :: sign :: digitChars lead.natAbs)
  else if 0 ≤ d.exponent then
    String.ofList (digits ++ List.replicate d.exponent.toNat '0' ++ ['.', '0'])
  else if 0 ≤ lead then
    String.ofList (digits.take (lead.toNat + 1) ++ '.' :: digits.drop (lead.toNat + 1))
  else
    String.ofList ('0' :: '.' :: List.replicate (-lead - 1).toNat '0' ++ digits)

def Double.render (d : Double) : String :=
  let size := if d.significand = 0 then "0.0" else (Decimal.shortest d).render Json.positional
  if d.negative then "-" ++ size else size

def Number.render : Number → String
  | int i => toString i.toInt
  | large n _ => toString n.toNat
  | double d _ => d.render

namespace Json

def hexDigit (n : Nat) : Char := Nat.digitChar n

/-- Only quotes, backslashes and the control characters below U+0020 are escaped. -/
def escape (c : Char) : List Char :=
  if c = '"' then ['\\', '"']
  else if c = '\\' then ['\\', '\\']
  else if 0x20 ≤ c.toNat then [c]
  else if c.toNat = 0x08 then ['\\', 'b']
  else if c.toNat = 0x09 then ['\\', 't']
  else if c.toNat = 0x0a then ['\\', 'n']
  else if c.toNat = 0x0c then ['\\', 'f']
  else if c.toNat = 0x0d then ['\\', 'r']
  else ['\\', 'u', '0', '0', hexDigit (c.toNat / 16), hexDigit (c.toNat % 16)]

def quotedChars (s : String) : List Char := '"' :: (s.toList.flatMap escape ++ ['"'])

def quote (s : String) : String := String.ofList (quotedChars s)

mutual

def chars : Json → List Char
  | null => ['n', 'u', 'l', 'l']
  | bool true => ['t', 'r', 'u', 'e']
  | bool false => ['f', 'a', 'l', 's', 'e']
  | num n => n.render.toList
  | str s => quotedChars s
  | arr items => '[' :: itemChars items
  | obj members => '\x7b' :: memberChars members

/-- Items with their commas up to the end of the array. -/
def itemChars : List Json → List Char
  | [] => [']']
  | [v] => v.chars ++ [']']
  | v :: vs => v.chars ++ ',' :: itemChars vs

/-- Members with their commas up to the end of the object. -/
def memberChars : List (String × Json) → List Char
  | [] => ['\x7d']
  | [(k, v)] => quotedChars k ++ ':' :: (v.chars ++ ['\x7d'])
  | (k, v) :: ms => quotedChars k ++ ':' :: (v.chars ++ ',' :: memberChars ms)

end

/-- The compact text of a value, without any blank. -/
def render (v : Json) : String := String.ofList v.chars

end Json

end PagedTables
