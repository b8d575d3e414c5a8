import PagedTables.Decimal.Scaled
import PagedTables.Json.Scan
import PagedTables.Toml.Table

namespace PagedTables.Toml

/-- Digits with single underscores between them, without the underscores. -/
def digitRun? (isDigit : Char → Bool) (s : List Char) : Option (List Char) :=
  let pieces := (String.ofList s).splitOn "_"
  if pieces.all (fun piece => piece ≠ "" && piece.all isDigit) then
    some (s.filter (· ≠ '_'))
  else none

/-- Only zero itself begins with a zero. -/
def wholeRun? (s : List Char) : Option (List Char) :=
  match digitRun? Char.isDigit s with
  | some ('0' :: _ :: _) => none
  | run => run

def ofBase (base : Nat) (digits : List Char) : Nat :=
  digits.foldl (fun n c => n * base + (Json.hexValue? c).getD 0) 0

def integerOf? (i : Int) : Option Value :=
  if Int64.minValue.toInt ≤ i ∧ i ≤ Int64.maxValue.toInt then some (.integer (Int64.ofInt i))
  else none

def isDigitOf (base : Nat) (c : Char) : Bool := (Json.hexValue? c).any (· < base)

def basedInteger? (base : Nat) (s : List Char) : Option Value :=
  (digitRun? (isDigitOf base) s).bind (fun digits => integerOf? (ofBase base digits))

/-- An optional sign, then the rest. -/
def signed : List Char → Bool × List Char
  | '+' :: rest => (false, rest)
  | '-' :: rest => (true, rest)
  | rest => (false, rest)

def integer? (s : List Char) : Option Value :=
  match s with
  | '0' :: 'x' :: rest => basedInteger? 16 rest
  | '0' :: 'o' :: rest => basedInteger? 8 rest
  | '0' :: 'b' :: rest => basedInteger? 2 rest
  | _ =>
    let (negative, rest) := signed s
    (wholeRun? rest).bind (fun digits =>
      let n : Int := ofBase 10 digits
      integerOf? (if negative then -n else n))

/-- The least number that is nearer to the double after the greatest finite one. -/
def overflow : Nat := (1 <<< 1024) - (1 <<< 970)

/-- Whether `digits * 10 ^ exponent` is beyond all finite doubles. -/
def overflows (digits : List Char) (exponent : Int) : Bool :=
  let digits := digits.dropWhile (· = '0')
  let lead := exponent + digits.length
  if digits.isEmpty ∨ lead < 300 then false
  else if 320 < lead then true
  else
    let n := Decimal.natOfDigits digits
    if 0 ≤ exponent then overflow ≤ n * Nat.pow 10 exponent.toNat
    else overflow * Nat.pow 10 (-exponent).toNat ≤ n

def isExponentMark (c : Char) : Bool := c = 'e' || c = 'E'

def exponent? (s : List Char) : Option Int :=
  let (down, digits) := signed s
  (digitRun? Char.isDigit digits).map (fun digits =>
    let size : Int := ofBase 10 digits
    if down then -size else size)

/-- A float has a fraction or an exponent, or both. One that is too great is refused. -/
def float? (s : List Char) : Option Value := do
  let (negative, rest) := signed s
  let mantissa := rest.takeWhile (fun c => !isExponentMark c)
  let whole ← wholeRun? (mantissa.takeWhile (· ≠ '.'))
  let fraction ← match mantissa.dropWhile (· ≠ '.') with
    | [] => some []
    | _ :: fraction => digitRun? Char.isDigit fraction
  let exponent ← match rest.dropWhile (fun c => !isExponentMark c) with
    | [] => if mantissa.contains '.' then some 0 else none
    | _ :: exponent => exponent? exponent
  if !negative && overflows (whole ++ fraction) (exponent - fraction.length) then none
  else return .float

def special? (s : List Char) : Option Value :=
  let word := String.ofList (signed s).2
  if word = "inf" ∨ word = "nan" then some .float else none

def twoDigits? : List Char → Option (Nat × List Char)
  | a :: b :: rest =>
    if a.isDigit && b.isDigit then some (ofBase 10 [a, b], rest) else none
  | _ => none

def expect (c : Char) : List Char → Option (List Char)
  | d :: rest => if c = d then some rest else none
  | [] => none

def daysIn (year month : Nat) : Nat :=
  if month = 2 then
    if year % 4 = 0 ∧ (year % 100 ≠ 0 ∨ year % 400 = 0) then 29 else 28
  else if month = 4 ∨ month = 6 ∨ month = 9 ∨ month = 11 then 30
  else 31

def date? (s : List Char) : Option (List Char) := do
  let (century, rest) ← twoDigits? s
  let (year, rest) ← twoDigits? rest
  let (month, rest) ← twoDigits? (← expect '-' rest)
  let (day, rest) ← twoDigits? (← expect '-' rest)
  if 1 ≤ month ∧ month ≤ 12 ∧ 1 ≤ day ∧ day ≤ daysIn (century * 100 + year) month then return rest
  else none

/-- A time of day; a minute may have a second number sixty. -/
def time? (s : List Char) : Option (List Char) := do
  let (hour, rest) ← twoDigits? s
  let (minute, rest) ← twoDigits? (← expect ':' rest)
  let (second, rest) ← twoDigits? (← expect ':' rest)
  if ¬(hour ≤ 23 ∧ minute ≤ 59 ∧ second ≤ 60) then none
  match rest with
  | '.' :: rest =>
    if (rest.takeWhile Char.isDigit).isEmpty then none else return rest.dropWhile Char.isDigit
  | _ => return rest

def isOffset (s : List Char) : Bool :=
  match s with
  | [] => true
  | ['Z'] => true
  | ['z'] => true
  | c :: rest =>
    (c = '+' || c = '-') &&
      match twoDigits? rest with
      | some (hour, ':' :: rest) =>
        match twoDigits? rest with
        | some (minute, []) => hour ≤ 23 && minute ≤ 59
        | _ => false
      | _ => false

def datetime? (s : List Char) : Option Value :=
  match date? s with
  | some [] => some .datetime
  | some (c :: rest) =>
    if c = 'T' ∨ c = 't' ∨ c = ' ' then
      (time? rest).bind (fun rest => if isOffset rest then some .datetime else none)
    else none
  | none => (time? s).bind (fun rest => if rest.isEmpty then some .datetime else none)

/-- The value of a word that is neither string, array nor table. -/
def scalar? (s : List Char) : Option Value :=
  let word := String.ofList s
  if word = "true" then some (.boolean true)
  else if word = "false" then some (.boolean false)
  else special? s <|> datetime? s <|> integer? s <|> float? s

end PagedTables.Toml
