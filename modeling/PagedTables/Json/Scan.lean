import PagedTables.Decimal.Scaled
import PagedTables.Json.Document

namespace PagedTables.Json

/-- Of one piece of a JSON text. -/
inductive Token where
  /-- One of the marks of arrays and objects. -/
  | mark (c : Char)
  /-- A number or one of the three words. -/
  | scalar (d : Document)
  /-- A string; `none` when its escapes stand for no text. -/
  | text (s : Option String)
  | brokenText (b : Break)
  /-- A character that begins no token. -/
  | stray

def isBlank (c : Char) : Bool := c = ' ' || c = '\n' || c = '\t' || c = '\r'

def hexValue? (c : Char) : Option Nat :=
  if '0' ≤ c ∧ c ≤ '9' then some (c.toNat - '0'.toNat)
  else if 'a' ≤ c ∧ c ≤ 'f' then some (c.toNat - 'a'.toNat + 10)
  else if 'A' ≤ c ∧ c ≤ 'F' then some (c.toNat - 'A'.toNat + 10)
  else none

def fourHex? (a b c d : Char) : Option Nat := do
  let a ← hexValue? a
  let b ← hexValue? b
  let c ← hexValue? c
  let d ← hexValue? d
  return ((a * 16 + b) * 16 + c) * 16 + d

def isHighSurrogate (n : Nat) : Bool := 0xd800 ≤ n && n < 0xdc00

def isLowSurrogate (n : Nat) : Bool := 0xdc00 ≤ n && n < 0xe000

def joinSurrogates (high low : Nat) : Char :=
  Char.ofNat (0x10000 + (high - 0xd800) * 0x400 + (low - 0xdc00))

/-- Four hexadecimal digits are wanted but fewer characters are left. Four bytes are looked at as
one piece, so what is too short counts as the end of the text. -/
def shortHex (rest : List Char) : TextFault :=
  if (String.ofList rest).utf8ByteSize < 4 then .truncated else .malformed

def simpleEscape? (c : Char) : Option Char :=
  if c = '"' ∨ c = '\\' ∨ c = '/' then some c
  else if c = 'b' then some '\x08'
  else if c = 'f' then some '\x0c'
  else if c = 'n' then some '\n'
  else if c = 'r' then some '\r'
  else if c = 't' then some '\t'
  else none

/-- What the characters after a backslash stand for. -/
inductive Escape where
  | char (c : Char)
  /-- One half of a surrogate pair without the other. -/
  | half
  | malformed
  | truncated

def scanShortHex (short : List Char) : Escape × List Char :=
  (match shortHex short with
    | .malformed => .malformed
    | .truncated => .truncated, short)

/-- The lower half that belongs to the upper half `high`. -/
def scanLowSurrogate (high : Nat) : List Char → Escape × List Char
  | [] => (.truncated, [])
  | ['\\'] => (.truncated, [])
  | '\\' :: 'u' :: a :: b :: c :: d :: rest =>
    match fourHex? a b c d with
    | none => (.malformed, rest)
    | some low => (if isLowSurrogate low then .char (joinSurrogates high low) else .half, rest)
  | '\\' :: 'u' :: short => scanShortHex short
  | rest => (.half, rest)

def scanUnicode : List Char → Escape × List Char
  | a :: b :: c :: d :: rest =>
    match fourHex? a b c d with
    | none => (.malformed, rest)
    | some n =>
      if isLowSurrogate n then (.half, rest)
      else if isHighSurrogate n then scanLowSurrogate n rest
      else (.char (Char.ofNat n), rest)
  | short => scanShortHex short

def scanEscape : List Char → Escape × List Char
  | [] => (.truncated, [])
  | 'u' :: rest => scanUnicode rest
  | c :: rest =>
    match simpleEscape? c with
    | some e => (.char e, rest)
    | none => (.malformed, rest)

theorem length_scanLowSurrogate_le (high : Nat) (s : List Char) :
    (scanLowSurrogate high s).2.length ≤ s.length := by
  unfold scanLowSurrogate
  repeat' split
  all_goals simp [scanShortHex] <;> omega

theorem length_scanUnicode_le (s : List Char) : (scanUnicode s).2.length ≤ s.length := by
  unfold scanUnicode
  split
  next a b c d rest =>
    have := length_scanLowSurrogate_le
    repeat' split
    all_goals simp only [List.length_cons]
    · omega
    · omega
    · next n _ _ _ => have := this n rest; omega
    · omega
  · simp [scanShortHex]

theorem length_scanEscape_le (s : List Char) : (scanEscape s).2.length ≤ s.length := by
  unfold scanEscape
  split
  · simp
  next rest => have := length_scanUnicode_le rest; simp only [List.length_cons]; omega
  · split <;> simp

def endOfText (spoiled : Bool) : Token :=
  .brokenText ⟨if spoiled then .malformed else .truncated, .truncated⟩

/-- The rest of a string after its opening quote. Once it is `spoiled` its characters no longer
matter. -/
def scanText (taken : List Char) (spoiled : Bool) : List Char → Token × List Char
  | [] => (endOfText spoiled, [])
  | c :: rest =>
    if c = '"' then
      (.text (if spoiled then none else some (String.ofList taken.reverse)), rest)
    else if c = '\\' then
      have := length_scanEscape_le rest
      match (scanEscape rest).1 with
      | .char e => scanText (e :: taken) spoiled (scanEscape rest).2
      | .half => scanText taken true (scanEscape rest).2
      | .malformed => (.brokenText (.both .malformed), (scanEscape rest).2)
      | .truncated => (endOfText spoiled, (scanEscape rest).2)
    else if c.toNat < 0x20 then (.brokenText (.both .malformed), rest)
    else scanText (c :: taken) spoiled rest
termination_by s => s.length

theorem length_scanText_le (taken : List Char) (spoiled : Bool) (s : List Char) :
    (scanText taken spoiled s).2.length ≤ s.length := by
  fun_induction scanText taken spoiled s <;> simp_all <;> omega

/-- After `whole` digits and perhaps `fraction` digits, both kept in the order of the text. -/
def numberOf (negative : Bool) (whole fraction : List Char) (exponent : Int) : Document :=
  let n := Decimal.fractionDigits (Decimal.wholeDigits ⟨0, 0⟩ whole) fraction
  match Decimal.Numeral.toDouble ⟨n.significand, n.exponent + exponent⟩ negative with
  | some d => if h : d.isFinite = true then .num (.double d h) else .spoiled
  | none => .spoiled

/-- A whole number stays exact where 64 bits hold it. -/
def wholeOf (negative : Bool) (whole : List Char) : Document :=
  match Number.ofWhole? negative (Decimal.natOfDigits whole) with
  | some n => .num n
  | none => numberOf negative whole [] 0

/-- A digit is missing: the text ends here, or it goes on with something else. -/
def digitMissing (rest : List Char) : Token :=
  .scalar (.broken ⟨if rest.isEmpty then .truncated else .malformed, .malformed⟩)

def exponentSign : List Char → Bool × List Char
  | '+' :: rest => (false, rest)
  | '-' :: rest => (true, rest)
  | rest => (false, rest)

def scanExponent (negative : Bool) (whole fraction : List Char) (rest : List Char) :
    Token × List Char :=
  let signed := exponentSign rest
  let digits := signed.2.takeWhile Char.isDigit
  let size : Int := Decimal.natOfDigits digits
  if digits.isEmpty then (digitMissing signed.2, signed.2)
  else (.scalar (numberOf negative whole fraction (if signed.1 then -size else size)),
    signed.2.dropWhile Char.isDigit)

def scanAfterFraction (negative : Bool) (whole fraction : List Char) :
    List Char → Token × List Char
  | 'e' :: rest => scanExponent negative whole fraction rest
  | 'E' :: rest => scanExponent negative whole fraction rest
  | rest => (.scalar (numberOf negative whole fraction 0), rest)

def scanAfterWhole (negative : Bool) (whole : List Char) : List Char → Token × List Char
  | '.' :: rest =>
    let fraction := rest.takeWhile Char.isDigit
    if fraction.isEmpty then (digitMissing rest, rest)
    else scanAfterFraction negative whole fraction (rest.dropWhile Char.isDigit)
  | 'e' :: rest => scanExponent negative whole [] rest
  | 'E' :: rest => scanExponent negative whole [] rest
  | rest => (.scalar (wholeOf negative whole), rest)

/-- A number whose whole digits are given. Only zero itself begins with a zero. -/
def scanNumber (negative : Bool) (whole rest : List Char) : Token × List Char :=
  if whole.isEmpty then (digitMissing rest, rest)
  else if whole.head? = some '0' ∧ 1 < whole.length then
    (.scalar (.broken (.both .malformed)), rest)
  else scanAfterWhole negative whole rest

def scanWord (d : Document) : List Char → List Char → Token × List Char
  | [], rest => (.scalar d, rest)
  | _ :: _, [] => (.scalar (.broken (.both .truncated)), [])
  | w :: word, c :: rest =>
    if w = c then scanWord d word rest else (.scalar (.broken (.both .malformed)), rest)

/-- One token that begins with `c`. -/
def scanToken (c : Char) (rest : List Char) : Token × List Char :=
  if c = '[' ∨ c = ']' ∨ c = '\x7b' ∨ c = '\x7d' ∨ c = ',' ∨ c = ':' then (.mark c, rest)
  else if c = '"' then scanText [] false rest
  else if c = '-' then scanNumber true (rest.takeWhile Char.isDigit) (rest.dropWhile Char.isDigit)
  else if c.isDigit then
    scanNumber false (c :: rest.takeWhile Char.isDigit) (rest.dropWhile Char.isDigit)
  else if c = 'n' then scanWord .null ['u', 'l', 'l'] rest
  else if c = 't' then scanWord (.bool true) ['r', 'u', 'e'] rest
  else if c = 'f' then scanWord (.bool false) ['a', 'l', 's', 'e'] rest
  else (.stray, rest)

theorem length_dropDigits_le (s : List Char) : (s.dropWhile Char.isDigit).length ≤ s.length :=
  (List.dropWhile_sublist _).length_le

theorem length_scanExponent_le (negative : Bool) (whole fraction rest : List Char) :
    (scanExponent negative whole fraction rest).2.length ≤ rest.length := by
  unfold scanExponent
  have hle : (exponentSign rest).2.length ≤ rest.length := by
    unfold exponentSign; split <;> simp
  have := length_dropDigits_le (exponentSign rest).2
  dsimp only
  split <;> simp only [] <;> omega

theorem length_scanAfterFraction_le (negative : Bool) (whole fraction rest : List Char) :
    (scanAfterFraction negative whole fraction rest).2.length ≤ rest.length := by
  unfold scanAfterFraction
  split
  · have := length_scanExponent_le negative whole fraction (by assumption)
    simp; omega
  · have := length_scanExponent_le negative whole fraction (by assumption)
    simp; omega
  · simp

theorem length_scanAfterWhole_le (negative : Bool) (whole rest : List Char) :
    (scanAfterWhole negative whole rest).2.length ≤ rest.length := by
  unfold scanAfterWhole
  split
  next rest =>
    have h := length_dropDigits_le rest
    have := length_scanAfterFraction_le negative whole (rest.takeWhile Char.isDigit)
      (rest.dropWhile Char.isDigit)
    dsimp only
    split <;> simp
    omega
  next rest =>
    have := length_scanExponent_le negative whole [] rest
    simp; omega
  next rest =>
    have := length_scanExponent_le negative whole [] rest
    simp; omega
  · simp

theorem length_scanNumber_le (negative : Bool) (whole rest : List Char) :
    (scanNumber negative whole rest).2.length ≤ rest.length := by
  unfold scanNumber
  have := length_scanAfterWhole_le negative whole rest
  split
  · simp
  · split <;> simp [this]

theorem length_scanWord_le (d : Document) (word rest : List Char) :
    (scanWord d word rest).2.length ≤ rest.length := by
  fun_induction scanWord d word rest <;> simp
  omega

theorem length_scanToken_le (c : Char) (rest : List Char) :
    (scanToken c rest).2.length ≤ rest.length := by
  unfold scanToken
  have h1 := length_scanText_le [] false rest
  have h2 := length_scanNumber_le true (rest.takeWhile Char.isDigit) (rest.dropWhile Char.isDigit)
  have h3 := length_scanNumber_le false (c :: rest.takeWhile Char.isDigit)
    (rest.dropWhile Char.isDigit)
  have h4 := length_dropDigits_le rest
  repeat' split
  all_goals first
    | exact length_scanWord_le _ _ _
    | omega
    | exact Nat.le_refl _

/-- The tokens of a text. Blanks separate them and are dropped. -/
def tokens : List Char → List Token
  | [] => []
  | c :: rest =>
    if isBlank c then tokens rest
    else
      have := length_scanToken_le c rest
      (scanToken c rest).1 :: tokens (scanToken c rest).2
termination_by s => s.length

/-- An array or object that is still open, its contents last first. -/
inductive Frame where
  | items (taken : List Document)
  /-- `key` belongs to the value that is read next. -/
  | members (taken : List (Option String × Document)) (key : Option String)

/-- What may stand next. -/
inductive Place where
  | value
  | firstItem
  | firstKey
  | key
  | colon
  | next
deriving DecidableEq

/-- A value that is complete goes into the innermost open array or object. -/
def Frame.add (d : Document) : Frame → Frame
  | items taken => items (d :: taken)
  | members taken key => members ((key, d) :: taken) none

def Frame.close (stop : Option Break) : Frame → Document
  | items taken => .arr taken.reverse stop
  | members taken _ => .obj taken.reverse stop

/-- Everything that is open ends where the text breaks off. -/
def closeAll (b : Break) : List Frame → Document → Document
  | [], d => d
  | frame :: frames, d => closeAll b frames ((frame.add d).close (some b))

/-- The document when the text breaks off with `place` still to come. -/
def breakOff (frames : List Frame) (place : Place) (b : Break) : Document :=
  match place, frames with
  | .value, _ => closeAll b frames (.broken b)
  | .colon, _ => closeAll b frames (.broken b)
  | _, frame :: frames => closeAll b frames (frame.close (some b))
  | _, [] => .broken b

/-- Text as a document, and whether anything follows the document. -/
structure Scanned where
  document : Document
  trailing : Bool

/-- Where reading stands after a token. -/
inductive Progress where
  | going (frames : List Frame) (place : Place)
  | whole (d : Document)

def complete (frames : List Frame) (d : Document) : Progress :=
  match frames with
  | [] => .whole d
  | frame :: frames => .going (frame.add d :: frames) .next

def keyed (frames : List Frame) (key : Option String) : Progress :=
  match frames with
  | .members taken _ :: outer => .going (.members taken key :: outer) .colon
  | _ => .going frames .colon

/-- A token where a value begins. -/
def valued (frames : List Frame) (place : Place) : Token → Progress
  | .mark c =>
    if c = '[' then .going (.items [] :: frames) .firstItem
    else if c = '\x7b' then .going (.members [] none :: frames) .firstKey
    else if place = .firstItem ∧ c = ']' then complete frames.tail (.arr [] none)
    else .whole (breakOff frames .value (.both .malformed))
  | .scalar (.broken b) => .whole (breakOff frames .value b)
  | .scalar d => complete frames d
  | .text (some s) => complete frames (.str s)
  | .text none => complete frames .spoiled
  | .brokenText b => .whole (breakOff frames .value b)
  | .stray => .whole (breakOff frames .value (.both .malformed))

/-- A token where a key begins. -/
def keyBegins (frames : List Frame) (place : Place) : Token → Progress
  | .text key => keyed frames key
  | .brokenText b => .whole (breakOff frames .key b)
  | .mark c =>
    if place = .firstKey ∧ c = '\x7d' then complete frames.tail (.obj [] none)
    else .whole (breakOff frames .key (.both .malformed))
  | _ => .whole (breakOff frames .key (.both .malformed))

/-- A token after a complete value. -/
def valueEnds (frames : List Frame) (token : Token) : Progress :=
  match frames, token with
  | .items taken :: outer, .mark c =>
    if c = ',' then .going frames .value
    else if c = ']' then complete outer (.arr taken.reverse none)
    else .whole (breakOff frames .next (.both .malformed))
  | .members taken _ :: outer, .mark c =>
    if c = ',' then .going frames .key
    else if c = '\x7d' then complete outer (.obj taken.reverse none)
    else .whole (breakOff frames .next (.both .malformed))
  | _, _ => .whole (breakOff frames .next (.both .malformed))

def advance (frames : List Frame) (place : Place) (token : Token) : Progress :=
  match place with
  | .value => valued frames place token
  | .firstItem => valued frames place token
  | .firstKey => keyBegins frames place token
  | .key => keyBegins frames place token
  | .colon =>
    match token with
    | .mark c =>
      if c = ':' then .going frames .value
      else .whole (breakOff frames .colon (.both .malformed))
    | _ => .whole (breakOff frames .colon (.both .malformed))
  | .next => valueEnds frames token

/-- Reads tokens until the outermost value is complete. -/
def assemble (frames : List Frame) (place : Place) : List Token → Scanned
  | [] => ⟨breakOff frames place (.both .truncated), false⟩
  | token :: rest =>
    match advance frames place token with
    | .going frames place => assemble frames place rest
    | .whole d => ⟨d, !rest.isEmpty⟩

def scan (text : String) : Scanned := assemble [] .value (tokens text.toList)

end PagedTables.Json
