import PagedTables.Toml.Scalar

namespace PagedTables.Toml

def isSpace (c : Char) : Bool := c = ' ' || c = '\t'

/-- Characters that may stand in comments and strings. -/
def isPrintable (c : Char) : Bool := c = '\t' || (0x20 ≤ c.toNat && c.toNat ≠ 0x7f)

def skipSpace (s : List Char) : List Char := s.dropWhile isSpace

/-- The text after a line end, if one stands here. -/
def lineEnd? : List Char → Option (List Char)
  | '\n' :: rest => some rest
  | '\r' :: '\n' :: rest => some rest
  | _ => none

def skipComment (s : List Char) : List Char :=
  match s with
  | '#' :: rest => rest.dropWhile isPrintable
  | _ => s

/-- Passes over spaces, comments and line ends; `most` bounds the number of lines. -/
def skipLines : (most : Nat) → List Char → List Char
  | 0, s => s
  | most + 1, s =>
    let s := skipComment (skipSpace s)
    match lineEnd? s with
    | some rest => skipLines most rest
    | none => s

def skipAllLines (s : List Char) : List Char := skipLines (s.length + 1) s

def unicode? (digits : List Char) : Option Char :=
  if digits.all (isDigitOf 16) then
    let n := ofBase 16 digits
    if n.isValidChar then some (Char.ofNat n) else none
  else none

/-- The character that an escape stands for, and the text after it. -/
def escape? : List Char → Option (Char × List Char)
  | 'b' :: rest => some ('\x08', rest)
  | 't' :: rest => some ('\t', rest)
  | 'n' :: rest => some ('\n', rest)
  | 'f' :: rest => some ('\x0c', rest)
  | 'r' :: rest => some ('\r', rest)
  | '"' :: rest => some ('"', rest)
  | '\\' :: rest => some ('\\', rest)
  | 'u' :: a :: b :: c :: d :: rest => (unicode? [a, b, c, d]).map (fun e => (e, rest))
  | 'U' :: a :: b :: c :: d :: e :: f :: g :: h :: rest =>
    (unicode? [a, b, c, d, e, f, g, h]).map (fun e => (e, rest))
  | _ => none

/-- The rest of a string on one line; `most` bounds the number of its characters. -/
def basicString? : (most : Nat) → (taken : List Char) → List Char → Option (String × List Char)
  | 0, _, _ => none
  | _ + 1, _, [] => none
  | most + 1, taken, c :: rest =>
    if c = '"' then some (String.ofList taken.reverse, rest)
    else if c = '\\' then
      match escape? rest with
      | some (e, rest) => basicString? most (e :: taken) rest
      | none => none
    else if isPrintable c then basicString? most (c :: taken) rest
    else none

def literalString? (s : List Char) : Option (String × List Char) :=
  let body := s.takeWhile (fun c => c ≠ '\'' && isPrintable c)
  match s.dropWhile (fun c => c ≠ '\'' && isPrintable c) with
  | '\'' :: rest => some (String.ofList body, rest)
  | _ => none

/-- Quotes at the end of a string over several lines: three end it, and up to two before them belong
to it. -/
def closing? (quote : Char) (taken s : List Char) : Option (String × List Char) :=
  let run := (s.takeWhile (· = quote)).length
  if 3 ≤ run ∧ run ≤ 5 then
    some (String.ofList (taken.reverse ++ List.replicate (run - 3) quote), s.drop run)
  else none

/-- Passes over spaces and line ends. -/
def skipBlankLines : (most : Nat) → List Char → List Char
  | 0, s => s
  | most + 1, s =>
    match lineEnd? (skipSpace s) with
    | some rest => skipBlankLines most rest
    | none => skipSpace s

/-- A backslash at the end of a line takes away all white space up to the next character. -/
def continued? (s : List Char) : Option (List Char) :=
  (lineEnd? (skipSpace s)).map (fun rest => skipBlankLines (rest.length + 1) rest)

def longString? (quote : Char) (escapes : Bool) :
    (most : Nat) → (taken : List Char) → List Char → Option (String × List Char)
  | 0, _, _ => none
  | _ + 1, _, [] => none
  | most + 1, taken, c :: rest =>
    if c = quote then
      if 3 ≤ ((c :: rest).takeWhile (· = quote)).length then closing? quote taken (c :: rest)
      else longString? quote escapes most (c :: taken) rest
    else if c = '\\' ∧ escapes = true then
      match continued? rest with
      | some rest => longString? quote escapes most taken rest
      | none =>
        match escape? rest with
        | some (e, rest) => longString? quote escapes most (e :: taken) rest
        | none => none
    else
      match lineEnd? (c :: rest) with
      | some rest => longString? quote escapes most ('\n' :: taken) rest
      | none => if isPrintable c then longString? quote escapes most (c :: taken) rest else none

/-- A line end right after the opening quotes is no content. -/
def afterOpening (s : List Char) : List Char := (lineEnd? s).getD s

def string? (s : List Char) : Option (String × List Char) :=
  match s with
  | '"' :: '"' :: '"' :: rest => longString? '"' true (s.length + 1) [] (afterOpening rest)
  | '\'' :: '\'' :: '\'' :: rest => longString? '\'' false (s.length + 1) [] (afterOpening rest)
  | '"' :: rest => basicString? (s.length + 1) [] rest
  | '\'' :: rest => literalString? rest
  | _ => none

def isBare (c : Char) : Bool := c.isAlphanum || c = '-' || c = '_'

def simpleKey? (s : List Char) : Option (String × List Char) :=
  match s with
  | '"' :: rest => basicString? (s.length + 1) [] rest
  | '\'' :: rest => literalString? rest
  | _ =>
    let bare := s.takeWhile isBare
    if bare.isEmpty then none else some (String.ofList bare, s.dropWhile isBare)

/-- How deep tables and arrays may lie inside one another, and how long a dotted key may be. -/
def maxDepth : Nat := 80

/-- The parts of a dotted key; `most` bounds their number. -/
def keyParts? : (most : Nat) → List Char → Option (List String × List Char)
  | 0, _ => none
  | most + 1, s => do
    let (key, rest) ← simpleKey? (skipSpace s)
    match skipSpace rest with
    | '.' :: rest => do
      let (keys, rest) ← keyParts? most rest
      return (key :: keys, rest)
    | rest => return ([key], rest)

def keys? (s : List Char) : Option (List String × List Char) := keyParts? (maxDepth - 1) s

def isWordChar (c : Char) : Bool := isBare c || c = '+' || c = '.' || c = ':'

/-- A word up to the next separator. A date and its time may stand apart by a space. -/
def word (s : List Char) : List Char × List Char :=
  let first := s.takeWhile isWordChar
  let rest := s.dropWhile isWordChar
  match rest with
  | ' ' :: after =>
    if (date? first).any List.isEmpty && after.head?.any Char.isDigit then
      (first ++ ' ' :: after.takeWhile isWordChar, after.dropWhile isWordChar)
    else (first, rest)
  | _ => (first, rest)

/-- The table that is written on one line. -/
def inlineTable? (pairs : List (List String × Value)) : Option Value :=
  (pairs.foldlM (fun (entries : Entries) pair => entries.defineDotted pair.2 pair.1) []).map
    (fun entries => .table (entryValues entries))

mutual

/-- A value and the text after it; `depth` more arrays and tables may be opened, and `fuel` bounds
the number of steps. -/
def value? (fuel depth : Nat) (s : List Char) : Option (Value × List Char) :=
  match fuel, s with
  | 0, _ => none
  | fuel + 1, '[' :: rest =>
    if depth ≤ 1 then none
    else (items? fuel (depth - 1) [] (skipAllLines rest)).map (fun r => (.array r.1, r.2))
  | fuel + 1, '\x7b' :: rest =>
    if depth ≤ 1 then none
    else
      match skipSpace rest with
      | '\x7d' :: rest => some (.table [], rest)
      | rest =>
        (pairs? fuel (depth - 1) [] rest).bind (fun r =>
          (inlineTable? r.1).map (fun table => (table, r.2)))
  | _ + 1, s =>
    match s.head? with
    | some '"' => (string? s).map (fun r => (.string r.1, r.2))
    | some '\'' => (string? s).map (fun r => (.string r.1, r.2))
    | _ => (scalar? (word s).1).map (fun v => (v, (word s).2))

/-- The items of an array up to its end; a comma may follow the last one. -/
def items? (fuel depth : Nat) (taken : List Value) (s : List Char) :
    Option (List Value × List Char) :=
  match fuel, s with
  | 0, _ => none
  | _ + 1, ']' :: rest => some (taken.reverse, rest)
  | fuel + 1, s =>
    match value? fuel depth s with
    | none => none
    | some (v, rest) =>
      match skipAllLines rest with
      | ',' :: rest => items? fuel depth (v :: taken) (skipAllLines rest)
      | ']' :: rest => some ((v :: taken).reverse, rest)
      | _ => none

/-- The keys and values of a table on one line up to its end. -/
def pairs? (fuel depth : Nat) (taken : List (List String × Value)) (s : List Char) :
    Option (List (List String × Value) × List Char) :=
  match fuel with
  | 0 => none
  | fuel + 1 =>
    match keys? s with
    | some (keys, '=' :: rest) =>
      match value? fuel depth (skipSpace rest) with
      | none => none
      | some (v, rest) =>
        match skipSpace rest with
        | ',' :: rest => pairs? fuel depth ((keys, v) :: taken) rest
        | '\x7d' :: rest => some (((keys, v) :: taken).reverse, rest)
        | _ => none
    | _ => none

end

/-- What may follow on a line, and the text from the next line on. -/
def restOfLine? (s : List Char) : Option (List Char) :=
  match skipComment (skipSpace s) with
  | [] => some []
  | rest => lineEnd? rest

/-- One line of a text, which is not empty. -/
def line? (d : Draft) (s : List Char) : Option (Draft × List Char) :=
  match s with
  | '[' :: '[' :: rest => do
    let (keys, rest) ← keys? rest
    let rest ← expect ']' rest
    let rest ← expect ']' rest
    let rest ← restOfLine? rest
    return (← d.openDoubled keys, rest)
  | '[' :: rest => do
    let (keys, rest) ← keys? rest
    let rest ← expect ']' rest
    let rest ← restOfLine? rest
    return (← d.openTable keys, rest)
  | _ => do
    let (keys, rest) ← keys? s
    let rest ← expect '=' rest
    let (v, rest) ← value? (2 * s.length + 2) maxDepth (skipSpace rest)
    let rest ← restOfLine? rest
    return (← d.define keys v, rest)

def lines? : (most : Nat) → Draft → List Char → Option Draft
  | 0, _, _ => none
  | most + 1, d, s =>
    match skipAllLines s with
    | [] => some d
    | s =>
      match line? d s with
      | some (d, rest) => lines? most d rest
      | none => none

def withoutMark : List Char → List Char
  | '\ufeff' :: rest => rest
  | s => s

/-- The settings in a text, or nothing when the text is at fault anywhere. -/
def parse (text : String) : Option (List (String × Value)) := do
  let s := withoutMark text.toList
  let d ← lines? (s.length + 1) {} s
  let root ← d.finish
  return entryValues root

end PagedTables.Toml
