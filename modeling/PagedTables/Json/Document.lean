import PagedTables.Json.Value

namespace PagedTables

/-- How a text fails to be JSON: it goes wrong somewhere, or it ends too early. -/
inductive TextFault where
  | malformed
  | truncated
deriving DecidableEq

/-- Where a text breaks off. A reader that only passes over a value and does not build it reports
some faults differently. -/
structure Break where
  reading : TextFault
  skipping : TextFault

def Break.both (f : TextFault) : Break := ⟨f, f⟩

/-- Why no value was read: the text is at fault, or it holds a value of another shape. -/
inductive ReadError where
  | text (f : TextFault)
  | shape
deriving DecidableEq

/-- A JSON text as far as it can be followed. Members are in the order of the text, repeated keys
included; a key without a value of its own is `none`. Nothing follows the place where it breaks off.
-/
inductive Document where
  | null
  | bool (b : Bool)
  | num (n : Number)
  | str (s : String)
  | arr (items : List Document) (stop : Option Break)
  | obj (members : List (Option String × Document)) (stop : Option Break)
  /-- A complete token that stands for no value: a number out of range, half a surrogate pair. -/
  | spoiled
  | broken (b : Break)

/-- How many arrays and objects may still be opened inside one another; `none` for any number. -/
abbrev Levels := Option Nat

def Levels.enter : Levels → Except ReadError Levels
  | none => .ok none
  | some 0 => .error (.text .malformed)
  | some (n + 1) => .ok (some n)

/-- Text is read down to this depth. -/
def Levels.ofText : Levels := some 127

namespace Document

def stopped : Option Break → Except ReadError Unit
  | none => .ok ()
  | some b => .error (.text b.reading)

/-- The error for a value of another shape than expected. A scalar is read to its end first. -/
def mismatch : Document → ReadError
  | broken b => .text b.reading
  | spoiled => .text .malformed
  | _ => .shape

mutual

/-- The value written; of two members with one key the later one counts. -/
def value (levels : Levels) : Document → Except ReadError Json
  | null => .ok .null
  | bool b => .ok (.bool b)
  | num n => .ok (.num n)
  | str s => .ok (.str s)
  | arr items stop => do
    let inner ← levels.enter
    let vs ← values inner items
    stopped stop
    return .arr vs
  | obj members stop => do
    let inner ← levels.enter
    let ms ← memberValues inner members
    stopped stop
    return .object ms
  | spoiled => .error (.text .malformed)
  | broken b => .error (.text b.reading)

def values (levels : Levels) : List Document → Except ReadError (List Json)
  | [] => .ok []
  | d :: ds => do
    let v ← d.value levels
    let vs ← values levels ds
    return v :: vs

def memberValues (levels : Levels) :
    List (Option String × Document) → Except ReadError (List (String × Json))
  | [] => .ok []
  | (none, _) :: _ => .error (.text .malformed)
  | (some k, d) :: ms => do
    let v ← d.value levels
    let vs ← memberValues levels ms
    return (k, v) :: vs

end

mutual

/-- Passing over a value accepts any depth and every complete token. -/
def skip : Document → Except ReadError Unit
  | arr items stop => do
    skipItems items
    skipStop stop
  | obj members stop => do
    skipMembers members
    skipStop stop
  | broken b => .error (.text b.skipping)
  | _ => .ok ()

def skipItems : List Document → Except ReadError Unit
  | [] => .ok ()
  | d :: ds => do
    d.skip
    skipItems ds

def skipMembers : List (Option String × Document) → Except ReadError Unit
  | [] => .ok ()
  | (_, d) :: ms => do
    d.skip
    skipMembers ms

def skipStop : Option Break → Except ReadError Unit
  | none => .ok ()
  | some b => .error (.text b.skipping)

end

end Document

mutual

/-- A value as the document that its text would give. -/
def Json.document : Json → Document
  | .null => .null
  | .bool b => .bool b
  | .num n => .num n
  | .str s => .str s
  | .arr items => .arr (Json.itemDocuments items) none
  | .obj members => .obj (Json.memberDocuments members) none

def Json.itemDocuments : List Json → List Document
  | [] => []
  | v :: vs => v.document :: Json.itemDocuments vs

def Json.memberDocuments : List (String × Json) → List (Option String × Document)
  | [] => []
  | (k, v) :: ms => (some k, v.document) :: Json.memberDocuments ms

end

end PagedTables
