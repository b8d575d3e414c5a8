import PagedTables.Json.Text

namespace PagedTables.Uuid

def hexPair (b : UInt8) : List Char := [Json.hexDigit (b.toNat / 16), Json.hexDigit (b.toNat % 16)]

/-- The version, four, and the variant take six of the bits. -/
def marked (bytes : List UInt8) : List UInt8 :=
  bytes.mapIdx (fun i b =>
    if i = 6 then b &&& 0x0f ||| 0x40 else if i = 8 then b &&& 0x3f ||| 0x80 else b)

/-- Sixteen bytes as five groups of digits. -/
def text (bytes : List UInt8) : String :=
  let part (first size : Nat) : String :=
    String.ofList (((bytes.drop first).take size).flatMap hexPair)
  "-".intercalate [part 0 4, part 4 2, part 6 2, part 8 2, part 10 6]

/-- An id made of random bytes. -/
def ofRandom (bytes : List UInt8) : String := text (marked bytes)

end PagedTables.Uuid
