namespace PagedTables.Sha1

structure State where
  a : UInt32
  b : UInt32
  c : UInt32
  d : UInt32
  e : UInt32

def start : State := ⟨0x67452301, 0xefcdab89, 0x98badcfe, 0x10325476, 0xc3d2e1f0⟩

def rotate (x n : UInt32) : UInt32 := x <<< n ||| x >>> (32 - n)

/-- The lowest `width` bytes of a number, the highest of them first. -/
def bigEndian (width n : Nat) : List UInt8 :=
  (List.range width).map (fun i => UInt8.ofNat (n >>> (8 * (width - 1 - i))))

/-- A single bit and zeros follow the text, and its length in bits ends the last block. -/
def padded (bytes : List UInt8) : List UInt8 :=
  bytes ++ 0x80 :: (List.replicate ((119 - bytes.length % 64) % 64) 0 ++
    bigEndian 8 (8 * bytes.length))

def words : List UInt8 → List UInt32
  | a :: b :: c :: d :: rest =>
    (a.toUInt32 <<< 24 ||| b.toUInt32 <<< 16 ||| c.toUInt32 <<< 8 ||| d.toUInt32) :: words rest
  | _ => []

/-- Adds words to a schedule, which has its last word first. -/
def extend : Nat → List UInt32 → List UInt32
  | 0, schedule => schedule
  | n + 1, schedule =>
    let back (k : Nat) : UInt32 := schedule.getD (k - 1) 0
    extend n (rotate (back 3 ^^^ back 8 ^^^ back 14 ^^^ back 16) 1 :: schedule)

/-- The mixing of the three middle words changes every twenty rounds. -/
def mixed (round : Nat) (s : State) : UInt32 :=
  if round < 20 then (s.b &&& s.c ||| ~~~s.b &&& s.d) + 0x5a827999
  else if round < 40 then (s.b ^^^ s.c ^^^ s.d) + 0x6ed9eba1
  else if round < 60 then (s.b &&& s.c ||| s.b &&& s.d ||| s.c &&& s.d) + 0x8f1bbcdc
  else (s.b ^^^ s.c ^^^ s.d) + 0xca62c1d6

def step (round : Nat) (s : State) (word : UInt32) : State :=
  ⟨rotate s.a 5 + mixed round s + s.e + word, s.a, rotate s.b 30, s.c, s.d⟩

def rounds : Nat → State → List UInt32 → State
  | _, s, [] => s
  | round, s, word :: schedule => rounds (round + 1) (step round s word) schedule

def block (s : State) (block : List UInt32) : State :=
  let t := rounds 0 s (extend 64 block.reverse).reverse
  ⟨s.a + t.a, s.b + t.b, s.c + t.c, s.d + t.d, s.e + t.e⟩

def blocks (s : State) : List UInt32 → State
  | [] => s
  | word :: rest => blocks (block s (word :: rest.take 15)) (rest.drop 15)
termination_by ws => ws.length
decreasing_by simp only [List.length_drop, List.length_cons]; omega

def digest (bytes : List UInt8) : List UInt8 :=
  let s := blocks start (words (padded bytes))
  [s.a, s.b, s.c, s.d, s.e].flatMap (fun w => bigEndian 4 w.toNat)

end PagedTables.Sha1
