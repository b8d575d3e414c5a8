namespace PagedTables.Styled

def bold (s : String) : String := "\x1b[1m" ++ s ++ "\x1b[0m"

def heading (s : String) : String := "\x1b[1m\x1b[4m" ++ s ++ "\x1b[0m"

/-- Where a character stands among the control sequences of a terminal. -/
inductive Place where
  /-- Outside of them. -/
  | ground
  | escape
  | escapeMiddle
  /-- After an escape and a square bracket, until a letter ends it. -/
  | sequence
  | deviceStart
  | deviceParameters
  | deviceMiddle
  /-- A text for the device, which no letter ends. -/
  | string
  /-- A command to the system, which a bell ends. -/
  | command
deriving DecidableEq

def between (low high : Nat) (c : Char) : Bool := low ≤ c.toNat && c.toNat ≤ high

/-- The form feed is one, the vertical tab is not. -/
def isBlankControl (c : Char) : Bool := c = '\t' || c = '\n' || c = '\x0c' || c = '\r'

/-- Blanks act at once, even within an escape. -/
def Place.shows : Place → Char → Bool
  | ground, c => between 0x20 0x7e c || 0x80 ≤ c.toNat || isBlankControl c
  | escape, c | escapeMiddle, c | sequence, c => isBlankControl c
  | _, _ => false

/-- An escape begins anew everywhere, and a cancel or a substitute ends everything. -/
def Place.next (place : Place) (c : Char) : Place :=
  if c = '\x1b' then escape
  else if c = '\x18' || c = '\x1a' then ground
  else
    match place with
    | ground => ground
    | escape =>
      if c = '[' then sequence
      else if c = ']' then command
      else if c = 'P' then deviceStart
      else if c = 'X' || c = '^' || c = '_' then string
      else if between 0x20 0x2f c then escapeMiddle
      else if between 0x30 0x7e c then ground
      else escape
    | escapeMiddle => if between 0x30 0x7e c then ground else escapeMiddle
    | sequence => if between 0x40 0x7e c then ground else sequence
    | deviceStart =>
      if between 0x20 0x2f c then deviceMiddle
      else if between 0x30 0x3f c then deviceParameters
      else if between 0x40 0x7e c then string
      else deviceStart
    | deviceParameters =>
      if between 0x20 0x2f c then deviceMiddle
      else if between 0x3c 0x7e c then string
      else deviceParameters
    | deviceMiddle => if between 0x30 0x7e c then string else deviceMiddle
    | string => if (String.utf8EncodeChar c).contains 0x9c then ground else string
    | command => if c = '\x07' then ground else command

/-- A terminal amid a text. What it shows, it goes on showing until a control character, which
then takes up the sequence that was left. -/
structure Terminal where
  place : Place := .ground
  showing : Bool := false
deriving DecidableEq

def Terminal.shows (t : Terminal) (c : Char) : Bool :=
  (if t.showing then Place.ground else t.place).shows c

def Terminal.step (t : Terminal) (c : Char) : Terminal :=
  if t.shows c then ⟨if 0x80 ≤ c.toNat then .ground else t.place, true⟩
  else ⟨t.place.next c, false⟩

def visible (t : Terminal) : List Char → List Char
  | [] => []
  | c :: cs => if t.shows c then c :: visible (t.step c) cs else visible (t.step c) cs

/-- Text without its control sequences. -/
def plain (s : String) : String := String.ofList (visible {} s.toList)

theorem visible_sublist (t : Terminal) (cs : List Char) : (visible t cs).Sublist cs := by
  induction cs generalizing t with
  | nil => exact .slnil
  | cons c cs ih =>
    rw [visible]
    split
    · exact (ih _).cons_cons c
    · exact (ih _).cons c

theorem Terminal.showing_step {t : Terminal} {c : Char} (h : t.shows c = true) :
    (t.step c).showing = true := by
  simp [step, h]

/-- Text without control characters is shown as it is. -/
theorem visible_of_shows {t : Terminal} (ht : t.showing = true ∨ t.place = .ground)
    {cs : List Char} (h : ∀ c ∈ cs, Place.ground.shows c = true) : visible t cs = cs := by
  induction cs generalizing t with
  | nil => rfl
  | cons c cs ih =>
    have hc : t.shows c = true := by
      have := h c (by simp)
      rcases ht with ht | ht <;> simp [Terminal.shows, ht, this]
    rw [visible, if_pos hc,
      ih (.inl (Terminal.showing_step hc)) (fun d hd => h d (List.mem_cons_of_mem c hd))]

theorem plain_of_shows {s : String} (h : ∀ c ∈ s.toList, Place.ground.shows c = true) :
    plain s = s := by
  rw [plain, visible_of_shows (.inr rfl) h, String.ofList_toList]

end PagedTables.Styled
