import PagedTables.Proofs.WireForm

namespace PagedTables

namespace Json

/-- The whole number that a value is. A double is none, whatever its size. -/
def whole? : Json → Option Int
  | num (.int i) => some i.toInt
  | num (.large n _) => some n.toNat
  | _ => none

variable {v w : Json} {z : Int}

theorem whole?_eq_some_iff : v.whole? = some z ↔
    (∃ i : Int64, i.toInt = z ∧ v = int i) ∨
      ∃ (n : UInt64) (above : 1 <<< 63 ≤ n.toNat), (n.toNat : Int) = z ∧ v = num (.large n above) := by
  cases v with
  | num n =>
    cases n with
    | int i => simp [whole?, int]
    | large n above =>
      constructor
      · intro h
        exact .inr ⟨n, above, Option.some.inj h, rfl⟩
      · rintro (⟨i, _, h⟩ | ⟨m, _, hm, h⟩)
        · cases h
        · cases h
          exact congrArg some hm
    | double d finite => simp [whole?, int]
  | _ => simp [whole?, int]

/-- Whole numbers up to 63 bits are kept in one way, greater ones in another. -/
theorem toInt_lt_of_above {n : UInt64} (above : 1 <<< 63 ≤ n.toNat) (i : Int64) :
    i.toInt < n.toNat := by
  have hle : i.toInt ≤ 9223372036854775807 := i.toInt_le
  have hpow : 1 <<< 63 = 9223372036854775808 := rfl
  omega

theorem whole?_eq_toInt_iff {i : Int64} : v.whole? = some i.toInt ↔ v = int i := by
  rw [whole?_eq_some_iff]
  constructor
  · rintro (⟨j, hj, rfl⟩ | ⟨n, above, hn, _⟩)
    · rw [Int64.toInt_inj.mp hj]
    · have := toInt_lt_of_above above i
      omega
  · rintro rfl
    exact .inl ⟨i, rfl, rfl⟩

theorem le_of_whole? (h : v.whole? = some z) :
    Int64.minValue.toInt ≤ z ∧ z < (1 <<< 64 : Nat) := by
  have hpow : 1 <<< 64 = 18446744073709551616 := rfl
  have hmin : Int64.minValue.toInt = -9223372036854775808 := rfl
  rcases whole?_eq_some_iff.mp h with ⟨i, rfl, _⟩ | ⟨n, _, rfl, _⟩
  · have hle : i.toInt ≤ 9223372036854775807 := i.toInt_le
    have hge : -9223372036854775808 ≤ i.toInt := i.le_toInt
    omega
  · have hlt := n.toNat_lt
    omega

/-- No two values are the same whole number. -/
theorem eq_of_whole? (hv : v.whole? = some z) (hw : w.whole? = some z) : v = w := by
  rcases whole?_eq_some_iff.mp hv with ⟨i, rfl, rfl⟩ | ⟨n, above, rfl, rfl⟩
  · exact (whole?_eq_toInt_iff.mp hw).symm
  · rcases whole?_eq_some_iff.mp hw with ⟨i, hi, _⟩ | ⟨m, _, hm, rfl⟩
    · have := toInt_lt_of_above above i
      omega
    · have hsame : m = n := UInt64.toNat_inj.mp (Int.ofNat_inj.mp hm)
      subst hsame
      rfl

theorem exists_whole? (h0 : Int64.minValue.toInt ≤ z) (h : z < (1 <<< 64 : Nat)) :
    ∃ v : Json, v.whole? = some z := by
  have hpow : 1 <<< 64 = 18446744073709551616 := rfl
  have hmin : Int64.minValue.toInt = -9223372036854775808 := rfl
  by_cases hlt : z < 9223372036854775808
  · refine ⟨int (Int64.ofInt z), ?_⟩
    have hz : (Int64.ofInt z).toInt = z := Int64.toInt_ofInt_of_le (by omega) (by omega)
    exact congrArg some hz
  · have hn : z.toNat < 1 <<< 64 := by omega
    have hz : (UInt64.ofNatLT z.toNat hn).toNat = z.toNat := UInt64.toNat_ofNatLT
    have habove : 1 <<< 63 ≤ (UInt64.ofNatLT z.toNat hn).toNat := by
      have hhalf : 1 <<< 63 = 9223372036854775808 := rfl
      omega
    refine ⟨num (.large _ habove), congrArg some ?_⟩
    omega

end Json

namespace Cell

/-- `c` is what a cell holds that stands for `v`. Only one kind of cell fits each value. -/
inductive Carries : Cell → Json → Prop
  | null : Carries .null .null
  | bool (b : Bool) : Carries (.bool b) (.bool b)
  | int {v : Json} {i : Int64} : v.whole? = some i.toInt → Carries (.int i) v
  | float {d : Double} (finite : d.isFinite = true) : Carries (.float d) (.num (.double d finite))
  | text (s : String) : Carries (.text s) (.str s)
  | large {v : Json} {z : Int} : v.whole? = some z → Int64.maxValue.toInt < z → Carries (.json v) v
  | array (items : List Json) : Carries (.json (.arr items)) (.arr items)
  | object (members : List (String × Json)) : Carries (.json (.obj members)) (.obj members)

/-- Cells of which nothing is lost: no bytes, no nested JSON, and only finite doubles. -/
def Plain : Cell → Prop
  | float d => d.isFinite = true
  | bytes _ => False
  | json _ => False
  | _ => True

variable {c : Cell} {v : Json}

theorem carries_ofJson (v : Json) : (ofJson v).Carries v := by
  cases v with
  | null => exact .null
  | bool b => exact .bool b
  | num n =>
    cases n with
    | int i => exact .int rfl
    | large n above => exact .large rfl (Json.toInt_lt_of_above above Int64.maxValue)
    | double d finite => exact .float finite
  | str s => exact .text s
  | arr items => exact .array items
  | obj members => exact .object members

theorem Carries.eq_ofJson (h : c.Carries v) : c = ofJson v := by
  cases h with
  | int hi =>
    cases Json.whole?_eq_toInt_iff.mp hi
    rfl
  | large hz hlt =>
    rcases Json.whole?_eq_some_iff.mp hz with ⟨i, rfl, _⟩ | ⟨n, above, _, rfl⟩
    · exact absurd i.toInt_le (Int.not_le.mpr hlt)
    · rfl
  | _ => rfl

theorem ofJson_eq_iff : ofJson v = c ↔ c.Carries v :=
  ⟨fun h => h ▸ carries_ofJson v, fun h => h.eq_ofJson.symm⟩

theorem Plain.normal (h : c.Plain) : c.normal = c := by
  cases c with
  | float d => exact if_pos h
  | bytes b => exact h.elim
  | json v => exact h.elim
  | _ => rfl

end Cell

/-- What is decoded to a cell comes back when the cell is cleaned, whatever it holds and wherever it
was read. Each value fits one kind of cell, and each whole number of 64 bits is one value. Of plain
cells, no two are cleaned to one value. -/
theorem cells_carry_values :
    (∀ v : Json, (Cell.ofJson v).clean = v) ∧ Function.Injective Cell.ofJson ∧
    (∀ v : Json, v.Sorted → Cell.read none v.document = .ok (Cell.ofJson v)) ∧
    (∀ (levels : Levels) (d : Document) (c : Cell), Cell.read levels d = .ok c →
      d.value levels = .ok c.clean) ∧
    (∀ (v : Json) (c : Cell), Cell.ofJson v = c ↔ c.Carries v) ∧
    (∀ v : Json, (Cell.ofJson v).kind ≠ .bytes ∧
      ∀ d : Double, Cell.ofJson v = .float d → d.isFinite = true) ∧
    (∀ z : Int, (∃ v : Json, v.whole? = some z) ↔
      Int64.minValue.toInt ≤ z ∧ z < (1 <<< 64 : Nat)) ∧
    (∀ (v w : Json) (z : Int), v.whole? = some z → w.whole? = some z → v = w) ∧
    ∀ a b : Cell, a.Plain → b.Plain → a.clean = b.clean → a = b := by
  have hclean : Function.LeftInverse Cell.clean Cell.ofJson := Cell.clean_ofJson
  refine ⟨hclean, hclean.injective, fun v hv => ?_, fun levels d c hread => ?_,
    fun v c => Cell.ofJson_eq_iff, fun v => ?_, fun z => ?_, fun v w z => Json.eq_of_whole?,
    fun a b ha hb h => ?_⟩
  · rw [Cell.read, Json.value_document v hv]
    rfl
  · cases hv : d.value levels with
    | error e =>
      rw [Cell.read, hv] at hread
      cases hread
    | ok v =>
      rw [Cell.read, hv] at hread
      cases hread
      rw [hclean v]
  · have hv := Cell.carries_ofJson v
    generalize Cell.ofJson v = c at hv
    constructor
    · cases hv <;> simp [Cell.kind]
    · rintro d rfl
      cases hv with
      | float finite => exact finite
  · constructor
    · rintro ⟨v, hv⟩
      exact Json.le_of_whole? hv
    · rintro ⟨h0, h⟩
      exact Json.exists_whole? h0 h
  · calc a = a.normal := ha.normal.symm
      _ = Cell.ofJson a.clean := (Cell.ofJson_clean a).symm
      _ = Cell.ofJson b.clean := by rw [h]
      _ = b.normal := Cell.ofJson_clean b
      _ = b := hb.normal

/-- Three zeros and a number that no signed integer holds. -/
def fourNumbers : Json :=
  .obj [("double", .num (.double .zero Double.isFinite_zero)), ("integer", .int 0),
    ("largest", .num (.large 0xffffffffffffffff (by decide))),
    ("minus", .num (.double .minusZero Double.isFinite_minusZero))]

/-- An object stays as it is, with all that is in it; cells of the three zeros are three cells and are
sent as three values. -/
theorem zeros_stay_apart :
    Cell.read none fourNumbers.document = .ok (.json fourNumbers) ∧
    (Cell.float .zero).clean ≠ (Cell.int 0).clean ∧
    (Cell.float .zero).clean ≠ (Cell.float .minusZero).clean := by
  obtain ⟨_, _, hread, _, _, _, _, _, hplain⟩ := cells_carry_values
  have hkeys : ["double", "integer", "largest", "minus"].Pairwise (· < ·) := by decide
  have hzero : (Cell.float .zero).Plain := Double.isFinite_zero
  refine ⟨hread fourNumbers ⟨hkeys, trivial, trivial, trivial, trivial, trivial⟩,
    fun h => ?_, fun h => ?_⟩
  · cases hplain (.float .zero) (.int 0) hzero trivial h
  · cases hplain (.float .zero) (.float .minusZero) hzero Double.isFinite_minusZero h

end PagedTables
