import Mathlib.Tactic.SplitIfs

namespace PagedTables

/-- Lists of bytes that part before either ends, the first one lower. -/
inductive PartsBelow : List UInt8 → List UInt8 → Prop
  | here {a b : UInt8} {x y : List UInt8} : a < b → PartsBelow (a :: x) (b :: y)
  | later {a : UInt8} {x y : List UInt8} : PartsBelow x y → PartsBelow (a :: x) (a :: y)

/-- What follows does not matter once two lists of bytes have parted. -/
theorem append_lt_append_of_partsBelow {x y : List UInt8} (h : PartsBelow x y)
    (r t : List UInt8) : x ++ r < y ++ t := by
  induction h with
  | here hab => exact List.cons_lt_cons_iff.mpr (.inl hab)
  | later _ ih => exact List.cons_lt_cons_iff.mpr (.inr ⟨rfl, ih⟩)

theorem partsBelow_ofNat {a b : Nat} (hb : b < 256) (hab : a ≤ b) {x y : List UInt8}
    (h : a = b → PartsBelow x y) : PartsBelow (UInt8.ofNat a :: x) (UInt8.ofNat b :: y) := by
  rcases Nat.lt_or_eq_of_le hab with hlt | rfl
  · refine .here (UInt8.lt_iff_toNat_lt.mpr ?_)
    rw [UInt8.toNat_ofNat', UInt8.toNat_ofNat']
    omega
  · exact .later (h rfl)

/-- The encodings of two characters part, and they do so the way the characters are ordered: the
first byte tells how many follow, and no byte that follows is cut off. -/
theorem utf8EncodeChar_partsBelow {c d : Char} (h : c < d) :
    PartsBelow (String.utf8EncodeChar c) (String.utf8EncodeChar d) := by
  have hlt : c.val.toNat < d.val.toNat := UInt32.lt_iff_toNat_lt.mp h
  have hd : d.val.toNat < 1114112 := by
    have := d.valid
    simp only [UInt32.isValidChar, Nat.isValidChar] at this
    omega
  simp only [String.utf8EncodeChar]
  generalize c.val.toNat = v at hlt
  generalize d.val.toNat = w at hlt hd
  split_ifs <;> repeat refine partsBelow_ofNat (by omega) (by omega) (fun _ => ?_)
  all_goals omega

theorem utf8_flatMap_lt {cs ds : List Char} (h : cs < ds) :
    cs.flatMap String.utf8EncodeChar < ds.flatMap String.utf8EncodeChar := by
  induction h with
  | @nil d ds =>
    obtain ⟨b, y, hb⟩ := List.exists_cons_of_ne_nil (String.utf8EncodeChar_ne_nil (c := d))
    simp [hb]
  | rel h => exact append_lt_append_of_partsBelow (utf8EncodeChar_partsBelow h) _ _
  | cons _ ih => exact List.append_left_lt ih

theorem utf8_toList (s : String) :
    s.toUTF8.data.toList = s.toList.flatMap String.utf8EncodeChar := by
  conv => lhs; rw [← String.ofList_toList (s := s), String.toUTF8_eq_toByteArray,
    String.toByteArray_ofList]
  exact List.toList_data_toByteArray

/-- The order of texts is the order of their bytes. -/
theorem lt_iff_utf8_lt {s t : String} : s < t ↔ s.toUTF8.data.toList < t.toUTF8.data.toList := by
  have hmono : ∀ {s t : String}, s < t → s.toUTF8.data.toList < t.toUTF8.data.toList := by
    intro s t h
    rw [utf8_toList, utf8_toList]
    exact utf8_flatMap_lt (String.lt_iff.mp h)
  refine ⟨hmono, fun h => Decidable.byContradiction (fun hn => ?_)⟩
  by_cases heq : t = s
  · rw [heq] at h
    exact List.lt_irrefl _ h
  · exact List.lt_asymm h (hmono (Std.lt_of_le_of_ne (String.not_lt.mp hn) heq))

end PagedTables
