import PagedTables.Proofs.Replies

namespace PagedTables

theorem toInt_saturatingAdd_of_le {a b : Int64} (h : Int64.minValue.toInt ≤ a.toInt + b.toInt)
    (h' : a.toInt + b.toInt ≤ Int64.maxValue.toInt) :
    (Dataset.saturatingAdd a b).toInt = a.toInt + b.toInt :=
  Int64.toInt_ofIntClamp h h'

theorem toInt_saturatingAdd_of_gt {a b : Int64} (h : Int64.maxValue.toInt < a.toInt + b.toInt) :
    (Dataset.saturatingAdd a b).toInt = Int64.maxValue.toInt := by
  have hmin : Int64.minValue.toInt ≤ Int64.maxValue.toInt := by decide
  have hle : ¬ a.toInt + b.toInt ≤ Int64.maxValue.toInt := by omega
  have hge : Int64.minValue.toInt ≤ a.toInt + b.toInt := by omega
  rw [Dataset.saturatingAdd, Int64.ofIntClamp, dif_pos hge, dif_neg hle]

namespace Column

theorem length_rows (c : Column) (first last : Nat) :
    (c.rows first last).cells.length = min (last - first) (c.cells.length - first) := by
  simp only [rows, List.length_take, List.length_drop]

theorem rows_single {c : Column} {i : Nat} {cell : Cell} (h : c.cells[i]? = some cell) :
    c.rows i (i + 1) = ⟨c.name, c.type, [cell]⟩ := by
  rw [rows, Nat.add_sub_cancel_left, List.take_one, List.head?_drop, h]
  rfl

theorem le_windowEnd (n first : Nat) (last : Int64) : first ≤ windowEnd n first last :=
  Nat.le_max_right _ _

theorem windowEnd_le {n first : Nat} (h : first ≤ n) (last : Int64) :
    windowEnd n first last ≤ n := by
  have hstop : (if last < 0 then n - last.toInt.natAbs else min last.toInt.toNat n) ≤ n := by
    split <;> omega
  exact Nat.max_le.mpr ⟨hstop, h⟩

/-- The difference of the column's end and a negative `last` stops at zero. -/
theorem windowEnd_exact (n first : Nat) (last : Int64) : (windowEnd n first last : Int) =
    max (first : Int)
      (if last.toInt < 0 then max 0 (n + last.toInt) else min (n : Int) last.toInt) := by
  have hzero : (0 : Int64).toInt = 0 := rfl
  simp only [windowEnd, Int64.lt_iff_toInt_lt, hzero]
  split <;> omega

/-- From a row of the table on, the bound on a sum is out of reach of any column in memory. -/
theorem windowEnd_saturatingAdd {n : Nat} {start : Int64} (size : Int64) (h0 : 0 ≤ start.toInt)
    (hn : (n : Int) ≤ Int64.maxValue.toInt) (first : Nat) :
    (windowEnd n first (Dataset.saturatingAdd start size) : Int) = max (first : Int)
      (if start.toInt + size.toInt < 0 then max 0 (n + (start.toInt + size.toInt))
        else min (n : Int) (start.toInt + size.toInt)) := by
  have hmin : Int64.minValue.toInt ≤ start.toInt + size.toInt := by
    have := Int64.minValue_le_toInt size
    omega
  rw [windowEnd_exact]
  by_cases hs : start.toInt + size.toInt ≤ Int64.maxValue.toInt
  · rw [toInt_saturatingAdd_of_le hmin hs]
  · have hmax : 0 ≤ Int64.maxValue.toInt := by decide
    have hsum : ¬ start.toInt + size.toInt < 0 := by omega
    rw [toInt_saturatingAdd_of_gt (by omega), if_neg (Int.not_lt.mpr hmax), if_neg hsum]
    omega

/-- A page within the range of 64 bits ends `size` rows after its start, or with the column. -/
theorem window_page {c : Column} {start size : Int64} (h0 : 0 ≤ start.toInt)
    (hsize : 0 ≤ size.toInt) (hn : (c.cells.length : Int) ≤ Int64.maxValue.toInt) :
    c.window start.toInt.toNat (Dataset.saturatingAdd start size) =
      c.rows start.toInt.toNat (start.toInt.toNat + size.toInt.toNat) := by
  have hlast := windowEnd_saturatingAdd size h0 hn (min start.toInt.toNat c.cells.length)
  rw [if_neg (by omega)] at hlast
  simp only [window, rows]
  congr 1
  by_cases hle : start.toInt.toNat ≤ c.cells.length
  · rw [Nat.min_eq_left hle] at hlast ⊢
    apply List.take_eq_take_iff.mpr
    simp only [List.length_drop]
    omega
  · rw [List.drop_eq_nil_of_le (by omega), List.drop_eq_nil_of_le (by omega)]
    simp

/-- A window from the first row on that no column fills is the column. -/
theorem window_whole {c : Column} {size : Int64} (h0 : 0 ≤ size.toInt)
    (h : (c.cells.length : Int) ≤ size.toInt) :
    c.window 0 (Dataset.saturatingAdd 0 size) = c := by
  have hn : (c.cells.length : Int) ≤ Int64.maxValue.toInt := Int.le_trans h (Int64.toInt_le size)
  have hpage := @window_page c 0 size (Int.le_refl 0) h0 hn
  have hfit : c.cells.length ≤ size.toInt.toNat := by omega
  refine hpage.trans ?_
  simp only [rows, Int64.toInt_zero, Int.toNat_zero, List.drop_zero, Nat.zero_add, Nat.sub_zero,
    List.take_of_length_le hfit]

end Column

/-- The same stretch of every column. -/
def Dataset.rows (d : Dataset) (first last : Nat) : Dataset :=
  { d with columns := d.columns.map (fun c => c.rows first last) }

/-- Where no column is longer than the table, the whole table is a window like any other. -/
theorem slice_eq_windows {d : Dataset} {start size : Int64} (h0 : 0 ≤ start.toInt)
    (h : start.toInt < d.rowCount) (hcells : ∀ c ∈ d.columns, c.cells.length ≤ d.rowCount) :
    d.slice start size = .ok (d.columns.map (fun c =>
      c.window start.toInt.toNat (Dataset.saturatingAdd start size))) := by
  simp only [Dataset.slice, Dataset.firstRow?_of_inside h0 h]
  split
  next hwhole =>
    obtain ⟨hfirst, hsize⟩ := hwhole
    have hstart : start = 0 := Int64.toInt_inj.mp (by rw [Int64.toInt_zero]; omega)
    have hid : ∀ c ∈ d.columns,
        c.window start.toInt.toNat (Dataset.saturatingAdd start size) = id c := by
      intro c hc
      have hc := hcells c hc
      rw [hfirst, hstart]
      exact Column.window_whole (by omega) (by omega)
    rw [List.map_congr_left hid, List.map_id]
  next => rfl

theorem slice_rows {d : Dataset} {start size : Int64} (h0 : 0 ≤ start.toInt)
    (hlt : start.toInt < d.rowCount) (hsize : 0 ≤ size.toInt)
    (hmemory : ∀ c ∈ d.columns, (c.cells.length : Int) ≤ Int64.maxValue.toInt)
    (hcells : ∀ c ∈ d.columns, c.cells.length ≤ d.rowCount) :
    d.slice start size =
      .ok (d.rows start.toInt.toNat (start.toInt.toNat + size.toInt.toNat)).columns := by
  rw [slice_eq_windows h0 hlt hcells]
  congr 1
  exact List.map_congr_left (fun c hc => Column.window_page h0 hsize (hmemory c hc))

theorem slice_page {d : Dataset} {start size : Int64} (h0 : 0 ≤ start.toInt)
    (hlt : start.toInt < d.rowCount) (hpos : 0 < size.toInt)
    (hrows : (d.rowCount : Int) ≤ Int64.maxValue.toInt)
    (hcells : ∀ c ∈ d.columns, c.cells.length ≤ d.rowCount) :
    d.slice start size =
      .ok (d.rows start.toInt.toNat (start.toInt.toNat + size.toInt.toNat)).columns := by
  refine slice_rows h0 hlt (Int.le_of_lt hpos) (fun c hc => ?_) hcells
  have := hcells c hc
  omega

theorem slice_row {d : Dataset} {i : Nat} (hi : i < d.rowCount)
    (hfit : (i : Int) ≤ Int64.maxValue.toInt)
    (hmemory : ∀ c ∈ d.columns, (c.cells.length : Int) ≤ Int64.maxValue.toInt)
    (hcells : ∀ c ∈ d.columns, c.cells.length ≤ d.rowCount) :
    ∃ start : Int64, start.toInt = i ∧ d.slice start 1 = .ok (d.rows i (i + 1)).columns := by
  have hstart : (Int64.ofNat i).toInt = i := by
    refine Int64.toInt_ofNat_of_lt ?_
    have hmax : Int64.maxValue.toInt < 2 ^ 63 := by decide
    omega
  have hone : (1 : Int64).toInt = 1 := rfl
  have hslice : d.slice (Int64.ofNat i) 1 = _ :=
    slice_rows (by omega) (by omega) (by omega) hmemory hcells
  rw [hstart, hone] at hslice
  exact ⟨Int64.ofNat i, hstart, hslice⟩

end PagedTables
