import PagedTables.Proofs.RowWindows

namespace PagedTables

namespace Column

/-- The row of `c` at which a window begins that begins at the row `start` of the table. -/
def firstAt (c : Column) (start : Int) : Int := min start c.cells.length

/-- The row of `c` before which it ends. The sum is exact; below zero it counts back from the end.
-/
def lastAt (c : Column) (start size : Int) : Int :=
  max (c.firstAt start)
    (if start + size < 0 then max 0 (c.cells.length + (start + size))
      else min c.cells.length (start + size))

/-- `v` is `c` with the cells from the first row of the window up to the last. -/
structure Cut (c : Column) (start size : Int) (v : Column) : Prop where
  name : v.name = c.name
  type : v.type = c.type
  cells : ∃ before after : List Cell, c.cells = before ++ v.cells ++ after ∧
    (before.length : Int) = c.firstAt start ∧
    (before.length + v.cells.length : Int) = c.lastAt start size

theorem rows_split {c : Column} {first last : Nat} (h : first ≤ last)
    (hlast : last ≤ c.cells.length) :
    ∃ before after : List Cell, c.cells = before ++ (c.rows first last).cells ++ after ∧
      before.length = first ∧ before.length + (c.rows first last).cells.length = last := by
  have hfirst : (c.cells.take first).length = first := by
    rw [List.length_take]
    omega
  have hrows := c.length_rows first last
  refine ⟨c.cells.take first, (c.cells.drop first).drop (last - first), ?_, hfirst, by omega⟩
  rw [List.append_assoc, rows, List.take_append_drop, List.take_append_drop]

theorem cut_window (c : Column) {start size : Int64} (h0 : 0 ≤ start.toInt)
    (hn : (c.cells.length : Int) ≤ Int64.maxValue.toInt) :
    c.Cut start.toInt size.toInt
      (c.window start.toInt.toNat (Dataset.saturatingAdd start size)) := by
  have hfirst : ((min start.toInt.toNat c.cells.length : Nat) : Int) = c.firstAt start.toInt := by
    simp only [firstAt]
    omega
  have hlast := windowEnd_saturatingAdd size h0 hn (min start.toInt.toNat c.cells.length)
  rw [hfirst] at hlast
  obtain ⟨before, after, hcells, hbefore, hend⟩ := rows_split
    (le_windowEnd c.cells.length (min start.toInt.toNat c.cells.length) _)
    (windowEnd_le (Nat.min_le_right _ _) (Dataset.saturatingAdd start size))
  refine ⟨rfl, rfl, before, after, hcells, by rw [hbefore, hfirst], ?_⟩
  exact (Int.ofNat_inj.mpr hend).trans hlast

end Column

theorem slice_error_iff {d : Dataset} {start size : Int64} {e : InvalidRange} :
    d.slice start size = .error e ↔
      e = ⟨start⟩ ∧ (start.toInt < 0 ∨ (d.rowCount : Int) ≤ start.toInt) := by
  by_cases hout : start.toInt < 0 ∨ (d.rowCount : Int) ≤ start.toInt
  · rw [Dataset.slice_of_outside size hout]
    simp only [Except.error.injEq, hout, and_true]
    exact eq_comm
  · have hin : ∃ columns, d.slice start size = .ok columns :=
      Dataset.slice_of_inside size (by omega) (by omega)
    obtain ⟨columns, hslice⟩ := hin
    simp only [hslice, hout, and_false, reduceCtorEq]

/-- A slice fails exactly where it begins outside the table. If no column is longer than the table,
or than any list in memory, each is cut at the ends that the exact sum gives, and a slice of the
whole table is no exception. What is taken of a column never reaches beyond it, however long it is.
-/
theorem slice_cuts_exactly (d : Dataset) (start size : Int64) :
    (∀ e, d.slice start size = .error e ↔
      e = ⟨start⟩ ∧ (start.toInt < 0 ∨ (d.rowCount : Int) ≤ start.toInt)) ∧
    (0 ≤ start.toInt → start.toInt < d.rowCount →
      (∀ c ∈ d.columns, c.cells.length ≤ d.rowCount) →
      (∀ c ∈ d.columns, (c.cells.length : Int) ≤ Int64.maxValue.toInt) →
      d.slice start size = .ok (d.columns.map (fun c =>
        c.window start.toInt.toNat (Dataset.saturatingAdd start size))) ∧
      ∀ c ∈ d.columns, c.Cut start.toInt size.toInt
        (c.window start.toInt.toNat (Dataset.saturatingAdd start size))) ∧
    ∀ c ∈ d.columns,
      let first := min start.toInt.toNat c.cells.length
      let last := Column.windowEnd c.cells.length first (Dataset.saturatingAdd start size)
      c.window start.toInt.toNat (Dataset.saturatingAdd start size) = c.rows first last ∧
        first ≤ last ∧ last ≤ c.cells.length := by
  refine ⟨fun e => slice_error_iff, fun h0 hlt hcells hmemory => ?_, fun c _ => ?_⟩
  · exact ⟨slice_eq_windows h0 hlt hcells, fun c hc => c.cut_window h0 (hmemory c hc)⟩
  · intro first last
    have hfirst : first ≤ c.cells.length := Nat.min_le_right _ _
    exact ⟨rfl, Column.le_windowEnd _ _ _, Column.windowEnd_le hfirst _⟩

/-- The end counts back from the end of each column: the longer one still has a row to give. -/
theorem primes_cut_backwards :
    primes.slice 1 (-3) = .ok [⟨"prime", "int", [.int 3]⟩, ⟨"name", "string", []⟩] ∧
    ∀ c ∈ primes.columns, c.Cut 1 (-3) (c.window 1 (-2)) := by
  have hcells : ∀ c ∈ primes.columns, c.cells.length ≤ primes.rowCount := by decide
  have hmemory : ∀ c ∈ primes.columns, (c.cells.length : Int) ≤ Int64.maxValue.toInt := by decide
  obtain ⟨hslice, hcut⟩ :=
    (slice_cuts_exactly primes 1 (-3)).2.1 (by decide) (by decide) hcells hmemory
  exact ⟨hslice, hcut⟩

end PagedTables
