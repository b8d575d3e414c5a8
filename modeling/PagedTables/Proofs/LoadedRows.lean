import PagedTables.Proofs.RowWindows
import PagedTables.Proofs.SortedJson
import PagedTables.Source

namespace PagedTables

theorem readText_of_toUTF8 {files : Files} {path text : String}
    (h : files.read path = .ok text.toUTF8) : files.readText path = .ok text := by
  have hs : String.fromUTF8? text.toUTF8 = some text := dif_pos text.isValidUTF8
  simp only [Files.readText, h, hs]

namespace Dataset

/-- The number of cells in the first column. -/
def height (d : Dataset) : Nat := d.columns.head?.elim 0 (fun c => c.cells.length)

theorem height_le {d : Dataset} {k : Nat} (h : ∀ c ∈ d.columns, c.cells.length ≤ k) :
    d.height ≤ k := by
  unfold height
  cases hd : d.columns with
  | nil => exact Nat.zero_le k
  | cons first rest =>
    rw [hd] at h
    exact h first List.mem_cons_self

theorem checkColumns_ok_iff {d : Dataset} :
    d.checkColumns = .ok () ↔ ∀ c ∈ d.columns, c.cells.length = d.height := by
  unfold checkColumns height
  cases d.columns with
  | nil => simp
  | cons first rest =>
    simp only [List.head?_cons, Option.elim_some]
    constructor
    · intro h c hc
      split at h
      next hnone => simpa using List.find?_eq_none.mp hnone c hc
      next => cases h
    · intro h
      have hnone : (first :: rest).find? (fun c => c.cells.length != first.cells.length) = none := by
        refine List.find?_eq_none.mpr (fun c hc => ?_)
        simpa using h c hc
      rw [hnone]

end Dataset

namespace Source

/-- The file itself says how many rows there are. Records say nothing of it. -/
def Declares (files : Files) (source : Source) (k : Nat) : Prop :=
  source.format? = some .json ∧ ∃ text content, files.readText source.path = .ok text ∧
    Dataset.parseFile text = .ok content ∧ content.rowCount = some k

variable {files : Files} {source : Source} {d : Dataset}

theorem load_ok_iff : source.load files = .ok d ↔
    ∃ format table, source.format? = some format ∧ loadAs files source.path format = .ok table ∧
      table.checkColumns = .ok () ∧
      d = { table with id := source.id.getD table.id, title := source.title.getD table.title } := by
  unfold load
  cases source.format? with
  | none => simp
  | some format =>
    simp only [bind_ok_iff, mapError_ok_iff]
    constructor
    · rintro ⟨table, ht, _, hc, h⟩
      exact ⟨format, table, rfl, ht, hc, (Except.ok.inj h).symm⟩
    · rintro ⟨_, table, hf, ht, hc, rfl⟩
      cases hf
      exact ⟨table, ht, (), hc, rfl⟩

theorem rowCount_of_loadCsv {path : String} (h : loadCsv files path = .ok d) :
    d.rowCount = d.height := by
  obtain ⟨bytes, _, h⟩ := bind_ok_iff.mp h
  obtain ⟨records, _, h⟩ := bind_ok_iff.mp h
  cases h
  rfl

theorem rowCount_of_loadJson {path : String} (h : loadJson files path = .ok d) :
    ∃ text content, files.readText path = .ok text ∧ Dataset.parseFile text = .ok content ∧
      d.rowCount = content.rowCount.getD d.height := by
  obtain ⟨text, htext, h⟩ := bind_ok_iff.mp h
  obtain ⟨content, hcontent, h⟩ := bind_ok_iff.mp h
  cases h
  exact ⟨text, content, mapError_ok_iff.mp htext, mapError_ok_iff.mp hcontent, rfl⟩

theorem rowCount_of_load (h : source.load files = .ok d) :
    d.rowCount = d.height ∨ source.Declares files d.rowCount := by
  obtain ⟨format, table, hf, ht, _, rfl⟩ := load_ok_iff.mp h
  cases format with
  | csv =>
    have hrows : table.rowCount = table.height := rowCount_of_loadCsv ht
    exact .inl hrows
  | json =>
    obtain ⟨text, content, htext, hcontent, hrows⟩ := rowCount_of_loadJson ht
    cases hk : content.rowCount with
    | none =>
      rw [hk, Option.getD_none] at hrows
      exact .inl hrows
    | some k =>
      rw [hk, Option.getD_some] at hrows
      exact .inr ⟨hf, text, content, htext, hcontent, hk.trans (congrArg some hrows.symm)⟩

theorem height_of_load (h : source.load files = .ok d) :
    ∀ c ∈ d.columns, c.cells.length = d.height := by
  obtain ⟨format, table, _, _, hc, rfl⟩ := load_ok_iff.mp h
  exact Dataset.checkColumns_ok_iff.mp hc

end Source

/-- Rows that no column holds, and rows past the last, are in no stretch. -/
theorem Column.rows_min {c : Column} {first last limit : Nat} (h : c.cells.length ≤ limit) :
    c.rows first (min last limit) = c.rows first last := by
  have ht : (c.cells.drop first).take (min last limit - first) =
      (c.cells.drop first).take (last - first) := by
    apply List.take_eq_take_iff.mpr
    rw [List.length_drop]
    omega
  simp only [rows, ht]

/-- A table that was loaded has columns of one length. Unless its file declares fewer rows than they
hold, they go no further than the table, every page has the rows that were asked for and are there,
and every row begins a page. No list in memory is longer than `Int64.maxValue`. -/
theorem loaded_rows_within_count {files : Files} {source : Source} {d : Dataset}
    (h : source.load files = .ok d)
    (hdeclared : ∀ k, source.Declares files k → ∀ c ∈ d.columns, c.cells.length ≤ k)
    (hmemory : ∀ c ∈ d.columns, (c.cells.length : Int) ≤ Int64.maxValue.toInt) :
    ∃ n, (∀ c ∈ d.columns, c.cells.length = n) ∧ n ≤ d.rowCount ∧
      (∀ start size : Int64, 0 ≤ start.toInt → start.toInt < d.rowCount → 0 ≤ size.toInt →
        ∃ columns, d.slice start size = .ok columns ∧
          columns = (d.rows start.toInt.toNat
            (min (start.toInt.toNat + size.toInt.toNat) d.rowCount)).columns ∧
          ∀ c ∈ columns, (c.cells.length : Int) =
            min size.toInt (min (d.rowCount - start.toInt) (max 0 (n - start.toInt)))) ∧
      ∀ i < n, ∃ start : Int64, start.toInt = i ∧ start.toInt < d.rowCount ∧
        d.slice start 1 = .ok (d.rows i (i + 1)).columns := by
  have hheight := Source.height_of_load h
  have hle : d.height ≤ d.rowCount := by
    rcases Source.rowCount_of_load h with hrows | hfile
    · exact Nat.le_of_eq hrows.symm
    · exact d.height_le (hdeclared _ hfile)
  have hcells : ∀ c ∈ d.columns, c.cells.length ≤ d.rowCount := by
    intro c hc
    rw [hheight c hc]
    exact hle
  refine ⟨d.height, hheight, hle, fun start size h0 hlt hsize => ?_, fun i hi => ?_⟩
  · have hslice := slice_rows h0 hlt hsize hmemory hcells
    refine ⟨_, hslice, ?_, fun c hc => ?_⟩
    · exact List.map_congr_left (fun c hc => (Column.rows_min (hcells c hc)).symm)
    · obtain ⟨column, hcolumn, rfl⟩ := List.mem_map.mp hc
      rw [Column.length_rows, hheight column hcolumn]
      omega
  · have hbound : d.height ≤ Int64.maxValue.toInt.toNat := by
      refine d.height_le (fun c hc => ?_)
      have := hmemory c hc
      omega
    have hstart : (Int64.ofNat i).toInt = i := by
      refine Int64.toInt_ofNat_of_lt ?_
      have hmax : Int64.maxValue.toInt.toNat < 2 ^ 63 := by decide
      omega
    have hone : (1 : Int64).toInt = 1 := rfl
    have hlt : (Int64.ofNat i).toInt < d.rowCount := by omega
    have hslice : d.slice (Int64.ofNat i) 1 = _ :=
      slice_rows (by omega) hlt (by omega) hmemory hcells
    rw [hstart, hone] at hslice
    exact ⟨Int64.ofNat i, hstart, hlt, hslice⟩

/-- Three rows in a file that says how many there are. -/
def threeRowsText (said : String) : String :=
  "\x7b\"rowCount\":" ++ said ++
    ",\"columns\":[\x7b\"name\":\"a\",\"type\":\"int\",\"data\":[1,2,3]\x7d]\x7d"

/-- The tokens of that text, where `said` is the value that is said. -/
def threeRowsTokens (said : Document) : List Json.Token :=
  [.mark '\x7b', .text (some "rowCount"), .mark ':', .scalar said, .mark ',',
    .text (some "columns"), .mark ':', .mark '[',
    .mark '\x7b', .text (some "name"), .mark ':', .text (some "a"), .mark ',',
    .text (some "type"), .mark ':', .text (some "int"), .mark ',',
    .text (some "data"), .mark ':', .mark '[', .scalar (.num (.int 1)), .mark ',',
    .scalar (.num (.int 2)), .mark ',', .scalar (.num (.int 3)), .mark ']', .mark '\x7d',
    .mark ']', .mark '\x7d']

theorem tokens_digit {c : Char} (hc : c.isDigit = true) (rest : List Char) :
    Json.tokens (c :: ',' :: rest) =
      .scalar (Json.wholeOf false [c]) :: .mark ',' :: Json.tokens rest := by
  have hne : ∀ m : Char, m.isDigit = false → c ≠ m := by
    rintro m hm rfl
    cases hm.symm.trans hc
  have hblank : Json.isBlank c = false := by simp [Json.isBlank, hne]
  have htoken : Json.scanToken c (',' :: rest) =
      (.scalar (Json.wholeOf false [c]), ',' :: rest) := by
    simp [Json.scanToken, Json.scanNumber, Json.scanAfterWhole, hc, hne]
  have hmark : Json.tokens (',' :: rest) = .mark ',' :: Json.tokens rest := by
    simp [Json.tokens, Json.isBlank, Json.scanToken]
  rw [Json.tokens]
  simp only [hblank, htoken, hmark, Bool.false_eq_true, if_false]

theorem scan_threeRows {said : String} {d : Document}
    (h : ∀ rest, Json.tokens (said.toList ++ ',' :: rest) =
      .scalar d :: .mark ',' :: Json.tokens rest) :
    Json.scan (threeRowsText said) = Json.assemble [] .value (threeRowsTokens d) := by
  have hone : Json.wholeOf false ['1'] = .num (.int 1) := rfl
  have htwo : Json.wholeOf false ['2'] = .num (.int 2) := rfl
  have hthree : Json.wholeOf false ['3'] = .num (.int 3) := rfl
  have htokens : Json.tokens (threeRowsText said).toList = threeRowsTokens d := by
    simp [threeRowsText, threeRowsTokens, h, Json.tokens, Json.isBlank, Json.scanToken,
      Json.scanText, Json.scanNumber, Json.scanAfterWhole, hone, htwo, hthree]
  rw [Json.scan, htokens]

def threeRowsFiles (said : String) : Files where
  read _ := .ok (threeRowsText said).toUTF8

def threeRowsSource : Source where
  path := "t"
  format := some .json

def threeRows (said : Nat) : Dataset where
  id := ""
  title := "t"
  columns := [⟨"a", "int", [.int 1, .int 2, .int 3]⟩]
  rowCount := said

theorem fileName?_t : Path.fileName? "t" = some "t" := by
  have hone : "t".splitOn "/" = ["t"] := splitOn_of_absent (by decide) (by decide +kernel)
  simp [Path.fileName?, hone]

theorem load_threeRows {said : String} {k : Nat}
    (h : Dataset.parseFile (threeRowsText said) = .ok ⟨"", none, (threeRows k).columns, some k⟩) :
    threeRowsSource.load (threeRowsFiles said) = .ok (threeRows k) := by
  have htext : (threeRowsFiles said).readText "t" = .ok (threeRowsText said) :=
    readText_of_toUTF8 rfl
  have htitle : Source.fileTitle threeRowsSource.path = "t" := by
    simp only [Source.fileTitle, Path.stem?, threeRowsSource, fileName?_t]
    rfl
  refine Source.load_ok_iff.mpr ⟨.json, threeRows k, rfl, ?_, rfl, rfl⟩
  refine bind_ok_iff.mpr ⟨_, mapError_ok_iff.mpr htext, ?_⟩
  refine bind_ok_iff.mpr ⟨_, mapError_ok_iff.mpr h, ?_⟩
  rw [htitle]
  rfl

theorem page_of_overstated_rows : ∃ d columns n,
    threeRowsSource.load (threeRowsFiles "5") = .ok d ∧ d.rowCount = 5 ∧
      (∀ c ∈ d.columns, c.cells.length = n) ∧ n ≤ d.rowCount ∧ d.slice 1 4 = .ok columns ∧
      ∀ c ∈ columns, (c.cells.length : Int) = min 4 (min (5 - 1) (max 0 ((n : Int) - 1))) := by
  have hparse : Dataset.parseFile (threeRowsText "5") =
      .ok ⟨"", none, (threeRows 5).columns, some 5⟩ := by
    rw [Dataset.parseFile, Json.decode, @scan_threeRows "5" _ (tokens_digit rfl)]
    rfl
  have hload := load_threeRows hparse
  have hdeclared : ∀ k, threeRowsSource.Declares (threeRowsFiles "5") k →
      ∀ c ∈ (threeRows 5).columns, c.cells.length ≤ k := by
    rintro k ⟨_, text, content, htext, hcontent, hk⟩ c hc
    cases htext.symm.trans (readText_of_toUTF8 rfl)
    cases hcontent.symm.trans hparse
    cases hk
    cases List.mem_singleton.mp hc
    decide
  have hmemory : ∀ c ∈ (threeRows 5).columns, (c.cells.length : Int) ≤ Int64.maxValue.toInt := by
    intro c hc
    cases List.mem_singleton.mp hc
    decide
  obtain ⟨n, hn, hle, hpages, _⟩ := loaded_rows_within_count hload hdeclared hmemory
  obtain ⟨columns, hslice, _, hlength⟩ := hpages 1 4 (by decide) (by decide) (by decide)
  exact ⟨_, columns, n, hload, rfl, hn, hle, hslice, hlength⟩

/-- A file may declare fewer rows than it has. A page of one row then has them all. -/
theorem page_of_understated_rows : ∃ d columns c,
    threeRowsSource.load (threeRowsFiles "1") = .ok d ∧ d.rowCount = 1 ∧
      d.slice 0 1 = .ok columns ∧ c ∈ columns ∧ c.cells.length = 3 := by
  have hparse : Dataset.parseFile (threeRowsText "1") =
      .ok ⟨"", none, (threeRows 1).columns, some 1⟩ := by
    rw [Dataset.parseFile, Json.decode, @scan_threeRows "1" _ (tokens_digit rfl)]
    rfl
  exact ⟨_, _, _, load_threeRows hparse, rfl, rfl, List.mem_cons_self, rfl⟩

end PagedTables
