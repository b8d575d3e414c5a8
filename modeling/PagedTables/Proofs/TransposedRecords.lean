import Mathlib.Data.List.Induction
import PagedTables.Proofs.LoadOutcomes

namespace PagedTables

namespace Csv

namespace Reader

/-- Every record that was read has a field. -/
def Filled (r : Reader) : Prop := ∀ record ∈ r.records, record ≠ []

theorem Filled.endRecord {r : Reader} (h : r.Filled) : r.endRecord.Filled := by
  intro record hmem
  rcases List.mem_cons.mp hmem with rfl | hmem
  · simp [endField]
  · exact h record hmem

theorem Filled.unquoted {r : Reader} (h : r.Filled) (b : UInt8) {quotes : Place → Reader}
    (hquotes : ∀ place, (quotes place).Filled) : (r.unquoted b quotes).Filled := by
  unfold Reader.unquoted
  split
  · exact h
  · split
    · exact h.endRecord
    · split
      · exact hquotes _
      · exact h

theorem Filled.step {r : Reader} (h : r.Filled) (b : UInt8) : (r.step b).Filled := by
  unfold Reader.step
  split
  · split
    · exact h
    · exact h.unquoted b (fun _ => h)
  · exact h.unquoted b (fun _ => h)
  · exact h.unquoted b (fun _ => h)
  · split
    · exact h
    · exact h
  · exact h.unquoted b (fun _ => h)

theorem Filled.foldl {r : Reader} (h : r.Filled) (bytes : List UInt8) :
    (bytes.foldl Reader.step r).Filled := by
  induction bytes generalizing r with
  | nil => exact h
  | cons b bytes ih => exact ih (h.step b)

end Reader

theorem ne_nil_of_mem_records {bytes : List UInt8} {record : List (List UInt8)}
    (h : record ∈ records bytes) : record ≠ [] := by
  have hread : ((withoutMark bytes).foldl Reader.step {}).Filled :=
    Reader.Filled.foldl (fun _ hmem => by cases hmem) _
  unfold records Reader.finish at h
  split at h
  · exact hread record (List.mem_reverse.mp h)
  · exact hread.endRecord record (List.mem_reverse.mp h)

theorem length_recordText {record : List (List UInt8)} {fields : List String}
    (h : recordText record = .ok fields) : fields.length = record.length := by
  induction record generalizing fields with
  | nil =>
    cases h
    rfl
  | cons field record ih =>
    obtain ⟨s, _, h⟩ := bind_ok_iff.mp h
    obtain ⟨rest, hrest, h⟩ := bind_ok_iff.mp h
    cases h
    exact congrArg Nat.succ (ih hrest)

/-- The fields of the header. A file without records has none. -/
def headerText (bytes : List UInt8) : Except Fault (List String) :=
  recordText ((records bytes).headD [])

/-- What a record gives under a header of `width` fields. -/
def outcome (width : Nat) (record : List (List UInt8)) : Except Fault (List String) :=
  if record.length = width then recordText record else .error (.unequalLengths width record.length)

/-- What the records after the header give, in order. -/
def outcomes (bytes : List UInt8) : List (Except Fault (List String)) :=
  (records bytes).tail.map (outcome ((records bytes).headD []).length)

/-- Everything before `f` was a record. -/
def FirstFault (f : Fault) (outcomes : List (Except Fault (List String))) : Prop :=
  ∃ (before : List (List String)) (after : List (Except Fault (List String))),
    outcomes = before.map .ok ++ .error f :: after

theorem firstFault_cons_error {f f' : Fault} {outcomes : List (Except Fault (List String))} :
    FirstFault f (.error f' :: outcomes) ↔ f' = f := by
  constructor
  · rintro ⟨before, after, heq⟩
    cases before with
    | nil =>
      cases heq
      rfl
    | cons row before => cases heq
  · rintro rfl
    exact ⟨[], outcomes, rfl⟩

theorem firstFault_cons_ok {f : Fault} {row : List String}
    {outcomes : List (Except Fault (List String))} :
    FirstFault f (.ok row :: outcomes) ↔ FirstFault f outcomes := by
  constructor
  · rintro ⟨before, after, heq⟩
    cases before with
    | nil => cases heq
    | cons _ before =>
      obtain ⟨_, heq⟩ := List.cons.inj heq
      exact ⟨before, after, heq⟩
  · rintro ⟨before, after, rfl⟩
    exact ⟨row :: before, after, rfl⟩

theorem exists_firstFault {f : Fault} {outcomes : List (Except Fault (List String))}
    (h : .error f ∈ outcomes) : ∃ f', FirstFault f' outcomes := by
  induction outcomes with
  | nil => cases h
  | cons outcome outcomes ih =>
    cases outcome with
    | error f' => exact ⟨f', firstFault_cons_error.mpr rfl⟩
    | ok row =>
      rcases List.mem_cons.mp h with h | h
      · cases h
      · obtain ⟨f', hf'⟩ := ih h
        exact ⟨f', firstFault_cons_ok.mpr hf'⟩

theorem length_of_outcome {width : Nat} {record : List (List UInt8)} {row : List String}
    (h : outcome width record = .ok row) : row.length = width := by
  unfold outcome at h
  split at h
  next hlength => exact (length_recordText h).trans hlength
  next => cases h

theorem rowTexts_cons (width : Nat) (record : List (List UInt8))
    (records : List (List (List UInt8))) : rowTexts width (record :: records) = do
      let row ← outcome width record
      let rows ← rowTexts width records
      return row :: rows := by
  rw [rowTexts, outcome]
  by_cases h : record.length = width
  · simp only [h, ne_eq, not_true_eq_false, if_true, if_false]
  · simp only [h, ne_eq, not_false_eq_true, if_true, if_false]
    rfl

theorem rowTexts_ok_iff {width : Nat} {records : List (List (List UInt8))}
    {rows : List (List String)} :
    rowTexts width records = .ok rows ↔ records.map (outcome width) = rows.map .ok := by
  induction records generalizing rows with
  | nil =>
    rw [List.map_nil, eq_comm (a := []), List.map_eq_nil_iff, eq_comm (a := rows)]
    exact ⟨Except.ok.inj, congrArg _⟩
  | cons record records ih =>
    simp only [rowTexts_cons, bind_ok_iff, ih, List.map_cons]
    constructor
    · rintro ⟨row, hrow, rest, hrest, h⟩
      cases h
      rw [hrow, hrest, List.map_cons]
    · intro h
      cases rows with
      | nil => cases h
      | cons row rows =>
        obtain ⟨hrow, hrest⟩ := List.cons.inj h
        exact ⟨row, hrow, rows, hrest, rfl⟩

theorem rowTexts_error_iff {width : Nat} {records : List (List (List UInt8))} {f : Fault} :
    rowTexts width records = .error f ↔ FirstFault f (records.map (outcome width)) := by
  induction records with
  | nil =>
    constructor
    · intro h
      cases h
    · rintro ⟨before, after, h⟩
      cases before <;> cases h
  | cons record records ih =>
    simp only [rowTexts_cons, bind_error_iff, ih, List.map_cons]
    cases outcome width record with
    | error f' =>
      rw [firstFault_cons_error]
      constructor
      · rintro (h | ⟨_, h, _⟩)
        · exact Except.error.inj h
        · cases h
      · rintro rfl
        exact .inl rfl
    | ok row =>
      rw [firstFault_cons_ok]
      constructor
      · rintro (h | ⟨_, _, h | ⟨_, _, h⟩⟩)
        · cases h
        · exact h
        · cases h
      · exact fun h => .inr ⟨row, rfl, .inl h⟩

theorem table_eq (bytes : List UInt8) : table bytes = do
    let header ← headerText bytes
    let rows ← rowTexts ((records bytes).headD []).length (records bytes).tail
    return ⟨header, rows⟩ := by
  unfold table headerText
  cases records bytes <;> rfl

theorem table_ok_iff {bytes : List UInt8} {t : Table} : table bytes = .ok t ↔
    headerText bytes = .ok t.header ∧ outcomes bytes = t.rows.map .ok := by
  simp only [table_eq, bind_ok_iff, rowTexts_ok_iff, outcomes]
  constructor
  · rintro ⟨header, hheader, rows, hrows, h⟩
    cases h
    exact ⟨hheader, hrows⟩
  · rintro ⟨hheader, hrows⟩
    exact ⟨_, hheader, _, hrows, rfl⟩

theorem table_error_iff {bytes : List UInt8} {f : Fault} : table bytes = .error f ↔
    headerText bytes = .error f ∨
      (∃ header, headerText bytes = .ok header) ∧ FirstFault f (outcomes bytes) := by
  simp only [table_eq, bind_error_iff, rowTexts_error_iff, outcomes]
  refine or_congr Iff.rfl ⟨?_, ?_⟩
  · rintro ⟨header, hheader, hfault | ⟨_, _, h⟩⟩
    · exact ⟨⟨header, hheader⟩, hfault⟩
    · cases h
  · rintro ⟨⟨header, hheader⟩, hfault⟩
    exact ⟨header, hheader, .inl hfault⟩

/-- Every row is as long as the header, and only a header with fields has rows. -/
structure Table.Even (t : Table) : Prop where
  rows : ∀ row ∈ t.rows, row.length = t.header.length
  header : t.header = [] → t.rows = []

theorem even_of_table {bytes : List UInt8} {t : Table} (h : table bytes = .ok t) : t.Even := by
  obtain ⟨hheader, hrows⟩ := table_ok_iff.mp h
  have hwidth := length_recordText hheader
  constructor
  · intro row hrow
    have hmem : .ok row ∈ outcomes bytes := hrows ▸ List.mem_map_of_mem hrow
    obtain ⟨record, _, hrecord⟩ := List.mem_map.mp hmem
    exact (length_of_outcome hrecord).trans hwidth.symm
  · intro hnil
    have hnone : records bytes = [] := by
      cases hrecords : records bytes with
      | nil => rfl
      | cons record _ =>
        rw [hnil, hrecords, List.headD_cons] at hwidth
        have hmem : record ∈ records bytes := hrecords ▸ List.mem_cons_self
        exact (ne_nil_of_mem_records hmem (List.length_eq_zero_iff.mp hwidth.symm)).elim
    rw [outcomes, hnone] at hrows
    exact List.map_eq_nil_iff.mp hrows.symm

/-- Adds a record at the ends of the columns, as far as both go. -/
def grow : List Column → List String → List Column
  | c :: columns, field :: fields =>
    { c with cells := c.cells ++ [.text field] } :: grow columns fields
  | columns, _ => columns

/-- The columns under `header` before any record. -/
def bare (header : List String) : List Column :=
  header.map (fun name => ⟨trimmed name, "string", []⟩)

/-- Names come from the header without the white space around them, and the text in field `j` of
record `i` is in row `i` of column `j` as it is. -/
structure Transposes (header : List String) (rows : List (List String)) (columns : List Column) :
    Prop where
  names : columns.map Column.name = header.map trimmed
  types : ∀ c ∈ columns, c.type = "string"
  heights : ∀ c ∈ columns, c.cells.length = rows.length
  cells : ∀ (i j : Nat) (row : List String) (field : String), rows[i]? = some row →
    row[j]? = some field → ∃ c, columns[j]? = some c ∧ c.cells[i]? = some (.text field)

theorem getElem?_grow (columns : List Column) (row : List String) (j : Nat) :
    (grow columns row)[j]? = (columns[j]?).map (fun c => (row[j]?).elim c (fun field =>
      { c with cells := c.cells ++ [.text field] })) := by
  fun_induction grow columns row generalizing j with
  | case1 c columns field fields ih =>
    cases j with
    | zero => rfl
    | succ j => exact ih j
  | case2 columns row hnot =>
    cases columns with
    | nil => rfl
    | cons c columns =>
      cases row with
      | nil => simp
      | cons field fields => exact (hnot c columns field fields rfl rfl).elim

namespace Table

variable {t : Table}

theorem getElem?_columns (t : Table) (j : Nat) : t.columns[j]? = (t.header[j]?).map (fun name =>
    ⟨trimmed name, "string", t.rows.map (fun row => .text (row.getD j ""))⟩) := by
  rw [columns, List.getElem?_mapIdx]

theorem columns_nil (header : List String) : (⟨header, []⟩ : Table).columns = bare header := by
  apply List.ext_getElem?
  intro j
  rw [getElem?_columns, bare, List.getElem?_map]
  rfl

theorem columns_concat {header row : List String} {rows : List (List String)}
    (h : row.length = header.length) : (⟨header, rows ++ [row]⟩ : Table).columns =
      grow (⟨header, rows⟩ : Table).columns row := by
  apply List.ext_getElem?
  intro j
  rw [getElem?_grow, getElem?_columns, getElem?_columns]
  cases hname : header[j]? with
  | none => rfl
  | some name =>
    have hlt := (List.getElem?_eq_some_iff.mp hname).1
    have hfield : row[j]? = some (row.getD j "") := by
      rw [List.getD_eq_getElem?_getD, List.getElem?_eq_getElem (h ▸ hlt)]
      rfl
    rw [hfield, List.map_append]
    rfl

/-- The columns are what the records give when they are added to bare columns one after another. -/
theorem columns_eq_foldl (h : ∀ row ∈ t.rows, row.length = t.header.length) :
    t.columns = t.rows.foldl grow (bare t.header) := by
  obtain ⟨header, rows⟩ := t
  -- A record goes to the ends of the columns, so the last one comes off first.
  induction rows using List.reverseRecOn with
  | nil => exact columns_nil header
  | append_singleton rows row ih =>
    rw [columns_concat (h row (by simp)), ih (fun row hrow => h row (by simp [hrow])),
      List.foldl_concat]

theorem transposes_columns (h : t.Even) : Transposes t.header t.rows t.columns := by
  have hcolumn : ∀ c ∈ t.columns, ∃ j name, t.header[j]? = some name ∧
      c = ⟨trimmed name, "string", t.rows.map (fun row => .text (row.getD j ""))⟩ := by
    intro c hc
    obtain ⟨j, hj⟩ := List.mem_iff_getElem?.mp hc
    rw [getElem?_columns] at hj
    obtain ⟨name, hname, rfl⟩ := Option.map_eq_some_iff.mp hj
    exact ⟨j, name, hname, rfl⟩
  refine ⟨?_, fun c hc => ?_, fun c hc => ?_, fun i j row field hrow hfield => ?_⟩
  · apply List.ext_getElem?
    intro j
    rw [List.getElem?_map, List.getElem?_map, getElem?_columns, Option.map_map]
    rfl
  · obtain ⟨_, _, _, rfl⟩ := hcolumn c hc
    rfl
  · obtain ⟨_, _, _, rfl⟩ := hcolumn c hc
    exact List.length_map _
  · have hlt := (List.getElem?_eq_some_iff.mp hfield).1
    rw [h.rows row (List.mem_of_getElem? hrow)] at hlt
    have hgetD : row.getD j "" = field := by
      rw [List.getD_eq_getElem?_getD, hfield, Option.getD_some]
    refine ⟨_, (getElem?_columns t j).trans (by rw [List.getElem?_eq_getElem hlt]; rfl), ?_⟩
    rw [List.getElem?_map, hrow, Option.map_some, hgetD]

end Table

end Csv

namespace Csv

variable {header row : List String} {rows : List (List String)}

/-- A single record under the names of the columns. -/
def page (header row : List String) : List Column :=
  List.zipWith (fun name field => ⟨trimmed name, "string", [.text field]⟩) header row

theorem Transposes.rows_eq_page {columns : List Column} (h : Transposes header rows columns)
    {i : Nat} (hrow : rows[i]? = some row) (hwidth : row.length = header.length) :
    columns.map (fun c => c.rows i (i + 1)) = page header row := by
  apply List.ext_getElem?
  intro j
  have hname := congrArg (fun names => names[j]?) h.names
  simp only [List.getElem?_map] at hname
  rw [List.getElem?_map, page, List.getElem?_zipWith']
  cases hfield : row[j]? with
  | none =>
    have hnone : header[j]? = none := by
      rw [List.getElem?_eq_none_iff] at hfield ⊢
      omega
    rw [hnone, Option.map_none, Option.map_eq_none_iff] at hname
    rw [hname, hnone]
    rfl
  | some field =>
    obtain ⟨c, hc, hcell⟩ := h.cells i j row field hrow hfield
    have htype := h.types c (List.mem_of_getElem? hc)
    rw [hc, Option.map_some] at hname
    obtain ⟨name, hheader, htrimmed⟩ := Option.map_eq_some_iff.mp hname.symm
    rw [hc, hheader, Option.map_some, Column.rows_single hcell, ← htrimmed, htype]
    rfl

theorem Transposes.slice_page {d : Dataset} (h : Transposes header rows d.columns)
    (hcount : d.rowCount = rows.length) (hmemory : (rows.length : Int) ≤ Int64.maxValue.toInt)
    {i : Nat} (hrow : rows[i]? = some row) (hwidth : row.length = header.length) :
    ∃ start : Int64, start.toInt = i ∧ d.slice start 1 = .ok (page header row) := by
  have hlt := (List.getElem?_eq_some_iff.mp hrow).1
  have hi : i < d.rowCount := hcount ▸ hlt
  have hlength : ∀ c ∈ d.columns, (c.cells.length : Int) ≤ Int64.maxValue.toInt := by
    intro c hc
    rw [h.heights c hc]
    exact hmemory
  have hcells : ∀ c ∈ d.columns, c.cells.length ≤ d.rowCount := by
    intro c hc
    rw [h.heights c hc, hcount]
  obtain ⟨start, hstart, hslice⟩ := slice_row hi (by omega) hlength hcells
  exact ⟨start, hstart, hslice.trans (congrArg _ (h.rows_eq_page hrow hwidth))⟩

theorem Transposes.height {d : Dataset} (h : Transposes header rows d.columns) :
    d.height = if header = [] then 0 else rows.length := by
  have hnames := congrArg List.length h.names
  rw [List.length_map, List.length_map] at hnames
  unfold Dataset.height
  cases hcolumns : d.columns with
  | nil =>
    rw [hcolumns, List.length_nil] at hnames
    rw [if_pos (List.length_eq_zero_iff.mp hnames.symm)]
    rfl
  | cons first rest =>
    have hne : header ≠ [] := by
      rintro rfl
      rw [hcolumns] at hnames
      cases hnames
    rw [if_neg hne]
    exact h.heights first (hcolumns ▸ List.mem_cons_self)

end Csv

namespace Source

variable {files : Files} {source : Source} {bytes : ByteArray}

/-- Records that could be read make columns of one length, so only a fault in them is in the way. -/
theorem load_records_error_iff (hformat : source.Chooses .csv)
    (hbytes : files.read source.path = .ok bytes) {e : LoadError} :
    source.load files = .error e ↔
      ∃ f, e = .csv source.path (.text f) ∧ Csv.table bytes.toList = .error f := by
  rw [load_error_iff]
  constructor
  · intro h
    cases h with
    | unknownFormat h =>
      cases (format?_eq_none_iff.mpr h).symm.trans (format?_eq_some_iff.mpr hformat)
    | file hf h =>
      cases hf.unique hformat
      cases h with
      | csvRead h => cases h.symm.trans hbytes
      | csv hb h =>
        cases hb.symm.trans hbytes
        exact ⟨_, rfl, h⟩
    | ragged hf hdraft h =>
      cases hf.unique hformat
      cases hdraft with
      | csv hb ht =>
        have heights := (Csv.Table.transposes_columns (Csv.even_of_table ht)).heights
        exact (Dataset.not_uneven heights h).elim
  · rintro ⟨f, rfl, h⟩
    exact .file hformat (.csv hbytes h)

theorem load_records (hformat : source.Chooses .csv) (hbytes : files.read source.path = .ok bytes)
    {t : Csv.Table} (ht : Csv.table bytes.toList = .ok t) :
    ∃ d, source.load files = .ok d ∧ d.columns = t.columns ∧ d.rowCount = d.height := by
  have heights := (Csv.Table.transposes_columns (Csv.even_of_table ht)).heights
  exact ⟨_, load_ok_iff_resolves.mpr ⟨.csv, _, hformat, .csv hbytes ht, ⟨_, heights⟩,
    resolves_toDataset _⟩, rfl, rfl⟩

end Source

/-- A file of records is loaded exactly when the header and all records could be read, and else
fails with the first fault; columns of unequal length are no outcome. What is loaded has a column
for each name in the header, with the texts of the records in order, as if each record were added to
the ends of the columns in turn, and a slice of a single row is the record itself. -/
theorem records_transposed {files : Files} {source : Source} {bytes : ByteArray}
    (hformat : source.Chooses .csv) (hbytes : files.read source.path = .ok bytes) :
    (∀ e, source.load files = .error e ↔ ∃ f, e = .csv source.path (.text f) ∧
      (Csv.headerText bytes.toList = .error f ∨
        (∃ header, Csv.headerText bytes.toList = .ok header) ∧
          Csv.FirstFault f (Csv.outcomes bytes.toList))) ∧
    (∀ header f, Csv.headerText bytes.toList = .ok header → .error f ∈ Csv.outcomes bytes.toList →
      ∃ first, Csv.FirstFault first (Csv.outcomes bytes.toList) ∧
        source.load files = .error (.csv source.path (.text first))) ∧
    ∀ header rows, Csv.headerText bytes.toList = .ok header →
      Csv.outcomes bytes.toList = rows.map .ok →
      (∀ row ∈ rows, row.length = header.length) ∧ (header = [] → rows = []) ∧
      ∃ d, source.load files = .ok d ∧ d.checkColumns = .ok () ∧
        Csv.Transposes header rows d.columns ∧
        d.columns = rows.foldl Csv.grow (Csv.bare header) ∧
        d.rowCount = (if header = [] then 0 else rows.length) ∧
        (header ≠ [] → (rows.length : Int) ≤ Int64.maxValue.toInt →
          ∀ (i : Nat) (row : List String), rows[i]? = some row →
            ∃ start : Int64, start.toInt = i ∧ d.slice start 1 = .ok (Csv.page header row)) := by
  refine ⟨fun e => ?_, fun header f hheader hf => ?_, fun header rows hheader hrows => ?_⟩
  · simp only [Source.load_records_error_iff hformat hbytes, Csv.table_error_iff]
  · obtain ⟨first, hfirst⟩ := Csv.exists_firstFault hf
    have htable : Csv.table bytes.toList = .error first :=
      Csv.table_error_iff.mpr (.inr ⟨⟨header, hheader⟩, hfirst⟩)
    exact ⟨first, hfirst, (Source.load_records_error_iff hformat hbytes).mpr ⟨first, rfl, htable⟩⟩
  · have ht : Csv.table bytes.toList = .ok ⟨header, rows⟩ := Csv.table_ok_iff.mpr ⟨hheader, hrows⟩
    have heven := Csv.even_of_table ht
    obtain ⟨d, hload, hcolumns, hcount⟩ := Source.load_records hformat hbytes ht
    have htransposes : Csv.Transposes header rows d.columns :=
      hcolumns ▸ Csv.Table.transposes_columns heven
    have hheight := htransposes.height
    refine ⟨heven.rows, heven.header, d, hload,
      Dataset.checkColumns_ok_iff_even.mpr ⟨_, htransposes.heights⟩, htransposes,
      hcolumns.trans (Csv.Table.columns_eq_foldl heven.rows), hcount.trans hheight, ?_⟩
    intro hne hmemory i row hrow
    rw [if_neg hne] at hheight
    exact htransposes.slice_page (hcount.trans hheight) hmemory hrow
      (heven.rows row (List.mem_of_getElem? hrow))

def recordsSource : Source where
  path := "t"
  format := some .csv

/-- Two names are the same without their blanks, one is empty, and a comma stands in quotes. -/
def quotedRecords : String := " name ,name,\nAda,\"x,y\",\n 1 ,,z\n"

/-- The second record is too short, and so is the third. -/
def shortRecords : String := "a,b\n1,2\n3\n4\n"

/-- Every path leads to the same text. -/
def textFiles (text : String) : Files where
  read _ := .ok text.toUTF8

theorem quoted_records_transposed :
    (∃ d, recordsSource.load (textFiles quotedRecords) = .ok d ∧
      d.columns.map Column.name = ["name", "name", ""] ∧ d.rowCount = 2 ∧
      ∃ start : Int64, start.toInt = 1 ∧ d.slice start 1 =
        .ok [⟨"name", "string", [.text " 1 "]⟩, ⟨"name", "string", [.text ""]⟩,
          ⟨"", "string", [.text "z"]⟩]) ∧
    recordsSource.load (textFiles shortRecords) =
      .error (.csv "t" (.text (.unequalLengths 2 1))) := by
  have hheader : Csv.headerText quotedRecords.toUTF8.toList = .ok [" name ", "name", ""] := by
    decide +kernel
  have hrows : Csv.outcomes quotedRecords.toUTF8.toList =
      [["Ada", "x,y", ""], [" 1 ", "", "z"]].map .ok := by decide +kernel
  have hnames : ([" name ", "name", ""].map trimmed) = ["name", "name", ""] := rfl
  have hpage : Csv.page [" name ", "name", ""] [" 1 ", "", "z"] =
      [⟨"name", "string", [.text " 1 "]⟩, ⟨"name", "string", [.text ""]⟩,
        ⟨"", "string", [.text "z"]⟩] := rfl
  constructor
  · obtain ⟨_, _, d, hload, _, htransposes, _, hcount, hslice⟩ :=
      (@records_transposed (textFiles quotedRecords) recordsSource _ (.given rfl) rfl).2.2 _ _
        hheader hrows
    obtain ⟨start, hstart, hslice⟩ := hslice (by simp) (by decide) 1 _ rfl
    exact ⟨d, hload, htransposes.names.trans hnames, hcount, start, hstart, hpage ▸ hslice⟩
  · have hheader : Csv.headerText shortRecords.toUTF8.toList = .ok ["a", "b"] := by
      decide +kernel
    have hfault : Csv.outcomes shortRecords.toUTF8.toList = [["1", "2"]].map .ok ++
        .error (.unequalLengths 2 1) :: [.error (.unequalLengths 2 1)] := by decide +kernel
    exact ((@records_transposed (textFiles shortRecords) recordsSource _ (.given rfl) rfl).1 _).mpr
      ⟨_, rfl, .inr ⟨⟨_, hheader⟩, _, _, hfault⟩⟩

end PagedTables
