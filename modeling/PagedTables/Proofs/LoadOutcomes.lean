import PagedTables.Proofs.LoadedRows

namespace PagedTables

namespace Dataset

/-- `e` names the first column that is not as long as the one at the front. -/
def Uneven (columns : List Column) (e : Ragged) : Prop :=
  ∃ (first : Column) (before : List Column) (c : Column) (after : List Column),
    columns.head? = some first ∧ columns = before ++ c :: after ∧
    (∀ b ∈ before, b.cells.length = first.cells.length) ∧
    c.cells.length ≠ first.cells.length ∧ e = ⟨c.name, first.cells.length, c.cells.length⟩

theorem not_uneven {columns : List Column} {n : Nat} {e : Ragged}
    (h : ∀ c ∈ columns, c.cells.length = n) : ¬ Uneven columns e := by
  rintro ⟨first, before, c, after, hhead, rfl, _, hne, _⟩
  have hc := h c (List.mem_append_right _ List.mem_cons_self)
  exact hne (hc.trans (h first (List.mem_of_head? hhead)).symm)

theorem checkColumns_error_iff {d : Dataset} {e : Ragged} :
    d.checkColumns = .error e ↔ Uneven d.columns e := by
  unfold checkColumns Uneven
  cases d.columns with
  | nil => simp
  | cons first rest =>
    simp only [List.head?_cons]
    constructor
    · intro h
      split at h
      next => cases h
      next c hc =>
        cases h
        obtain ⟨hne, before, after, heq, hbefore⟩ := List.find?_eq_some_iff_append.mp hc
        exact ⟨first, before, c, after, rfl, heq, by simpa using hbefore, by simpa using hne, rfl⟩
    · rintro ⟨_, before, c, after, hhead, heq, hbefore, hne, rfl⟩
      cases hhead
      have hc : (first :: rest).find? (fun c => c.cells.length != first.cells.length) = some c :=
        List.find?_eq_some_iff_append.mpr
          ⟨by simpa using hne, before, after, heq, by simpa using hbefore⟩
      rw [hc]

theorem checkColumns_ok_iff_even {d : Dataset} :
    d.checkColumns = .ok () ↔ ∃ n, ∀ c ∈ d.columns, c.cells.length = n := by
  rw [checkColumns_ok_iff]
  constructor
  · exact fun h => ⟨_, h⟩
  · rintro ⟨n, h⟩ c hc
    -- The column at hand shows that there is a first one, so its length is the height.
    cases hcolumns : d.columns with
    | nil =>
      rw [hcolumns] at hc
      cases hc
    | cons first rest =>
      have hfirst : first ∈ d.columns := by
        rw [hcolumns]
        exact List.mem_cons_self
      have hheight : d.height = first.cells.length := by
        rw [height, hcolumns]
        rfl
      rw [hheight, h c hc, h first hfirst]

/-- Reads a file as far as what it says of each field. -/
def draftShape : Shape FileDraft FileDraft where
  fields := fileShape.fields
  start := {}
  ofKeys := .ok
  ofRow draft := draft.ofRow.map (fun _ => draft)

/-- What a text gives before the fields that it leaves out are filled in. -/
def parseDraft (text : String) : Except ReadError FileDraft :=
  Json.decode (draftShape.read .ofText) text

theorem FileDraft.ofRow_eq (draft : FileDraft) :
    draft.ofRow = (draft.ofRow.map (fun _ => draft)).map FileDraft.ofKeys := by
  cases draft with
  | mk id title columns rowCount =>
    cases title with
    | none => rfl
    | some title => cases rowCount <;> rfl

theorem readMembers_draftShape (levels : Levels) (members : List (Option String × Document))
    (draft : FileDraft) :
    draftShape.readMembers levels members draft = fileShape.readMembers levels members draft := by
  induction members generalizing draft with
  | nil => rfl
  | cons m members ih =>
    obtain ⟨key, d⟩ := m
    cases key with
    | none => rfl
    | some key =>
      -- The two shapes have the same fields and differ only in what becomes of a draft.
      have hfields : draftShape.fields = fileShape.fields := rfl
      simp only [Shape.readMembers, hfields, ih]

theorem read_fileShape (levels : Levels) (d : Document) :
    fileShape.read levels d = (draftShape.read levels d).map FileDraft.ofKeys := by
  cases d with
  | obj members stop =>
    simp only [Shape.read, map_bind_eq, readMembers_draftShape]
    rfl
  | arr items stop =>
    have hrow : fileShape.ofRow = fun draft => (draftShape.ofRow draft).map FileDraft.ofKeys :=
      funext FileDraft.ofRow_eq
    simp only [Shape.read, map_bind_eq, hrow]
    rfl
  | _ => rfl

theorem parseFile_eq (text : String) :
    parseFile text = (parseDraft text).map FileDraft.ofKeys := by
  simp only [parseFile, parseDraft, Json.decode, read_fileShape, map_bind_eq, bind_map_eq]
  refine bind_congr (fun draft => ?_)
  cases (Json.scan text).trailing <;> rfl

end Dataset

namespace Format

theorem ofName?_eq_some_iff {s : String} {format : Format} :
    ofName? s = some format ↔ s = format.name := by
  unfold ofName?
  constructor
  · intro h
    split at h
    next hjson =>
      cases h
      exact hjson
    next =>
      split at h
      next hcsv =>
        cases h
        exact hcsv
      next => cases h
  · rintro rfl
    cases format with
    | json => rfl
    | csv => rfl

theorem ofName?_eq_none_iff {s : String} :
    ofName? s = none ↔ s ≠ json.name ∧ s ≠ csv.name := by
  constructor
  · intro h
    have hne : ∀ format : Format, s ≠ format.name := by
      intro format hs
      rw [ofName?_eq_some_iff.mpr hs] at h
      cases h
    exact ⟨hne json, hne csv⟩
  · rintro ⟨hjson, hcsv⟩
    unfold ofName?
    rw [if_neg hjson, if_neg hcsv]

end Format

namespace Source

/-- No format is given, and the extension names none, in capital or small letters. -/
def NoFormat (source : Source) : Prop :=
  source.format = none ∧ ∀ extension, Path.extension? source.path = some extension →
    extension.toLower ≠ "json" ∧ extension.toLower ≠ "csv"

/-- A format that is given goes before the one the extension names. -/
inductive Chooses (source : Source) (format : Format) : Prop where
  | given (h : source.format = some format)
  | byName (extension : String) (h : source.format = none)
    (hpath : Path.extension? source.path = some extension) (hname : extension.toLower = format.name)

/-- `e` says why the file gives no fields in this format. -/
inductive Unreadable (files : Files) (path : String) : Format → LoadError → Prop where
  | read {e : FileError} (h : files.readText path = .error e) :
    Unreadable files path .json (.read path e)
  | json {text : String} {e : ReadError} (htext : files.readText path = .ok text)
    (h : Dataset.parseDraft text = .error e) : Unreadable files path .json (.json path e)
  | csvRead {e : FileError} (h : files.read path = .error e) :
    Unreadable files path .csv (.csv path (.read e))
  | csv {bytes : ByteArray} {f : Csv.Fault} (hbytes : files.read path = .ok bytes)
    (h : Csv.table bytes.toList = .error f) : Unreadable files path .csv (.csv path (.text f))

/-- The fields the file gives in this format. Records give nothing but columns. -/
inductive Holds (files : Files) (path : String) : Format → Dataset.FileDraft → Prop where
  | json {text : String} {draft : Dataset.FileDraft} (htext : files.readText path = .ok text)
    (h : Dataset.parseDraft text = .ok draft) : Holds files path .json draft
  | csv {bytes : ByteArray} {table : Csv.Table} (hbytes : files.read path = .ok bytes)
    (h : Csv.table bytes.toList = .ok table) :
    Holds files path .csv { columns := some table.columns }

/-- Where each part of a loaded table comes from. A field that is null in the file is as good as
absent. -/
structure Resolves (source : Source) (draft : Dataset.FileDraft) (d : Dataset) : Prop where
  columns : d.columns = draft.columns.getD []
  id : d.id = (source.id.or draft.id).getD ""
  title : d.title = ((source.title.or draft.title.join).or (Path.stem? source.path)).getD "Data"
  rowCount : d.rowCount = draft.rowCount.join.getD d.height

/-- All ways in which loading fails, each with its error. -/
inductive Fails (files : Files) (source : Source) : LoadError → Prop where
  | unknownFormat (h : source.NoFormat) : Fails files source (.unknownFormat source.path)
  | file {format : Format} {e : LoadError} (hformat : source.Chooses format)
    (h : Unreadable files source.path format e) : Fails files source e
  | ragged {format : Format} {draft : Dataset.FileDraft} {e : Ragged}
    (hformat : source.Chooses format) (hdraft : Holds files source.path format draft)
    (h : Dataset.Uneven (draft.columns.getD []) e) : Fails files source (.ragged source.path e)

variable {files : Files} {source : Source}

theorem format?_eq_some_iff {format : Format} :
    source.format? = some format ↔ source.Chooses format := by
  unfold format?
  cases hgiven : source.format with
  | some given =>
    constructor
    · intro h
      exact .given (hgiven.trans h)
    · rintro (h | ⟨_, h, _, _⟩)
      · exact hgiven.symm.trans h
      · cases hgiven.symm.trans h
  | none =>
    simp only [Format.ofPath?, Option.bind_eq_some_iff, Format.ofName?_eq_some_iff]
    constructor
    · rintro ⟨extension, hpath, hname⟩
      exact .byName extension hgiven hpath hname
    · rintro (h | ⟨extension, _, hpath, hname⟩)
      · cases hgiven.symm.trans h
      · exact ⟨extension, hpath, hname⟩

theorem Chooses.unique {format format' : Format} (h : source.Chooses format)
    (h' : source.Chooses format') : format = format' :=
  Option.some.inj ((format?_eq_some_iff.mpr h).symm.trans (format?_eq_some_iff.mpr h'))

theorem format?_eq_none_iff : source.format? = none ↔ source.NoFormat := by
  unfold format? NoFormat
  cases source.format with
  | some given => simp
  | none => simp only [Format.ofPath?, Option.bind_eq_none_iff, Format.ofName?_eq_none_iff,
      Format.name, true_and]

theorem loadAs_error_iff {path : String} {format : Format} {e : LoadError} :
    loadAs files path format = .error e ↔ Unreadable files path format e := by
  cases format with
  | json =>
    simp only [loadAs, loadJson, bind_error_iff, mapError_error_iff, mapError_ok_iff,
      Dataset.parseFile_eq, map_error_iff]
    constructor
    · rintro (⟨e, h, rfl⟩ | ⟨text, htext, ⟨e, h, rfl⟩ | ⟨_, _, h⟩⟩)
      · exact .read h
      · exact .json htext h
      · cases h
    · rintro (h | ⟨htext, h⟩)
      · exact .inl ⟨_, h, rfl⟩
      · exact .inr ⟨_, htext, .inl ⟨_, h, rfl⟩⟩
  | csv =>
    simp only [loadAs, loadCsv, bind_error_iff, mapError_error_iff, mapError_ok_iff]
    constructor
    · rintro (⟨e, h, rfl⟩ | ⟨bytes, hbytes, ⟨f, h, rfl⟩ | ⟨_, _, h⟩⟩)
      · exact .csvRead h
      · exact .csv hbytes h
      · cases h
    · rintro (_ | _ | h | ⟨hbytes, h⟩)
      · exact .inl ⟨_, h, rfl⟩
      · exact .inr ⟨_, hbytes, .inl ⟨_, h, rfl⟩⟩

theorem loadAs_ok_iff {path : String} {format : Format} {d : Dataset} :
    loadAs files path format = .ok d ↔
      ∃ draft, Holds files path format draft ∧ d = draft.ofKeys.toDataset (fileTitle path) := by
  cases format with
  | json =>
    simp only [loadAs, loadJson, bind_ok_iff, mapError_ok_iff, Dataset.parseFile_eq, map_ok_iff]
    constructor
    · rintro ⟨text, htext, _, ⟨draft, hdraft, rfl⟩, h⟩
      exact ⟨draft, .json htext hdraft, (Except.ok.inj h).symm⟩
    · rintro ⟨draft, ⟨htext, hdraft⟩, rfl⟩
      exact ⟨_, htext, _, ⟨draft, hdraft, rfl⟩, rfl⟩
  | csv =>
    simp only [loadAs, loadCsv, bind_ok_iff, mapError_ok_iff]
    constructor
    · rintro ⟨bytes, hbytes, table, htable, h⟩
      exact ⟨_, .csv hbytes htable, (Except.ok.inj h).symm⟩
    · rintro ⟨_, _ | ⟨hbytes, htable⟩, rfl⟩
      exact ⟨_, hbytes, _, htable, rfl⟩

theorem resolves_toDataset (draft : Dataset.FileDraft) :
    source.Resolves draft { draft.ofKeys.toDataset (fileTitle source.path) with
      id := source.id.getD draft.ofKeys.id
      title := source.title.getD (draft.ofKeys.toDataset (fileTitle source.path)).title } := by
  obtain ⟨id, title, columns, rowCount⟩ := draft
  refine ⟨rfl, Option.getD_or.symm, ?_, ?_⟩
  · rw [Option.getD_or, Option.getD_or]
    cases title <;> rfl
  · cases rowCount <;> rfl

theorem Resolves.unique {draft : Dataset.FileDraft} {d d' : Dataset}
    (h : source.Resolves draft d) (h' : source.Resolves draft d') : d = d' := by
  have hid := h.id.trans h'.id.symm
  have htitle := h.title.trans h'.title.symm
  have hcolumns := h.columns.trans h'.columns.symm
  have hrows : d.rowCount = d'.rowCount := by
    rw [h.rowCount, h'.rowCount, Dataset.height, Dataset.height, hcolumns]
  cases d
  cases d'
  cases hid
  cases htitle
  cases hcolumns
  cases hrows
  rfl

theorem load_error_iff {e : LoadError} : source.load files = .error e ↔ source.Fails files e := by
  constructor
  · intro h
    unfold load at h
    cases hformat : source.format? with
    | none =>
      rw [hformat] at h
      cases h
      exact .unknownFormat (format?_eq_none_iff.mp hformat)
    | some format =>
      have hchosen := format?_eq_some_iff.mp hformat
      simp only [hformat, bind_error_iff, mapError_error_iff] at h
      rcases h with h | ⟨d, hd, ⟨e, hc, rfl⟩ | ⟨_, _, h⟩⟩
      · exact .file hchosen (loadAs_error_iff.mp h)
      · obtain ⟨draft, hdraft, rfl⟩ := loadAs_ok_iff.mp hd
        exact .ragged hchosen hdraft (Dataset.checkColumns_error_iff.mp hc)
      · cases h
  · intro h
    cases h with
    | unknownFormat h => simp only [load, format?_eq_none_iff.mpr h]
    | file hformat h =>
      simp only [load, format?_eq_some_iff.mpr hformat]
      exact bind_error_iff.mpr (.inl (loadAs_error_iff.mpr h))
    | ragged hformat hdraft h =>
      simp only [load, format?_eq_some_iff.mpr hformat]
      have hd := loadAs_ok_iff.mpr ⟨_, hdraft, rfl⟩
      refine bind_error_iff.mpr (.inr ⟨_, hd, bind_error_iff.mpr (.inl ?_)⟩)
      exact mapError_error_iff.mpr ⟨_, Dataset.checkColumns_error_iff.mpr h, rfl⟩

theorem load_ok_iff_resolves {d : Dataset} : source.load files = .ok d ↔
    ∃ format draft, source.Chooses format ∧ Holds files source.path format draft ∧
      (∃ n, ∀ c ∈ draft.columns.getD [], c.cells.length = n) ∧ source.Resolves draft d := by
  rw [load_ok_iff]
  constructor
  · rintro ⟨format, table, hformat, htable, hc, rfl⟩
    obtain ⟨draft, hdraft, rfl⟩ := loadAs_ok_iff.mp htable
    exact ⟨format, draft, format?_eq_some_iff.mp hformat, hdraft,
      Dataset.checkColumns_ok_iff_even.mp hc, resolves_toDataset draft⟩
  · rintro ⟨format, draft, hformat, hdraft, heven, hd⟩
    exact ⟨format, _, format?_eq_some_iff.mpr hformat, loadAs_ok_iff.mpr ⟨draft, hdraft, rfl⟩,
      Dataset.checkColumns_ok_iff_even.mpr heven, hd.unique (resolves_toDataset draft)⟩

/-- The id and the title that are given play no part in a failure. -/
theorem Fails.of_path_of_format {source' : Source} {e : LoadError} (h : source.Fails files e)
    (hpath : source.path = source'.path) (hformat : source.format = source'.format) :
    source'.Fails files e := by
  have hchosen : ∀ format, source.Chooses format → source'.Chooses format := by
    intro format hchosen
    refine format?_eq_some_iff.mp (Eq.trans ?_ (format?_eq_some_iff.mpr hchosen))
    rw [format?, format?, hpath, hformat]
  cases h with
  | unknownFormat h =>
    rw [hpath]
    refine .unknownFormat ?_
    rwa [NoFormat, ← hpath, ← hformat]
  | file hf h =>
    rw [hpath] at h
    exact .file (hchosen _ hf) h
  | ragged hf hdraft h =>
    rw [hpath] at hdraft ⊢
    exact .ragged (hchosen _ hf) hdraft h

end Source

/-- A table is loaded exactly when a format is chosen, the file can be read in it and its columns
have one length; every other outcome is the error of the first of these that fails. A file without a
format is not looked at, and an id or a title that is given only replaces the one in the file. -/
theorem load_resolves_fields (files : Files) (source : Source) :
    (∀ e, source.load files = .error e ↔ source.Fails files e) ∧
      (∀ d, source.load files = .ok d ↔ ∃ format draft, source.Chooses format ∧
        Source.Holds files source.path format draft ∧
        (∃ n, ∀ c ∈ draft.columns.getD [], c.cells.length = n) ∧ source.Resolves draft d) ∧
      (source.NoFormat ↔
        ∀ files' : Files, source.load files' = .error (.unknownFormat source.path)) ∧
      ∀ id title e, ({ source with id, title } : Source).load files = .error e ↔
        source.load files = .error e := by
  refine ⟨fun e => Source.load_error_iff, fun d => Source.load_ok_iff_resolves, ?_, ?_⟩
  · constructor
    · exact fun h files' => Source.load_error_iff.mpr (.unknownFormat h)
    · intro h
      cases Source.load_error_iff.mp (h files) with
      | unknownFormat hno => exact hno
      | file _ h => cases h
  · intro id title e
    rw [Source.load_error_iff, Source.load_error_iff]
    exact ⟨fun h => h.of_path_of_format rfl rfl, fun h => h.of_path_of_format rfl rfl⟩

/-- Rows are counted where the file gives null for their number, the title is the name of the file,
and an empty id that is given is kept. Without a format the same file is not read. -/
theorem null_count_resolved :
    ({ threeRowsSource with id := some "" } : Source).load (threeRowsFiles "null") =
        .ok (threeRows 3) ∧
      ∀ files : Files, ({ path := "t" } : Source).load files = .error (.unknownFormat "t") := by
  have htext : (threeRowsFiles "null").readText "t" = .ok (threeRowsText "null") :=
    readText_of_toUTF8 rfl
  have hdraft : Dataset.parseDraft (threeRowsText "null") =
      .ok { columns := some (threeRows 3).columns, rowCount := some none } := by
    have htokens : ∀ rest, Json.tokens ("null".toList ++ ',' :: rest) =
        .scalar .null :: .mark ',' :: Json.tokens rest := by
      simp [Json.tokens, Json.isBlank, Json.scanToken, Json.scanWord]
    rw [Dataset.parseDraft, Json.decode, scan_threeRows htokens]
    rfl
  have hstem : Path.stem? "t" = some "t" := by
    rw [Path.stem?, fileName?_t]
    rfl
  have hextension : Path.extension? "t" = none := by
    rw [Path.extension?, fileName?_t]
    rfl
  constructor
  · refine ((load_resolves_fields _ _).2.1 _).mpr ⟨.json, _, .given rfl, .json htext hdraft, ?_, ?_⟩
    · refine ⟨3, fun c hc => ?_⟩
      cases List.mem_singleton.mp hc
      rfl
    · refine ⟨rfl, rfl, ?_, rfl⟩
      exact (congrArg (fun stem => Option.getD stem "Data") hstem).symm
  · refine (load_resolves_fields (threeRowsFiles "null") _).2.2.1.mp ⟨rfl, ?_⟩
    intro extension h
    cases hextension.symm.trans h

end PagedTables
