import PagedTables.Proofs.Replies
import PagedTables.Proofs.SortedJson

namespace PagedTables

namespace Cell

/-- What a viewer reads for a cell: null for a double that is not finite, the base64 text of bytes, and
for nested JSON the cell of its own kind. -/
def normal : Cell → Cell
  | float d => if d.isFinite = true then float d else null
  | bytes b => text (Base64.encode b)
  | json v => ofJson v
  | c => c

/-- Nested JSON has its keys in order. -/
def Sorted : Cell → Prop
  | json v => v.Sorted
  | _ => True

/-- Cells that are read off JSON. -/
def Decoded (c : Cell) : Prop := ∃ v : Json, v.Sorted ∧ c = ofJson v

theorem ofJson_clean (c : Cell) : ofJson c.clean = c.normal := by
  cases c with
  | float d => by_cases h : d.isFinite = true <;> simp [clean, normal, ofJson, h]
  | _ => rfl

@[simp] theorem normal_ofJson (v : Json) : (ofJson v).normal = ofJson v := by
  cases v with
  | num n => cases n <;> simp_all [ofJson, normal]
  | _ => rfl

@[simp] theorem normal_normal (c : Cell) : c.normal.normal = c.normal := by
  rw [← ofJson_clean c, normal_ofJson]

theorem sorted_clean {c : Cell} (h : c.Sorted) : c.clean.Sorted := by
  cases c with
  | float d => by_cases hf : d.isFinite = true <;> simp [clean, hf, Json.Sorted]
  | json v => exact h
  | _ => trivial

namespace Decoded

variable {c : Cell}

theorem sorted (h : c.Decoded) : c.Sorted := by
  obtain ⟨v, hv, rfl⟩ := h
  cases v with
  | num n => cases n <;> trivial
  | arr items => exact hv
  | obj members => exact hv
  | _ => trivial

theorem normal (h : c.Decoded) : c.normal = c := by
  obtain ⟨v, _, rfl⟩ := h
  exact normal_ofJson v

end Decoded

theorem decoded_of_read {levels : Levels} {d : Document} {c : Cell} (h : read levels d = .ok c) :
    c.Decoded := by
  unfold read at h
  cases hv : d.value levels with
  | error e =>
    rw [hv] at h
    cases h
  | ok v =>
    rw [hv] at h
    cases h
    exact ⟨v, d.sorted_of_value hv, rfl⟩

theorem read_clean {c : Cell} (h : c.Sorted) : read none c.clean.document = .ok c.normal := by
  rw [read, Json.value_document _ (sorted_clean h), ← ofJson_clean]
  rfl

end Cell

namespace Document

variable {α β : Type}

theorem each_itemDocuments {read : Document → Except ReadError β} {encode : α → Json} {f : α → β}
    {as : List α} (h : ∀ a ∈ as, read (encode a).document = .ok (f a)) :
    each read (Json.itemDocuments (as.map encode)) = .ok (as.map f) := by
  induction as with
  | nil => rfl
  | cons a as ih =>
    obtain ⟨ha, has⟩ := List.forall_mem_cons.mp h
    simp only [List.map_cons, Json.itemDocuments, each, bind_ok_iff]
    exact ⟨f a, ha, as.map f, ih has, rfl⟩

theorem of_each {read : Document → Except ReadError α} {ds : List Document} {as : List α}
    (h : each read ds = .ok as) : ∀ a ∈ as, ∃ d, read d = .ok a := by
  induction ds generalizing as with
  | nil =>
    cases h
    exact fun a ha => nomatch ha
  | cons d ds ih =>
    simp only [each, bind_ok_iff] at h
    obtain ⟨a, ha, as, has, h⟩ := h
    cases h
    exact List.forall_mem_cons.mpr ⟨⟨d, ha⟩, ih has⟩

/-- A list is read back from the array that stands for it. -/
theorem list_arr {read : Levels → Document → Except ReadError β} {encode : α → Json} {f : α → β}
    {as : List α} (h : ∀ a ∈ as, read none (encode a).document = .ok (f a)) :
    list none read (Json.arr (as.map encode)).document = .ok (as.map f) := by
  simp only [Json.document, list, bind_ok_iff]
  exact ⟨none, rfl, as.map f, each_itemDocuments h, (), rfl, rfl⟩

theorem of_list {read : Levels → Document → Except ReadError α} {levels : Levels} {d : Document}
    {as : List α} (h : list levels read d = .ok as) :
    ∀ a ∈ as, ∃ levels d, read levels d = .ok a := by
  cases d with
  | arr items stop =>
    simp only [list, bind_ok_iff] at h
    obtain ⟨inner, _, as', has, _, _, h⟩ := h
    cases h
    exact fun a ha => ⟨inner, of_each has a ha⟩
  | _ => cases h

theorem count_count {n : Nat} (h : n < 1 <<< 64) : (Json.count n).document.count = .ok n := by
  simp only [Json.count, Json.document, count, Number.toNat?_ofNat h]

theorem of_count {d : Document} {n : Nat} (h : d.count = .ok n) : n < 1 <<< 64 := by
  cases d with
  | num k =>
    simp only [count] at h
    split at h
    next hk =>
      cases h
      exact Number.toNat?_lt hk
    next => cases h
  | _ => cases h

end Document

namespace Shape

variable {Draft α : Type} {shape : Shape Draft α} {P : Draft → Prop}

theorem of_readMembers (hp : ∀ field ∈ shape.fields, ∀ levels d draft draft', P draft →
      field.read levels d draft = .ok draft' → P draft')
    {levels : Levels} {members : List (Option String × Document)} {draft draft' : Draft}
    (hd : P draft) (h : shape.readMembers levels members draft = .ok draft') : P draft' := by
  induction members generalizing draft with
  | nil =>
    cases h
    exact hd
  | cons m members ih =>
    obtain ⟨key, d⟩ := m
    cases key with
    | none => cases h
    | some key =>
      simp only [readMembers] at h
      split at h
      next field hfind =>
        split at h
        next => cases h
        next =>
          obtain ⟨draft₁, h₁, h⟩ := bind_ok_iff.mp h
          exact ih (hp field (List.mem_of_find?_eq_some hfind) _ _ _ _ hd h₁) h
      next =>
        obtain ⟨_, _, h⟩ := bind_ok_iff.mp h
        exact ih hd h

theorem of_readRow {levels : Levels} {stop : Option Break} {fields : List (Field Draft)}
    (hp : ∀ field ∈ fields, ∀ levels d draft draft', P draft →
      field.read levels d draft = .ok draft' → P draft')
    {ds : List Document} {draft draft' : Draft} (hd : P draft)
    (h : readRow levels stop fields ds draft = .ok draft') : P draft' := by
  induction fields generalizing ds draft with
  | nil =>
    cases ds with
    | nil =>
      obtain ⟨_, _, h⟩ := bind_ok_iff.mp h
      cases h
      exact hd
    | cons => cases h
  | cons field fields ih =>
    obtain ⟨hfield, hfields⟩ := List.forall_mem_cons.mp hp
    cases ds with
    | nil =>
      obtain ⟨_, _, h⟩ := bind_ok_iff.mp h
      cases h
      exact hd
    | cons d ds =>
      obtain ⟨draft₁, h₁, h⟩ := bind_ok_iff.mp h
      exact ih hfields (hfield _ _ _ _ hd h₁) h

/-- What holds at the start and is kept by the reading of each field holds of the record when it is
made. -/
theorem of_read (hstart : P shape.start) (hp : ∀ field ∈ shape.fields, ∀ levels d draft draft',
      P draft → field.read levels d draft = .ok draft' → P draft')
    {levels : Levels} {d : Document} {a : α} (h : shape.read levels d = .ok a) :
    ∃ draft, P draft ∧ (shape.ofKeys draft = .ok a ∨ shape.ofRow draft = .ok a) := by
  cases d with
  | obj members stop =>
    simp only [read, bind_ok_iff] at h
    obtain ⟨_, _, draft, hdraft, _, _, h⟩ := h
    exact ⟨draft, of_readMembers hp hstart hdraft, .inl h⟩
  | arr items stop =>
    simp only [read, bind_ok_iff] at h
    obtain ⟨_, _, draft, hdraft, h⟩ := h
    exact ⟨draft, of_readRow hp hstart hdraft, .inr h⟩
  | _ => cases h

end Shape

namespace Column

/-- The column as a viewer reads it. -/
def normal (c : Column) : Column := { c with cells := c.cells.map Cell.normal }

def Sorted (c : Column) : Prop := ∀ cell ∈ c.cells, cell.Sorted

def Decoded (c : Column) : Prop := ∀ cell ∈ c.cells, cell.Decoded

def Draft.Decoded (draft : Draft) : Prop :=
  ∀ cells, draft.cells = some cells → ∀ cell ∈ cells, cell.Decoded

theorem read_toJson {c : Column} (h : c.Sorted) : read none c.toJson.document = .ok c.normal := by
  have hcells : Document.list none Cell.read (Json.arr (c.cells.map Cell.clean)).document =
      .ok (c.cells.map Cell.normal) := Document.list_arr (fun cell hc => Cell.read_clean (h cell hc))
  simp only [Column.read, Column.toJson, Json.document, Json.memberDocuments, Shape.read, bind_ok_iff]
  refine ⟨none, rfl, ⟨some c.name, some c.type, some (c.cells.map Cell.normal)⟩, ?_, (), rfl, rfl⟩
  simpa [Shape.readMembers, shape, bind_ok_iff, Document.text, Json.document] using hcells

theorem Draft.Decoded.field {field : Field Draft} (hfield : field ∈ shape.fields) {levels : Levels}
    {d : Document} {draft draft' : Draft} (hd : draft.Decoded)
    (h : field.read levels d draft = .ok draft') : draft'.Decoded := by
  simp only [shape, List.mem_cons, List.not_mem_nil, or_false] at hfield
  rcases hfield with rfl | rfl | rfl
  · obtain ⟨_, _, h⟩ := bind_ok_iff.mp h
    cases h
    exact hd
  · obtain ⟨_, _, h⟩ := bind_ok_iff.mp h
    cases h
    exact hd
  · obtain ⟨cells, hcells, h⟩ := bind_ok_iff.mp h
    cases h
    intro cells' heq cell hcell
    cases Option.some.inj heq
    obtain ⟨_, _, hc⟩ := Document.of_list hcells cell hcell
    exact Cell.decoded_of_read hc

theorem decoded_of_read {levels : Levels} {d : Document} {c : Column} (h : read levels d = .ok c) :
    c.Decoded := by
  have hstart : Draft.Decoded shape.start := by
    intro cells hcells
    cases hcells
  obtain ⟨draft, hd, hor⟩ := Shape.of_read (P := Draft.Decoded) hstart
    (fun _ hfield _ _ _ _ hd hread => hd.field hfield hread) h
  have hfinish : draft.finish = .ok c := hor.elim id id
  simp only [Draft.finish, bind_ok_iff] at hfinish
  obtain ⟨_, _, _, _, hfinish⟩ := hfinish
  cases hfinish
  intro cell hcell
  cases hcells : draft.cells with
  | none => simp [hcells] at hcell
  | some cells => exact hd cells hcells cell (by simpa [hcells] using hcell)

end Column

namespace Dataset

/-- The table as a viewer reads it. -/
def normal (d : Dataset) : Dataset := { d with columns := d.columns.map Column.normal }

/-- A table as it can be: the nested JSON in it has its keys in order, and its size has 64 bits. -/
structure Sorted (d : Dataset) : Prop where
  columns : ∀ c ∈ d.columns, c.Sorted
  rowCount : d.rowCount < 1 <<< 64

theorem ofJson_toJson {d : Dataset} (h : d.Sorted) : ofJson d.toJson = .ok d.normal := by
  have hcolumns : Document.list none Column.read (Json.arr (d.columns.map Column.toJson)).document =
      .ok (d.columns.map Column.normal) :=
    Document.list_arr (fun c hc => Column.read_toJson (h.columns c hc))
  have hcount := Document.count_count h.rowCount
  simp only [ofJson, Dataset.read, Dataset.toJson, Json.document, Json.memberDocuments, Shape.read,
    bind_ok_iff]
  refine ⟨none, rfl, ⟨some d.id, some d.title, some (d.columns.map Column.normal), some d.rowCount⟩,
    ?_, (), rfl, rfl⟩
  simpa [Shape.readMembers, shape, bind_ok_iff, Document.text, Json.document] using
    ⟨hcolumns, hcount⟩

/-- A table that is read off JSON. -/
structure Decoded (d : Dataset) : Prop where
  columns : ∀ c ∈ d.columns, c.Decoded
  rowCount : d.rowCount < 1 <<< 64

structure Draft.Decoded (draft : Draft) : Prop where
  columns : ∀ columns, draft.columns = some columns → ∀ c ∈ columns, c.Decoded
  rowCount : ∀ n, draft.rowCount = some n → n < 1 <<< 64

theorem Draft.Decoded.field {field : Field Draft} (hfield : field ∈ shape.fields) {levels : Levels}
    {d : Document} {draft draft' : Draft} (hd : draft.Decoded)
    (h : field.read levels d draft = .ok draft') : draft'.Decoded := by
  simp only [shape, List.mem_cons, List.not_mem_nil, or_false] at hfield
  rcases hfield with rfl | rfl | rfl | rfl
  · obtain ⟨_, _, h⟩ := bind_ok_iff.mp h
    cases h
    exact ⟨hd.columns, hd.rowCount⟩
  · obtain ⟨_, _, h⟩ := bind_ok_iff.mp h
    cases h
    exact ⟨hd.columns, hd.rowCount⟩
  · obtain ⟨columns, hcolumns, h⟩ := bind_ok_iff.mp h
    cases h
    refine ⟨fun columns' heq c hc => ?_, hd.rowCount⟩
    cases Option.some.inj heq
    obtain ⟨_, _, hc⟩ := Document.of_list hcolumns c hc
    exact Column.decoded_of_read hc
  · obtain ⟨n, hn, h⟩ := bind_ok_iff.mp h
    cases h
    refine ⟨hd.columns, fun n' heq => ?_⟩
    cases Option.some.inj heq
    exact Document.of_count hn

theorem decoded_of_read {levels : Levels} {doc : Document} {d : Dataset}
    (h : read levels doc = .ok d) : d.Decoded := by
  have hstart : Draft.Decoded shape.start := by
    constructor
    · intro columns hcolumns
      cases hcolumns
    · intro n hn
      cases hn
  obtain ⟨draft, hd, hor⟩ := Shape.of_read (P := Draft.Decoded) hstart
    (fun _ hfield _ _ _ _ hd hread => hd.field hfield hread) h
  have hfinish : draft.finish = d := Except.ok.inj (hor.elim (fun h => h) (fun h => h))
  subst hfinish
  constructor
  · intro c hc
    cases hcolumns : draft.columns with
    | none => simp [Draft.finish, hcolumns] at hc
    | some columns => exact hd.columns columns hcolumns c (by simpa [Draft.finish, hcolumns] using hc)
  · cases hn : draft.rowCount with
    | none => simp [Draft.finish, hn]
    | some n => simpa [Draft.finish, hn] using hd.rowCount n hn

theorem Decoded.sorted {d : Dataset} (h : d.Decoded) : d.Sorted :=
  ⟨fun c hc cell hcell => (h.columns c hc cell hcell).sorted, h.rowCount⟩

theorem Decoded.normal {d : Dataset} (h : d.Decoded) : d.normal = d := by
  have hcolumn : ∀ c ∈ d.columns, c.normal = c := by
    intro c hc
    have hcells : c.cells.map Cell.normal = c.cells :=
      (List.map_congr_left (fun cell hcell => (h.columns c hc cell hcell).normal)).trans (List.map_id _)
    rw [Column.normal, hcells]
  have hcolumns : d.columns.map Column.normal = d.columns :=
    (List.map_congr_left hcolumn).trans (List.map_id _)
  rw [Dataset.normal, hcolumns]

/-- A window takes a stretch of the cells of every column. -/
theorem columns_of_slice {d : Dataset} {start size : Int64} {columns : List Column}
    (h : d.slice start size = .ok columns) : ∃ cut : Column → List Cell,
      (∀ c, (cut c).Sublist c.cells) ∧
        columns = d.columns.map (fun c => { c with cells := cut c }) := by
  unfold slice at h
  split at h
  next => cases h
  next first _ =>
    split at h
    next =>
      cases h
      exact ⟨Column.cells, fun c => .refl _, (List.map_id _).symm⟩
    next =>
      cases h
      refine ⟨fun c => (c.window first (saturatingAdd start size)).cells, fun c => ?_, rfl⟩
      exact (List.take_sublist _ _).trans (List.drop_sublist _ _)

theorem Sorted.slice {d : Dataset} (h : d.Sorted) {start size : Int64} {columns : List Column}
    (hs : d.slice start size = .ok columns) : Sorted { d with columns } := by
  obtain ⟨cut, hcut, rfl⟩ := columns_of_slice hs
  refine ⟨fun c hc => ?_, h.rowCount⟩
  obtain ⟨c₀, hc₀, rfl⟩ := List.mem_map.mp hc
  exact fun cell hcell => h.columns c₀ hc₀ cell ((hcut c₀).subset hcell)

theorem slice_whole {d : Dataset} {size : Int64} (hpos : 0 < d.rowCount)
    (hsize : (d.rowCount : Int) ≤ size.toInt) : d.slice 0 size = .ok d.columns := by
  have hfirst : d.firstRow? 0 = some 0 := firstRow?_of_inside (Int.le_refl 0) (by simpa using hpos)
  simp only [slice, hfirst, hsize, and_self, if_true]

end Dataset

/-- A data message has four members. The table is read back from it with the rows of the window, every
cell in its normal form, which is what it has after any reading; so a table that was itself read is read
back as it is. The page of all rows is the table as it is written on its own. -/
theorem table_read_back :
    (∀ (d : Dataset) (tag : DataTag) (window : RowWindow), d.Sorted →
      0 ≤ window.startRow.toInt → window.startRow.toInt < d.rowCount →
      ∃ table, d.window window.startRow window.fetchSize = .ok table ∧
        d.slice window.startRow window.fetchSize = .ok table.columns ∧
        table.columns.map (fun c => (c.name, c.type)) = d.columns.map (fun c => (c.name, c.type)) ∧
        (Message.data tag window table).toJson = .obj [("data", table.toJson),
          ("fetch_size", .int window.fetchSize), ("msg_type", .str tag.name),
          ("start_row", .int window.startRow)] ∧
        Dataset.ofJson table.toJson =
          .ok { d with columns := table.columns.map (fun c => { c with
            cells := c.cells.map Cell.normal }) } ∧
        (window.startRow = 0 → (d.rowCount : Int) ≤ window.fetchSize.toInt →
          table.toJson = d.toJson)) ∧
    (∀ c : Cell, c.normal.normal = c.normal) ∧
    (∀ levels doc c, Cell.read levels doc = .ok c → c.normal = c) ∧
    ∀ levels doc d, Dataset.read levels doc = .ok d → Dataset.ofJson d.toJson = .ok d := by
  refine ⟨fun d tag window hd h0 hlt => ?_, Cell.normal_normal,
    fun levels doc c h => (Cell.decoded_of_read h).normal, fun levels doc d h => ?_⟩
  · obtain ⟨columns, hs⟩ := d.slice_of_inside window.fetchSize h0 hlt
    refine ⟨{ d with columns }, by simp only [Dataset.window, hs, Except.map], hs, ?_, rfl,
      Dataset.ofJson_toJson (hd.slice hs), fun hstart hsize => ?_⟩
    · obtain ⟨cut, _, rfl⟩ := Dataset.columns_of_slice hs
      simp only [List.map_map]
      rfl
    · have hpos : 0 < d.rowCount := by omega
      rw [hstart, Dataset.slice_whole hpos hsize] at hs
      cases hs
      rfl
  · have hdecoded := Dataset.decoded_of_read h
    rw [Dataset.ofJson_toJson hdecoded.sorted, hdecoded.normal]

/-- Cells of which a viewer reads other ones, in a table as large as can be. -/
def mixed : Dataset where
  id := "mixed"
  title := "Mixed"
  columns := [⟨"cells", "any", [.float .notANumber, .bytes [104, 105, 33], .json (.int 3),
    .json (.obj [("a", .null), ("b", .arr [])]), .text "last"]⟩]
  rowCount := (1 <<< 64) - 1

def mixedRead : Dataset := { mixed with
  columns := [⟨"cells", "any",
    [.text "aGkh", .int 3, .json (.obj [("a", .null), ("b", .arr [])])]⟩] }

theorem mixed_read_back : mixed.Sorted ∧ ∃ table, mixed.window 1 3 = .ok table ∧
    Dataset.ofJson table.toJson = .ok mixedRead ∧
    Dataset.ofJson mixedRead.toJson = .ok mixedRead := by
  have hkeys : KeyMap.Sorted [("a", Json.null), ("b", .arr [])] :=
    KeyMap.sorted_cons.mpr ⟨by decide, KeyMap.sorted_cons.mpr ⟨by decide, .nil⟩⟩
  have hsorted : mixed.Sorted := by
    refine ⟨?_, by decide⟩
    simp only [mixed, Column.Sorted, Cell.Sorted, Json.Sorted, Json.SortedMembers, Json.SortedItems,
      Json.int, List.forall_mem_cons, List.not_mem_nil, and_true, true_and, false_implies,
      implies_true]
    exact hkeys
  obtain ⟨table, hw, _, _, _, hread, _⟩ :=
    table_read_back.1 mixed .receiveRows ⟨1, 3⟩ hsorted (by decide) (by decide)
  have heq : mixed.window 1 3 = .ok { mixed with columns := [⟨"cells", "any",
    [.bytes [104, 105, 33], .json (.int 3), .json (.obj [("a", .null), ("b", .arr [])])]⟩] } := rfl
  cases hw.symm.trans heq
  exact ⟨hsorted, _, hw, hread, table_read_back.2.2.2 none _ _ hread⟩

end PagedTables
