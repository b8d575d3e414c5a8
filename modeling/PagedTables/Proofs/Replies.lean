import PagedTables.Message

namespace PagedTables

/-- `Answers d msg v`: a viewer of `d` that sends `msg` is sent `v`. A page tells the rows that were
asked for, and of the table its id, its title, its number of rows and, column by column, the cells of
those rows. -/
inductive Answers (d : Dataset) (msg : Json) : Json → Prop
  | rejected {e : RequestError} : Request.ofJson msg = .error e →
      Answers d msg (.obj [("error", .str e.message), ("msg_type", .str "error")])
  | outside {r : Request} : Request.ofJson msg = .ok r →
      r.window.startRow.toInt < 0 ∨ (d.rowCount : Int) ≤ r.window.startRow.toInt →
      Answers d msg (.obj [("error", .str s!"Invalid start row: {r.window.startRow.toInt}"),
        ("msg_type", .str "error")])
  | rows {r : Request} {columns : List Column} : Request.ofJson msg = .ok r →
      0 ≤ r.window.startRow.toInt → r.window.startRow.toInt < d.rowCount →
      d.slice r.window.startRow r.window.fetchSize = .ok columns →
      Answers d msg (.obj [
        ("data", .obj [
          ("columns", .arr (columns.map (fun c => .obj [("data", .arr (c.cells.map Cell.clean)),
            ("name", .str c.name), ("type", .str c.type)]))),
          ("id", .str d.id), ("rowCount", .count d.rowCount), ("title", .str d.title)]),
        ("fetch_size", .int r.window.fetchSize),
        ("msg_type", .str (if r.tag = .ready then "initial_data" else "receive_rows")),
        ("start_row", .int r.window.startRow)])

theorem Dataset.firstRow?_of_inside {d : Dataset} {start : Int64} (h0 : 0 ≤ start.toInt)
    (h : start.toInt < d.rowCount) : d.firstRow? start = some start.toInt.toNat := by
  have hs : (0 : Int64) ≤ start := Int64.le_iff_toInt_le.mpr h0
  exact if_pos ⟨hs, by omega⟩

theorem Dataset.firstRow?_of_outside {d : Dataset} {start : Int64}
    (h : start.toInt < 0 ∨ (d.rowCount : Int) ≤ start.toInt) : d.firstRow? start = none := by
  refine if_neg ?_
  rintro ⟨hs, hlt⟩
  have h0 : (0 : Int64).toInt ≤ start.toInt := Int64.le_iff_toInt_le.mp hs
  have hz : (0 : Int64).toInt = 0 := rfl
  omega

theorem Dataset.slice_of_outside {d : Dataset} {start : Int64} (size : Int64)
    (h : start.toInt < 0 ∨ (d.rowCount : Int) ≤ start.toInt) :
    d.slice start size = .error ⟨start⟩ := by
  simp only [Dataset.slice, Dataset.firstRow?_of_outside h]

theorem Dataset.slice_of_inside {d : Dataset} {start : Int64} (size : Int64)
    (h0 : 0 ≤ start.toInt) (h : start.toInt < d.rowCount) :
    ∃ columns, d.slice start size = .ok columns := by
  simp only [Dataset.slice, Dataset.firstRow?_of_inside h0 h]
  split
  · exact ⟨_, rfl⟩
  · exact ⟨_, rfl⟩

theorem Message.ofWindow_of_slice {d : Dataset} {tag : DataTag} {window : RowWindow}
    {columns : List Column} (h : d.slice window.startRow window.fetchSize = .ok columns) :
    Message.ofWindow d tag window = .data tag window { d with columns } := by
  simp only [Message.ofWindow, Dataset.window, h, Except.map]

theorem Message.ofWindow_of_outside {d : Dataset} {window : RowWindow} (tag : DataTag)
    (h : window.startRow.toInt < 0 ∨ (d.rowCount : Int) ≤ window.startRow.toInt) :
    Message.ofWindow d tag window = .error s!"Invalid start row: {window.startRow.toInt}" := by
  simp only [Message.ofWindow, Dataset.window, Dataset.slice_of_outside window.fetchSize h,
    Except.map]
  rfl

theorem RequestTag.answer_name (tag : RequestTag) :
    tag.answer.name = if tag = .ready then "initial_data" else "receive_rows" := by
  cases tag <;> rfl

/-- Every message has an answer. -/
theorem reply_answers (d : Dataset) (msg : Json) : Answers d msg (Message.reply d msg).toJson := by
  cases hr : Request.ofJson msg with
  | error e =>
    simp only [Message.reply, hr]
    exact .rejected hr
  | ok r =>
    simp only [Message.reply, hr]
    by_cases hin : 0 ≤ r.window.startRow.toInt ∧ r.window.startRow.toInt < d.rowCount
    · obtain ⟨columns, hc⟩ := Dataset.slice_of_inside r.window.fetchSize hin.1 hin.2
      rw [Message.ofWindow_of_slice hc, Message.toJson, r.tag.answer_name]
      exact .rows hr hin.1 hin.2 hc
    · have hout : r.window.startRow.toInt < 0 ∨ (d.rowCount : Int) ≤ r.window.startRow.toInt := by
        omega
      rw [Message.ofWindow_of_outside r.tag.answer hout]
      exact .outside hr hout

/-- A client's requests for the first page and for any page. -/
def readyRequest : Json := .obj [("msg_type", .str "ready")]

def rowsRequest (start size : Int64) : Json :=
  .obj [("fetch_size", .int size), ("msg_type", .str "request_rows"), ("start_row", .int start)]

/-- A table of five rows, of which not all are there. -/
def primes : Dataset where
  id := "primes"
  title := "Primes"
  columns := [⟨"prime", "int", [.int 2, .int 3, .int 5, .int 7]⟩, ⟨"name", "string", [.text "two"]⟩]
  rowCount := 5

end PagedTables
