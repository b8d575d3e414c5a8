import Mathlib.Data.List.Forall2
import PagedTables.Proofs.InProcess
import PagedTables.Proofs.RowWindows
import PagedTables.Proofs.SortedJson

namespace PagedTables

/-- A column of a page, as a client reads it off a message. -/
structure PageColumn where
  name : String
  type : String
  data : List Json

/-- What a client reads off a data message. -/
structure Page where
  id : String
  title : String
  rowCount : Nat
  columns : List PageColumn

namespace Json

def text? : Json → Option String
  | str s => some s
  | _ => none

def items? : Json → Option (List Json)
  | arr items => some items
  | _ => none

def count? : Json → Option Nat
  | num n => n.toNat?
  | _ => none

/-- A member that is left out or null stands for its default. -/
def Sets (v : Json) (key : String) (default i : Int64) : Prop :=
  v.member? key = some (.int i) ∨ i = default ∧ (v.member? key = none ∨ v.member? key = some .null)

end Json

def PageColumn.ofJson? (v : Json) : Option PageColumn := do
  let name ← (v.member? "name").bind Json.text?
  let type ← (v.member? "type").bind Json.text?
  let data ← (v.member? "data").bind Json.items?
  return ⟨name, type, data⟩

/-- Only a data message has a page. -/
def Page.ofJson? (v : Json) : Option Page := do
  let tag ← (v.member? "msg_type").bind Json.text?
  let _ ← DataTag.ofName? tag
  let table ← v.member? "data"
  let id ← (table.member? "id").bind Json.text?
  let title ← (table.member? "title").bind Json.text?
  let rowCount ← (table.member? "rowCount").bind Json.count?
  let columns ← (table.member? "columns").bind Json.items?
  let columns ← columns.mapM PageColumn.ofJson?
  return ⟨id, title, rowCount, columns⟩

def Column.page (c : Column) : PageColumn := ⟨c.name, c.type, c.cells.map Cell.clean⟩

def Dataset.page (d : Dataset) : Page := ⟨d.id, d.title, d.rowCount, d.columns.map Column.page⟩

theorem PageColumn.ofJson?_toJson (c : Column) : PageColumn.ofJson? c.toJson = some c.page := rfl

theorem DataTag.ofName?_name (tag : DataTag) : DataTag.ofName? tag.name = some tag := by
  cases tag <;> rfl

theorem Json.count?_count {n : Nat} (h : (n : Int) ≤ Int64.maxValue.toInt) :
    (Json.count n).count? = some n := by
  have hmax : Int64.maxValue.toInt = 9223372036854775807 := rfl
  have hbound : 1 <<< 64 = 18446744073709551616 := rfl
  exact Number.toNat?_ofNat (by omega)

theorem mapM_ofJson?_toJson (columns : List Column) :
    (columns.map Column.toJson).mapM PageColumn.ofJson? = some (columns.map Column.page) := by
  induction columns with
  | nil => rfl
  | cons c columns ih => simp [List.mapM_cons, PageColumn.ofJson?_toJson, ih]

/-- A client reads off a data message the table that went into it, with every cell cleaned. -/
theorem Page.ofJson?_data {d : Dataset} (h : (d.rowCount : Int) ≤ Int64.maxValue.toInt)
    (tag : DataTag) (window : RowWindow) :
    Page.ofJson? (Message.data tag window d).toJson = some d.page := by
  have hname : ((Message.data tag window d).toJson.member? "msg_type").bind Json.text? =
      some tag.name := rfl
  have htable : (Message.data tag window d).toJson.member? "data" = some d.toJson := rfl
  have hcount : (d.toJson.member? "rowCount").bind Json.count? = some d.rowCount :=
    Json.count?_count h
  have hitems : (d.toJson.member? "columns").bind Json.items? =
      some (d.columns.map Column.toJson) := rfl
  have hid : (d.toJson.member? "id").bind Json.text? = some d.id := rfl
  have htitle : (d.toJson.member? "title").bind Json.text? = some d.title := rfl
  simp only [Page.ofJson?, hname, htable, hcount, hitems, hid, htitle, DataTag.ofName?_name,
    mapM_ofJson?_toJson, Option.bind_eq_bind, Option.bind_some, Option.pure_def]
  rfl

/-- A message that asks for `size` rows from `start` on. The first page may be asked for by `ready`.
-/
structure AsksRows (msg : Json) (start size : Int64) : Prop where
  object : ∃ members, msg = .obj members
  tag : msg.member? "msg_type" = some (.str "request_rows") ∨
    start = 0 ∧ msg.member? "msg_type" = some (.str "ready")
  start : msg.Sets "start_row" 0 start
  size : msg.Sets "fetch_size" 100 size

theorem integerField_of_sets {members : KeyMap Json} {key : String} {default i : Int64}
    (h : (Json.obj members).Sets key default i) :
    Request.integerField members key default = .ok i := by
  rcases h with h | ⟨rfl, h | h⟩
  · have hm : members.get? key = some (.num (.int i)) := h
    simp only [Request.integerField, hm]
  · have hm : members.get? key = none := h
    simp only [Request.integerField, hm]
  · have hm : members.get? key = some .null := h
    simp only [Request.integerField, hm]

theorem ofJson_of_asksRows {msg : Json} {start size : Int64} (h : AsksRows msg start size) :
    ∃ tag, Request.ofJson msg = .ok ⟨tag, ⟨start, size⟩⟩ := by
  obtain ⟨⟨members, rfl⟩, htag, hstart, hsize⟩ := h
  have htag' : ∃ tag, Request.tagOf members = .ok tag := by
    rcases htag with ht | ⟨_, ht⟩
    · have hm : KeyMap.get? members "msg_type" = some (.str "request_rows") := ht
      exact ⟨.requestRows, by simp only [Request.tagOf, hm]; rfl⟩
    · have hm : KeyMap.get? members "msg_type" = some (.str "ready") := ht
      exact ⟨.ready, by simp only [Request.tagOf, hm]; rfl⟩
  obtain ⟨tag, ht⟩ := htag'
  refine ⟨tag, ?_⟩
  simp only [Request.ofJson, ht, integerField_of_sets hstart, integerField_of_sets hsize]
  rfl

variable {W : Type} [Transport W]

/-- The channel is open and takes whatever is sent. -/
def Host.Accepts (h : Host W) (channel : Nat) : Prop :=
  Transport.isOpen h.world channel = true ∧
    ∀ v, ∃ w, Transport.send h.world channel v = .ok w

/-- The event brings `msg` to the service, for the dataset `id`. -/
def Host.Brings (h : Host W) (id : String) (e : Event) (msg : Json) : Prop :=
  e = .dispatch id msg ∨
    ∃ channel, e = .deliver channel msg ∧
      Transport.receiver? h.world channel = some (id, .service)

/-- The event does nothing but send `v` on the channel. -/
def Host.Sends (h : Host W) (e : Event) (channel : Nat) (v : Json) : Prop :=
  ∃ w, Transport.send h.world channel v = .ok w ∧ (h.step e).1 = { h with world := w }

/-- Whatever may happen while the dataset `id` stays registered; the channels may change by
themselves. -/
inductive Meanwhile (id : String) (h : Host W) : Host W → Prop
  | nothing : Meanwhile id h h
  | event {g : Host W} {e : Event} : Meanwhile id h g → e.Spares id → Meanwhile id h (g.step e).1
  | world {g : Host W} (w : W) : Meanwhile id h g → Meanwhile id h { g with world := w }

/-- A request for `size` rows, with the state that it finds. -/
structure Ask (W : Type) where
  host : Host W
  event : Event
  size : Int64

/-- From `start` on, and until all `rows` are asked for, a client asks for page after page of the
dataset `id`, which `channel` serves. -/
inductive Paging (id : String) (rows channel : Nat) : Int → Host W → List (Ask W) → Prop
  | done {start : Int} {h : Host W} : (rows : Int) ≤ start → Paging id rows channel start h []
  | page {h g : Host W} {e : Event} {msg : Json} {start size : Int64} {asks : List (Ask W)} :
      Meanwhile id h g → g.Accepts channel → g.Brings id e msg → AsksRows msg start size →
      0 < size.toInt → start.toInt < rows →
      Paging id rows channel (start.toInt + size.toInt) (g.step e).1 asks →
      Paging id rows channel start.toInt h (⟨g, e, size⟩ :: asks)

theorem accepts_of_open {h : Host Memory} {channel : Nat} {c : MemoryChannel}
    (hc : h.world.channels[channel]? = some c) (hclosed : c.closed = false)
    (hrefuses : c.refusesSend = false) : h.Accepts channel :=
  ⟨Memory.isOpen_iff.mpr ⟨c, hc, hclosed⟩,
    fun _ => ⟨_, Memory.send_ok_iff.mpr ⟨c, hc, hclosed, hrefuses, rfl⟩⟩⟩

theorem registered?_of_meanwhile {h g : Host W} {id : String} (hm : Meanwhile id h g) :
    g.registered? id = h.registered? id := by
  induction hm with
  | nothing => rfl
  | event _ he ih => exact (registered?_step_of_spares he).trans ih
  | world _ _ ih => exact ih

theorem spares_of_brings {h : Host W} {id : String} {e : Event} {msg : Json}
    (hb : h.Brings id e msg) (key : String) : e.Spares key := by
  rcases hb with rfl | ⟨channel, rfl, _⟩ <;> trivial

theorem sends_reply {h : Host W} {id : String} {x : Entry} {e : Event} {msg : Json}
    (hx : h.registered? id = some x) (ha : h.Accepts x.channel) (hb : h.Brings id e msg) :
    h.Sends e x.channel (Message.reply x.dataset msg).toJson := by
  obtain ⟨s, hs, he⟩ := Host.registered?_eq_some_iff.mp hx
  obtain ⟨w, hw⟩ := ha.2 (Message.reply x.dataset msg).toJson
  have hd : s.dispatch h.world id msg = .ok w := dispatch_ok_iff.mpr ⟨x, he, ha.1, hw⟩
  refine ⟨w, hw, ?_⟩
  rcases hb with rfl | ⟨channel, rfl, hr⟩
  · simp only [Host.step, hs, hd, Host.settle]
  · simp only [Host.step, Host.deliver, hr, hs, hd]

/-- The page of a request within the table. -/
theorem reply_page {d : Dataset} {msg : Json} {start size : Int64}
    (hrows : (d.rowCount : Int) ≤ Int64.maxValue.toInt)
    (hcells : ∀ c ∈ d.columns, c.cells.length ≤ d.rowCount) (ha : AsksRows msg start size)
    (h0 : 0 ≤ start.toInt) (hlt : start.toInt < d.rowCount) (hpos : 0 < size.toInt) :
    Page.ofJson? (Message.reply d msg).toJson =
      some (d.rows start.toInt.toNat (start.toInt.toNat + size.toInt.toNat)).page := by
  obtain ⟨tag, hr⟩ := ofJson_of_asksRows ha
  have hs := slice_page h0 hlt hpos hrows hcells
  have hreply : Message.reply d msg = .data tag.answer ⟨start, size⟩
      (d.rows start.toInt.toNat (start.toInt.toNat + size.toInt.toNat)) := by
    simp only [Message.reply, hr]
    exact Message.ofWindow_of_slice hs
  rw [hreply]
  exact Page.ofJson?_data (d := d.rows _ _) hrows _ _

/-- What a page brings for the column at place `j`. -/
def Page.dataAt (p : Page) (j : Nat) : List Json := (p.columns[j]?).elim [] PageColumn.data

theorem dataAt_rows {d : Dataset} {j : Nat} {c : Column} (hc : d.columns[j]? = some c)
    (first size : Nat) : (d.rows first (first + size)).page.dataAt j =
      ((c.cells.drop first).take size).map Cell.clean := by
  simp [Page.dataAt, Dataset.page, Dataset.rows, hc, Column.page, Column.rows]

/-- The page has the id, title and row count of the table, and its columns by name and type. -/
def Page.Heads (p : Page) (d : Dataset) : Prop :=
  p.id = d.id ∧ p.title = d.title ∧ p.rowCount = d.rowCount ∧
    p.columns.map (fun c => (c.name, c.type)) = d.columns.map (fun c => (c.name, c.type))

theorem heads_rows (d : Dataset) (first last : Nat) : (d.rows first last).page.Heads d := by
  refine ⟨rfl, rfl, rfl, ?_⟩
  simp [Dataset.page, Dataset.rows, Column.page, Column.rows, Function.comp_def]

theorem pages_from {d : Dataset} {id : String} {channel : Nat} {start : Int} {h : Host W}
    {asks : List (Ask W)} (hrows : (d.rowCount : Int) ≤ Int64.maxValue.toInt)
    (hcells : ∀ c ∈ d.columns, c.cells.length ≤ d.rowCount)
    (hp : Paging id d.rowCount channel start h asks) (h0 : 0 ≤ start)
    (hx : h.registered? id = some ⟨d, channel⟩) :
    ∃ pages : List Page,
      List.Forall₂ (fun a p => ∃ v, a.host.Sends a.event channel v ∧ Page.ofJson? v = some p)
        asks pages ∧
      (∀ p ∈ pages, p.Heads d) ∧
      ∀ j c, d.columns[j]? = some c →
        pages.flatMap (fun p => p.dataAt j) = (c.cells.drop start.toNat).map Cell.clean := by
  induction hp with
  | @done start h hend =>
    refine ⟨[], .nil, by simp, fun j c hc => ?_⟩
    have := hcells c (List.mem_of_getElem? hc)
    rw [List.drop_eq_nil_of_le (by omega)]
    rfl
  | @page h g e msg start size asks hm ha hb hask hpos hlt _ ih =>
    have hg : g.registered? id = some ⟨d, channel⟩ := (registered?_of_meanwhile hm).trans hx
    have hsends := sends_reply hg ha hb
    have hpage := reply_page hrows hcells hask h0 hlt hpos
    have hnext : (g.step e).1.registered? id = some ⟨d, channel⟩ :=
      (registered?_step_of_spares (spares_of_brings hb id)).trans hg
    obtain ⟨pages, hall, hheads, hdata⟩ := ih (by omega) hnext
    refine ⟨_ :: pages, .cons ⟨_, hsends, hpage⟩ hall, ?_, fun j c hc => ?_⟩
    · intro p hmem
      rcases List.mem_cons.mp hmem with rfl | hmem
      · exact heads_rows d _ _
      · exact hheads p hmem
    · have hsum : (start.toInt + size.toInt).toNat = start.toInt.toNat + size.toInt.toNat := by
        omega
      rw [List.flatMap_cons, hdata j c hc, dataAt_rows hc, hsum, ← List.map_append,
        ← List.drop_drop, List.take_append_drop]

/-- Pages that follow one another until all rows are asked for are each answered with a data
message, have the same head, and put together are the cleaned columns of the registered table. -/
theorem pages_reassemble {h₀ h : Host W} {fresh id : String} {d : Dataset} {x : Entry}
    {asks : List (Ask W)} (hr : h₀.step (.register fresh d) = (h, .registered id))
    (hx : h.registered? id = some x) (hrows : (d.rowCount : Int) ≤ Int64.maxValue.toInt)
    (hcells : ∀ c ∈ d.columns, c.cells.length ≤ d.rowCount)
    (hp : Paging id d.rowCount x.channel 0 h asks) :
    ∃ pages : List Page,
      List.Forall₂ (fun a p => ∃ v, a.host.Sends a.event x.channel v ∧ Page.ofJson? v = some p)
        asks pages ∧
      (∀ p ∈ pages, p.id = id ∧ p.title = d.title ∧ p.rowCount = d.rowCount ∧
        p.columns.map (fun c => (c.name, c.type)) = d.columns.map (fun c => (c.name, c.type))) ∧
      ∀ j c, d.columns[j]? = some c →
        pages.flatMap (fun p => p.dataAt j) = c.cells.map Cell.clean := by
  obtain ⟨hid, channel, hentry⟩ := registered?_of_register hr
  have hx' : h.registered? id = some ⟨d.named fresh, channel⟩ := (hentry id).trans (if_pos rfl)
  cases Option.some.inj (hx.symm.trans hx')
  obtain ⟨pages, hall, hheads, hdata⟩ := pages_from (d := d.named fresh) (by simpa using hrows)
    (by simpa using hcells) (by simpa using hp) (Int.le_refl 0) hx'
  refine ⟨pages, hall, fun p hmem => ?_, fun j c hc => ?_⟩
  · obtain ⟨hpid, htitle, hcount, hcolumns⟩ := hheads p hmem
    refine ⟨hpid.trans hid.symm, ?_, ?_, ?_⟩
    · simpa using htitle
    · simpa using hcount
    · simpa using hcolumns
  · simpa using hdata j c (by simpa using hc)

theorem pages_reassemble_primes :
    ∃ (h : Host Memory) (asks : List (Ask Memory)),
      (Host.start "t" {}).step (.register "" primes) = (h, .registered "primes") ∧
      asks.map Ask.size = [2, 2, 9223372036854775807] ∧ Paging "primes" 5 0 0 h asks ∧
      ∃ pages : List Page,
        List.Forall₂ (fun a p => ∃ v, a.host.Sends a.event 0 v ∧ Page.ofJson? v = some p)
          asks pages ∧
        (∀ p ∈ pages, p.id = "primes" ∧ p.title = "Primes" ∧ p.rowCount = 5 ∧
          p.columns.map (fun c => (c.name, c.type)) = [("prime", "int"), ("name", "string")]) ∧
        ∀ j c, primes.columns[j]? = some c →
          pages.flatMap (fun p => p.dataAt j) = c.cells.map Cell.clean := by
  let h : Host Memory := ((Host.start "t" ({} : Memory)).step (.register "" primes)).1
  let h₁ := (h.step (.deliver 0 (rowsRequest 0 2))).1
  -- between the first page and the second another dataset comes, and a request that is refused
  let h₂ := ((h₁.step (.register "other" { primes with id := "" })).1.step
    (.dispatch "primes" (rowsRequest (-1) 2))).1
  let h₃ := (h₂.step (.dispatch "primes" (rowsRequest 2 2))).1
  let ask₁ : Ask Memory := ⟨h, .deliver 0 (rowsRequest 0 2), 2⟩
  let ask₂ : Ask Memory := ⟨h₂, .dispatch "primes" (rowsRequest 2 2), 2⟩
  let ask₃ : Ask Memory :=
    ⟨h₃, .dispatch "primes" (rowsRequest 4 9223372036854775807), 9223372036854775807⟩
  have hm : Meanwhile "primes" h₁ h₂ :=
    .event (.event .nothing (show ("other" : String) ≠ "primes" by decide)) trivial
  have hlast : Paging "primes" 5 0 (4 : Int64).toInt h₃ [ask₃] :=
    .page .nothing (accepts_of_open rfl rfl rfl) (.inl rfl)
      ⟨⟨_, rfl⟩, .inl rfl, .inl rfl, .inl rfl⟩ (by decide) (by decide) (.done (by decide))
  have hnext : Paging "primes" 5 0 (2 : Int64).toInt h₁ [ask₂, ask₃] :=
    .page hm (accepts_of_open rfl rfl rfl) (.inl rfl)
      ⟨⟨_, rfl⟩, .inl rfl, .inl rfl, .inl rfl⟩ (by decide) (by decide) hlast
  have hfirst : Paging "primes" 5 0 (0 : Int64).toInt h [ask₁, ask₂, ask₃] :=
    .page .nothing (accepts_of_open rfl rfl rfl) (.inr ⟨0, rfl, rfl⟩)
      ⟨⟨_, rfl⟩, .inl rfl, .inl rfl, .inl rfl⟩ (by decide) (by decide) hnext
  have hr : (Host.start "t" ({} : Memory)).step (.register "" primes) = (h, .registered "primes") :=
    rfl
  have hx : h.registered? "primes" = some ⟨primes, 0⟩ := rfl
  exact ⟨h, [ask₁, ask₂, ask₃], hr, rfl, hfirst,
    pages_reassemble hr hx (by decide) (by decide) hfirst⟩

end PagedTables
