import PagedTables.Message
import PagedTables.Proofs.CellValues

namespace PagedTables

/-- How the type of a request is written in a message. -/
inductive RequestTag.Written : Option Json → RequestTag → Prop
  | ready : Written (some (.str "ready")) .ready
  | requestRows : Written (some (.str "request_rows")) .requestRows

namespace Request

/-- A field that may be left out stands for a number: for the default if it is absent or null, and
else for the whole number that it holds. -/
inductive Gives (default : Int64) : Option Json → Int64 → Prop
  | absent : Gives default none default
  | null : Gives default (some .null) default
  | integer {v : Json} {i : Int64} : v.whole? = some i.toInt → Gives default (some v) i

/-- The value of a field that stands for no number: it is not null, and no whole number or one that
is too great. -/
structure Misfit (v : Json) : Prop where
  notNull : v ≠ .null
  tooGreat : ∀ z, v.whole? = some z → Int64.maxValue.toInt < z

/-- What becomes of a message, by the first thing that is wrong with it. -/
inductive Reading : Json → Except RequestError Request → Prop
  | request {members : KeyMap Json} {tag : RequestTag} {start size : Int64} :
      RequestTag.Written (members.get? "msg_type") tag →
      Gives 0 (members.get? "start_row") start → Gives 100 (members.get? "fetch_size") size →
      Reading (.obj members) (.ok ⟨tag, start, size⟩)
  | notAnObject {v : Json} : (∀ members, v ≠ .obj members) → Reading v (.error (.notAnObject v))
  | unknownType {members : KeyMap Json} :
      (∀ tag, ¬ RequestTag.Written (members.get? "msg_type") tag) →
      Reading (.obj members) (.error (.unknownType (members.get? "msg_type")))
  | startRow {members : KeyMap Json} {tag : RequestTag} {v : Json} :
      RequestTag.Written (members.get? "msg_type") tag → members.get? "start_row" = some v →
      Misfit v → Reading (.obj members) (.error (.notAnInteger "start_row" v))
  | fetchSize {members : KeyMap Json} {tag : RequestTag} {start : Int64} {v : Json} :
      RequestTag.Written (members.get? "msg_type") tag → Gives 0 (members.get? "start_row") start →
      members.get? "fetch_size" = some v → Misfit v →
      Reading (.obj members) (.error (.notAnInteger "fetch_size" v))

variable {members : KeyMap Json} {field : String} {default i : Int64} {tag : RequestTag} {v : Json}

theorem tagOf_of_written (h : RequestTag.Written (members.get? "msg_type") tag) :
    tagOf members = .ok tag := by
  unfold tagOf
  generalize members.get? "msg_type" = type at h
  cases h with
  | ready => rfl
  | requestRows => rfl

theorem tagOf_of_unwritten (h : ∀ tag, ¬ RequestTag.Written (members.get? "msg_type") tag) :
    tagOf members = .error (.unknownType (members.get? "msg_type")) := by
  unfold tagOf
  generalize members.get? "msg_type" = type at h
  split
  next s =>
    have hready : s ≠ RequestTag.ready.name := by
      rintro rfl
      exact h .ready .ready
    have hrows : s ≠ RequestTag.requestRows.name := by
      rintro rfl
      exact h .requestRows .requestRows
    rw [RequestTag.ofName?, if_neg hready, if_neg hrows]
  next => rfl

theorem integerField_of_gives (h : Gives default (members.get? field) i) :
    integerField members field default = .ok i := by
  unfold integerField
  generalize members.get? field = value at h
  cases h with
  | absent => rfl
  | null => rfl
  | integer hi =>
    cases Json.whole?_eq_toInt_iff.mp hi
    rfl

theorem integerField_of_misfit (hv : members.get? field = some v) (h : Misfit v) :
    integerField members field default = .error (.notAnInteger field v) := by
  unfold integerField
  rw [hv]
  split
  next heq => cases heq
  next heq =>
    cases heq
    exact (h.notNull rfl).elim
  next j heq =>
    cases heq
    exact absurd j.toInt_le (Int.not_le.mpr (h.tooGreat j.toInt rfl))
  next heq =>
    cases heq
    rfl

/-- A field either stands for a number or holds a misfit. -/
theorem gives_or_misfit (default : Int64) (value : Option Json) :
    (∃ i, Gives default value i) ∨ ∃ v, value = some v ∧ Misfit v := by
  cases value with
  | none => exact .inl ⟨default, .absent⟩
  | some v =>
    by_cases hnull : v = .null
    · rw [hnull]
      exact .inl ⟨default, .null⟩
    · by_cases hint : ∃ i : Int64, v.whole? = some i.toInt
      · obtain ⟨i, hi⟩ := hint
        exact .inl ⟨i, .integer hi⟩
      · refine .inr ⟨v, rfl, hnull, fun z hz => ?_⟩
        rcases Json.whole?_eq_some_iff.mp hz with ⟨i, rfl, _⟩ | ⟨n, above, rfl, _⟩
        · exact (hint ⟨i, hz⟩).elim
        · exact Json.toInt_lt_of_above above Int64.maxValue

theorem reading_exists (v : Json) : ∃ out, Reading v out := by
  by_cases hobject : ∃ members, v = .obj members
  · obtain ⟨members, rfl⟩ := hobject
    by_cases htag : ∃ tag, RequestTag.Written (KeyMap.get? members "msg_type") tag
    · obtain ⟨tag, htag⟩ := htag
      rcases gives_or_misfit 0 (KeyMap.get? members "start_row") with
        ⟨start, hstart⟩ | ⟨w, hw, hmisfit⟩
      · rcases gives_or_misfit 100 (KeyMap.get? members "fetch_size") with
          ⟨size, hsize⟩ | ⟨w, hw, hmisfit⟩
        · exact ⟨_, .request htag hstart hsize⟩
        · exact ⟨_, .fetchSize htag hstart hw hmisfit⟩
      · exact ⟨_, .startRow htag hw hmisfit⟩
    · exact ⟨_, .unknownType (fun tag h => htag ⟨tag, h⟩)⟩
  · exact ⟨_, .notAnObject (fun members h => hobject ⟨members, h⟩)⟩

theorem Reading.ofJson_eq {out : Except RequestError Request} (h : Reading v out) :
    Request.ofJson v = out := by
  cases h with
  | request htag hstart hsize =>
    rw [ofJson, tagOf_of_written htag, integerField_of_gives hstart, integerField_of_gives hsize]
    rfl
  | notAnObject hv =>
    cases v with
    | obj members => exact (hv members rfl).elim
    | _ => rfl
  | unknownType htag =>
    rw [ofJson, tagOf_of_unwritten htag]
    rfl
  | startRow htag hw hmisfit =>
    rw [ofJson, tagOf_of_written htag, integerField_of_misfit hw hmisfit]
    rfl
  | fetchSize htag hstart hw hmisfit =>
    rw [ofJson, tagOf_of_written htag, integerField_of_gives hstart,
      integerField_of_misfit hw hmisfit]
    rfl

theorem ofJson_eq_iff {out : Except RequestError Request} :
    Request.ofJson v = out ↔ Reading v out := by
  constructor
  · rintro rfl
    obtain ⟨out, h⟩ := reading_exists v
    rwa [h.ofJson_eq]
  · exact Reading.ofJson_eq

theorem ofJson_ok_iff {r : Request} : Request.ofJson v = .ok r ↔ ∃ members : KeyMap Json,
    v = .obj members ∧ RequestTag.Written (members.get? "msg_type") r.tag ∧
      Gives 0 (members.get? "start_row") r.window.startRow ∧
      Gives 100 (members.get? "fetch_size") r.window.fetchSize := by
  rw [ofJson_eq_iff]
  constructor
  · intro h
    cases h with
    | request htag hstart hsize => exact ⟨_, rfl, htag, hstart, hsize⟩
  · rintro ⟨members, rfl, htag, hstart, hsize⟩
    exact .request htag hstart hsize

theorem ofJson_notAnObject_iff {w : Json} : Request.ofJson v = .error (.notAnObject w) ↔
    w = v ∧ ∀ members, v ≠ .obj members := by
  rw [ofJson_eq_iff]
  constructor
  · intro h
    cases h with
    | notAnObject hv => exact ⟨rfl, hv⟩
  · rintro ⟨rfl, hv⟩
    exact .notAnObject hv

theorem ofJson_unknownType_iff {type : Option Json} :
    Request.ofJson v = .error (.unknownType type) ↔ ∃ members : KeyMap Json, v = .obj members ∧
      type = members.get? "msg_type" ∧ ∀ tag, ¬ RequestTag.Written type tag := by
  rw [ofJson_eq_iff]
  constructor
  · intro h
    cases h with
    | unknownType htag => exact ⟨_, rfl, rfl, htag⟩
  · rintro ⟨members, rfl, rfl, htag⟩
    exact .unknownType htag

theorem ofJson_notAnInteger_iff {w : Json} :
    Request.ofJson v = .error (.notAnInteger field w) ↔
      ∃ (members : KeyMap Json) (tag : RequestTag), v = .obj members ∧
        RequestTag.Written (members.get? "msg_type") tag ∧ members.get? field = some w ∧
        Misfit w ∧ (field = "start_row" ∨
          field = "fetch_size" ∧ ∃ start, Gives 0 (members.get? "start_row") start) := by
  rw [ofJson_eq_iff]
  constructor
  · intro h
    cases h with
    | startRow htag hw hmisfit => exact ⟨_, _, rfl, htag, hw, hmisfit, .inl rfl⟩
    | fetchSize htag hstart hw hmisfit =>
      exact ⟨_, _, rfl, htag, hw, hmisfit, .inr ⟨rfl, _, hstart⟩⟩
  · rintro ⟨members, tag, rfl, htag, hw, hmisfit, rfl | ⟨rfl, start, hstart⟩⟩
    · exact .startRow htag hw hmisfit
    · exact .fetchSize htag hstart hw hmisfit

theorem ofJson_ne_notJson : Request.ofJson v ≠ .error .notJson := by
  intro h
  cases ofJson_eq_iff.mp h

/-- Two objects that agree on the type and on the two fields are one message. -/
theorem ofJson_congr {members' : KeyMap Json}
    (htype : members'.get? "msg_type" = members.get? "msg_type")
    (hstart : members'.get? "start_row" = members.get? "start_row")
    (hsize : members'.get? "fetch_size" = members.get? "fetch_size") :
    Request.ofJson (.obj members') = Request.ofJson (.obj members) := by
  simp only [Request.ofJson, tagOf, integerField, htype, hstart, hsize]

end Request

/-- How a type that is not known is named to the viewer. -/
def RequestError.typeName : Option Json → String
  | none => "None"
  | some (.str s) => s
  | some v => v.render

theorem RequestError.message_unknownType (type : Option Json) :
    (unknownType type).message = s!"Unknown message type '{typeName type}'" := by
  cases type with
  | none => rfl
  | some v => cases v <;> rfl

open Request in
/-- Which messages are requests, and for which rows. Any other is refused for the first of four
faults: it is no object, its type is not known, its start row is no whole number in range, its fetch
size is none. Nothing else in a message makes a difference. -/
theorem request_grammar (v : Json) :
    (∀ r, Request.ofJson v = .ok r ↔ ∃ members : KeyMap Json, v = .obj members ∧
      RequestTag.Written (members.get? "msg_type") r.tag ∧
      Gives 0 (members.get? "start_row") r.window.startRow ∧
      Gives 100 (members.get? "fetch_size") r.window.fetchSize) ∧
    (∀ w, Request.ofJson v = .error (.notAnObject w) ↔ w = v ∧ ∀ members, v ≠ .obj members) ∧
    (∀ type, Request.ofJson v = .error (.unknownType type) ↔ ∃ members : KeyMap Json,
      v = .obj members ∧ type = members.get? "msg_type" ∧
        ∀ tag, ¬ RequestTag.Written type tag) ∧
    (∀ type, (RequestError.unknownType type).message =
      s!"Unknown message type '{RequestError.typeName type}'") ∧
    (∀ field w, Request.ofJson v = .error (.notAnInteger field w) ↔
      ∃ (members : KeyMap Json) (tag : RequestTag), v = .obj members ∧
        RequestTag.Written (members.get? "msg_type") tag ∧ members.get? field = some w ∧
        Misfit w ∧ (field = "start_row" ∨
          field = "fetch_size" ∧ ∃ start, Gives 0 (members.get? "start_row") start)) ∧
    Request.ofJson v ≠ .error .notJson ∧
    ∀ members members' : KeyMap Json, v = .obj members →
      members'.get? "msg_type" = members.get? "msg_type" →
      members'.get? "start_row" = members.get? "start_row" →
      members'.get? "fetch_size" = members.get? "fetch_size" →
      Request.ofJson (.obj members') = Request.ofJson v := by
  refine ⟨fun r => ofJson_ok_iff, fun w => ofJson_notAnObject_iff,
    fun type => ofJson_unknownType_iff, RequestError.message_unknownType,
    fun field w => ofJson_notAnInteger_iff, ofJson_ne_notJson, ?_⟩
  rintro members members' rfl htype hstart hsize
  exact ofJson_congr htype hstart hsize

/-- The least whole number that no signed one of 64 bits is. -/
def leastLarge : Json := .num (.large 0x8000000000000000 (by decide))

def faultyRequest (type : Json) : Json :=
  .obj [("fetch_size", .str "ten"), ("msg_type", type), ("start_row", leastLarge)]

/-- Of several faults the type is reported first and the start row next, and a key that is not known
is none. -/
theorem faults_ranked :
    Request.ofJson (faultyRequest .null) = .error (.unknownType (some .null)) ∧
    Request.ofJson (faultyRequest (.str "ready")) =
      .error (.notAnInteger "start_row" leastLarge) ∧
    Request.ofJson (.obj [("msg_type", .str "ready"), ("zoom", .arr [])]) =
      Request.ofJson readyRequest := by
  obtain ⟨_, _, htype, _⟩ := request_grammar (faultyRequest .null)
  obtain ⟨_, _, _, _, hfield, _⟩ := request_grammar (faultyRequest (.str "ready"))
  obtain ⟨_, _, _, _, _, _, hother⟩ := request_grammar readyRequest
  have hmisfit : Request.Misfit leastLarge := by
    refine ⟨by simp [leastLarge], fun z hz => ?_⟩
    cases hz
    decide
  refine ⟨(htype _).mpr ⟨_, rfl, rfl, fun tag htag => by cases htag⟩, ?_,
    hother _ _ rfl rfl rfl rfl⟩
  exact (hfield _ _).mpr ⟨_, _, rfl, .ready, rfl, hmisfit, .inl rfl⟩

end PagedTables
