import PagedTables.Proofs.MemoryChannels
import PagedTables.Proofs.Replies

namespace PagedTables

/-- `v` is a message of the given type. -/
def Json.Typed (v : Json) (type : String) : Prop :=
  ∃ members : KeyMap Json, v = .obj members ∧ members.get? "msg_type" = some (.str type)

def Json.IsPage (v : Json) : Prop := v.Typed "initial_data" ∨ v.Typed "receive_rows"

/-- An answer is a data message if and only if a page within the table was asked for, and otherwise
an error message. -/
theorem Answers.isPage_iff {d : Dataset} {msg v : Json} (h : Answers d msg v) :
    (v.IsPage ↔ ∃ r, Request.ofJson msg = .ok r ∧ 0 ≤ r.window.startRow.toInt ∧
      r.window.startRow.toInt < d.rowCount) ∧ (v.Typed "error" ↔ ¬ v.IsPage) := by
  cases h with
  | rejected hr => simp [Json.IsPage, Json.Typed, KeyMap.get?_cons, hr]
  | @outside r hr hout =>
    have hnot : ¬ ∃ r, Request.ofJson msg = .ok r ∧ 0 ≤ r.window.startRow.toInt ∧
        r.window.startRow.toInt < d.rowCount := by
      rintro ⟨r', hok, h0, hlt⟩
      cases hr.symm.trans hok
      omega
    simp [Json.IsPage, Json.Typed, KeyMap.get?_cons, hnot]
  | @rows r columns hr h0 hlt _ =>
    have hasked : ∃ r, Request.ofJson msg = .ok r ∧ 0 ≤ r.window.startRow.toInt ∧
        r.window.startRow.toInt < d.rowCount := ⟨r, hr, h0, hlt⟩
    cases r.tag <;> simp [Json.IsPage, Json.Typed, KeyMap.get?_cons, hasked]

namespace Host

variable {h h' : Host Memory} {id : String} {msg : Json} {e : Entry} {c : MemoryChannel}

/-- The dataset `id` is registered as `e`, on the channel `c`. -/
structure Bound (h : Host Memory) (id : String) (e : Entry) (c : MemoryChannel) : Prop where
  entry : h.registered? id = some e
  channel : h.world.channels[e.channel]? = some c

/-- `h'` is `h` with `v` as the latest of what one channel has recorded. -/
def Gains (h h' : Host Memory) (channel : Nat) (v : Json) : Prop :=
  ∃ c, h.world.channels[channel]? = some c ∧ h' = { h with world := { h.world with
    channels := h.world.channels.set channel { c with sent := c.sent ++ [v] } } }

theorem Bound.unique {e' : Entry} {c' : MemoryChannel} (hb : h.Bound id e c)
    (hb' : h.Bound id e' c') : e' = e ∧ c' = c := by
  have he := Option.some.inj (hb'.entry.symm.trans hb.entry)
  refine ⟨he, ?_⟩
  have hc := hb'.channel
  rw [he, hb.channel] at hc
  exact (Option.some.inj hc).symm

theorem Bound.exists_iff (hb : h.Bound id e c) (p : Entry → MemoryChannel → Prop) :
    (∃ e c, h.Bound id e c ∧ p e c) ↔ p e c := by
  constructor
  · rintro ⟨e', c', hb', hp⟩
    obtain ⟨rfl, rfl⟩ := hb.unique hb'
    exact hp
  · intro hp
    exact ⟨e, c, hb, hp⟩

theorem not_bound (hn : h.registered? id = none) : ¬ h.Bound id e c := by
  intro hb
  cases hn.symm.trans hb.entry

theorem Gains.channel {channel : Nat} {v : Json} (hg : h.Gains h' channel v) :
    ∃ c, h.world.channels[channel]? = some c := by
  obtain ⟨c, hc, _⟩ := hg
  exact ⟨c, hc⟩

theorem Gains.getElem? {channel : Nat} {v : Json} (hg : h.Gains h' channel v)
    (hc : h.world.channels[channel]? = some c) :
    h'.world.channels[channel]? = some { c with sent := c.sent ++ [v] } := by
  obtain ⟨c', hc', rfl⟩ := hg
  cases hc.symm.trans hc'
  have hlt := (List.getElem?_eq_some_iff.mp hc).1
  simp [hlt]

theorem not_gains_self {channel : Nat} {v : Json} : ¬ h.Gains h channel v := by
  intro hg
  obtain ⟨c, hc⟩ := hg.channel
  have hsame := hc.symm.trans (hg.getElem? hc)
  have hsent : c.sent = c.sent ++ [v] := congrArg MemoryChannel.sent (Option.some.inj hsame)
  simp at hsent

theorem Gains.unique {channel : Nat} {v v' : Json} (hg : h.Gains h' channel v)
    (hg' : h.Gains h' channel v') : v' = v := by
  obtain ⟨c, hc⟩ := hg.channel
  have hsame := (hg'.getElem? hc).symm.trans (hg.getElem? hc)
  have hsent : c.sent ++ [v'] = c.sent ++ [v] := congrArg MemoryChannel.sent (Option.some.inj hsame)
  simpa using hsent

/-- All that a dispatch can come to, by the first thing that keeps the message from an answer. -/
inductive Dispatched (h : Host Memory) (id : String) (msg : Json) : Host Memory × Outcome → Prop
  | unknown : h.registered? id = none →
      Dispatched h id msg (h, .dispatchFailed (.unknownDataset id))
  | unavailable {e : Entry} {c : MemoryChannel} : h.Bound id e c → c.closed = true →
      Dispatched h id msg (h, .dispatchFailed (.channelUnavailable id))
  | unsent {e : Entry} {c : MemoryChannel} {cause : ChannelError} : h.Bound id e c →
      c.closed = false → c.send (Message.reply e.dataset msg).toJson = .error cause →
      Dispatched h id msg (h, .dispatchFailed (.send cause))
  | answered {e : Entry} {c c' : MemoryChannel} {h' : Host Memory} : h.Bound id e c →
      c.closed = false → c.send (Message.reply e.dataset msg).toJson = .ok c' →
      h.Gains h' e.channel (Message.reply e.dataset msg).toJson → Dispatched h id msg (h', .done)

theorem dispatched_step {target : String} {s : Service} (hh : h.Enrolled target)
    (hs : h.service = some s) (id : String) (msg : Json) :
    h.Dispatched id msg (h.step (.dispatch id msg)) := by
  simp only [step, hs, Service.dispatch, ← registered?_of_service hs]
  cases he : h.registered? id with
  | none => exact .unknown he
  | some e =>
    obtain ⟨_, c, hc, _⟩ := hh.entry id e he
    have hb : h.Bound id e c := ⟨he, hc⟩
    have hopen : Transport.isOpen h.world e.channel = !c.closed := by simp [Transport.isOpen, hc]
    cases hclosed : c.closed with
    | true =>
      simp only [hopen, hclosed, Bool.not_true, Bool.false_eq_true, ↓reduceIte]
      exact .unavailable hb hclosed
    | false =>
      simp only [hopen, hclosed, Bool.not_false, ↓reduceIte, Service.sendMessage, Transport.send,
        Memory.apply, hc]
      cases hsend : c.send (Message.reply e.dataset msg).toJson with
      | error cause => exact .unsent hb hclosed hsend
      | ok c' =>
        obtain ⟨_, _, rfl⟩ := MemoryChannel.send_ok_iff.mp hsend
        exact .answered hb hclosed hsend ⟨c, hc, rfl⟩

namespace Dispatched

variable {outcome : Outcome}

theorem unknown_iff (hd : h.Dispatched id msg (h', outcome)) :
    outcome = .dispatchFailed (.unknownDataset id) ↔ h.registered? id = none := by
  cases hd with
  | unknown hn => simp [hn]
  | unavailable hb => simp [hb.entry]
  | unsent hb => simp [hb.entry]
  | answered hb => simp [hb.entry]

theorem unavailable_iff (hd : h.Dispatched id msg (h', outcome)) :
    outcome = .dispatchFailed (.channelUnavailable id) ↔
      ∃ e c, h.Bound id e c ∧ c.closed = true := by
  cases hd with
  | unknown hn => simp [not_bound hn]
  | unavailable hb hclosed => simp [hb.exists_iff, hclosed]
  | unsent hb hclosed => simp [hb.exists_iff, hclosed]
  | answered hb hclosed => simp [hb.exists_iff, hclosed]

theorem send_iff (hd : h.Dispatched id msg (h', outcome)) (cause : ChannelError) :
    outcome = .dispatchFailed (.send cause) ↔ ∃ e c, h.Bound id e c ∧ c.closed = false ∧
      c.send (Message.reply e.dataset msg).toJson = .error cause := by
  cases hd with
  | unknown hn => simp [not_bound hn]
  | unavailable hb hclosed => simp [hb.exists_iff, hclosed]
  | unsent hb hclosed hsend => simp [hb.exists_iff, hclosed, hsend]
  | answered hb hclosed hsend => simp [hb.exists_iff, hclosed, hsend]

theorem done_iff (hd : h.Dispatched id msg (h', outcome)) :
    outcome = .done ↔ ∃ e c, h.Bound id e c ∧ c.closed = false ∧
      ∃ c', c.send (Message.reply e.dataset msg).toJson = .ok c' := by
  cases hd with
  | unknown hn => simp [not_bound hn]
  | unavailable hb hclosed => simp [hb.exists_iff, hclosed]
  | unsent hb hclosed hsend => simp [hb.exists_iff, hclosed, hsend]
  | answered hb hclosed hsend => simp [hb.exists_iff, hclosed, hsend]

theorem gains_iff (hd : h.Dispatched id msg (h', outcome)) :
    outcome = .done ↔ ∃ e v, h.registered? id = some e ∧ h.Gains h' e.channel v := by
  cases hd with
  | unknown => simp [not_gains_self]
  | unavailable => simp [not_gains_self]
  | unsent => simp [not_gains_self]
  | answered hb _ _ hg => exact ⟨fun _ => ⟨_, _, hb.entry, hg⟩, fun _ => rfl⟩

theorem of_failed (hd : h.Dispatched id msg (h', outcome)) (hne : outcome ≠ .done) :
    h' = h ∧ ∃ err, outcome = .dispatchFailed err := by
  cases hd with
  | unknown => exact ⟨rfl, _, rfl⟩
  | unavailable => exact ⟨rfl, _, rfl⟩
  | unsent => exact ⟨rfl, _, rfl⟩
  | answered => exact (hne rfl).elim

theorem answers (hd : h.Dispatched id msg (h', outcome)) (he : h.registered? id = some e) {v : Json}
    (hg : h.Gains h' e.channel v) : Answers e.dataset msg v := by
  cases hd with
  | unknown => exact (not_gains_self hg).elim
  | unavailable => exact (not_gains_self hg).elim
  | unsent => exact (not_gains_self hg).elim
  | answered hb _ _ hg' =>
    cases he.symm.trans hb.entry
    rw [hg'.unique hg]
    exact reply_answers _ msg

/-- What a message asks for does not decide whether the dispatch fails. -/
theorem outcome_of_other {msg' : Json} {h'' : Host Memory} {outcome' : Outcome}
    (hd : h.Dispatched id msg (h', outcome)) (hd' : h.Dispatched id msg' (h'', outcome')) :
    outcome' = outcome := by
  cases hd with
  | unknown hn => exact hd'.unknown_iff.mpr hn
  | unavailable hb hclosed => exact hd'.unavailable_iff.mpr ⟨_, _, hb, hclosed⟩
  | unsent hb hclosed hsend =>
    have hcause := MemoryChannel.send_error_iff.mp hsend
    exact (hd'.send_iff _).mpr ⟨_, _, hb, hclosed, MemoryChannel.send_error_iff.mpr hcause⟩
  | answered hb hclosed hsend =>
    obtain ⟨_, haccepts, _⟩ := MemoryChannel.send_ok_iff.mp hsend
    exact hd'.done_iff.mpr
      ⟨_, _, hb, hclosed, _, MemoryChannel.send_ok_iff.mpr ⟨hclosed, haccepts, rfl⟩⟩

end Dispatched

end Host

/-- A dispatch fails for one of three reasons, and then nothing has changed; or it records the one
answer, on the channel of the dataset. -/
theorem dispatch_answers_once {target : String} {moves : List Move} {s : Service}
    (hs : ((Host.start target ({} : Memory)).play moves).service = some s) (id : String)
    (msg : Json) :
    let h := (Host.start target ({} : Memory)).play moves
    let h' := (h.step (.dispatch id msg)).1
    let outcome := (h.step (.dispatch id msg)).2
    ((outcome = .dispatchFailed (.unknownDataset id) ↔ h.registered? id = none) ∧
      (outcome = .dispatchFailed (.channelUnavailable id) ↔
        ∃ e c, h.Bound id e c ∧ c.closed = true) ∧
      (∀ cause, outcome = .dispatchFailed (.send cause) ↔ ∃ e c, h.Bound id e c ∧
        c.closed = false ∧ c.send (Message.reply e.dataset msg).toJson = .error cause) ∧
      (outcome = .done ↔ ∃ e c, h.Bound id e c ∧ c.closed = false ∧
        ∃ c', c.send (Message.reply e.dataset msg).toJson = .ok c')) ∧
    (outcome = .done ↔ ∃ e v, h.registered? id = some e ∧ h.Gains h' e.channel v) ∧
    (outcome ≠ .done → h' = h ∧ ∃ err, outcome = .dispatchFailed err) ∧
    (∀ e v, h.registered? id = some e → h.Gains h' e.channel v →
      e.dataset.id = id ∧ Answers e.dataset msg v ∧
        (v.IsPage ↔ ∃ r, Request.ofJson msg = .ok r ∧ 0 ≤ r.window.startRow.toInt ∧
          r.window.startRow.toInt < e.dataset.rowCount) ∧ (v.Typed "error" ↔ ¬ v.IsPage)) ∧
    ∀ msg', (h.step (.dispatch id msg')).2 = outcome := by
  intro h h' outcome
  have hh : h.Enrolled target := (Host.Enrolled.start target _).play moves
  have hd : h.Dispatched id msg (h', outcome) := Host.dispatched_step hh hs id msg
  refine ⟨⟨hd.unknown_iff, hd.unavailable_iff, hd.send_iff, hd.done_iff⟩, hd.gains_iff,
    hd.of_failed, fun e v he hg => ?_, fun msg' => ?_⟩
  · have hanswers := hd.answers he hg
    exact ⟨(hh.entry id e he).1, hanswers, hanswers.isPage_iff⟩
  · exact hd.outcome_of_other (Host.dispatched_step hh hs id msg')

/-- A page from beyond the table: the dispatch does not fail, the viewer is told. -/
theorem page_beyond_primes_dispatched :
    let h := (Host.start "t" ({} : Memory)).play [.event (.register "" primes)]
    (h.step (.dispatch "primes" (rowsRequest 5 10))).2 = .done ∧
    ∃ e v, h.registered? "primes" = some e ∧
      h.Gains (h.step (.dispatch "primes" (rowsRequest 5 10))).1 e.channel v ∧ v.Typed "error" := by
  intro h
  have hs : ∃ s, h.service = some s := ⟨_, rfl⟩
  obtain ⟨s, hs⟩ := hs
  obtain ⟨_, hgains, _, hvalue, _⟩ := dispatch_answers_once hs "primes" (rowsRequest 5 10)
  have hdone : (h.step (.dispatch "primes" (rowsRequest 5 10))).2 = .done := rfl
  obtain ⟨e, v, he, hg⟩ := hgains.mp hdone
  obtain ⟨_, _, hpage, herror⟩ := hvalue e v he hg
  have hrows : e.dataset.rowCount = 5 := by
    have hsame : h.registered? "primes" = some ⟨primes, 0⟩ := rfl
    cases hsame.symm.trans he
    rfl
  refine ⟨hdone, e, v, he, hg, herror.mpr (fun h => ?_)⟩
  obtain ⟨r, hr, _, hlt⟩ := hpage.mp h
  have hrequest : Request.ofJson (rowsRequest 5 10) = .ok ⟨.requestRows, ⟨5, 10⟩⟩ := rfl
  cases hrequest.symm.trans hr
  rw [hrows] at hlt
  exact absurd hlt (by decide)

end PagedTables
