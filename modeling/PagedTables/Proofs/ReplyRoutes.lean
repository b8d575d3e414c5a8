import PagedTables.Proofs.MemoryChannels
import PagedTables.Proofs.Transcript

namespace PagedTables

namespace Memory

/-- No channel is new, and none opens. -/
def Wanes (w w' : Memory) : Prop :=
  ∀ (n : Nat) (c' : MemoryChannel), w'.channels[n]? = some c' → ∃ c, w.channels[n]? = some c ∧
    c'.id = c.id ∧ (c'.closed = false → c.closed = false ∧ c'.handler = c.handler)

namespace Wanes

theorem refl (w : Memory) : Wanes w w := fun _ c hc => ⟨c, hc, rfl, fun h => ⟨h, rfl⟩⟩

theorem update {w : Memory} {channel : Nat} {f : MemoryChannel → MemoryChannel}
    (hf : ∀ c, (f c).id = c.id ∧ ((f c).closed = false → c.closed = false ∧ (f c).handler = c.handler)) :
    Wanes w (w.update channel f) := by
  intro n c' hc'
  rw [update_channels, getElem?_modify_ite] at hc'
  split at hc'
  next =>
    obtain ⟨c, hc, rfl⟩ := Option.map_eq_some_iff.mp hc'
    exact ⟨c, hc, hf c⟩
  next => exact refl w n c' hc'

theorem closes {which : Nat → Bool} {w w' : Memory} (h : Closes which w w') : Wanes w w' := by
  intro n c' hc'
  obtain ⟨c, hc, hf, himp⟩ := h.before hc'
  refine ⟨c, hc, congrArg Prod.fst hf, fun hopen => ?_⟩
  obtain ⟨rfl, _⟩ := himp hopen
  exact ⟨hopen, rfl⟩

end Wanes

end Memory

namespace Host

/-- `channel` has recorded something between `h` and `h'`. -/
def RecordsOn (h h' : Host Memory) (channel : Nat) : Prop :=
  ∃ c c', h.world.channels[channel]? = some c ∧ h'.world.channels[channel]? = some c' ∧
    c'.sent ≠ c.sent

/-- At the move the service tells `channel` to close: its id is registered again, or the service
shuts down. -/
def LetsGo (h : Host Memory) : Move → Nat → Prop
  | .event (.register fresh d), channel =>
    ∃ id e, (h.step (.register fresh d)).2 = .registered id ∧ h.registered? id = some e ∧
      e.channel = channel
  | .event .shutdown, channel => ∃ id e, h.registered? id = some e ∧ e.channel = channel
  | _, _ => False

/-- The service tells `channel` to close, and it refuses. -/
def RefusedAt (h : Host Memory) (m : Move) (channel : Nat) : Prop :=
  h.LetsGo m channel ∧
    ∃ c, h.world.channels[channel]? = some c ∧ c.closed = false ∧ c.refusesClose = true

def RefusedIn (h : Host Memory) (moves : List Move) (channel : Nat) : Prop :=
  ∃ before m after, moves = before ++ m :: after ∧ (h.play before).RefusedAt m channel

theorem refusedIn_cons {h : Host Memory} {m : Move} {moves : List Move} {channel : Nat}
    (hr : h.RefusedAt m channel ∨ (h.move m).1.RefusedIn moves channel) :
    h.RefusedIn (m :: moves) channel := by
  rcases hr with hr | ⟨before, m', after, rfl, hr⟩
  · exact ⟨[], m, moves, rfl, hr⟩
  · exact ⟨m :: before, m', after, rfl, hr⟩

/-- Every open channel leads to the service, which keeps it under its id unless it is one of those
`left` behind; and the service keeps the newest channel of an id. -/
structure Held (target : String) (left : Nat → Prop) (h : Host Memory) : Prop
    extends Host.Enrolled target h where
  served : ∀ (n : Nat) (c : MemoryChannel), h.world.channels[n]? = some c → c.closed = false →
    c.handler = some .service ∧
      (h.service = none ∨ (∃ e, h.registered? c.id = some e ∧ e.channel = n) ∨ left n)
  newest : ∀ (n : Nat) (c : MemoryChannel) (e : Entry), h.world.channels[n]? = some c →
    h.registered? c.id = some e → n ≤ e.channel

namespace Held

variable {target : String} {left left' : Nat → Prop} {h h' : Host Memory}

theorem mono (hh : h.Held target left) (hl : ∀ n, left n → left' n) : h.Held target left' := by
  refine ⟨hh.toEnrolled, fun n c hc hopen => ?_, hh.newest⟩
  obtain ⟨hserve, hheld⟩ := hh.served n c hc hopen
  exact ⟨hserve, hheld.imp_right (Or.imp_right (hl n))⟩

theorem of_wanes (hh : h.Held target left) (he : h'.Enrolled target)
    (hs : h'.service = h.service) (hw : Memory.Wanes h.world h'.world) : h'.Held target left := by
  refine ⟨he, fun n c' hc' hopen => ?_, fun n c' e hc' hx => ?_⟩
  · obtain ⟨c, hc, hid, himp⟩ := hw n c' hc'
    obtain ⟨hclosed, hhandler⟩ := himp hopen
    obtain ⟨hserve, hheld⟩ := hh.served n c hc hclosed
    rw [hhandler, hid]
    simp only [Host.registered?, hs]
    exact ⟨hserve, hheld⟩
  · obtain ⟨c, hc, hid, _⟩ := hw n c' hc'
    simp only [Host.registered?, hs, hid] at hx
    exact hh.newest n c e hc hx

/-- Only the new channel, the ones under other ids and the one that refuses to close are open after a
registration. -/
theorem register {s s' : Service} {w : Memory} {fresh id : String} {d : Dataset}
    (hh : h.Held target left) (hs : h.service = some s)
    (hreg : s.register h.world fresh d = .ok (id, s', w)) :
    Host.Held target (fun n => left n ∨ h.RefusedAt (.event (.register fresh d)) n)
      { h with service := some s', world := w } := by
  have he := hh.toEnrolled.register hs hreg
  have hout : (h.step (.register fresh d)).2 = .registered id := by simp only [Host.step, hs, hreg]
  obtain ⟨hid, rfl, hcl⟩ := Memory.register_memory hreg
  refine ⟨he, fun n c' hc' hopen => ?_, fun n c' e hc' hx => ?_⟩
  · obtain ⟨c, hc, _, himp⟩ := hcl.before hc'
    obtain ⟨rfl, hrefuses⟩ := himp hopen
    simp only [Host.registered?, Option.bind_some, KeyMap.get?_insert]
    rcases getElem?_concat_cases hc with hc | ⟨rfl, rfl⟩
    · obtain ⟨hserve, hheld⟩ := hh.served n c' hc hopen
      refine ⟨hserve, .inr ?_⟩
      rcases hheld with hnone | ⟨e, hx, hch⟩ | hl
      · cases hnone.symm.trans hs
      · have hx' := (Host.registered?_of_service hs c'.id).symm.trans hx
        by_cases hkey : c'.id = id
        · rw [hkey] at hx hx'
          have hrefused := hrefuses (by simp [hx', hch])
          exact .inr (.inr ⟨⟨id, e, hout, hx, hch⟩, c', hc, hopen, hrefused⟩)
        · exact .inl ⟨e, by rw [if_neg hkey, hx'], hch⟩
      · exact .inr (.inl hl)
    · simp
  · obtain ⟨c, hc, hf, _⟩ := hcl.before hc'
    have hcid : c'.id = c.id := congrArg Prod.fst hf
    simp only [Host.registered?, Option.bind_some, KeyMap.get?_insert, hcid] at hx
    have hle : n ≤ h.world.channels.length := by
      rcases getElem?_concat_cases hc with hc | ⟨rfl, _⟩
      · exact Nat.le_of_lt (List.getElem?_eq_some_iff.mp hc).1
      · exact Nat.le_refl _
    split at hx
    next =>
      cases Option.some.inj hx
      exact hle
    next hkey =>
      rw [← Host.registered?_of_service hs] at hx
      rcases getElem?_concat_cases hc with hc | ⟨rfl, rfl⟩
      · exact hh.newest n c e hc hx
      · exact (hkey rfl).elim

/-- After a shutdown only what refuses to close is open. -/
theorem shutdown {s : Service} (hh : h.Held target left) (hs : h.service = some s) :
    Host.Held target (fun n => left n ∨ h.RefusedAt (.event .shutdown) n) { h with
      service := some { s with entries := [] }
      world := (Service.closeEach h.world s.entries).2 } := by
  have hcl := Memory.Closes.of_list (Memory.list.closes_each h.world s.entries)
  refine ⟨?_, fun n c' hc' hopen => ?_, fun n c' e _ hx => ?_⟩
  · refine hh.toEnrolled.of_forgotten (fun s' h' => ?_)
    cases h'
    exact ⟨rfl, s, hs, rfl⟩
  · obtain ⟨c, hc, _, himp⟩ := hcl.before hc'
    obtain ⟨rfl, hrefuses⟩ := himp hopen
    obtain ⟨hserve, hheld⟩ := hh.served n c' hc hopen
    refine ⟨hserve, .inr (.inr ?_)⟩
    rcases hheld with hnone | ⟨e, hx, hch⟩ | hl
    · cases hnone.symm.trans hs
    · have hmem := KeyMap.mem_of_get? ((Host.registered?_of_service hs c'.id).symm.trans hx)
      have hany : s.entries.any (fun e => e.2.channel == n) = true :=
        List.any_eq_true.mpr ⟨_, hmem, by simp [hch]⟩
      exact .inr ⟨⟨c'.id, e, hx, hch⟩, c', hc, hopen, hrefuses hany⟩
    · exact .inl hl
  · simp [Host.registered?] at hx

theorem move {m : Move} (hh : h.Held target left) (hm : m.Plain) :
    (h.move m).1.Held target (fun n => left n ∨ h.RefusedAt m n) := by
  have he := hh.toEnrolled.move m
  have keep : ∀ {h' : Host Memory}, h'.Held target left →
      h'.Held target (fun n => left n ∨ h.RefusedAt m n) := fun hh => hh.mono (fun _ => Or.inl)
  cases m with
  | event e =>
    have hf := step_effect h e
    simp only [Host.move] at he ⊢
    generalize (h.step e).1 = h' at hf he
    cases hf with
    | nothing hs hw => exact keep (hh.of_wanes he hs (by rw [hw]; exact .refl _))
    | send hs hsend =>
      obtain ⟨_, _, _, _, hw⟩ := Memory.send_ok_iff.mp hsend
      refine keep (hh.of_wanes he hs ?_)
      rw [hw]
      exact .update (fun _ => ⟨rfl, fun h => ⟨h, rfl⟩⟩)
    | @close channel w hc =>
      have hq := Memory.closeQuietly_eq h.world channel
      simp only [Service.closeQuietly, hc] at hq
      refine keep (hh.of_wanes he rfl ?_)
      rw [hq]
      exact .closes (.of_list (Memory.list.closes_update _ _))
    | register hs hreg => exact hh.register hs hreg
    | shutdown hs => exact hh.shutdown hs
    | drop =>
      refine keep ⟨he, fun n c hc hopen => ?_, fun n c e _ hx => ?_⟩
      · exact ⟨(hh.served n c hc hopen).1, .inl rfl⟩
      · simp [Host.registered?] at hx
    | create => exact hm.elim
    | listen => exact hm.elim
  | memory e =>
    refine keep (hh.of_wanes he rfl ?_)
    cases e with
    | refuseOpen on => exact .refl _
    | refuseSend channel on => exact .update (fun _ => ⟨rfl, fun h => ⟨h, rfl⟩⟩)
    | refuseClose channel on => exact .update (fun _ => ⟨rfl, fun h => ⟨h, rfl⟩⟩)
    | bare => exact hm.elim
    | takeSent => exact hm.elim

theorem play {moves : List Move} (hh : h.Held target left) (hm : ∀ m ∈ moves, m.Plain) :
    (h.play moves).Held target (fun n => left n ∨ h.RefusedIn moves n) := by
  induction moves generalizing h left with
  | nil => exact hh.mono (fun _ => Or.inl)
  | cons m moves ih =>
    have hnext := ih (hh.move (hm m List.mem_cons_self))
      (fun m h => hm m (List.mem_cons_of_mem _ h))
    refine hnext.mono (fun n hn => ?_)
    rcases hn with (hl | hr) | hr
    · exact .inl hl
    · exact .inr (refusedIn_cons (.inl hr))
    · exact .inr (refusedIn_cons (.inr hr))

theorem start (target : String) : (Host.start target ({} : Memory)).Held target (fun _ => False) := by
  refine ⟨.start target {}, fun n c hc => ?_, fun n c e hc => ?_⟩
  · simp [Host.start] at hc
  · simp [Host.start] at hc

end Held

end Host

theorem asked?_deliver_iff {target : String} {left : Nat → Prop} {h : Host Memory}
    (hh : h.Held target left) {channel : Nat} {id : String} {msg msg' : Json} :
    h.asked? (.event (.deliver channel msg)) = some (id, msg') ↔ msg' = msg ∧
      ∃ c, h.world.channels[channel]? = some c ∧ c.closed = false ∧ c.id = id := by
  simp only [Host.asked?, Option.bind_eq_some_iff]
  constructor
  · rintro ⟨c, hc, hif⟩
    split at hif
    next ho =>
      cases Option.some.inj hif
      exact ⟨rfl, c, hc, ho.1, rfl⟩
    next => cases hif
  · rintro ⟨rfl, c, hc, hopen, rfl⟩
    exact ⟨c, hc, by rw [if_pos ⟨hopen, (hh.served channel c hc hopen).1⟩]⟩

theorem recordsOn_record_iff {h : Host Memory} {channel n : Nat} {v : Json}
    (hc : ∃ c, h.world.channels[channel]? = some c) :
    h.RecordsOn { h with world := h.world.record channel v } n ↔ channel = n := by
  simp only [Host.RecordsOn, Memory.record_getElem?]
  constructor
  · rintro ⟨c, c', hc, hc', hne⟩
    refine Decidable.byContradiction (fun hn => hne ?_)
    rw [if_neg hn] at hc'
    cases hc.symm.trans hc'
    rfl
  · rintro rfl
    obtain ⟨c, hc⟩ := hc
    exact ⟨c, _, hc, by rw [if_pos rfl, hc, Option.map_some], by simp⟩

/-- A message that arrives on an open channel is answered on the channel that serves its id, and on no
other. -/
theorem recordsOn_deliver_iff {target : String} {left : Nat → Prop} {h : Host Memory}
    (hh : h.Held target left) (channel n : Nat) (msg : Json) :
    h.RecordsOn (h.deliver channel msg).1 n ↔ ∃ c, h.world.channels[channel]? = some c ∧
      c.closed = false ∧ h.serves c.id n = true := by
  rcases deliver_answered h channel msg with ⟨id, msg', e, ha, he, hserves, heq⟩ | ⟨hnot, hsilent⟩
  · obtain ⟨_, c, hc, hopen, rfl⟩ := (asked?_deliver_iff hh).mp ha
    obtain ⟨_, d, _, _, hd, _⟩ := Host.serves_iff.mp hserves
    rw [heq, recordsOn_record_iff ⟨d, hd⟩]
    constructor
    · rintro rfl
      exact ⟨c, hc, hopen, hserves⟩
    · rintro ⟨c', hc', _, hserves'⟩
      cases hc.symm.trans hc'
      obtain ⟨e', _, he', hch, _⟩ := Host.serves_iff.mp hserves'
      cases he.symm.trans he'
      exact hch
  · constructor
    · rintro ⟨c, c', hc, hc', hne⟩
      obtain ⟨c'', hc'', hsent⟩ := hsilent n c hc
      cases hc'.symm.trans hc''
      exact (hne hsent).elim
    · rintro ⟨c, hc, hopen, hserves⟩
      have ha : h.asked? (.event (.deliver channel msg)) = some (c.id, msg) :=
        (asked?_deliver_iff hh).mpr ⟨rfl, c, hc, hopen, rfl⟩
      cases hserves.symm.trans (hnot c.id msg n ha)

/-- An answer is recorded on the open channel that is registered under the id of the channel that the
message came in on. That is another channel only if the one it came in on refused to close when the
service let go of it, and then it is a newer one. -/
theorem answered_on_registered_channel {target : String} {moves : List Move}
    (hm : ∀ m ∈ moves, m.Plain) (channel n : Nat) (msg : Json) :
    let h := (Host.start target ({} : Memory)).play moves
    (h.RecordsOn (h.deliver channel msg).1 n ↔ ∃ c, h.world.channels[channel]? = some c ∧
      c.closed = false ∧ h.serves c.id n = true) ∧
    (h.RecordsOn (h.deliver channel msg).1 n → n ≠ channel →
      channel < n ∧ (Host.start target {}).RefusedIn moves channel ∧
        (h.world.channels[n]?).map MemoryChannel.id =
          (h.world.channels[channel]?).map MemoryChannel.id) := by
  intro h
  have hh : h.Held target (fun n => False ∨ (Host.start target {}).RefusedIn moves n) :=
    (Host.Held.start target).play hm
  have hiff := recordsOn_deliver_iff hh channel n msg
  refine ⟨hiff, fun hrec hne => ?_⟩
  obtain ⟨c, hc, hopen, hserves⟩ := hiff.mp hrec
  obtain ⟨e, d, he, rfl, hd, _⟩ := Host.serves_iff.mp hserves
  have hle := hh.newest channel c e hc he
  obtain ⟨_, d', hd', hf⟩ := hh.entry c.id e he
  cases hd.symm.trans hd'
  refine ⟨by omega, ?_, by rw [hd, hc]; exact congrArg some (congrArg Prod.fst hf)⟩
  rcases (hh.served channel c hc hopen).2 with hnone | ⟨e', he', hch⟩ | hfalse | hrefused
  · obtain ⟨s, hs, _⟩ := Host.registered?_eq_some_iff.mp he
    cases hnone.symm.trans hs
  · cases he.symm.trans he'
    exact (hne hch).elim
  · exact hfalse.elim
  · exact hrefused

/-- The first channel of a dataset refuses to close when the dataset is registered again. -/
def refusedAndReplaced : List Move := refusedClose ++ [.event (.register "" primes)]

/-- It refuses to close when the service shuts down, and then the dataset is registered again. -/
def refusedAndRestarted : List Move :=
  refusedClose ++ [.event .shutdown, .event (.register "" primes)]

theorem refusedAndReplaced_plain : ∀ m ∈ refusedAndReplaced, m.Plain := by
  simp [refusedAndReplaced, refusedClose, Move.Plain]

theorem refusedAndRestarted_plain : ∀ m ∈ refusedAndRestarted, m.Plain := by
  simp [refusedAndRestarted, refusedClose, Move.Plain]

theorem answered_on_newer_channel :
    ((∀ m ∈ refusedAndReplaced, m.Plain) ∧
      ((Host.start "t" {}).play refusedAndReplaced).RecordsOn
        (((Host.start "t" {}).play refusedAndReplaced).deliver 0 readyRequest).1 1) ∧
    ((∀ m ∈ refusedAndRestarted, m.Plain) ∧
      ((Host.start "t" {}).play refusedAndRestarted).RecordsOn
        (((Host.start "t" {}).play refusedAndRestarted).deliver 0 readyRequest).1 1) ∧
    (1 : Nat) ≠ 0 := by
  refine ⟨⟨refusedAndReplaced_plain, ?_⟩, ⟨refusedAndRestarted_plain, ?_⟩, by decide⟩
  · exact ⟨_, _, rfl, rfl, by simp⟩
  · exact ⟨_, _, rfl, rfl, by simp⟩

theorem answered_after_refusal :
    ((Host.start "t" {}).play refusedAndRestarted).RecordsOn
        (((Host.start "t" {}).play refusedAndRestarted).deliver 0 readyRequest).1 1 ∧
      (0 : Nat) < 1 ∧ (Host.start "t" {}).RefusedIn refusedAndRestarted 0 := by
  have hroute := @answered_on_registered_channel "t" _ refusedAndRestarted_plain 0 1 readyRequest
  have hrec := hroute.1.mpr ⟨_, rfl, rfl, rfl⟩
  obtain ⟨hlt, hrefused, _⟩ := hroute.2 hrec (by decide)
  exact ⟨hrec, hlt, hrefused⟩

end PagedTables
