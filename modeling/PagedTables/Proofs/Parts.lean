import PagedTables.Proofs.MemoryChannels

namespace PagedTables

namespace KeyMap

variable {α β : Type}

/-- What is kept under one key. -/
def only (m : KeyMap α) (key : String) (f : α → β) : KeyMap β :=
  (m.get? key).elim [] (fun a => [(key, f a)])

@[simp] theorem only_get? (m : KeyMap α) (key : String) (f : α → β) :
    (m.only key f).get? key = (m.get? key).map f := by
  unfold only
  cases m.get? key <;> simp [get?_cons]

theorem only_congr {m : KeyMap α} {key : String} {f g : α → β}
    (h : ∀ a, m.get? key = some a → f a = g a) : m.only key f = m.only key g := by
  unfold only
  cases hm : m.get? key with
  | none => rfl
  | some a => simp [h a hm]

theorem only_insert_self (m : KeyMap α) (key : String) (a : α) (f : α → β) :
    (m.insert key a).only key f = [(key, f a)] := by
  simp [only]

theorem only_insert_of_ne {m : KeyMap α} {key other : String} (h : other ≠ key) (a : α)
    (f : α → β) : (m.insert other a).only key f = m.only key f := by
  simp [only, get?_insert, Ne.symm h]

theorem insert_only (m : KeyMap α) (key : String) (f : α → β) (b : β) :
    (m.only key f).insert key b = [(key, b)] := by
  unfold only
  cases m.get? key <;> simp [insert]

end KeyMap

namespace MemoryChannel

variable {c c' : MemoryChannel}

theorem send_id {msg : Json} (h : c.send msg = .ok c') : c'.id = c.id := by
  unfold send at h
  split at h
  next => cases h
  next =>
    split at h
    next => cases h
    next =>
      cases h
      rfl

theorem close_id (h : c.close = .ok c') : c'.id = c.id := by
  obtain ⟨_, _, rfl⟩ := close_ok_iff.mp h
  rfl

end MemoryChannel

namespace Memory

variable {w w' w'' : Memory} {id : String} {channel n : Nat} {c c' : MemoryChannel}

def channelsOf (w : Memory) (id : String) : List MemoryChannel :=
  w.channels.filter (fun c => c.id == id)

/-- The number that a channel has among those with the id. -/
def place (w : Memory) (id : String) (channel : Nat) : Nat :=
  w.channels.countPBefore (fun c => c.id == id) channel

/-- The channels with the id, numbered on their own. -/
def part (w : Memory) (id : String) : Memory where
  channels := w.channelsOf id
  latest := w.latest.only id (w.place id)
  refusesOpen := w.refusesOpen

/-- A channel is found again at its own number among those with its id. -/
theorem part_channel (hc : w.channels[channel]? = some c) (hid : c.id = id) :
    (w.part id).channels[w.place id channel]? = some c :=
  filter_getElem?_countPBefore hc (by simpa using hid)

theorem place_length (w : Memory) (id : String) :
    w.place id w.channels.length = (w.part id).channels.length := by
  rw [place, List.countPBefore_length, List.countP_eq_length_filter]
  rfl

theorem place_set (hc : w.channels[channel]? = some c) (hid : c'.id = c.id) (id : String) :
    ({ w with channels := w.channels.set channel c' } : Memory).place id = w.place id := by
  funext n
  exact countPBefore_set hc (by simp only [hid]) n

/-- A change of a channel with the id is the same change within its part. -/
theorem part_set (hc : w.channels[channel]? = some c) (hid : c.id = id) (hid' : c'.id = c.id) :
    ({ w with channels := w.channels.set channel c' } : Memory).part id = { w.part id with
      channels := (w.part id).channels.set (w.place id channel) c' } := by
  have hl := filter_set_of_pos (p := fun c => c.id == id) hc (by simpa using hid)
    (b := c') (by simpa [hid'] using hid)
  simp only [part, place_set hc hid', channelsOf, hl, place]

/-- A change of any other channel leaves the part alone. -/
theorem part_set_of_ne (hc : w.channels[channel]? = some c) (hid : c.id ≠ id)
    (hid' : c'.id = c.id) :
    ({ w with channels := w.channels.set channel c' } : Memory).part id = w.part id := by
  have hl := filter_set_of_neg (p := fun c => c.id == id) hc (by simpa using hid)
    (b := c') (by simpa [hid'] using hid)
  simp only [part, place_set hc hid', channelsOf, hl]

/-- What belongs to `id` is in `w'` as it was in `w`. -/
structure Beside (id : String) (w w' : Memory) : Prop where
  length : w.channels.length ≤ w'.channels.length
  place : ∀ n, n ≤ w.channels.length → w'.place id n = w.place id n
  part : w'.part id = w.part id

namespace Beside

theorem refl (id : String) (w : Memory) : Beside id w w := ⟨Nat.le_refl _, fun _ _ => rfl, rfl⟩

theorem trans (h : Beside id w w') (h' : Beside id w' w'') : Beside id w w'' :=
  ⟨Nat.le_trans h.length h'.length,
    fun n hn => (h'.place n (Nat.le_trans hn h.length)).trans (h.place n hn),
    h'.part.trans h.part⟩

theorem set (hc : w.channels[channel]? = some c) (hid : c.id ≠ id) (hid' : c'.id = c.id) :
    Beside id w { w with channels := w.channels.set channel c' } :=
  ⟨by simp, fun n _ => congrFun (place_set hc hid' id) n, part_set_of_ne hc hid hid'⟩

theorem apply {f : MemoryChannel → Except ChannelError MemoryChannel}
    (hc : w.channels[channel]? = some c) (hid : c.id ≠ id)
    (hf : ∀ c c', f c = .ok c' → c'.id = c.id) (h : w.apply channel f = .ok w') :
    Beside id w w' := by
  obtain ⟨d, d', hd, hfd, rfl⟩ := list.apply_ok_iff.mp h
  cases hc.symm.trans hd
  exact set hc hid (hf c d' hfd)

theorem update {f : MemoryChannel → MemoryChannel} (hc : w.channels[channel]? = some c)
    (hid : c.id ≠ id) (hf : ∀ c, (f c).id = c.id) : Beside id w (w.update channel f) := by
  unfold Memory.update
  rw [← set_eq_modify f hc]
  exact set hc hid (hf c)

end Beside

theorem receiver?_id {other : String} {handler : Handler} (hc : w.channels[channel]? = some c)
    (h : Transport.receiver? w channel = some (other, handler)) : c.id = other := by
  simp only [Transport.receiver?, receiver?, hc] at h
  split at h
  next => cases h
  next =>
    obtain ⟨_, _, heq⟩ := Option.map_eq_some_iff.mp h
    exact congrArg Prod.fst heq

section own

variable (hc : w.channels[channel]? = some c) (hid : c.id = id)

include hc hid

/-- What is tried on a channel comes out on its part as it does on the whole. -/
theorem part_apply {f : MemoryChannel → Except ChannelError MemoryChannel}
    (hf : ∀ c c', f c = .ok c' → c'.id = c.id) :
    (w.part id).apply (w.place id channel) f = (w.apply channel f).map (fun w => w.part id) := by
  simp only [apply, part_channel hc hid, hc]
  cases hfc : f c with
  | error e => rfl
  | ok c' => simp only [Except.map, part_set hc hid (hf c c' hfc)]

theorem part_send (msg : Json) : Transport.send (w.part id) (w.place id channel) msg =
    (Transport.send w channel msg).map (fun w => w.part id) :=
  part_apply hc hid (fun _ _ => MemoryChannel.send_id)

theorem part_close : Transport.close (w.part id) (w.place id channel) =
    (Transport.close w channel).map (fun w => w.part id) :=
  part_apply hc hid (fun _ _ => MemoryChannel.close_id)

theorem part_update {f : MemoryChannel → MemoryChannel} (hf : ∀ c, (f c).id = c.id) :
    (w.update channel f).part id = (w.part id).update (w.place id channel) f := by
  unfold update
  rw [← set_eq_modify f hc, ← set_eq_modify f (part_channel hc hid)]
  exact part_set hc hid (hf c)

theorem part_closeQuietly : Service.closeQuietly (w.part id) (w.place id channel) =
    (Service.closeQuietly w channel).part id := by
  rw [closeQuietly_eq, closeQuietly_eq]
  exact (part_update hc hid (fun c => congrArg Prod.fst c.shut_face)).symm

theorem part_isOpen :
    Transport.isOpen (w.part id) (w.place id channel) = Transport.isOpen w channel := by
  simp only [Transport.isOpen, part_channel hc hid, hc]

theorem part_receiver? :
    Transport.receiver? (w.part id) (w.place id channel) = Transport.receiver? w channel := by
  simp only [Transport.receiver?, receiver?, part_channel hc hid, hc]

end own

/-- Channels keep their numbers, whatever is tried on one of them. -/
theorem place_apply {f : MemoryChannel → Except ChannelError MemoryChannel}
    (hf : ∀ c c', f c = .ok c' → c'.id = c.id) (h : w.apply channel f = .ok w') (id : String) :
    w'.place id = w.place id := by
  obtain ⟨c, c', hc, hfc, rfl⟩ := list.apply_ok_iff.mp h
  exact place_set hc (hf c c' hfc) id

theorem place_update {f : MemoryChannel → MemoryChannel} (hc : w.channels[channel]? = some c)
    (hf : ∀ c, (f c).id = c.id) (id : String) : (w.update channel f).place id = w.place id := by
  unfold update
  rw [← set_eq_modify f hc]
  exact place_set hc (hf c) id

theorem place_closeQuietly (hc : w.channels[channel]? = some c) (id : String) :
    (Service.closeQuietly w channel).place id = w.place id := by
  rw [closeQuietly_eq]
  exact place_update hc (fun c => congrArg Prod.fst c.shut_face) id

/-- The channels after another was opened. -/
def opening (w : Memory) (new : MemoryChannel) : Memory := { w with
  channels := w.channels ++ [new]
  latest := w.latest.insert new.id w.channels.length }

theorem place_opening (new : MemoryChannel) (id : String) (hn : n ≤ w.channels.length) :
    (w.opening new).place id n = w.place id n :=
  countPBefore_append hn

/-- A channel for the id is also the next channel of the part. -/
theorem part_opening {new : MemoryChannel} (hid : new.id = id) :
    (w.opening new).part id = (w.part id).opening new := by
  subst hid
  have hchannels : (w.opening new).channelsOf new.id = w.channelsOf new.id ++ [new] := by
    simp [channelsOf, opening]
  have hplace : (w.opening new).place new.id w.channels.length = (w.part new.id).channels.length :=
    (place_opening new new.id (Nat.le_refl _)).trans (place_length w new.id)
  have hlatest : (w.opening new).latest.only new.id ((w.opening new).place new.id) =
      (w.part new.id).latest.insert new.id (w.part new.id).channels.length := by
    unfold part at hplace ⊢
    rw [KeyMap.insert_only, ← hplace]
    exact KeyMap.only_insert_self _ _ _ _
  show Memory.mk _ _ _ = Memory.mk _ _ _
  rw [hchannels, hlatest]
  rfl

/-- A channel for another id leaves the part alone, provided that the latest channel of the id has
been opened. -/
theorem Beside.opening {new : MemoryChannel} (hid : new.id ≠ id)
    (hl : ∀ n, w.latest.get? id = some n → n ≤ w.channels.length) :
    Beside id w (w.opening new) := by
  have hplace : ∀ n, n ≤ w.channels.length → (w.opening new).place id n = w.place id n :=
    fun n hn => countPBefore_append hn
  refine ⟨by simp [Memory.opening], hplace, ?_⟩
  have hfilter : (w.channels ++ [new]).filter (fun c => c.id == id) =
      w.channels.filter (fun c => c.id == id) := by simp [hid]
  have hlatest : (w.latest.insert new.id w.channels.length).only id ((w.opening new).place id) =
      w.latest.only id (w.place id) := by
    rw [KeyMap.only_insert_of_ne hid]
    exact KeyMap.only_congr (fun n hn => hplace n (hl n hn))
  unfold Memory.part
  rw [← hlatest]
  simp only [Memory.opening, channelsOf, hfilter]

theorem Stays.closing (h : Transport.close w channel = .ok w') : Stays w w' := by
  have hq := closeQuietly_eq w channel
  simp only [Service.closeQuietly, h] at hq
  rw [hq]
  exact .update MemoryChannel.shut_face

theorem create_eq (w : Memory) (target id : String) (opening : Json) (handler : Handler) :
    Transport.create w target id opening handler = if w.refusesOpen then
      .error (.refused .opening id) else
      .ok (w.channels.length, w.opening { id, target, opening, handler := some handler }) := rfl

end Memory

/-- What a shutdown says about one dataset. -/
def ShutdownReport.about (r : ShutdownReport) (id : String) (had : Bool) : ShutdownReport :=
  let failures := r.failures.filter (fun f => f.channelId == id)
  ⟨if had && failures.isEmpty then 1 else 0, failures⟩

namespace Service

variable {s s' : Service} {w w' : Memory} {id : String}

/-- The entry of one dataset, with its channel numbered by `place`. -/
def part (s : Service) (id : String) (place : Nat → Nat) : Service :=
  { s with entries := s.entries.only id (fun e => { e with channel := place e.channel }) }

/-- The channel of each entry has the id of the entry. -/
def Leads (entries : KeyMap Entry) (w : Memory) : Prop :=
  ∀ key e, (key, e) ∈ entries → ∃ c, w.channels[e.channel]? = some c ∧ c.id = key

theorem Leads.stays {entries : KeyMap Entry} (h : Leads entries w) (hw : Memory.Stays w w') :
    Leads entries w' := by
  intro key e he
  obtain ⟨c, hc, rfl⟩ := h key e he
  obtain ⟨c', hc', hf⟩ := hw _ c hc
  exact ⟨c', hc', congrArg Prod.fst hf⟩

theorem sendMessage_part {channel : Nat} {c : MemoryChannel} (hc : w.channels[channel]? = some c)
    (hid : c.id = id) (msg : Message) : sendMessage (w.part id) (w.place id channel) msg =
      (sendMessage w channel msg).map (fun w => w.part id) := by
  simp only [sendMessage, Memory.part_send hc hid]
  cases Transport.send w channel msg.toJson <;> rfl

theorem sendMessage_place {channel : Nat} {msg : Message} (h : sendMessage w channel msg = .ok w')
    (id : String) : w'.place id = w.place id :=
  Memory.place_apply (fun _ _ => MemoryChannel.send_id) (sendMessage_ok_iff.mp h) id

theorem dispatch_place {other : String} {msg : Json} (h : s.dispatch w other msg = .ok w')
    (id : String) : w'.place id = w.place id := by
  obtain ⟨e, _, _, hs⟩ := dispatch_ok_iff.mp h
  exact Memory.place_apply (fun _ _ => MemoryChannel.send_id) hs id

/-- A request is answered from the part as it is from the whole. -/
theorem dispatch_part (hl : Leads s.entries w) (msg : Json) :
    (s.part id (w.place id)).dispatch (w.part id) id msg =
      (s.dispatch w id msg).map (fun w => w.part id) := by
  simp only [dispatch, part, KeyMap.only_get?]
  cases he : s.entries.get? id with
  | none => rfl
  | some e =>
    obtain ⟨c, hc, hid⟩ := hl id e (KeyMap.mem_of_get? he)
    simp only [Option.map_some, Memory.part_isOpen hc hid, sendMessage_part hc hid]
    split <;> rfl

/-- The channel that is opened for a dataset. -/
def channelFor (s : Service) (d : Dataset) : MemoryChannel :=
  { id := d.id, target := s.target, opening := d.opening, handler := some .service }

/-- A registration fails only where no channel can be opened. The channel it replaces is closed
last. -/
theorem register_eq (s : Service) (w : Memory) (fresh : String) (d : Dataset) :
    s.register w fresh d = if w.refusesOpen then .error ⟨.refused .opening (d.named fresh).id⟩ else
      let opened := w.opening (s.channelFor (d.named fresh))
      .ok ((d.named fresh).id,
        { s with entries := s.entries.insert (d.named fresh).id ⟨d.named fresh, w.channels.length⟩ },
        (s.entries.get? (d.named fresh).id).elim opened
          (fun old => closeQuietly opened old.channel)) := by
  simp only [register, Memory.create_eq]
  cases w.refusesOpen with
  | true => rfl
  | false =>
    cases he : s.entries.get? (d.named fresh).id with
    | none => rfl
    | some old => rfl

/-- A dataset is registered within its part as it is within the whole. -/
theorem register_part (hl : Leads s.entries w) {fresh : String} {d : Dataset}
    (hid : (d.named fresh).id = id) :
    (s.part id (w.place id)).register (w.part id) fresh d =
      (s.register w fresh d).map (fun r => (r.1, r.2.1.part id (r.2.2.place id), r.2.2.part id)) := by
  have hrefuses : (w.part id).refusesOpen = w.refusesOpen := rfl
  have hsame : (s.part id (w.place id)).channelFor (d.named fresh) = s.channelFor (d.named fresh) :=
    rfl
  rw [register_eq, register_eq, hrefuses, hsame]
  cases w.refusesOpen with
  | true => rfl
  | false =>
    obtain ⟨new, hn⟩ : ∃ new, s.channelFor (d.named fresh) = new := ⟨_, rfl⟩
    have hnew : (w.part id).opening new = (w.opening new).part id :=
      (Memory.part_opening (hn ▸ hid)).symm
    have hplace : (w.part id).channels.length = (w.opening new).place id w.channels.length :=
      ((Memory.place_opening new id (Nat.le_refl _)).trans (w.place_length id)).symm
    rw [hn]
    simp only [Bool.false_eq_true, if_false, Except.map, hid, part, KeyMap.only_get?,
      KeyMap.insert_only, KeyMap.only_insert_self]
    cases he : s.entries.get? id with
    | none =>
      simp only [Option.map_none, Option.elim_none]
      rw [hplace, hnew]
    | some old =>
      obtain ⟨c, hc, hcid⟩ := hl id old (KeyMap.mem_of_get? he)
      have hlt := (List.getElem?_eq_some_iff.mp hc).1
      have hc' : (w.opening new).channels[old.channel]? = some c :=
        (List.getElem?_append_left hlt).trans hc
      have hold : w.place id old.channel = (w.opening new).place id old.channel :=
        (Memory.place_opening new id (Nat.le_of_lt hlt)).symm
      simp only [Option.map_some, Option.elim_some]
      rw [hplace, hnew, hold, Memory.part_closeQuietly hc' hcid, Memory.place_closeQuietly hc']

theorem sendMessage_beside {channel : Nat} {c : MemoryChannel} {msg : Message}
    (hc : w.channels[channel]? = some c) (hid : c.id ≠ id) (h : sendMessage w channel msg = .ok w') :
    Memory.Beside id w w' :=
  .apply hc hid (fun _ _ => MemoryChannel.send_id) (sendMessage_ok_iff.mp h)

theorem dispatch_beside {other : String} {msg : Json} (hl : Leads s.entries w) (hne : other ≠ id)
    (h : s.dispatch w other msg = .ok w') : Memory.Beside id w w' := by
  obtain ⟨e, he, _, hsend⟩ := dispatch_ok_iff.mp h
  obtain ⟨c, hc, hid⟩ := hl other e (KeyMap.mem_of_get? he)
  exact .apply hc (hid ▸ hne) (fun _ _ => MemoryChannel.send_id) hsend

/-- The registration of another dataset leaves the part and its entry alone. -/
theorem register_beside {fresh i : String} {d : Dataset} (hl : Leads s.entries w)
    (hlatest : ∀ n, w.latest.get? id = some n → n ≤ w.channels.length)
    (hne : (d.named fresh).id ≠ id) (h : s.register w fresh d = .ok (i, s', w')) :
    Memory.Beside id w w' ∧ s'.target = s.target ∧ s'.entries.get? id = s.entries.get? id := by
  rw [register_eq] at h
  split at h
  next => cases h
  next =>
    cases h
    refine ⟨?_, rfl, by rw [KeyMap.get?_insert, if_neg (Ne.symm hne)]⟩
    have hopening : Memory.Beside id w (w.opening (s.channelFor (d.named fresh))) :=
      .opening hne hlatest
    cases he : s.entries.get? (d.named fresh).id with
    | none => exact hopening
    | some old =>
      obtain ⟨c, hc, hid⟩ := hl _ old (KeyMap.mem_of_get? he)
      have hlt := (List.getElem?_eq_some_iff.mp hc).1
      simp only [Option.elim_some, Memory.closeQuietly_eq]
      exact hopening.trans (.update ((List.getElem?_append_left hlt).trans hc) (hid ▸ hne)
        (fun c => congrArg Prod.fst c.shut_face))

/-- Closing the channels of others leaves the part alone, and no failure among them is about its id.
-/
theorem closeEach_beside {entries : KeyMap Entry} (hl : Leads entries w)
    (hne : ∀ e ∈ entries, e.1 ≠ id) : Memory.Beside id w (closeEach w entries).2 ∧
      (closeEach w entries).1.failures.filter (fun f => f.channelId == id) = [] := by
  induction entries generalizing w with
  | nil => exact ⟨.refl id w, rfl⟩
  | cons x entries ih =>
    obtain ⟨key, e⟩ := x
    obtain ⟨c, hc, hid⟩ := hl key e List.mem_cons_self
    have hkey : key ≠ id := hne (key, e) List.mem_cons_self
    have hrest : ∀ e ∈ entries, e.1 ≠ id := fun e he => hne e (List.mem_cons_of_mem _ he)
    have hleads : Leads entries w := fun key e he => hl key e (List.mem_cons_of_mem _ he)
    simp only [closeEach]
    split
    next w' hw =>
      have hb := Memory.Beside.apply hc (hid ▸ hkey) (fun _ _ => MemoryChannel.close_id) hw
      obtain ⟨hmore, hnil⟩ := ih (hleads.stays (Memory.Stays.closing hw)) hrest
      exact ⟨hb.trans hmore, hnil⟩
    next =>
      obtain ⟨hmore, hnil⟩ := ih hleads hrest
      refine ⟨hmore, ?_⟩
      rw [List.filter_cons_of_neg (by simpa using hkey)]
      exact hnil

/-- Shutting down the part does and reports what shutting down the whole does about its id. The keys
are in strict order, so one entry at most is about it. -/
theorem closeEach_part {entries : KeyMap Entry} (hs : entries.Sorted) (hl : Leads entries w) :
    closeEach (w.part id) (entries.only id (fun e => { e with channel := w.place id e.channel })) =
      ((closeEach w entries).1.about id (entries.contains id), (closeEach w entries).2.part id) := by
  induction entries generalizing w with
  | nil => rfl
  | cons x entries ih =>
    obtain ⟨key, e⟩ := x
    obtain ⟨hkeys, hsorted⟩ := KeyMap.sorted_cons.mp hs
    obtain ⟨c, hc, hid⟩ := hl key e List.mem_cons_self
    have hleads : Leads entries w := fun key e he => hl key e (List.mem_cons_of_mem _ he)
    by_cases hkey : id = key
    · subst hkey
      have hne : ∀ e ∈ entries, e.1 ≠ id := fun e he heq => String.lt_irrefl _ (heq ▸ hkeys e he)
      simp only [KeyMap.only, KeyMap.get?_cons, if_true, Option.elim_some, closeEach,
        Memory.part_close hc hid, KeyMap.contains, Option.isSome_some]
      cases hw : Transport.close w e.channel with
      | ok w' =>
        obtain ⟨hb, hnil⟩ := closeEach_beside (hleads.stays (Memory.Stays.closing hw)) hne
        simp [Except.map, ShutdownReport.about, hnil, hb.part]
      | error cause =>
        obtain ⟨hb, hnil⟩ := closeEach_beside hleads hne
        simp [Except.map, ShutdownReport.about, hnil, hb.part]
    · have hget : KeyMap.get? ((key, e) :: entries) id = KeyMap.get? entries id := by
        rw [KeyMap.get?_cons, if_neg hkey]
      simp only [KeyMap.only, KeyMap.contains, hget] at ih ⊢
      simp only [closeEach]
      cases hw : Transport.close w e.channel with
      | ok w' =>
        have hb := Memory.Beside.apply hc (hid ▸ Ne.symm hkey) (fun _ _ => MemoryChannel.close_id) hw
        have hplace := Memory.place_apply (fun _ _ => MemoryChannel.close_id) hw id
        rw [← hb.part, ← hplace, ih hsorted (hleads.stays (Memory.Stays.closing hw))]
        rfl
      | error cause =>
        rw [ih hsorted hleads]
        simp [ShutdownReport.about, Ne.symm hkey]

end Service

end PagedTables
