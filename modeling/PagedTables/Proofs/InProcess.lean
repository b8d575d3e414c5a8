import PagedTables.Memory
import PagedTables.Proofs.ChannelLists

namespace PagedTables

/-- What can happen to a service over in-process channels. -/
inductive Move where
  | event (e : Event)
  | memory (e : MemoryEvent)

namespace Host

def move (h : Host Memory) : Move → Host Memory × Outcome
  | .event e => h.step e
  | .memory e => ({ h with world := h.world.step e }, .done)

def play (h : Host Memory) (moves : List Move) : Host Memory :=
  moves.foldl (fun h m => (h.move m).1) h

end Host

namespace MemoryChannel

/-- The channel after it was told to close, whether or not it did. -/
def shut (c : MemoryChannel) : MemoryChannel :=
  match c.close with
  | .ok c => c
  | .error _ => c

theorem send_ok_iff {c c' : MemoryChannel} {v : Json} : c.send v = .ok c' ↔
    c.closed = false ∧ c.refusesSend = false ∧ c' = { c with sent := c.sent ++ [v] } := by
  unfold send
  cases c.closed <;> cases c.refusesSend <;> simp [eq_comm]

/-- A closed channel says that it is closed, even when it was made to refuse. -/
theorem send_error_iff {c : MemoryChannel} {v : Json} {cause : ChannelError} :
    c.send v = .error cause ↔ c.closed = true ∧ cause = .closed c.id ∨
      c.closed = false ∧ c.refusesSend = true ∧ cause = .refused .sending c.id := by
  unfold send
  cases c.closed <;> cases c.refusesSend <;> simp [eq_comm]

/-- A channel closes unless it was made to refuse, or has closed already. -/
theorem close_ok_iff {c c' : MemoryChannel} : c.close = .ok c' ↔ c.refusesClose = false ∧
    c.closed = false ∧ c' = { c with closed := true, handler := none } := by
  unfold close
  cases c.refusesClose <;> cases c.closed <;> simp [eq_comm]

/-- A channel that has closed says so when it is told again. -/
theorem close_again {c c' : MemoryChannel} (h : c.close = .ok c') :
    c'.close = .error (.closed c'.id) := by
  obtain ⟨hrefuses, _, rfl⟩ := close_ok_iff.mp h
  simp [close, hrefuses]

end MemoryChannel

namespace Memory

/-- The channels of one process as a list. -/
def list : ChannelList Memory MemoryChannel where
  channels := channels
  put w l := { w with channels := l }
  apply := apply
  close := MemoryChannel.close
  shut := MemoryChannel.shut
  channels_put _ _ := rfl
  put_channels _ := rfl
  put_put _ _ _ := rfl
  apply_none _ h := by simp only [apply, h]
  apply_some _ h := by simp only [apply, h]
  close_eq _ _ := rfl
  close_once h := ⟨_, MemoryChannel.close_again h⟩
  shut_of_ok h := by simp only [MemoryChannel.shut, h]
  shut_of_error h := by simp only [MemoryChannel.shut, h]

def record (w : Memory) (channel : Nat) (msg : Json) : Memory :=
  w.update channel (fun c => { c with sent := c.sent ++ [msg] })

theorem set_eq_record {w : Memory} {channel : Nat} {c : MemoryChannel} (msg : Json)
    (hc : w.channels[channel]? = some c) :
    { w with channels := w.channels.set channel { c with sent := c.sent ++ [msg] } } =
      w.record channel msg := by
  rw [set_eq_modify (fun c : MemoryChannel => { c with sent := c.sent ++ [msg] }) hc]
  rfl

theorem send_ok_iff {w w' : Memory} {channel : Nat} {msg : Json} :
    Transport.send w channel msg = .ok w' ↔ ∃ c, w.channels[channel]? = some c ∧
      c.closed = false ∧ c.refusesSend = false ∧ w' = w.record channel msg := by
  refine list.apply_ok_iff.trans ?_
  constructor
  · rintro ⟨c, c', hc, hs, rfl⟩
    obtain ⟨hclosed, hrefuses, rfl⟩ := MemoryChannel.send_ok_iff.mp hs
    exact ⟨c, hc, hclosed, hrefuses, set_eq_record msg hc⟩
  · rintro ⟨c, hc, hclosed, hrefuses, rfl⟩
    exact ⟨c, _, hc, MemoryChannel.send_ok_iff.mpr ⟨hclosed, hrefuses, rfl⟩,
      (set_eq_record msg hc).symm⟩

theorem close_ok_iff {w w' : Memory} {channel : Nat} :
    Transport.close w channel = .ok w' ↔ ∃ c, w.channels[channel]? = some c ∧
      c.refusesClose = false ∧ c.closed = false ∧
      w' = { w with channels := w.channels.set channel { c with closed := true, handler := none } } := by
  refine list.close_ok_iff.trans ?_
  constructor
  · rintro ⟨c, c', hc, hclose, rfl⟩
    obtain ⟨hrefuses, hopen, rfl⟩ := MemoryChannel.close_ok_iff.mp hclose
    exact ⟨c, hc, hrefuses, hopen, rfl⟩
  · rintro ⟨c, hc, hrefuses, hopen, rfl⟩
    exact ⟨c, _, hc, MemoryChannel.close_ok_iff.mpr ⟨hrefuses, hopen, rfl⟩, rfl⟩

theorem isOpen_iff {w : Memory} {channel : Nat} :
    Transport.isOpen w channel = true ↔ ∃ c, w.channels[channel]? = some c ∧ c.closed = false := by
  simp [Transport.isOpen, Option.any_eq_true]

/-- A channel is opened unless that was made to fail, and its id leads to it from then on. -/
theorem create_ok_iff {w w' : Memory} {target id : String} {opening : Json} {handler : Handler}
    {n : Nat} :
    Transport.create w target id opening handler = .ok (n, w') ↔ w.refusesOpen = false ∧
      n = w.channels.length ∧ w' = { w with
        channels := w.channels ++ [{ id, target, opening, handler := some handler }]
        latest := w.latest.insert id w.channels.length } := by
  simp only [Transport.create, create]
  cases w.refusesOpen <;> simp [eq_comm]

theorem record_getElem? (w : Memory) (channel n : Nat) (msg : Json) :
    (w.record channel msg).channels[n]? = if channel = n then
      (w.channels[n]?).map (fun c => { c with sent := c.sent ++ [msg] }) else w.channels[n]? := by
  simp only [record, update, List.getElem?_modify]
  split <;> simp

/-- No channel goes away, and none records anything. -/
def Silent (w w' : Memory) : Prop :=
  ∀ (n : Nat) (c : MemoryChannel), w.channels[n]? = some c →
    ∃ c', w'.channels[n]? = some c' ∧ c'.sent = c.sent

theorem Silent.refl (w : Memory) : Silent w w := fun _ c hc => ⟨c, hc, rfl⟩

theorem Silent.trans {w₁ w₂ w₃ : Memory} (h : Silent w₁ w₂) (h' : Silent w₂ w₃) :
    Silent w₁ w₃ := by
  intro n c hc
  obtain ⟨c', hc', hs⟩ := h n c hc
  obtain ⟨c'', hc'', hs'⟩ := h' n c' hc'
  exact ⟨c'', hc'', hs'.trans hs⟩

theorem Silent.length_le {w w' : Memory} (h : Silent w w') :
    w.channels.length ≤ w'.channels.length := by
  refine Nat.le_of_not_lt (fun hn => ?_)
  obtain ⟨c', hc', _⟩ := h w'.channels.length _ (List.getElem?_eq_getElem hn)
  simp at hc'

/-- Any change of a channel that keeps what it has recorded. -/
theorem Silent.set {w : Memory} {channel : Nat} {c c' : MemoryChannel}
    (hc : w.channels[channel]? = some c) (hs : c'.sent = c.sent) :
    Silent w { w with channels := w.channels.set channel c' } := by
  intro n d hd
  by_cases hn : channel = n
  · subst hn
    obtain ⟨hlt, _⟩ := List.getElem?_eq_some_iff.mp hc
    cases Option.some.inj (hc.symm.trans hd)
    exact ⟨c', by simp [hlt], hs⟩
  · exact ⟨d, by simpa [hn] using hd, rfl⟩

theorem Silent.update {w : Memory} {channel : Nat} {f : MemoryChannel → MemoryChannel}
    (hf : ∀ c, (f c).sent = c.sent) : Silent w (w.update channel f) := by
  intro n c hc
  by_cases hn : channel = n
  · subst hn
    exact ⟨f c, by simp [Memory.update, hc], hf c⟩
  · exact ⟨c, by simp [Memory.update, hn, hc], rfl⟩

theorem Silent.close {w w' : Memory} {channel : Nat} (h : Transport.close w channel = .ok w') :
    Silent w w' := by
  obtain ⟨c, hc, _, _, rfl⟩ := close_ok_iff.mp h
  exact Silent.set hc rfl

theorem Silent.closeQuietly (w : Memory) (channel : Nat) :
    Silent w (Service.closeQuietly w channel) := by
  unfold Service.closeQuietly
  split
  next h => exact Silent.close h
  next => exact Silent.refl w

theorem Silent.closeEach (w : Memory) (entries : KeyMap Entry) :
    Silent w (Service.closeEach w entries).2 := by
  induction entries generalizing w with
  | nil => exact Silent.refl w
  | cons e entries ih =>
    simp only [Service.closeEach]
    split
    next h => exact (Silent.close h).trans (ih _)
    next => exact ih w

theorem Silent.create {w w' : Memory} {target id : String} {opening : Json} {handler : Handler}
    {n : Nat} (h : Transport.create w target id opening handler = .ok (n, w')) : Silent w w' := by
  obtain ⟨_, _, rfl⟩ := create_ok_iff.mp h
  intro n c hc
  obtain ⟨hlt, _⟩ := List.getElem?_eq_some_iff.mp hc
  exact ⟨c, by simp [List.getElem?_append_left hlt, hc], rfl⟩

theorem create_getElem? {w w' : Memory} {target id : String} {opening : Json} {handler : Handler}
    {n : Nat} (h : Transport.create w target id opening handler = .ok (n, w')) :
    w'.channels[n]? = some { id, target, opening, handler := some handler } := by
  obtain ⟨_, rfl, rfl⟩ := create_ok_iff.mp h
  exact List.getElem?_concat_length

@[simp] theorem update_length (w : Memory) (channel : Nat) (f : MemoryChannel → MemoryChannel) :
    (w.update channel f).channels.length = w.channels.length := by
  simp [update]

theorem record_length (w : Memory) (channel : Nat) (msg : Json) :
    (w.record channel msg).channels.length = w.channels.length := by
  simp [record]

end Memory

/-- A registration opens the next channel and pairs it with the dataset. -/
theorem registered_in_process {h h' : Host Memory} {fresh id : String} {d : Dataset}
    (hr : h.step (.register fresh d) = (h', .registered id)) :
    (∀ key, h'.registered? key = if key = id then some ⟨d.named fresh, h.world.channels.length⟩
      else h.registered? key) ∧
    ∃ c, h'.world.channels[h.world.channels.length]? = some c ∧ c.sent = [] := by
  obtain ⟨s, s', w, hs, hreg, rfl⟩ := step_register_ok hr
  obtain ⟨_, channel, w₁, hc, rfl, rfl⟩ := register_ok_iff.mp hreg
  have hnew := Memory.create_getElem? hc
  obtain ⟨_, rfl, rfl⟩ := Memory.create_ok_iff.mp hc
  refine ⟨fun key => ?_, ?_⟩
  · simp only [Host.registered?, hs, Option.bind_some, KeyMap.get?_insert]
  · cases s.entries.get? id with
    | none => exact ⟨_, hnew, rfl⟩
    | some old => exact Memory.Silent.closeQuietly _ old.channel _ _ hnew

theorem Memory.Silent.register {s s' : Service} {w w' : Memory} {fresh id : String} {d : Dataset}
    (h : s.register w fresh d = .ok (id, s', w')) : Silent w w' := by
  obtain ⟨_, channel, w₁, hc, _, rfl⟩ := register_ok_iff.mp h
  refine (Silent.create hc).trans ?_
  cases s.entries.get? id with
  | none => exact .refl _
  | some old => exact .closeQuietly _ _

/-- A registration records nothing, since the opening is kept apart. -/
theorem register_silent (h : Host Memory) (fresh : String) (d : Dataset) :
    Memory.Silent h.world (h.step (.register fresh d)).1.world := by
  rcases step_register_cases h fresh d with heq | ⟨id, hr⟩
  · rw [heq]
    exact .refl _
  · obtain ⟨s, s', w, _, hreg, heq⟩ := step_register_ok hr
    rw [heq]
    exact .register hreg

theorem shutdown_silent (h : Host Memory) : Memory.Silent h.world (h.step .shutdown).1.world := by
  simp only [Host.step]
  split
  next => exact .refl _
  next => exact Memory.Silent.closeEach _ _

/-- Channels are never given up. -/
theorem length_le_move (h : Host Memory) (m : Move) :
    h.world.channels.length ≤ (h.move m).1.world.channels.length := by
  cases m with
  | event e =>
    have hf := step_effect h e
    simp only [Host.move]
    generalize (h.step e).1 = h' at hf
    cases hf with
    | nothing _ hw => exact Nat.le_of_eq (by rw [hw])
    | send _ hs =>
      obtain ⟨_, _, _, _, hw⟩ := Memory.send_ok_iff.mp hs
      rw [hw]
      exact Nat.le_of_eq (Memory.record_length _ _ _).symm
    | close hc => exact (Memory.Silent.close hc).length_le
    | register hs hreg => exact (Memory.Silent.register hreg).length_le
    | shutdown => exact (Memory.Silent.closeEach _ _).length_le
    | drop => exact Nat.le_refl _
    | create hc => exact (Memory.Silent.create hc).length_le
    | listen => exact Nat.le_of_eq (Memory.update_length _ _ _).symm
  | memory e =>
    cases e with
    | bare target id opening => simp [Host.move, Memory.step]
    | refuseOpen on => exact Nat.le_refl _
    | refuseSend channel on => exact Nat.le_of_eq (Memory.update_length _ _ _).symm
    | refuseClose channel on => exact Nat.le_of_eq (Memory.update_length _ _ _).symm
    | takeSent channel => exact Nat.le_of_eq (Memory.update_length _ _ _).symm

/-- Every registered dataset has a channel. -/
def Host.Numbered (h : Host Memory) : Prop :=
  ∀ key e, h.registered? key = some e → e.channel < h.world.channels.length

/-- A new entry has the number of the channel that was opened for it. -/
theorem numbered_move {h : Host Memory} (hn : h.Numbered) (m : Move) :
    (h.move m).1.Numbered := by
  intro key x hx
  have hle := length_le_move h m
  cases m with
  | event e =>
    rcases registered?_step_cases hx with hold | ⟨fresh, d, rfl, hr⟩
    · exact Nat.lt_of_lt_of_le (hn key x hold) hle
    · obtain ⟨hentry, c, hc, _⟩ := registered_in_process hr
      have heq : (h.step (.register fresh d)).1.registered? key = some x := hx
      rw [hentry, if_pos rfl, Option.some.injEq] at heq
      obtain ⟨hlt, _⟩ := List.getElem?_eq_some_iff.mp hc
      exact heq ▸ hlt
  | memory e => exact Nat.lt_of_lt_of_le (hn key x hx) hle

theorem numbered_play {h : Host Memory} (hn : h.Numbered) (moves : List Move) :
    (h.play moves).Numbered := by
  induction moves generalizing h with
  | nil => exact hn
  | cons m moves ih => exact ih (numbered_move hn m)

theorem numbered_start (target : String) (w : Memory) : (Host.start target w).Numbered := by
  intro key e he
  simp [Host.registered?, Host.start] at he

end PagedTables
