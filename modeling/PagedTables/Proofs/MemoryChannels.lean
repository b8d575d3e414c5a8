import PagedTables.Proofs.InProcess

namespace PagedTables

namespace MemoryChannel

/-- What a channel was opened with: its id, its target and what its viewer is told. -/
def face (c : MemoryChannel) : String × String × Json := (c.id, c.target, c.opening)

theorem shut_eq (c : MemoryChannel) : c.shut =
    if c.refusesClose || c.closed then c else { c with closed := true, handler := none } := by
  unfold shut close
  cases c.refusesClose <;> cases c.closed <;> rfl

@[simp] theorem shut_face (c : MemoryChannel) : c.shut.face = c.face := by
  rw [shut_eq]
  split <;> rfl

/-- What is open after it was told to close has refused, and is as it was. -/
theorem of_shut_open {c : MemoryChannel} (h : c.shut.closed = false) :
    c.shut = c ∧ c.refusesClose = true := by
  rw [shut_eq] at h ⊢
  split at h
  next hr =>
    rw [if_pos hr]
    exact ⟨rfl, by simpa [h] using hr⟩
  next => simp at h

end MemoryChannel

namespace Memory

theorem update_channels (w : Memory) (channel : Nat) (f : MemoryChannel → MemoryChannel) :
    (w.update channel f).channels = w.channels.modify channel f := rfl

theorem closeQuietly_eq (w : Memory) (channel : Nat) :
    Service.closeQuietly w channel = w.update channel MemoryChannel.shut :=
  list.closeQuietly_eq w channel

/-- `w'` is `w` with some of its channels told to close. -/
structure Closes (which : Nat → Bool) (w w' : Memory) : Prop where
  latest : w'.latest = w.latest
  channels : ∀ n : Nat, w'.channels[n]? =
    if which n then (w.channels[n]?).map MemoryChannel.shut else w.channels[n]?

theorem Closes.of_list {which : Nat → Bool} {w w' : Memory} (h : list.Closes which w w') :
    Closes which w w' :=
  ⟨(congrArg Memory.latest h.rest).trans rfl, h.channels⟩

/-- A channel that is open afterwards was so before, and has refused if it was told to close. -/
theorem Closes.before {which : Nat → Bool} {w w' : Memory} (h : Closes which w w') {n : Nat}
    {c' : MemoryChannel} (hc' : w'.channels[n]? = some c') : ∃ c, w.channels[n]? = some c ∧
      c'.face = c.face ∧ (c'.closed = false → c' = c ∧ (which n = true → c.refusesClose = true)) := by
  rw [h.channels n] at hc'
  split at hc'
  next =>
    obtain ⟨c, hc, rfl⟩ := Option.map_eq_some_iff.mp hc'
    refine ⟨c, hc, c.shut_face, fun hopen => ?_⟩
    obtain ⟨heq, hrefuses⟩ := MemoryChannel.of_shut_open hopen
    exact ⟨heq, fun _ => hrefuses⟩
  next hn => exact ⟨c', hc', rfl, fun _ => ⟨rfl, fun h => (hn h).elim⟩⟩

/-- What a registration makes of the channels: a new one, and the one of an earlier dataset with that
id told to close. -/
theorem register_memory {s s' : Service} {w w' : Memory} {fresh id : String} {d : Dataset}
    (hreg : s.register w fresh d = .ok (id, s', w')) :
    id = (d.named fresh).id ∧
      s' = { s with entries := s.entries.insert id ⟨d.named fresh, w.channels.length⟩ } ∧
      Closes (fun n => (s.entries.get? id).any (fun e => e.channel == n)) { w with
        channels := w.channels ++
          [{ id, target := s.target, opening := d.opening, handler := some .service }]
        latest := w.latest.insert id w.channels.length } w' := by
  obtain ⟨hid, channel, w₁, hcreate, rfl, rfl⟩ := register_ok_iff.mp hreg
  obtain ⟨_, rfl, rfl⟩ := create_ok_iff.mp hcreate
  have ho : (d.named fresh).opening = d.opening := by simp [Dataset.opening]
  rw [ho]
  exact ⟨hid, rfl, .of_list (list.closes_old _ _)⟩

/-- No channel goes away, and each stays what it was opened as. -/
def Stays (w w' : Memory) : Prop :=
  ∀ (n : Nat) (c : MemoryChannel), w.channels[n]? = some c →
    ∃ c', w'.channels[n]? = some c' ∧ c'.face = c.face

namespace Stays

theorem refl (w : Memory) : Stays w w := fun _ c hc => ⟨c, hc, rfl⟩

theorem trans {w w' w'' : Memory} (h : Stays w w') (h' : Stays w' w'') : Stays w w'' := by
  intro n c hc
  obtain ⟨c', hc', hf⟩ := h n c hc
  obtain ⟨c'', hc'', hf'⟩ := h' n c' hc'
  exact ⟨c'', hc'', hf'.trans hf⟩

theorem update {w : Memory} {channel : Nat} {f : MemoryChannel → MemoryChannel}
    (hf : ∀ c, (f c).face = c.face) : Stays w (w.update channel f) := by
  intro n c hc
  rw [update_channels, getElem?_modify_ite, hc]
  split
  next => exact ⟨f c, rfl, hf c⟩
  next => exact ⟨c, rfl, rfl⟩

theorem opening {w w' : Memory} (new : MemoryChannel)
    (h : w'.channels = w.channels ++ [new]) : Stays w w' := by
  intro n c hc
  rw [h, List.getElem?_append_left (List.getElem?_eq_some_iff.mp hc).1]
  exact ⟨c, hc, rfl⟩

theorem closes {which : Nat → Bool} {w w' : Memory} (h : Closes which w w') : Stays w w' := by
  intro n c hc
  rw [h.channels n, hc]
  split
  next => exact ⟨c.shut, rfl, c.shut_face⟩
  next => exact ⟨c, rfl, rfl⟩

end Stays

end Memory

theorem stays_move (h : Host Memory) (m : Move) : Memory.Stays h.world (h.move m).1.world := by
  cases m with
  | event e =>
    have hf := step_effect h e
    simp only [Host.move]
    generalize (h.step e).1 = h' at hf
    cases hf with
    | nothing _ hw =>
      rw [hw]
      exact .refl _
    | send _ hs =>
      obtain ⟨_, _, _, _, hw⟩ := Memory.send_ok_iff.mp hs
      rw [hw]
      exact .update (fun _ => rfl)
    | @close channel w hc =>
      have hq := Memory.closeQuietly_eq h.world channel
      simp only [Service.closeQuietly, hc] at hq
      rw [hq]
      exact .update MemoryChannel.shut_face
    | register hs hreg =>
      obtain ⟨_, _, hcl⟩ := Memory.register_memory hreg
      exact (Memory.Stays.opening _ rfl).trans (.closes hcl)
    | shutdown => exact .closes (.of_list (Memory.list.closes_each _ _))
    | drop => exact .refl _
    | create hc =>
      obtain ⟨_, _, rfl⟩ := Memory.create_ok_iff.mp hc
      exact .opening _ rfl
    | listen => exact .update (fun _ => rfl)
  | memory e =>
    cases e with
    | bare target id opening => exact .opening _ rfl
    | refuseOpen on => exact .refl _
    | refuseSend channel on => exact .update (fun _ => rfl)
    | refuseClose channel on => exact .update (fun _ => rfl)
    | takeSent channel => exact .update (fun _ => rfl)

/-- Whatever is registered is kept under its id and has a channel that was opened for it. -/
structure Host.Enrolled (target : String) (h : Host Memory) : Prop where
  service : ∀ s, h.service = some s → s.target = target ∧ s.entries.Sorted
  entry : ∀ (id : String) (e : Entry), h.registered? id = some e → e.dataset.id = id ∧
    ∃ c, h.world.channels[e.channel]? = some c ∧ c.face = (id, target, e.dataset.opening)

namespace Host.Enrolled

variable {target : String} {h h' : Host Memory}

theorem of_stays (hh : h.Enrolled target) (hs : h'.service = h.service)
    (hw : Memory.Stays h.world h'.world) : h'.Enrolled target := by
  refine ⟨fun s h => hh.service s (hs.symm.trans h), fun id e he => ?_⟩
  simp only [Host.registered?, hs] at he
  obtain ⟨hd, c, hc, hf⟩ := hh.entry id e he
  obtain ⟨c', hc', hf'⟩ := hw _ c hc
  exact ⟨hd, c', hc', hf'.trans hf⟩

theorem of_forgotten (hh : h.Enrolled target) (hs : ∀ s, h'.service = some s → s.entries = [] ∧
    ∃ s₀, h.service = some s₀ ∧ s.target = s₀.target) : h'.Enrolled target := by
  refine ⟨fun s h => ?_, fun id e he => ?_⟩
  · obtain ⟨hnil, s₀, hs₀, ht⟩ := hs s h
    rw [hnil]
    exact ⟨ht.trans (hh.service s₀ hs₀).1, List.Pairwise.nil⟩
  · obtain ⟨s, h, he⟩ := Host.registered?_eq_some_iff.mp he
    simp [(hs s h).1] at he

theorem register {s s' : Service} {w : Memory} {fresh id : String} {d : Dataset}
    (hh : h.Enrolled target) (hs : h.service = some s)
    (hreg : s.register h.world fresh d = .ok (id, s', w)) :
    Host.Enrolled target { h with service := some s', world := w } := by
  obtain ⟨hid, rfl, hcl⟩ := Memory.register_memory hreg
  obtain ⟨htarget, hsorted⟩ := hh.service s hs
  refine ⟨fun s₁ h₁ => ?_, fun key e he => ?_⟩
  · cases h₁
    exact ⟨htarget, KeyMap.sorted_insert hsorted _ _⟩
  · simp only [Host.registered?, Option.bind_some, KeyMap.get?_insert] at he
    split at he
    next hkey =>
      cases Option.some.inj he
      obtain ⟨c, hc, hf⟩ := Memory.Stays.closes hcl _ _ List.getElem?_concat_length
      refine ⟨hid.symm.trans hkey.symm, c, hc, hf.trans ?_⟩
      simp [MemoryChannel.face, Dataset.opening, hkey, htarget]
    next hkey =>
      rw [← Host.registered?_of_service hs] at he
      obtain ⟨hd, c, hc, hf⟩ := hh.entry key e he
      obtain ⟨c', hc', hf'⟩ := ((Memory.Stays.opening _ rfl).trans (.closes hcl)) e.channel c hc
      exact ⟨hd, c', hc', hf'.trans hf⟩

theorem move (hh : h.Enrolled target) (m : Move) : (h.move m).1.Enrolled target := by
  have hw := stays_move h m
  cases m with
  | memory e => exact hh.of_stays rfl hw
  | event e =>
    have hf := step_effect h e
    simp only [Host.move] at hw ⊢
    generalize (h.step e).1 = h' at hf hw
    cases hf with
    | nothing hs => exact hh.of_stays hs hw
    | send hs => exact hh.of_stays hs hw
    | close => exact hh.of_stays rfl hw
    | register hs hreg => exact hh.register hs hreg
    | @shutdown s hs =>
      refine hh.of_forgotten (fun s' h' => ?_)
      cases h'
      exact ⟨rfl, s, hs, rfl⟩
    | drop => exact hh.of_forgotten (fun _ h' => by cases h')
    | create => exact hh.of_stays rfl hw
    | listen => exact hh.of_stays rfl hw

theorem play (hh : h.Enrolled target) (moves : List Move) : (h.play moves).Enrolled target := by
  induction moves generalizing h with
  | nil => exact hh
  | cons m moves ih => exact ih (hh.move m)

theorem start (target : String) (w : Memory) : (Host.start target w).Enrolled target := by
  refine ⟨fun s h => ?_, fun id e he => ?_⟩
  · cases h
    exact ⟨rfl, List.Pairwise.nil⟩
  · simp [Host.registered?, Host.start] at he

/-- Two entries with one channel are one entry. -/
theorem apart (hh : h.Enrolled target) {id id' : String} {e e' : Entry}
    (he : h.registered? id = some e) (he' : h.registered? id' = some e')
    (hch : e.channel = e'.channel) : id = id' := by
  obtain ⟨_, c, hc, hf⟩ := hh.entry id e he
  obtain ⟨_, c', hc', hf'⟩ := hh.entry id' e' he'
  rw [hch] at hc
  cases hc.symm.trans hc'
  exact congrArg Prod.fst (hf.symm.trans hf')

end Host.Enrolled

end PagedTables
