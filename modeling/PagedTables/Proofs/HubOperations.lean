import PagedTables.Proofs.ChannelLists
import PagedTables.Proofs.HubChannels

namespace PagedTables

namespace Hub

def queue? (w : Hub) (channel place : Nat) : Option Queue :=
  (w.channels[channel]?).bind (fun c => c.queues[place]?)

def setFrames (w : Hub) (channel place : Nat) (frames : List Frame) : Hub :=
  w.update channel (fun c => c.setFrames place frames)

def Sound (w : Hub) : Prop := ∀ (n : Nat) (c : HubChannel), w.channels[n]? = some c → c.Sound ∧ c.Heard

theorem queue?_eq_some_iff {w : Hub} {channel place : Nat} {q : Queue} :
    w.queue? channel place = some q ↔
      ∃ c, w.channels[channel]? = some c ∧ c.queues[place]? = some q :=
  Option.bind_eq_some_iff

theorem queue?_of_channel {w : Hub} {channel : Nat} {c : HubChannel}
    (hc : w.channels[channel]? = some c) (place : Nat) :
    w.queue? channel place = c.queues[place]? := by
  simp only [queue?, hc, Option.bind_some]

theorem update_channels (w : Hub) (channel : Nat) (f : HubChannel → HubChannel) :
    (w.update channel f).channels = w.channels.modify channel f := rfl

theorem set_eq_update {w : Hub} {channel : Nat} {c : HubChannel} (f : HubChannel → HubChannel)
    (hc : w.channels[channel]? = some c) :
    { w with channels := w.channels.set channel (f c) } = w.update channel f := by
  rw [set_eq_modify f hc]
  rfl

theorem set_eq_setFrames {w : Hub} {channel : Nat} {c : HubChannel} (place : Nat)
    (frames : List Frame) (hc : w.channels[channel]? = some c) :
    { w with channels := w.channels.set channel (c.setFrames place frames) } =
      w.setFrames channel place frames :=
  set_eq_update (fun c => c.setFrames place frames) hc

theorem setFrames_queue? (w : Hub) (n place m k : Nat) (frames : List Frame) :
    (w.setFrames n place frames).queue? m k = if n = m ∧ place = k then
      (w.queue? m k).map (fun q => { q with frames }) else w.queue? m k := by
  simp only [queue?, setFrames, update_channels, getElem?_modify_ite]
  by_cases hn : n = m
  · subst hn
    cases hc : w.channels[n]? with
    | none => simp
    | some c => simp [HubChannel.setFrames_queues]
  · simp [hn]

theorem setFrames_setFrames (w : Hub) (n place : Nat) (frames frames' : List Frame) :
    (w.setFrames n place frames).setFrames n place frames' = w.setFrames n place frames' := by
  simp only [setFrames, update, List.modify_modify_eq]
  congr 2
  exact funext (fun c => c.setFrames_setFrames place frames frames')

theorem setFrames_self {w : Hub} {n place : Nat} {q : Queue} (hq : w.queue? n place = some q) :
    w.setFrames n place q.frames = w := by
  obtain ⟨c, hc, hq⟩ := queue?_eq_some_iff.mp hq
  have hqueues : c.queues.modify place (fun q' => { q' with frames := q.frames }) =
      c.queues.modify place id := by
    apply modify_congr
    intro q' hq'
    cases hq.symm.trans hq'
    rfl
  have hchannels : w.channels.modify n (fun c => c.setFrames place q.frames) =
      w.channels.modify n id := by
    apply modify_congr
    intro c' hc'
    cases hc.symm.trans hc'
    simp only [HubChannel.setFrames, hqueues, List.modify_id, id]
  simp only [setFrames, update, hchannels, List.modify_id]

/-- The channels of a hub as a list. -/
def list : ChannelList Hub HubChannel where
  channels := channels
  put w l := { w with channels := l }
  apply := apply
  close := HubChannel.close
  shut := HubChannel.shut
  channels_put _ _ := rfl
  put_channels _ := rfl
  put_put _ _ _ := rfl
  apply_none _ h := by simp only [apply, h]
  apply_some _ h := by simp only [apply, h]
  close_eq _ _ := rfl
  close_once h := ⟨_, HubChannel.close_again h⟩
  shut_of_ok h := by simp only [HubChannel.shut, h]
  shut_of_error h := by simp only [HubChannel.shut, h]

/-- A message goes to the end of the queue of the channel's peer. -/
theorem send_ok_iff {w w' : Hub} {channel : Nat} {v : Json} :
    Transport.send w channel v = .ok w' ↔ ∃ c conn q, w.channels[channel]? = some c ∧
      c.closed = false ∧ c.peer = some conn ∧ c.queues[conn - 1]? = some q ∧ q.hasReader = true ∧
      q.frames.length < q.capacity ∧
      w' = w.setFrames channel (conn - 1) (q.frames ++ [.message v]) := by
  refine list.apply_ok_iff.trans ?_
  constructor
  · rintro ⟨c, c', hc, hs, rfl⟩
    obtain ⟨hopen, conn, q, hp, hq, hr, hf, rfl⟩ := HubChannel.send_ok_iff.mp hs
    exact ⟨c, conn, q, hc, hopen, hp, hq, hr, hf, set_eq_setFrames _ _ hc⟩
  · rintro ⟨c, conn, q, hc, hopen, hp, hq, hr, hf, rfl⟩
    exact ⟨c, _, hc, HubChannel.send_ok_iff.mpr ⟨hopen, conn, q, hp, hq, hr, hf, rfl⟩,
      (set_eq_setFrames _ _ hc).symm⟩

/-- A channel that is open closes without fail. -/
theorem close_ok_iff {w w' : Hub} {channel : Nat} :
    Transport.close w channel = .ok w' ↔ ∃ c, w.channels[channel]? = some c ∧ c.closed = false ∧
      w' = w.update channel HubChannel.shut := by
  refine list.close_ok_iff.trans ?_
  constructor
  · rintro ⟨c, c', hc, hs, rfl⟩
    obtain ⟨hopen, rfl⟩ := HubChannel.close_ok_iff.mp hs
    exact ⟨c, hc, hopen, set_eq_update _ hc⟩
  · rintro ⟨c, hc, hopen, rfl⟩
    exact ⟨c, c.shut, hc, HubChannel.close_ok_iff.mpr ⟨hopen, rfl⟩, (set_eq_update _ hc).symm⟩

/-- A channel is opened without fail, and its id leads to it from then on. -/
theorem create_ok_iff {w w' : Hub} {target id : String} {opening : Json} {handler : Handler}
    {n : Nat} :
    Transport.create w target id opening handler = .ok (n, w') ↔ n = w.channels.length ∧
      w' = { w with
        channels := w.channels ++ [{ id, target, opening, handler := some handler }]
        routes := w.routes.insert id w.channels.length } := by
  simp only [Transport.create, create, Except.ok.injEq, Prod.mk.injEq]
  exact and_congr eq_comm eq_comm

/-- Looking an id up may drop a route, but no channel. -/
theorem find_channels (w : Hub) (id : String) :
    (w.find id).2.buffer = w.buffer ∧ (w.find id).2.channels = w.channels := by
  unfold find
  split
  · exact ⟨rfl, rfl⟩
  · split <;> exact ⟨rfl, rfl⟩

theorem attach_ok_iff {w w' : Hub} {channel buffer conn : Nat} :
    w.attach channel buffer = .attached conn w' ↔ ∃ c, w.channels[channel]? = some c ∧
      c.closed = false ∧ max buffer 1 ≤ Queue.maxCapacity ∧ conn = c.queues.length + 1 ∧
      w' = w.update channel (fun c => c.seat (max buffer 1)) := by
  unfold attach
  cases hc : w.channels[channel]? with
  | none => simp
  | some c =>
    simp only [Option.some.injEq, exists_eq_left']
    rw [← set_eq_update _ hc]
    cases ha : c.attach buffer with
    | attached conn' c' =>
      obtain ⟨hopen, hb, rfl, rfl⟩ := HubChannel.attach_ok_iff.mp ha
      simp only [Attached.attached.injEq, hopen, hb, true_and]
      exact and_congr eq_comm eq_comm
    | refused =>
      simp only [reduceCtorEq, false_iff]
      rintro ⟨hopen, hb, rfl, _⟩
      cases ha.symm.trans (HubChannel.attach_ok_iff.mpr ⟨hopen, hb, rfl, rfl⟩)
    | overCapacity =>
      simp only [reduceCtorEq, false_iff]
      rintro ⟨hopen, hb, rfl, _⟩
      cases ha.symm.trans (HubChannel.attach_ok_iff.mpr ⟨hopen, hb, rfl, rfl⟩)

/-- A new connection finds the opening of its channel in its queue. -/
theorem attach_newest {w w' : Hub} {channel buffer conn : Nat}
    (h : w.attach channel buffer = .attached conn w') :
    w.queue? channel (conn - 1) = none ∧ ∃ c, w.channels[channel]? = some c ∧
      w'.queue? channel (conn - 1) =
        some { capacity := max buffer 1, frames := [.message c.openFrame] } := by
  obtain ⟨c, hc, _, _, rfl, rfl⟩ := attach_ok_iff.mp h
  refine ⟨?_, c, hc, queue?_eq_some_iff.mpr ⟨c.seat (max buffer 1), ?_, c.seat_newest _⟩⟩
  · simp [queue?_of_channel hc]
  · simp [update_channels, hc]

theorem read_eq {w : Hub} {channel conn : Nat} {q : Queue}
    (hq : w.queue? channel (conn - 1) = some q) :
    w.read channel conn = some (q.pop.1, w.setFrames channel (conn - 1) q.frames.tail) := by
  obtain ⟨c, hc, hq⟩ := queue?_eq_some_iff.mp hq
  simp only [read, hc, HubChannel.read_eq hq]
  rw [set_eq_setFrames _ _ hc]

/-- `w'` is `w` with some of its channels closed. -/
structure Closes (which : Nat → Bool) (w w' : Hub) : Prop where
  buffer : w'.buffer = w.buffer
  routes : w'.routes = w.routes
  channels : ∀ n : Nat, w'.channels[n]? =
    if which n then (w.channels[n]?).map HubChannel.shut else w.channels[n]?

namespace Closes

variable {which : Nat → Bool} {w w' : Hub}

theorem of_list (h : list.Closes which w w') : Closes which w w' :=
  ⟨(congrArg Hub.buffer h.rest).trans rfl, (congrArg Hub.routes h.rest).trans rfl, h.channels⟩

/-- A channel that is open afterwards was so before and is none of those closed. -/
theorem of_open (h : Closes which w w') {n : Nat} {c : HubChannel}
    (hc : w'.channels[n]? = some c) (hopen : c.closed = false) :
    w.channels[n]? = some c ∧ which n = false := by
  rw [h.channels n] at hc
  split at hc
  next =>
    obtain ⟨d, _, rfl⟩ := Option.map_eq_some_iff.mp hc
    simp at hopen
  next hn => exact ⟨hc, by simpa using hn⟩

theorem either (h : Closes which w w') {n : Nat} {c : HubChannel} (hc : w.channels[n]? = some c) :
    w'.channels[n]? = some c ∨ w'.channels[n]? = some c.shut := by
  rw [h.channels n, hc]
  split
  · exact .inr rfl
  · exact .inl rfl

/-- No queue gets more than the end. -/
theorem frames (h : Closes which w w') {n k : Nat}
    {q' : Queue} (hq' : w'.queue? n k = some q') : ∃ q, w.queue? n k = some q ∧
      (q'.frames = q.frames ∨ q'.frames = q.frames ++ [.close]) := by
  obtain ⟨c', hc', hq'⟩ := queue?_eq_some_iff.mp hq'
  rw [h.channels n] at hc'
  split at hc'
  next =>
    obtain ⟨c, hc, rfl⟩ := Option.map_eq_some_iff.mp hc'
    obtain ⟨q, hq, hf⟩ := HubChannel.shut_frames hq'
    exact ⟨q, queue?_eq_some_iff.mpr ⟨c, hc, hq⟩, hf⟩
  next => exact ⟨q', queue?_eq_some_iff.mpr ⟨c', hc', hq'⟩, .inl rfl⟩

/-- Channels are closed, and none goes away. -/
theorem length (h : Closes which w w') : w'.channels.length = w.channels.length := by
  have hnone : ∀ n : Nat, w'.channels[n]? = none ↔ w.channels[n]? = none := by
    intro n
    rw [h.channels n]
    split <;> simp
  simp only [List.getElem?_eq_none_iff] at hnone
  exact Nat.le_antisymm ((hnone _).mpr (Nat.le_refl _)) ((hnone _).mp (Nat.le_refl _))

end Closes

theorem spared_of_channels {channel place : Nat} {w w' : Hub}
    (h : ∀ c, w.channels[channel]? = some c → ∃ c', w'.channels[channel]? = some c' ∧
      Queue.Spared c.queues[place]? c'.queues[place]?) :
    Queue.Spared (w.queue? channel place) (w'.queue? channel place) := by
  intro q hq
  obtain ⟨c, hc, hq⟩ := queue?_eq_some_iff.mp hq
  obtain ⟨c', hc', hs⟩ := h c hc
  obtain ⟨q', hq', heq⟩ := hs q hq
  exact ⟨q', queue?_eq_some_iff.mpr ⟨c', hc', hq'⟩, heq⟩

theorem Sound.update {w : Hub} (hw : w.Sound) {n : Nat} {f : HubChannel → HubChannel}
    (hf : ∀ c, w.channels[n]? = some c → c.Sound → c.Heard → (f c).Sound ∧ (f c).Heard) :
    (w.update n f).Sound := by
  intro m c hc
  rw [update_channels, getElem?_modify_ite] at hc
  split at hc
  next hn =>
    subst hn
    obtain ⟨d, hd, rfl⟩ := Option.map_eq_some_iff.mp hc
    exact hf d hd (hw n d hd).1 (hw n d hd).2
  next => exact hw m c hc

theorem Sound.setFrames {w : Hub} (hw : w.Sound) (n place : Nat) (frames : List Frame) :
    (w.setFrames n place frames).Sound :=
  hw.update (fun _ _ hs hh => ⟨hs.setFrames place frames, hh.setFrames place frames⟩)

/-- What becomes of a hub as long as no connection reads. -/
structure Evolves (w w' : Hub) : Prop where
  buffer : w'.buffer = w.buffer
  sound : w.Sound → w'.Sound
  spares : w.Sound → ∀ channel place : Nat,
    Queue.Spared (w.queue? channel place) (w'.queue? channel place)

namespace Evolves

theorem of_channels {w w' : Hub} (hb : w'.buffer = w.buffer) (h : w'.channels = w.channels) :
    Evolves w w' := by
  refine ⟨hb, fun hw n c hc => hw n c (h ▸ hc), fun _ channel place => ?_⟩
  rw [queue?, queue?, h]
  exact .refl _

theorem refl (w : Hub) : Evolves w w := of_channels rfl rfl

theorem trans {w w' w'' : Hub} (h : Evolves w w') (h' : Evolves w' w'') : Evolves w w'' := by
  refine ⟨h'.buffer.trans h.buffer, fun hw => h'.sound (h.sound hw), fun hw channel place => ?_⟩
  exact (h.spares hw channel place).trans (h'.spares (h.sound hw) channel place)

theorem update {w : Hub} {n : Nat} {f : HubChannel → HubChannel}
    (hf : ∀ c, w.channels[n]? = some c → c.Sound → c.Heard →
      ((f c).Sound ∧ (f c).Heard) ∧
        ∀ place : Nat, Queue.Spared c.queues[place]? (f c).queues[place]?) :
    Evolves w (w.update n f) := by
  refine ⟨rfl, fun hw => hw.update (fun c hc hs hh => (hf c hc hs hh).1), fun hw channel place => ?_⟩
  refine spared_of_channels (fun c hc => ?_)
  rw [update_channels, getElem?_modify_ite, hc]
  split
  next hn =>
    subst hn
    obtain ⟨hs, hh⟩ := hw n c hc
    exact ⟨f c, rfl, (hf c hc hs hh).2 place⟩
  next => exact ⟨c, rfl, .refl _⟩

/-- The queue that grows is that of the peer, which the channel has not let go of. -/
theorem send {w w' : Hub} {n : Nat} {v : Json} (h : Transport.send w n v = .ok w') :
    Evolves w w' := by
  obtain ⟨c, conn, q, hc, _, hp, _, _, _, rfl⟩ := send_ok_iff.mp h
  refine update (fun d hd hs hh => ⟨⟨hs.setFrames _ _, hh.setFrames _ _⟩, fun place => ?_⟩)
  cases hc.symm.trans hd
  exact HubChannel.spared_setFrames_of_peer hs hp _

/-- Of the queues that were there only that of the peer before loses its sender. -/
theorem attach {w w' : Hub} {n buffer conn : Nat} (h : w.attach n buffer = .attached conn w') :
    Evolves w w' := by
  obtain ⟨c, hc, hopen, _, _, rfl⟩ := attach_ok_iff.mp h
  refine update (fun d hd hs hh => ⟨⟨?_, hh.seat hs _⟩, fun place => HubChannel.spared_seat hs _⟩)
  cases hc.symm.trans hd
  exact hs.seat hopen (Nat.lt_of_lt_of_le Nat.one_pos (Nat.le_max_right _ _))

theorem detach (w : Hub) (n conn : Nat) : Evolves w (w.detach n conn) := by
  refine update (fun c _ hs hh => ⟨?_, fun place => HubChannel.spared_detach hs conn⟩)
  rcases HubChannel.detach_cases c conn with h | h
  · rw [h]
    exact ⟨hs, hh⟩
  · rw [h]
    exact ⟨hs.dropPeer, hh.dropPeer hs⟩

theorem closes {which : Nat → Bool} {w w' : Hub} (h : Closes which w w') : Evolves w w' := by
  refine ⟨h.buffer, fun hw n c hc => ?_, fun hw channel place => spared_of_channels (fun c hc => ?_)⟩
  · rw [h.channels n] at hc
    split at hc
    next =>
      obtain ⟨d, hd, rfl⟩ := Option.map_eq_some_iff.mp hc
      obtain ⟨hs, hh⟩ := hw n d hd
      exact ⟨hs.shut, hh.shut hs⟩
    next => exact hw n c hc
  · rcases h.either hc with hc' | hc'
    · exact ⟨c, hc', .refl _⟩
    · exact ⟨c.shut, hc', HubChannel.spared_shut (hw channel c hc).1⟩

/-- A new channel comes last and has no connection yet. -/
theorem create {w w' : Hub} {target id : String} {opening : Json} {handler : Handler} {n : Nat}
    (h : Transport.create w target id opening handler = .ok (n, w')) : Evolves w w' := by
  obtain ⟨_, rfl⟩ := create_ok_iff.mp h
  refine ⟨rfl, fun hw m c hc => ?_, fun _ channel place => spared_of_channels (fun c hc => ?_)⟩
  · rcases List.mem_append.mp (List.mem_of_getElem? hc) with hold | hnew
    · obtain ⟨k, hk⟩ := List.mem_iff_getElem?.mp hold
      exact hw k c hk
    · cases List.mem_singleton.mp hnew
      refine ⟨⟨?_, ?_, ?_, ?_⟩, ?_⟩ <;> simp [HubChannel.Heard]
  · obtain ⟨hlt, _⟩ := List.getElem?_eq_some_iff.mp hc
    exact ⟨c, by simp [List.getElem?_append_left hlt, hc], .refl _⟩

end Evolves

/-- What becomes of a hub when the connection at `place` of `channel` may read, and no other. -/
structure EvolvesBeside (channel place : Nat) (w w' : Hub) : Prop where
  buffer : w'.buffer = w.buffer
  sound : w.Sound → w'.Sound
  spares : w.Sound → ∀ (n k : Nat) (q : Queue), w.queue? n k = some q →
    ∃ q', w'.queue? n k = some q' ∧ (q.hasSender = false → ¬ (channel = n ∧ place = k) → q' = q)

theorem Evolves.beside {w w' : Hub} (h : Evolves w w') (channel place : Nat) :
    EvolvesBeside channel place w w' := by
  refine ⟨h.buffer, h.sound, fun hw n k q hq => ?_⟩
  obtain ⟨q', hq', heq⟩ := h.spares hw n k q hq
  exact ⟨q', hq', fun hf _ => heq hf⟩

theorem EvolvesBeside.setFrames (w : Hub) (channel place : Nat) (frames : List Frame) :
    EvolvesBeside channel place w (w.setFrames channel place frames) := by
  refine ⟨rfl, fun hw => hw.setFrames _ _ _, fun _ n k q hq => ?_⟩
  rw [setFrames_queue?, hq]
  by_cases hn : channel = n ∧ place = k
  · exact ⟨{ q with frames }, by rw [if_pos hn, Option.map_some], fun _ hne => (hne hn).elim⟩
  · exact ⟨q, by rw [if_neg hn], fun _ _ => rfl⟩

end Hub

end PagedTables
