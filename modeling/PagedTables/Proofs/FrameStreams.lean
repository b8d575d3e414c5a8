import PagedTables.Proofs.HubChannels

namespace PagedTables

/-- What can happen to one channel. A connection that reads, or stops to, is given by the place of its
queue; the one that detaches by its number. -/
inductive ChannelMove where
  | attach (buffer : Nat)
  | detach (conn : Nat)
  | send (msg : Json)
  | close
  | read (place : Nat)
  | stopReading (place : Nat)

/-- A channel and what was seen of it, in order: the buffers that its connections came with, the
messages that it took, each with the connection that was its peer, and the frames that connections
have read, each with the place of its queue. -/
structure Observed where
  channel : HubChannel
  buffers : List Nat := []
  accepted : List (Option Nat × Json) := []
  read : List (Nat × Frame) := []

namespace Observed

def step (o : Observed) : ChannelMove → Observed
  | .attach buffer =>
    match o.channel.attach buffer with
    | .attached _ c => { o with channel := c, buffers := o.buffers ++ [buffer] }
    | .refused => o
    | .overCapacity => o
  | .detach conn => { o with channel := o.channel.detach conn }
  | .send msg =>
    match o.channel.send msg with
    | .ok c => { o with channel := c, accepted := o.accepted ++ [(o.channel.peer, msg)] }
    | .error _ => o
  | .close =>
    match o.channel.close with
    | .ok c => { o with channel := c }
    | .error _ => o
  | .read place =>
    match o.channel.read (place + 1) with
    | some (.frame f, c) => { o with channel := c, read := o.read ++ [(place, f)] }
    | some (_, c) => { o with channel := c }
    | none => o
  | .stopReading place => { o with channel := o.channel.stopReading (place + 1) }

def run (o : Observed) (moves : List ChannelMove) : Observed := moves.foldl step o

/-- The messages that the channel took while `conn` was its peer. -/
def acceptedBy (o : Observed) (conn : Nat) : List Json :=
  (o.accepted.filter (fun e => e.1 = some conn)).map Prod.snd

/-- The frames that the connection with the queue at `place` has read. -/
def readBy (o : Observed) (place : Nat) : List Frame :=
  (o.read.filter (fun e => e.1 = place)).map Prod.snd

/-- The number of the connection that a move attaches. -/
def attached (o : Observed) : ChannelMove → Option Nat
  | .attach buffer =>
    match o.channel.attach buffer with
    | .attached conn _ => some conn
    | .refused => none
    | .overCapacity => none
  | _ => none

/-- A move that finds nothing to do. -/
def Idle (o : Observed) : ChannelMove → Prop
  | .attach buffer => o.channel.closed = true ∨ Queue.maxCapacity < max buffer 1
  | .detach conn => o.channel.peer ≠ some conn
  | .send msg => ∃ e, o.channel.send msg = .error e
  | .close => o.channel.closed = true
  | .read place => o.channel.queues[place]? = none
  | .stopReading _ => False

/-- All that a move can do, with the number that it gives out. -/
inductive Effect (o : Observed) : ChannelMove → Option Nat → Observed → Prop
  | attached {buffer : Nat} : o.channel.closed = false → max buffer 1 ≤ Queue.maxCapacity →
      Effect o (.attach buffer) (some (o.channel.queues.length + 1)) { o with
        channel := o.channel.seat (max buffer 1)
        buffers := o.buffers ++ [buffer] }
  | detached {conn : Nat} : o.channel.peer = some conn →
      Effect o (.detach conn) none { o with channel := o.channel.dropPeer }
  | sent {msg : Json} {c : HubChannel} : o.channel.send msg = .ok c →
      Effect o (.send msg) none { o with
        channel := c
        accepted := o.accepted ++ [(o.channel.peer, msg)] }
  | closed : o.channel.closed = false →
      Effect o .close none { o with channel := o.channel.shut }
  | read {place : Nat} {q : Queue} : o.channel.queues[place]? = some q →
      Effect o (.read place) none { o with
        channel := o.channel.setFrames place q.frames.tail
        read := o.read ++ (q.frames.take 1).map (Prod.mk place) }
  | stopped (place : Nat) :
      Effect o (.stopReading place) none { o with channel := o.channel.stopReading (place + 1) }
  | nothing {m : ChannelMove} : o.Idle m → Effect o m none o

end Observed

/-- `q'` is `q`, but its sender may be gone, or its reader with all that waited for it. -/
structure Queue.Rests (q q' : Queue) : Prop where
  capacity : q'.capacity = q.capacity
  frames : q'.hasReader = true → q.hasReader = true ∧ q'.frames = q.frames
  room : q'.frames.length ≤ q.frames.length
  sender : q.hasSender = false → q'.hasSender = false

namespace Queue.Rests

theorem refl (q : Queue) : Rests q q := ⟨rfl, fun h => ⟨h, rfl⟩, Nat.le_refl _, fun h => h⟩

theorem ofSender (q : Queue) : Rests q { q with hasSender := false } :=
  ⟨rfl, fun h => ⟨h, rfl⟩, Nat.le_refl _, fun _ => rfl⟩

end Queue.Rests

namespace HubChannel

theorem openFrame_of_face {c c' : HubChannel} (h : c'.face = c.face) :
    c'.openFrame = c.openFrame := by
  simp only [face, HubChannel.mk.injEq, and_true] at h
  simp only [openFrame, h]

theorem shut_openFrame (c : HubChannel) : c.shut.openFrame = c.openFrame := by
  cases h : c.closed with
  | true => rw [shut_of_closed h]
  | false =>
    have hf := shut_face_of_open h
    simp only [face, HubChannel.mk.injEq] at hf
    simp only [openFrame, hf]

theorem stopReading_queues (c : HubChannel) (place other : Nat) :
    (c.stopReading (place + 1)).queues[other]? = if place = other then
      (c.queues[other]?).map (fun q => { q with hasReader := false, frames := [] })
    else c.queues[other]? := by
  simp only [stopReading, updateQueue, Nat.add_sub_cancel, List.getElem?_modify]
  split <;> simp

theorem stopReading_length (c : HubChannel) (conn : Nat) :
    (c.stopReading conn).queues.length = c.queues.length := by
  simp [stopReading, updateQueue]

theorem rests_stopReading {c : HubChannel} {place other : Nat} {q' : Queue}
    (hq' : (c.stopReading (place + 1)).queues[other]? = some q') :
    ∃ q, c.queues[other]? = some q ∧ q.Rests q' ∧ q'.hasSender = q.hasSender := by
  rw [stopReading_queues] at hq'
  split at hq'
  next =>
    obtain ⟨q, hq, rfl⟩ := Option.map_eq_some_iff.mp hq'
    exact ⟨q, hq, ⟨rfl, (fun h => nomatch h), Nat.zero_le _, fun h => h⟩, rfl⟩
  next => exact ⟨q', hq', .refl q', rfl⟩

namespace Sound

variable {c : HubChannel}

theorem stopReading (h : c.Sound) (place : Nat) : (c.stopReading (place + 1)).Sound := by
  refine ⟨fun q' hq' => ?_, fun conn hp => ?_, fun other q' hq' => ?_, h.closed⟩
  · obtain ⟨n, hn⟩ := List.mem_iff_getElem?.mp hq'
    obtain ⟨q, hq, hrests, _⟩ := rests_stopReading hn
    rw [hrests.capacity]
    exact h.capacity q (List.mem_of_getElem? hq)
  · rw [stopReading_length]
    exact h.peer conn hp
  · obtain ⟨q, hq, _, hsender⟩ := rests_stopReading hq'
    rw [hsender]
    exact h.sender other q hq

theorem rests_dropPeer (h : c.Sound) {place : Nat} {q' : Queue}
    (hq' : c.dropPeer.queues[place]? = some q') : ∃ q, c.queues[place]? = some q ∧ q.Rests q' := by
  rw [h.dropPeer_queues] at hq'
  obtain ⟨q, hq, rfl⟩ := Option.map_eq_some_iff.mp hq'
  exact ⟨q, hq, .ofSender q⟩

/-- The peer of a channel has a queue, and the channel sends to it. -/
theorem peer_queue (h : c.Sound) {conn : Nat} (hp : c.peer = some conn) :
    ∃ place q, conn = place + 1 ∧ c.queues[place]? = some q ∧ q.hasSender = true := by
  obtain ⟨hpos, hlength⟩ := h.peer conn hp
  have hlt : conn - 1 < c.queues.length := by omega
  have hconn : conn = conn - 1 + 1 := by omega
  have hq := List.getElem?_eq_getElem hlt
  exact ⟨conn - 1, _, hconn, hq, (h.sender _ _ hq).mpr (hconn ▸ hp)⟩

end Sound

end HubChannel

namespace Observed

/-- What the queue `q` at `place` holds goes together with what was seen. The frame that tells of the
end is queued only when the sender goes. -/
structure Due (opening : Json) (o : Observed) (place : Nat) (q : Queue) : Prop where
  capacity : ∀ buffer, o.buffers[place]? = some buffer → q.capacity = max buffer 1
  room : q.frames.length ≤ q.capacity
  stream : q.hasReader = true → ∃ last : List Frame,
    (last = [] ∨ last = [.close] ∧ q.hasSender = false) ∧ o.readBy place ++ q.frames =
      Frame.message opening :: (o.acceptedBy (place + 1)).map Frame.message ++ last

/-- All queues of a channel go together with what was seen of it. -/
structure Streams (opening : Json) (o : Observed) : Prop where
  sound : o.channel.Sound
  frame : o.channel.openFrame = opening
  buffers : o.buffers.length = o.channel.queues.length
  due : ∀ (place : Nat) (q : Queue), o.channel.queues[place]? = some q → o.Due opening place q
  unused : ∀ place : Nat, o.channel.queues.length ≤ place →
    o.readBy place = [] ∧ o.acceptedBy (place + 1) = []

variable {opening : Json} {o : Observed} {place : Nat} {q : Queue}

theorem readBy_append (o : Observed) (c : HubChannel) (other : Nat) (frames : List Frame) :
    readBy { o with channel := c, read := o.read ++ frames.map (Prod.mk other) } place =
      o.readBy place ++ if other = place then frames else [] := by
  have hmap : ∀ l : List Frame, ((l.map (Prod.mk other)).filter (fun e => e.1 = place)).map
      Prod.snd = if other = place then l else [] := by
    intro l
    induction l with
    | nil => simp
    | cons f l ih => by_cases h : other = place <;> simp_all
  rw [readBy, List.filter_append, List.map_append, hmap]
  rfl

theorem readBy_concat (reads : List (Nat × Frame)) (c : HubChannel) (other : Nat) (f : Frame) :
    readBy { o with channel := c, read := reads ++ [(place, f)] } other =
      readBy { o with read := reads } other ++ if place = other then [f] else [] :=
  readBy_append { o with read := reads } c place [f]

theorem step_read (hq : o.channel.queues[place]? = some q) : o.step (.read place) = { o with
    channel := o.channel.setFrames place q.frames.tail
    read := o.read ++ (q.frames.take 1).map (Prod.mk place) } := by
  have hread : o.channel.read (place + 1) = _ := HubChannel.read_eq hq
  simp only [step, hread, Nat.add_sub_cancel]
  cases hf : q.frames with
  | cons f frames => simp [Queue.pop, hf]
  | nil => cases hs : q.hasSender <;> simp [Queue.pop, hf, hs]

theorem step_effect (o : Observed) (m : ChannelMove) : o.Effect m (o.attached m) (o.step m) := by
  cases m with
  | attach buffer =>
    simp only [attached, step, HubChannel.attach_eq]
    by_cases hc : o.channel.closed = true
    · simp only [hc, if_true]
      exact .nothing (.inl hc)
    · by_cases hb : Queue.maxCapacity < max buffer 1
      · simp only [hc, hb, if_true]
        exact .nothing (.inr hb)
      · simp only [hc, hb, if_false]
        exact .attached (eq_false_of_ne_true hc) (Nat.not_lt.mp hb)
  | detach conn =>
    simp only [attached, step, HubChannel.detach]
    by_cases hp : o.channel.peer = some conn
    · rw [if_pos hp]
      exact .detached hp
    · rw [if_neg hp]
      exact .nothing hp
  | send msg =>
    simp only [attached, step]
    cases hs : o.channel.send msg with
    | ok c => exact .sent hs
    | error e => exact .nothing ⟨e, hs⟩
  | close =>
    simp only [attached, step]
    cases hs : o.channel.close with
    | ok c =>
      obtain ⟨hopen, rfl⟩ := HubChannel.close_ok_iff.mp hs
      exact .closed hopen
    | error e =>
      cases hc : o.channel.closed with
      | true => exact .nothing hc
      | false => cases hs.symm.trans (HubChannel.close_ok_iff.mpr ⟨hc, rfl⟩)
  | read place =>
    cases hq : o.channel.queues[place]? with
    | some q =>
      rw [step_read hq]
      exact .read hq
    | none =>
      simp only [attached, step, HubChannel.read, Nat.add_sub_cancel, hq]
      exact .nothing hq
  | stopReading place => exact .stopped place

theorem acceptedBy_concat (accepted : List (Option Nat × Json)) (c : HubChannel) (conn other : Nat)
    (msg : Json) :
    acceptedBy { o with channel := c, accepted := accepted ++ [(some conn, msg)] } other =
      acceptedBy { o with accepted } other ++ if conn = other then [msg] else [] := by
  simp only [acceptedBy, List.filter_append, List.map_append]
  by_cases h : conn = other <;> simp [h]

namespace Due

theorem rests {q' : Queue} (h : o.Due opening place q) (hr : q.Rests q') (c : HubChannel) :
    Due opening { o with channel := c } place q' := by
  refine ⟨fun buffer hb => hr.capacity.trans (h.capacity buffer hb), ?_, fun hreader => ?_⟩
  · rw [hr.capacity]
    exact Nat.le_trans hr.room h.room
  · obtain ⟨hreader', hframes⟩ := hr.frames hreader
    obtain ⟨last, hlast, hstream⟩ := h.stream hreader'
    exact ⟨last, hlast.imp_right (And.imp_right hr.sender), by rw [hframes]; exact hstream⟩

/-- The queue of a connection that has just come. -/
theorem attach (buffer : Nat) (hb : o.buffers.length = place)
    (hu : o.readBy place = [] ∧ o.acceptedBy (place + 1) = []) (c : HubChannel) :
    Due opening { o with channel := c, buffers := o.buffers ++ [buffer] } place
      { capacity := max buffer 1, frames := [.message opening] } := by
  subst hb
  refine ⟨fun b hb => ?_, Nat.le_max_right _ _, fun _ => ⟨[], .inl rfl, ?_⟩⟩
  · rw [List.getElem?_concat_length] at hb
    cases Option.some.inj hb
    rfl
  · change o.readBy _ ++ _ = _ :: (o.acceptedBy _).map _ ++ _
    rw [hu.1, hu.2]
    rfl

theorem older (h : o.Due opening place q) (buffer : Nat) (hlt : place < o.buffers.length)
    (c : HubChannel) :
    Due opening { o with channel := c, buffers := o.buffers ++ [buffer] } place q := by
  refine ⟨fun b hb => h.capacity b ?_, h.room, h.stream⟩
  rwa [List.getElem?_append_left hlt] at hb

/-- As long as the channel sends to a queue, it has not told of the end there. -/
theorem accept (h : o.Due opening place q) (hs : q.hasSender = true)
    (hroom : q.frames.length < q.capacity) (msg : Json) (c : HubChannel) :
    Due opening { o with channel := c, accepted := o.accepted ++ [(some (place + 1), msg)] } place
      { q with frames := q.frames ++ [.message msg] } := by
  refine ⟨h.capacity, ?_, fun hr => ⟨[], .inl rfl, ?_⟩⟩
  · rw [List.length_append, List.length_singleton]
    exact hroom
  · obtain ⟨last, rfl | ⟨_, hgone⟩, hstream⟩ := h.stream hr
    · rw [acceptedBy_concat, if_pos rfl, List.map_append, ← List.append_assoc]
      change o.readBy place ++ q.frames ++ _ = _
      rw [hstream]
      simp
    · cases hgone.symm.trans hs

theorem accept_other (h : o.Due opening place q) {conn : Nat} (hne : conn ≠ place + 1) (msg : Json)
    (c : HubChannel) :
    Due opening { o with channel := c, accepted := o.accepted ++ [(some conn, msg)] } place q := by
  refine ⟨h.capacity, h.room, fun hr => ?_⟩
  rw [acceptedBy_concat, if_neg hne, List.append_nil]
  exact h.stream hr

theorem told (h : o.Due opening place q) (hs : q.hasSender = true)
    (hroom : q.frames.length < q.capacity) (c : HubChannel) :
    Due opening { o with channel := c } place
      { q with frames := q.frames ++ [.close], hasSender := false } := by
  refine ⟨h.capacity, ?_, fun hr => ⟨[.close], .inr ⟨rfl, rfl⟩, ?_⟩⟩
  · rw [List.length_append, List.length_singleton]
    exact hroom
  · obtain ⟨last, rfl | ⟨_, hgone⟩, hstream⟩ := h.stream hr
    · rw [← List.append_assoc]
      change o.readBy place ++ q.frames ++ _ = _
      rw [hstream, List.append_nil]
      rfl
    · cases hgone.symm.trans hs

theorem take {f : Frame} {frames : List Frame} (h : o.Due opening place q)
    (hf : q.frames = f :: frames) (c : HubChannel) :
    Due opening { o with channel := c, read := o.read ++ [(place, f)] } place { q with frames } := by
  have hroom := h.room
  rw [hf, List.length_cons] at hroom
  refine ⟨h.capacity, Nat.le_of_succ_le hroom, fun hr => ?_⟩
  obtain ⟨last, hlast, hstream⟩ := h.stream hr
  refine ⟨last, hlast, ?_⟩
  rw [readBy_concat, if_pos rfl, List.append_assoc, List.singleton_append, ← hf]
  exact hstream

theorem take_other (h : o.Due opening place q) {other : Nat} (hne : other ≠ place) (f : Frame)
    (c : HubChannel) :
    Due opening { o with channel := c, read := o.read ++ [(other, f)] } place q := by
  refine ⟨h.capacity, h.room, fun hr => ?_⟩
  rw [readBy_concat, if_neg hne, List.append_nil]
  exact h.stream hr

end Due

namespace Streams

variable {c' : HubChannel}

theorem start (id target : String) (opened : Json) (handler : Option Handler) :
    Streams (HubChannel.openFrame { id, target, opening := opened, handler })
      { channel := { id, target, opening := opened, handler } } := by
  refine ⟨⟨?_, ?_, ?_, ?_⟩, rfl, rfl, ?_, fun place _ => ⟨rfl, rfl⟩⟩
  all_goals simp

theorem rests (h : o.Streams opening) (hs : c'.Sound) (hframe : c'.openFrame = o.channel.openFrame)
    (hlength : c'.queues.length = o.channel.queues.length)
    (hq : ∀ (place : Nat) (q' : Queue), c'.queues[place]? = some q' →
      ∃ q, o.channel.queues[place]? = some q ∧ q.Rests q') :
    Streams opening { o with channel := c' } := by
  refine ⟨hs, hframe.trans h.frame, h.buffers.trans hlength.symm, fun place q' hq' => ?_,
    fun place hle => h.unused place (hlength ▸ hle)⟩
  obtain ⟨q, hq, hrests⟩ := hq place q' hq'
  exact (h.due place q hq).rests hrests c'

theorem dropPeer (h : o.Streams opening) : Streams opening { o with channel := o.channel.dropPeer } :=
  h.rests h.sound.dropPeer (HubChannel.openFrame_of_face o.channel.dropPeer_face)
    o.channel.dropPeer_length (fun _ _ hq' => h.sound.rests_dropPeer hq')

theorem attach (h : o.Streams opening) (hopen : o.channel.closed = false) (buffer : Nat) :
    Streams opening { o with
      channel := o.channel.seat (max buffer 1)
      buffers := o.buffers ++ [buffer] } := by
  have hpos : 0 < max buffer 1 := Nat.lt_of_lt_of_le Nat.one_pos (Nat.le_max_right _ _)
  refine ⟨h.sound.seat hopen hpos,
    (HubChannel.openFrame_of_face (o.channel.seat_face _)).trans h.frame, ?_, fun place q hq => ?_,
    fun place hle => ?_⟩
  · rw [HubChannel.seat_length, List.length_append, h.buffers, List.length_singleton]
  · rcases getElem?_concat_cases hq with hold | ⟨hplace, rfl⟩
    · have hlt := (List.getElem?_eq_some_iff.mp hold).1
      rw [HubChannel.dropPeer_length, ← h.buffers] at hlt
      exact (h.dropPeer.due place q hold).older buffer hlt _
    · rw [HubChannel.dropPeer_length] at hplace
      rw [h.frame]
      exact .attach buffer (h.buffers.trans hplace.symm) (h.unused place (Nat.le_of_eq hplace.symm)) _
  · rw [HubChannel.seat_length] at hle
    exact h.unused place (Nat.le_of_succ_le hle)

theorem send (h : o.Streams opening) {msg : Json} (hs : o.channel.send msg = .ok c') :
    Streams opening { o with
      channel := c'
      accepted := o.accepted ++ [(o.channel.peer, msg)] } := by
  obtain ⟨_, conn, q, hp, hq, _, hroom, rfl⟩ := HubChannel.send_ok_iff.mp hs
  obtain ⟨place, q₀, rfl, hq₀, hsender⟩ := h.sound.peer_queue hp
  cases hq.symm.trans hq₀
  have hlt := (List.getElem?_eq_some_iff.mp hq₀).1
  rw [hp]
  refine ⟨h.sound.setFrames _ _, h.frame, by simpa using h.buffers, fun other q' hq' => ?_,
    fun other hle => ?_⟩
  · rw [Nat.add_sub_cancel, HubChannel.setFrames_queues] at hq'
    split at hq'
    next heq =>
      subst heq
      rw [hq₀, Option.map_some] at hq'
      cases Option.some.inj hq'
      exact (h.due place q hq₀).accept hsender hroom msg _
    next hne => exact (h.due other q' hq').accept_other (fun heq => hne (Nat.succ.inj heq)) msg _
  · rw [HubChannel.setFrames_length] at hle
    obtain ⟨hread, haccepted⟩ := h.unused other hle
    refine ⟨hread, ?_⟩
    rw [acceptedBy_concat, if_neg (by omega), List.append_nil]
    exact haccepted

theorem close (h : o.Streams opening) (hopen : o.channel.closed = false) :
    Streams opening { o with channel := o.channel.shut } := by
  refine ⟨h.sound.shut, o.channel.shut_openFrame.trans h.frame,
    h.buffers.trans o.channel.shut_length.symm, fun place q' hq' => ?_,
    fun place hle => h.unused place (o.channel.shut_length ▸ hle)⟩
  obtain ⟨q, hq, rfl | ⟨hsender, hroom, rfl⟩⟩ := h.sound.shut_queues hopen hq'
  · exact (h.due place q hq).rests (.ofSender q) _
  · exact (h.due place q hq).told hsender hroom _

theorem read (h : o.Streams opening) {f : Frame} {frames : List Frame}
    (hq : o.channel.queues[place]? = some q) (hf : q.frames = f :: frames) :
    Streams opening { o with
      channel := o.channel.setFrames place frames
      read := o.read ++ [(place, f)] } := by
  have hlt := (List.getElem?_eq_some_iff.mp hq).1
  refine ⟨h.sound.setFrames _ _, h.frame, by simpa using h.buffers, fun other q' hq' => ?_,
    fun other hle => ?_⟩
  · rw [HubChannel.setFrames_queues] at hq'
    split at hq'
    next heq =>
      subst heq
      rw [hq, Option.map_some] at hq'
      cases Option.some.inj hq'
      exact (h.due place q hq).take hf _
    next hne => exact (h.due other q' hq').take_other hne f _
  · rw [HubChannel.setFrames_length] at hle
    obtain ⟨hread, haccepted⟩ := h.unused other hle
    refine ⟨?_, haccepted⟩
    rw [readBy_concat, if_neg (by omega), List.append_nil]
    exact hread

/-- A connection that finds its queue empty leaves it so. -/
theorem read_empty (h : o.Streams opening) (hq : o.channel.queues[place]? = some q)
    (hf : q.frames = []) : Streams opening { o with channel := o.channel.setFrames place [] } := by
  refine h.rests (h.sound.setFrames _ _) (HubChannel.openFrame_of_face rfl)
    (o.channel.setFrames_length _ _) (fun other q' hq' => ?_)
  rw [HubChannel.setFrames_queues] at hq'
  split at hq'
  next heq =>
    subst heq
    rw [hq, Option.map_some, ← hf] at hq'
    cases Option.some.inj hq'
    exact ⟨q, hq, .refl q⟩
  next => exact ⟨q', hq', .refl q'⟩

theorem effect {m : ChannelMove} {given : Option Nat} {o' : Observed} (h : o.Streams opening)
    (he : o.Effect m given o') : o'.Streams opening := by
  cases he with
  | attached hopen => exact h.attach hopen _
  | detached => exact h.dropPeer
  | sent hs => exact h.send hs
  | closed hopen => exact h.close hopen
  | @read place q hq =>
    cases hf : q.frames with
    | cons f frames => exact h.read hq hf
    | nil =>
      rw [List.take_nil, List.map_nil, List.append_nil]
      exact h.read_empty hq hf
  | stopped place =>
    refine h.rests (h.sound.stopReading place) ?_ (o.channel.stopReading_length _) (fun _ _ hq' => ?_)
    · exact HubChannel.openFrame_of_face rfl
    · obtain ⟨q, hq, hrests, _⟩ := HubChannel.rests_stopReading hq'
      exact ⟨q, hq, hrests⟩
  | nothing => exact h

theorem step (h : o.Streams opening) (m : ChannelMove) : (o.step m).Streams opening :=
  h.effect (o.step_effect m)

theorem run (h : o.Streams opening) (moves : List ChannelMove) : (o.run moves).Streams opening := by
  induction moves generalizing o with
  | nil => exact h
  | cons m moves ih => exact ih (h.step m)

/-- The queue of the peer is full when it holds as many frames as it was made for. -/
theorem full_iff (h : o.Streams opening) {buffer : Nat} (hq : o.channel.queues[place]? = some q)
    (hb : o.buffers[place]? = some buffer) :
    q.capacity ≤ q.frames.length ↔ q.frames.length = max buffer 1 := by
  have hcapacity := (h.due place q hq).capacity buffer hb
  have hroom := (h.due place q hq).room
  omega

theorem buffer_of_queue (h : o.Streams opening) (hq : o.channel.queues[place]? = some q) :
    ∃ buffer, o.buffers[place]? = some buffer := by
  have hlt := (List.getElem?_eq_some_iff.mp hq).1
  rw [← h.buffers] at hlt
  exact ⟨_, List.getElem?_eq_getElem hlt⟩

end Streams

/-- Why a channel does not take a message. -/
inductive Refuses (o : Observed) : ChannelError → Prop
  | closed : o.channel.closed = true → Refuses o (.closed o.channel.id)
  | vacant : o.channel.closed = false → o.channel.peer = none → Refuses o (.detached o.channel.id)
  | unread {place : Nat} {q : Queue} : o.channel.closed = false → o.channel.peer = some (place + 1) →
      o.channel.queues[place]? = some q → q.hasReader = false → Refuses o (.detached o.channel.id)
  | full {place buffer : Nat} {q : Queue} : o.channel.closed = false →
      o.channel.peer = some (place + 1) → o.channel.queues[place]? = some q → q.hasReader = true →
      o.buffers[place]? = some buffer → q.frames.length = max buffer 1 →
      Refuses o (.full o.channel.id)

theorem Streams.send_error_iff (h : o.Streams opening) {msg : Json} {e : ChannelError} :
    o.channel.send msg = .error e ↔ o.Refuses e := by
  constructor
  · intro hs
    cases hc : o.channel.closed with
    | true =>
      simp only [HubChannel.send, hc, if_true, Except.error.injEq] at hs
      exact hs ▸ .closed hc
    | false =>
      cases hp : o.channel.peer with
      | none =>
        simp [HubChannel.send, hc, HubChannel.peerQueue?, hp] at hs
        exact hs ▸ .vacant hc hp
      | some conn =>
        obtain ⟨place, q, rfl, hq, _⟩ := h.sound.peer_queue hp
        obtain ⟨buffer, hb⟩ := h.buffer_of_queue hq
        have hpeer := HubChannel.peerQueue?_eq_some_iff.mpr ⟨hp, hq⟩
        cases hr : q.hasReader with
        | false =>
          simp [HubChannel.send, hc, hpeer, Queue.push, hr] at hs
          exact hs ▸ .unread hc hp hq hr
        | true =>
          by_cases hf : q.capacity ≤ q.frames.length
          · simp [HubChannel.send, hc, hpeer, Queue.push, hr, hf] at hs
            exact hs ▸ .full hc hp hq hr hb ((h.full_iff hq hb).mp hf)
          · simp [HubChannel.send, hc, hpeer, Queue.push, hr, hf] at hs
  · intro hr
    cases hr with
    | closed hc => simp only [HubChannel.send, hc, if_true]
    | vacant hc hp => simp [HubChannel.send, hc, HubChannel.peerQueue?, hp]
    | unread hc hp hq hr =>
      have hpeer := HubChannel.peerQueue?_eq_some_iff.mpr ⟨hp, hq⟩
      simp [HubChannel.send, hc, hpeer, Queue.push, hr]
    | full hc hp hq hr hb hf =>
      have hpeer := HubChannel.peerQueue?_eq_some_iff.mpr ⟨hp, hq⟩
      simp [HubChannel.send, hc, hpeer, Queue.push, hr, (h.full_iff hq hb).mpr hf]

end Observed

end PagedTables
