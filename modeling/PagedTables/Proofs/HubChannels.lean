import PagedTables.Hub
import PagedTables.Proofs.Registry

namespace PagedTables

namespace Queue

/-- A frame is taken as long as the queue is read and has room. -/
theorem push_ok_iff {q q' : Queue} {f : Frame} :
    q.push f = .ok q' ↔ q.hasReader = true ∧ q.frames.length < q.capacity ∧
      q' = { q with frames := q.frames ++ [f] } := by
  unfold push
  cases q.hasReader with
  | false => simp
  | true =>
    by_cases hf : q.capacity ≤ q.frames.length
    · simp [hf, Nat.not_lt.mpr hf]
    · simp [hf, Nat.lt_of_not_le hf, eq_comm]

/-- A read takes the first frame, if there is one, and changes nothing else. -/
theorem pop_queue (q : Queue) : q.pop.2 = { q with frames := q.frames.tail } := by
  obtain ⟨capacity, frames, hasSender, hasReader⟩ := q
  cases frames <;> rfl

/-- The queue is still there, and if the channel had let go of it before, nothing happened to it. -/
def Spared (o o' : Option Queue) : Prop :=
  ∀ q, o = some q → ∃ q', o' = some q' ∧ (q.hasSender = false → q' = q)

theorem Spared.refl (o : Option Queue) : Spared o o := fun q hq => ⟨q, hq, fun _ => rfl⟩

theorem Spared.trans {o o' o'' : Option Queue} (h : Spared o o') (h' : Spared o' o'') :
    Spared o o'' := by
  intro q hq
  obtain ⟨q', hq', heq⟩ := h q hq
  obtain ⟨q'', hq'', heq'⟩ := h' q' hq'
  refine ⟨q'', hq'', fun hs => ?_⟩
  cases heq hs
  exact heq' hs

end Queue

namespace HubChannel

/-- What a viewer's connection has no part in. -/
def face (c : HubChannel) : HubChannel := { c with peer := none, queues := [] }

def setFrames (c : HubChannel) (place : Nat) (frames : List Frame) : HubChannel :=
  { c with queues := c.queues.modify place (fun q => { q with frames }) }

/-- The channel after it was told to close, whether or not it was open. -/
def shut (c : HubChannel) : HubChannel :=
  match c.close with
  | .ok c => c
  | .error _ => c

/-- The channel with a new connection. -/
def seat (c : HubChannel) (capacity : Nat) : HubChannel :=
  { c.dropPeer with
    peer := some (c.queues.length + 1)
    queues := c.dropPeer.queues ++ [{ capacity, frames := [.message c.openFrame] }] }

/-- Only the newest connection can be the peer, and the channel sends to no other queue than that of
its peer. -/
structure Sound (c : HubChannel) : Prop where
  capacity : ∀ q ∈ c.queues, 0 < q.capacity
  peer : ∀ conn, c.peer = some conn → 0 < conn ∧ conn = c.queues.length
  sender : ∀ (place : Nat) (q : Queue), c.queues[place]? = some q →
    (q.hasSender = true ↔ c.peer = some (place + 1))
  closed : c.closed = true → c.peer = none

/-- Every connection still reads its queue. -/
def Heard (c : HubChannel) : Prop := ∀ q ∈ c.queues, q.hasReader = true

theorem setFrames_face (c : HubChannel) (place : Nat) (frames : List Frame) :
    (c.setFrames place frames).face = c.face := rfl

@[simp] theorem setFrames_length (c : HubChannel) (place : Nat) (frames : List Frame) :
    (c.setFrames place frames).queues.length = c.queues.length := by
  simp [setFrames]

theorem setFrames_queues (c : HubChannel) (place other : Nat) (frames : List Frame) :
    (c.setFrames place frames).queues[other]? = if place = other then
      (c.queues[other]?).map (fun q => { q with frames }) else c.queues[other]? := by
  simp only [setFrames, List.getElem?_modify]
  split <;> simp

theorem setFrames_setFrames (c : HubChannel) (place : Nat) (frames frames' : List Frame) :
    (c.setFrames place frames).setFrames place frames' = c.setFrames place frames' := by
  simp only [setFrames, List.modify_modify_eq]
  rfl

/-- A change of a queue's frames is the same as putting another queue in its place. -/
theorem setQueue_eq_setFrames {c : HubChannel} {conn : Nat} {q : Queue} (frames : List Frame)
    (hq : c.queues[conn - 1]? = some q) :
    c.setQueue conn { q with frames } = c.setFrames (conn - 1) frames := by
  simp only [setQueue, updateQueue, setFrames]
  congr 1
  apply modify_congr
  intro q' hq'
  cases hq.symm.trans hq'
  rfl

theorem dropPeer_face (c : HubChannel) : c.dropPeer.face = c.face := by
  unfold dropPeer
  split <;> rfl

@[simp] theorem dropPeer_peer (c : HubChannel) : c.dropPeer.peer = none := by
  unfold dropPeer
  split
  next h => exact h
  next => rfl

@[simp] theorem dropPeer_closed (c : HubChannel) : c.dropPeer.closed = c.closed := by
  unfold dropPeer
  split <;> rfl

@[simp] theorem dropPeer_length (c : HubChannel) :
    c.dropPeer.queues.length = c.queues.length := by
  unfold dropPeer
  split
  next => rfl
  next => simp [updateQueue]

/-- What was queued for the peer stays in its queue. -/
theorem dropPeer_frames {c : HubChannel} {place : Nat} {q' : Queue}
    (hq' : c.dropPeer.queues[place]? = some q') :
    ∃ q, c.queues[place]? = some q ∧ q'.frames = q.frames := by
  unfold dropPeer at hq'
  split at hq'
  next => exact ⟨q', hq', rfl⟩
  next =>
    rw [updateQueue, List.getElem?_modify] at hq'
    obtain ⟨q, hq, rfl⟩ := Option.map_eq_some_iff.mp hq'
    refine ⟨q, hq, ?_⟩
    split <;> rfl

theorem mem_setFrames {c : HubChannel} {place : Nat} {frames : List Frame} {q : Queue}
    (h : q ∈ (c.setFrames place frames).queues) :
    ∃ q' ∈ c.queues, q'.capacity = q.capacity ∧ q'.hasReader = q.hasReader := by
  obtain ⟨n, hn⟩ := List.mem_iff_getElem?.mp h
  rw [setFrames_queues] at hn
  split at hn
  next =>
    obtain ⟨q', hq', rfl⟩ := Option.map_eq_some_iff.mp hn
    exact ⟨q', List.mem_of_getElem? hq', rfl, rfl⟩
  next => exact ⟨q, List.mem_of_getElem? hn, rfl, rfl⟩

theorem Heard.setFrames {c : HubChannel} (h : c.Heard) (place : Nat) (frames : List Frame) :
    (c.setFrames place frames).Heard := by
  intro q hq
  obtain ⟨q', hq', _, hreader⟩ := mem_setFrames hq
  exact hreader.symm.trans (h q' hq')

namespace Sound

variable {c : HubChannel}

theorem setFrames (h : c.Sound) (place : Nat) (frames : List Frame) :
    (c.setFrames place frames).Sound := by
  refine ⟨?_, fun conn hp => ?_, ?_, h.closed⟩
  · intro q hq
    obtain ⟨q', hq', hcapacity, _⟩ := mem_setFrames hq
    exact hcapacity ▸ h.capacity q' hq'
  · rw [setFrames_length]
    exact h.peer conn hp
  · intro n q hn
    rw [setFrames_queues] at hn
    split at hn
    next =>
      obtain ⟨q', hq', rfl⟩ := Option.map_eq_some_iff.mp hn
      exact h.sender n q' hq'
    next => exact h.sender n q hn

/-- Without a peer the channel sends to no queue at all. -/
theorem dropPeer_queues (h : c.Sound) (place : Nat) :
    c.dropPeer.queues[place]? =
      (c.queues[place]?).map (fun q => { q with hasSender := false }) := by
  cases hq : c.queues[place]? with
  | none => simpa using hq
  | some q =>
    have hs := h.sender place q hq
    unfold dropPeer
    split
    next hp =>
      have hf : q.hasSender = false := by simpa [hp] using hs
      rw [hq, Option.map_some, ← hf]
    next conn hp =>
      by_cases hn : conn - 1 = place
      · simp [updateQueue, hq, hn]
      · have hne : ¬ conn = place + 1 := by omega
        have hf : q.hasSender = false := by simpa [hp, hne] using hs
        simp [updateQueue, hq, hn, ← hf]

theorem mem_dropPeer (h : c.Sound) {q : Queue} (hq : q ∈ c.dropPeer.queues) :
    ∃ q' ∈ c.queues, q'.capacity = q.capacity ∧ q'.hasReader = q.hasReader := by
  obtain ⟨n, hn⟩ := List.mem_iff_getElem?.mp hq
  rw [h.dropPeer_queues] at hn
  obtain ⟨q', hq', rfl⟩ := Option.map_eq_some_iff.mp hn
  exact ⟨q', List.mem_of_getElem? hq', rfl, rfl⟩

theorem dropPeer (h : c.Sound) : c.dropPeer.Sound := by
  refine ⟨?_, ?_, ?_, fun _ => dropPeer_peer c⟩
  · intro q hq
    obtain ⟨q', hq', hcapacity, _⟩ := h.mem_dropPeer hq
    exact hcapacity ▸ h.capacity q' hq'
  · intro conn hp
    simp [dropPeer_peer] at hp
  · intro n q hn
    rw [h.dropPeer_queues] at hn
    obtain ⟨q', _, rfl⟩ := Option.map_eq_some_iff.mp hn
    simp [dropPeer_peer]

end Sound

theorem Heard.dropPeer {c : HubChannel} (hh : c.Heard) (h : c.Sound) : c.dropPeer.Heard := by
  intro q hq
  obtain ⟨q', hq', _, hreader⟩ := h.mem_dropPeer hq
  exact hreader.symm.trans (hh q' hq')

theorem attach_eq (c : HubChannel) (buffer : Nat) :
    c.attach buffer = if c.closed then .refused
      else if Queue.maxCapacity < max buffer 1 then .overCapacity
      else .attached (c.queues.length + 1) (c.seat (max buffer 1)) := rfl

/-- A connection gets a place at an open channel when its queue is not too long. It has the number
after those of all connections before it. -/
theorem attach_ok_iff {c c' : HubChannel} {buffer conn : Nat} :
    c.attach buffer = .attached conn c' ↔ c.closed = false ∧ max buffer 1 ≤ Queue.maxCapacity ∧
      conn = c.queues.length + 1 ∧ c' = c.seat (max buffer 1) := by
  rw [attach_eq]
  split
  next hc => simp [hc]
  next hc =>
    have hopen : c.closed = false := by simpa using hc
    split
    next hb =>
      have hnot : ¬ max buffer 1 ≤ Queue.maxCapacity := Nat.not_le.mpr hb
      simp only [reduceCtorEq, hnot, false_and, and_false]
    next hb =>
      have hle : max buffer 1 ≤ Queue.maxCapacity := Nat.not_lt.mp hb
      simp only [Attached.attached.injEq, hopen, hle, true_and]
      exact and_congr eq_comm eq_comm

theorem seat_face (c : HubChannel) (capacity : Nat) : (c.seat capacity).face = c.face :=
  dropPeer_face c

@[simp] theorem seat_length (c : HubChannel) (capacity : Nat) :
    (c.seat capacity).queues.length = c.queues.length + 1 := by
  simp [seat]

/-- The queue of a new connection begins with the opening of the channel. -/
theorem seat_newest (c : HubChannel) (capacity : Nat) :
    (c.seat capacity).queues[c.queues.length]? =
      some { capacity, frames := [.message c.openFrame] } := by
  simp [seat]

theorem seat_older (c : HubChannel) (capacity : Nat) {place : Nat} (h : place < c.queues.length) :
    (c.seat capacity).queues[place]? = c.dropPeer.queues[place]? := by
  simp [seat, List.getElem?_append, h]

theorem mem_seat {c : HubChannel} {capacity : Nat} {q : Queue} (h : q ∈ (c.seat capacity).queues) :
    q ∈ c.dropPeer.queues ∨ q = { capacity, frames := [.message c.openFrame] } := by
  simpa [seat] using h

/-- The new connection is the peer, and the channel lets go of the one before it. -/
theorem Sound.seat {c : HubChannel} (h : c.Sound) (hc : c.closed = false) {capacity : Nat}
    (hpos : 0 < capacity) : (c.seat capacity).Sound := by
  refine ⟨?_, ?_, ?_, ?_⟩
  · intro q hq
    rcases mem_seat hq with hq | rfl
    · exact h.dropPeer.capacity q hq
    · exact hpos
  · intro conn hp
    cases Option.some.inj hp
    exact ⟨Nat.succ_pos _, (seat_length c capacity).symm⟩
  · intro place q hq
    have hlt := (List.getElem?_eq_some_iff.mp hq).1
    rw [seat_length] at hlt
    by_cases hn : place < c.queues.length
    · rw [seat_older c capacity hn] at hq
      have hs := h.dropPeer.sender place q hq
      simp only [dropPeer_peer, reduceCtorEq, iff_false] at hs
      have hne : ¬ c.queues.length = place := by omega
      simp [hs, HubChannel.seat, hne]
    · have heq : place = c.queues.length := by omega
      subst heq
      rw [seat_newest] at hq
      cases Option.some.inj hq
      simp [HubChannel.seat]
  · intro hclosed
    have hf : (c.seat capacity).closed = c.closed := dropPeer_closed c
    simp [hf, hc] at hclosed

theorem Heard.seat {c : HubChannel} (hh : c.Heard) (h : c.Sound) (capacity : Nat) :
    (c.seat capacity).Heard := by
  intro q hq
  rcases mem_seat hq with hq | rfl
  · exact hh.dropPeer h q hq
  · rfl

theorem peerQueue?_eq_some_iff {c : HubChannel} {conn : Nat} {q : Queue} :
    c.peerQueue? = some (conn, q) ↔ c.peer = some conn ∧ c.queues[conn - 1]? = some q := by
  simp only [peerQueue?, Option.bind_eq_bind, Option.pure_def, Option.bind_eq_some_iff,
    Option.some.injEq, Prod.mk.injEq]
  constructor
  · rintro ⟨conn', hp, q', hq, rfl, rfl⟩
    exact ⟨hp, hq⟩
  · rintro ⟨hp, hq⟩
    exact ⟨conn, hp, q, hq, rfl, rfl⟩

/-- A message is taken for the peer alone, as long as it reads its queue and there is room. -/
theorem send_ok_iff {c c' : HubChannel} {v : Json} :
    c.send v = .ok c' ↔ c.closed = false ∧ ∃ conn q, c.peer = some conn ∧
      c.queues[conn - 1]? = some q ∧ q.hasReader = true ∧ q.frames.length < q.capacity ∧
      c' = c.setFrames (conn - 1) (q.frames ++ [.message v]) := by
  unfold send
  cases hc : c.closed with
  | true => simp
  | false =>
    simp only [Bool.false_eq_true, ↓reduceIte, true_and]
    cases hp : c.peerQueue? with
    | none =>
      simp only [reduceCtorEq, false_iff]
      rintro ⟨conn, q, hpeer, hq, _⟩
      exact Option.some_ne_none _ ((peerQueue?_eq_some_iff.mpr ⟨hpeer, hq⟩).symm.trans hp)
    | some p =>
      obtain ⟨conn, q⟩ := p
      obtain ⟨hpeer, hq⟩ := peerQueue?_eq_some_iff.mp hp
      constructor
      · intro h
        cases hpush : q.push (.message v) with
        | error e => cases e <;> simp [hpush] at h
        | ok q' =>
          obtain ⟨hr, hf, rfl⟩ := Queue.push_ok_iff.mp hpush
          simp only [hpush, Except.ok.injEq] at h
          exact ⟨conn, q, hpeer, hq, hr, hf, by rw [← h, setQueue_eq_setFrames _ hq]⟩
      · rintro ⟨conn', q', hpeer', hq', hr, hf, rfl⟩
        cases hpeer.symm.trans hpeer'
        cases hq.symm.trans hq'
        simp only [Queue.push_ok_iff.mpr ⟨hr, hf, rfl⟩, setQueue_eq_setFrames _ hq]

theorem read_eq {c : HubChannel} {conn : Nat} {q : Queue} (hq : c.queues[conn - 1]? = some q) :
    c.read conn = some (q.pop.1, c.setFrames (conn - 1) q.frames.tail) := by
  simp only [read, hq]
  rw [← setQueue_eq_setFrames _ hq, ← Queue.pop_queue]

/-- The channel with the last frame for its peer, when the queue has room for it. -/
def tell (c : HubChannel) : HubChannel :=
  match c.peerQueue? with
  | none => c
  | some (conn, queue) =>
    match queue.push .close with
    | .ok queue => c.setQueue conn queue
    | .error _ => c

theorem close_eq (c : HubChannel) : c.close = if c.closed then .error (.closed c.id)
    else .ok { c.tell.dropPeer with closed := true, handler := none } := rfl

/-- The last frame is queued only for a peer whose queue has room for it. -/
theorem tell_cases (c : HubChannel) : c.tell = c ∨ ∃ conn q, c.peer = some conn ∧
    c.queues[conn - 1]? = some q ∧ q.frames.length < q.capacity ∧
    c.tell = c.setFrames (conn - 1) (q.frames ++ [.close]) := by
  unfold tell
  split
  next => exact .inl rfl
  next conn q hp =>
    obtain ⟨hpeer, hq⟩ := peerQueue?_eq_some_iff.mp hp
    split
    next q' hpush =>
      obtain ⟨_, hroom, rfl⟩ := Queue.push_ok_iff.mp hpush
      exact .inr ⟨conn, q, hpeer, hq, hroom, setQueue_eq_setFrames _ hq⟩
    next => exact .inl rfl

theorem tell_face (c : HubChannel) : c.tell.face = c.face := by
  rcases tell_cases c with h | ⟨conn, q, _, _, _, h⟩
  · rw [h]
  · rw [h, setFrames_face]

/-- A channel closes when it is open, whatever its queue is like. -/
theorem close_ok_iff {c c' : HubChannel} :
    c.close = .ok c' ↔ c.closed = false ∧ c' = c.shut := by
  unfold shut
  rw [close_eq]
  cases c.closed <;> simp [eq_comm]

/-- A channel that has closed says so when it is told again. -/
theorem close_again {c c' : HubChannel} (h : c.close = .ok c') :
    c'.close = .error (.closed c'.id) := by
  rw [close_eq] at h
  split at h
  next => cases h
  next =>
    cases h
    simp [close_eq]

theorem shut_of_closed {c : HubChannel} (h : c.closed = true) : c.shut = c := by
  simp [shut, close_eq, h]

theorem shut_of_open {c : HubChannel} (h : c.closed = false) :
    c.shut = { c.tell.dropPeer with closed := true, handler := none } := by
  simp [shut, close_eq, h]

/-- Apart from its connections, an open channel that is shut is closed then and has no handler. -/
theorem shut_face_of_open {c : HubChannel} (h : c.closed = false) :
    c.shut.face = { c.face with closed := true, handler := none } := by
  rw [shut_of_open h]
  have hf : c.tell.dropPeer.face = c.face := (dropPeer_face c.tell).trans (tell_face c)
  rw [← hf]
  rfl

/-- A queue gets at most one frame more when its channel is told to close. -/
theorem shut_frames {c : HubChannel} {place : Nat} {q' : Queue}
    (hq' : c.shut.queues[place]? = some q') : ∃ q, c.queues[place]? = some q ∧
      (q'.frames = q.frames ∨ q'.frames = q.frames ++ [.close]) := by
  cases hc : c.closed with
  | true =>
    rw [shut_of_closed hc] at hq'
    exact ⟨q', hq', .inl rfl⟩
  | false =>
    rw [shut_of_open hc] at hq'
    obtain ⟨q₁, hq₁, hf⟩ := dropPeer_frames (c := c.tell) hq'
    rcases tell_cases c with heq | ⟨conn, q, _, hq, _, heq⟩
    · exact ⟨q₁, heq ▸ hq₁, .inl hf⟩
    · rw [heq, setFrames_queues] at hq₁
      split at hq₁
      next hplace =>
        rw [← hplace, hq, Option.map_some] at hq₁
        cases Option.some.inj hq₁
        exact ⟨q, hplace ▸ hq, .inr hf⟩
      next => exact ⟨q₁, hq₁, .inl hf⟩

@[simp] theorem shut_length (c : HubChannel) : c.shut.queues.length = c.queues.length := by
  have htell : c.tell.queues.length = c.queues.length := by
    rcases tell_cases c with h | ⟨conn, q, _, _, _, h⟩
    · rw [h]
    · rw [h, setFrames_length]
  cases h : c.closed with
  | true => rw [shut_of_closed h]
  | false => rw [shut_of_open h, dropPeer_length, htell]

@[simp] theorem shut_closed (c : HubChannel) : c.shut.closed = true := by
  cases h : c.closed with
  | true => rw [shut_of_closed h, h]
  | false => rw [shut_of_open h]

theorem tell_sound {c : HubChannel} (h : c.Sound) : c.tell.Sound := by
  rcases tell_cases c with heq | ⟨conn, q, _, _, _, heq⟩
  · rwa [heq]
  · rw [heq]
    exact h.setFrames _ _

theorem tell_heard {c : HubChannel} (h : c.Heard) : c.tell.Heard := by
  rcases tell_cases c with heq | ⟨conn, q, _, _, _, heq⟩
  · rwa [heq]
  · rw [heq]
    exact h.setFrames _ _

theorem Sound.shut {c : HubChannel} (h : c.Sound) : c.shut.Sound := by
  cases hc : c.closed with
  | true => rwa [shut_of_closed hc]
  | false =>
    have hd := (tell_sound h).dropPeer
    rw [shut_of_open hc]
    exact ⟨hd.capacity, hd.peer, hd.sender, fun _ => dropPeer_peer _⟩

theorem Heard.shut {c : HubChannel} (hh : c.Heard) (h : c.Sound) : c.shut.Heard := by
  cases hc : c.closed with
  | true => rwa [shut_of_closed hc]
  | false =>
    rw [shut_of_open hc]
    exact (tell_heard hh).dropPeer (tell_sound h)

/-- A queue of a channel that was told to close has lost its sender, and has got at most one frame
more. -/
theorem Sound.shut_queues {c : HubChannel} (h : c.Sound) (hopen : c.closed = false) {place : Nat}
    {q' : Queue} (hq' : c.shut.queues[place]? = some q') : ∃ q, c.queues[place]? = some q ∧
      (q' = { q with hasSender := false } ∨ q.hasSender = true ∧ q.frames.length < q.capacity ∧
        q' = { q with frames := q.frames ++ [.close], hasSender := false }) := by
  rw [shut_of_open hopen] at hq'
  have hdrop := (tell_sound h).dropPeer_queues place
  rw [show c.tell.dropPeer.queues[place]? = some q' from hq'] at hdrop
  obtain ⟨q₁, hq₁, rfl⟩ := Option.map_eq_some_iff.mp hdrop.symm
  rcases tell_cases c with heq | ⟨conn, q, hp, hq, hroom, heq⟩
  · exact ⟨q₁, heq ▸ hq₁, .inl rfl⟩
  · rw [heq, setFrames_queues] at hq₁
    split at hq₁
    next hplace =>
      have hpos := (h.peer conn hp).1
      have hsender := (h.sender _ q hq).mpr (by rw [hp, Nat.sub_one_add_one (by omega)])
      rw [← hplace, hq, Option.map_some] at hq₁
      cases Option.some.inj hq₁
      exact ⟨q, hplace ▸ hq, .inr ⟨hsender, hroom, rfl⟩⟩
    next => exact ⟨q₁, hq₁, .inl rfl⟩

/-- A connection that leaves is the peer, or leaves everything as it is. -/
theorem detach_cases (c : HubChannel) (conn : Nat) :
    c.detach conn = c ∨ c.detach conn = c.dropPeer := by
  unfold detach
  split
  · exact .inr rfl
  · exact .inl rfl

section Spared

variable {place : Nat} {c : HubChannel}

theorem spared_setFrames_of_ne {other : Nat} (hne : other ≠ place) (frames : List Frame) :
    Queue.Spared c.queues[place]? (c.setFrames other frames).queues[place]? := by
  rw [setFrames_queues, if_neg hne]
  exact .refl _

/-- The queue of the peer is no queue that the channel has let go of. -/
theorem spared_setFrames_of_peer (hc : c.Sound) {conn : Nat} (hp : c.peer = some conn)
    (frames : List Frame) :
    Queue.Spared c.queues[place]? (c.setFrames (conn - 1) frames).queues[place]? := by
  by_cases hne : conn - 1 = place
  · intro q hq
    refine ⟨{ q with frames }, by rw [setFrames_queues, if_pos hne, hq]; rfl, fun hs => ?_⟩
    have hpos := (hc.peer conn hp).1
    have hconn : conn = place + 1 := by omega
    have hsender := (hc.sender place q hq).mpr (hconn ▸ hp)
    cases hs.symm.trans hsender
  · exact spared_setFrames_of_ne hne frames

/-- The channel lets go of its peer's queue, so of none that it had let go of before. -/
theorem spared_dropPeer (hc : c.Sound) :
    Queue.Spared c.queues[place]? c.dropPeer.queues[place]? := by
  intro q hq
  refine ⟨{ q with hasSender := false }, by rw [hc.dropPeer_queues, hq]; rfl, fun hs => ?_⟩
  rw [← hs]

theorem spared_seat (hc : c.Sound) (capacity : Nat) :
    Queue.Spared c.queues[place]? (c.seat capacity).queues[place]? := by
  intro q hq
  obtain ⟨q', hq', heq⟩ := spared_dropPeer hc q hq
  have hlt := (List.getElem?_eq_some_iff.mp hq).1
  exact ⟨q', by rw [seat_older c capacity hlt, hq'], heq⟩

theorem spared_tell (hc : c.Sound) : Queue.Spared c.queues[place]? c.tell.queues[place]? := by
  rcases tell_cases c with h | ⟨conn, q, hp, _, _, h⟩
  · rw [h]
    exact .refl _
  · rw [h]
    exact spared_setFrames_of_peer hc hp _

/-- The last frame goes to the peer's queue, if to any. -/
theorem spared_shut (hc : c.Sound) : Queue.Spared c.queues[place]? c.shut.queues[place]? := by
  cases hclosed : c.closed with
  | true =>
    rw [shut_of_closed hclosed]
    exact .refl _
  | false =>
    rw [shut_of_open hclosed]
    exact (spared_tell hc).trans (spared_dropPeer (tell_sound hc))

theorem spared_detach (hc : c.Sound) (conn : Nat) :
    Queue.Spared c.queues[place]? (c.detach conn).queues[place]? := by
  rcases detach_cases c conn with h | h
  · rw [h]
    exact .refl _
  · rw [h]
    exact spared_dropPeer hc

end Spared

end HubChannel

end PagedTables
