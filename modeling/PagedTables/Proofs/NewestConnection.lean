import Mathlib.Data.List.Induction
import PagedTables.Proofs.FrameStreams

namespace PagedTables

namespace ChannelMove

/-- Whether a move asks for a connection. -/
def attaches : ChannelMove → Bool
  | .attach _ => true
  | _ => false

/-- Whether a move takes a frame from the queue at `place`. -/
def takesAt (place : Nat) : ChannelMove → Bool
  | .read other => other == place
  | _ => false

end ChannelMove

theorem HubChannel.shut_peer {c : HubChannel} (h : c.Sound) : c.shut.peer = none :=
  h.shut.closed c.shut_closed

namespace Observed

/-- The moves of a run, each with the number of the connection that it attached. -/
def history : Observed → List ChannelMove → List (ChannelMove × Option Nat)
  | _, [] => []
  | o, m :: moves => (m, o.attached m) :: history (o.step m) moves

/-- The numbers of the connections that were attached in a run. -/
def numbers (o : Observed) (moves : List ChannelMove) : List Nat :=
  (o.history moves).filterMap Prod.snd

variable {opening : Json} {o o' : Observed} {m : ChannelMove} {given : Option Nat} {place n : Nat}
  {q : Queue}

namespace Effect

theorem closed_iff (he : o.Effect m given o') :
    o'.channel.closed = true ↔ m = .close ∨ o.channel.closed = true := by
  cases he with
  | attached => simp [HubChannel.seat]
  | detached => simp
  | sent hsend =>
    obtain ⟨_, _, _, _, _, _, _, rfl⟩ := HubChannel.send_ok_iff.mp hsend
    simp [HubChannel.setFrames]
  | closed => simp
  | read => simp [HubChannel.setFrames]
  | stopped => simp [HubChannel.stopReading, HubChannel.updateQueue]
  | nothing h =>
    constructor
    · exact .inr
    · rintro (rfl | hc)
      · exact h
      · exact hc

/-- The peer is the connection that was just attached, or the one of before. -/
theorem peer_iff (hs : o.channel.Sound) (he : o.Effect m given o') {conn : Nat} :
    o'.channel.peer = some conn ↔ given = some conn ∨
      given = none ∧ m ≠ .close ∧ m ≠ .detach conn ∧ o.channel.peer = some conn := by
  cases he with
  | attached => simp [HubChannel.seat]
  | detached hp =>
    simp only [HubChannel.dropPeer_peer, reduceCtorEq, false_or, false_iff]
    rintro ⟨_, _, hne, hp'⟩
    cases hp.symm.trans hp'
    exact hne rfl
  | sent hsend =>
    obtain ⟨_, _, _, _, _, _, _, rfl⟩ := HubChannel.send_ok_iff.mp hsend
    simp [HubChannel.setFrames]
  | closed => simp [HubChannel.shut_peer hs]
  | read => simp [HubChannel.setFrames]
  | stopped => simp [HubChannel.stopReading, HubChannel.updateQueue]
  | nothing h =>
    constructor
    · intro hp
      refine .inr ⟨rfl, ?_, ?_, hp⟩
      · rintro rfl
        cases (hs.closed h).symm.trans hp
      · rintro rfl
        exact h hp
    · rintro (h | ⟨_, _, _, hp⟩)
      · cases h
      · exact hp

theorem open_of_given (he : o.Effect m given o') {conn : Nat} (h : given = some conn) :
    m ≠ .close ∧ o.channel.closed = false := by
  cases he with
  | attached hopen => exact ⟨(fun hm => by cases hm), hopen⟩
  | _ => cases h

/-- Numbers are given out in order, one for each queue. -/
theorem range_queues (he : o.Effect m given o') : List.range' 1 o'.channel.queues.length =
    List.range' 1 o.channel.queues.length ++ given.toList := by
  cases he with
  | attached => rw [HubChannel.seat_length, List.range'_1_concat, Nat.add_comm, Option.toList_some]
  | detached => simp
  | sent hsend =>
    obtain ⟨_, _, _, _, _, _, _, rfl⟩ := HubChannel.send_ok_iff.mp hsend
    simp
  | closed => simp
  | read => simp
  | stopped => simp [HubChannel.stopReading_length]
  | nothing => simp

/-- Only its own reading reaches a queue that the channel has let go of. -/
theorem spared (hs : o.channel.Sound) (he : o.Effect m given o') (hread : m ≠ .read place)
    (hstop : m ≠ .stopReading place) :
    Queue.Spared o.channel.queues[place]? o'.channel.queues[place]? ∧
      o'.readBy place = o.readBy place := by
  cases he with
  | attached => exact ⟨HubChannel.spared_seat hs _, rfl⟩
  | detached => exact ⟨HubChannel.spared_dropPeer hs, rfl⟩
  | sent hsend =>
    obtain ⟨_, conn, q, hp, _, _, _, rfl⟩ := HubChannel.send_ok_iff.mp hsend
    exact ⟨HubChannel.spared_setFrames_of_peer hs hp _, rfl⟩
  | closed => exact ⟨HubChannel.spared_shut hs, rfl⟩
  | @read other q =>
    have hne : other ≠ place := fun heq => hread (heq ▸ rfl)
    refine ⟨HubChannel.spared_setFrames_of_ne hne _, ?_⟩
    rw [readBy_append, if_neg hne, List.append_nil]
  | stopped other =>
    have hne : other ≠ place := fun heq => hstop (heq ▸ rfl)
    refine ⟨?_, rfl⟩
    rw [HubChannel.stopReading_queues, if_neg hne]
    exact .refl _
  | nothing => exact ⟨.refl _, rfl⟩

end Effect

theorem closed_run (hc : o.channel.closed = true) (moves : List ChannelMove) :
    (o.run moves).channel.closed = true := by
  induction moves generalizing o with
  | nil => exact hc
  | cons m moves ih => exact ih ((o.step_effect m).closed_iff.mpr (.inr hc))

/-- The connection at `place` has read `n` frames of `q` since it stood at `o`, and nothing else
happened to its queue. -/
structure Ebbs (place : Nat) (q : Queue) (o : Observed) (n : Nat) (o' : Observed) : Prop where
  queue : o'.channel.queues[place]? = some { q with frames := q.frames.drop n }
  read : o'.readBy place = o.readBy place ++ q.frames.take n

theorem ebbs_start (hq : o.channel.queues[place]? = some q) : o.Ebbs place q 0 o :=
  ⟨hq, (List.append_nil _).symm⟩

theorem ebbs_step (h : o'.Streams opening) (hgone : q.hasSender = false)
    (he : o.Ebbs place q n o') (hm : m ≠ .stopReading place) :
    o.Ebbs place q (n + if m.takesAt place then 1 else 0) (o'.step m) := by
  by_cases hread : m = .read place
  · subst hread
    simp only [ChannelMove.takesAt, beq_self_eq_true, ↓reduceIte]
    rw [step_read he.queue]
    constructor
    · rw [HubChannel.setFrames_queues, if_pos rfl, he.queue, Option.map_some, List.tail_drop]
    · rw [readBy_append, if_pos rfl, he.read, List.append_assoc, ← List.take_add]
  · have htakes : m.takesAt place = false := by
      cases m with
      | read other => exact beq_eq_false_iff_ne.mpr (fun heq => hread (heq ▸ rfl))
      | _ => rfl
    -- the channel has let go of the queue, so no other move reaches it
    obtain ⟨hspared, hsame⟩ := (o'.step_effect m).spared h.sound hread hm
    obtain ⟨q', hq', heq⟩ := hspared _ he.queue
    cases heq hgone
    rw [htakes]
    exact ⟨hq', hsame.trans he.read⟩

theorem ebbs_run (h : o'.Streams opening) (hgone : q.hasSender = false) (he : o.Ebbs place q n o')
    {later : List ChannelMove} (hm : .stopReading place ∉ later) :
    o.Ebbs place q (n + later.countP (·.takesAt place)) (o'.run later) := by
  induction later generalizing o' n with
  | nil => exact he
  | cons m later ih =>
    have hne : m ≠ .stopReading place := fun heq => hm (heq ▸ List.mem_cons_self)
    have hnext := ih (h.step m) (ebbs_step h hgone he hne)
      (fun hmem => hm (List.mem_cons_of_mem m hmem))
    rw [List.countP_cons, Nat.add_comm (later.countP _), ← Nat.add_assoc]
    exact hnext

/-- Once all is read, there is nobody left to read from. -/
theorem Ebbs.disconnected (he : o.Ebbs place q n o') (hgone : q.hasSender = false)
    (hall : q.frames.length ≤ n) : ∃ c, o'.channel.read (place + 1) = some (.disconnected, c) := by
  have hread : o'.channel.read (place + 1) = _ := HubChannel.read_eq he.queue
  rw [List.drop_of_length_le hall] at hread
  simp only [Queue.pop, hgone, Bool.false_eq_true, ↓reduceIte] at hread
  exact ⟨_, hread⟩

end Observed

/-- `conn` is the last number that was given out, and no detach came with it since. -/
def Stands (conn : Nat) (history : List (ChannelMove × Option Nat)) : Prop :=
  ∃ before x after, history = before ++ x :: after ∧ x.2 = some conn ∧
    ∀ y ∈ after, y.2 = none ∧ y.1 ≠ .detach conn

theorem stands_concat_iff {conn : Nat} {history : List (ChannelMove × Option Nat)}
    {x : ChannelMove × Option Nat} : Stands conn (history ++ [x]) ↔
      x.2 = some conn ∨ (x.2 = none ∧ x.1 ≠ .detach conn) ∧ Stands conn history := since_concat_iff

namespace Observed

variable {o o' : Observed} {history : List (ChannelMove × Option Nat)}

theorem history_concat (o : Observed) (moves : List ChannelMove) (m : ChannelMove) :
    o.history (moves ++ [m]) = o.history moves ++ [(m, (o.run moves).attached m)] := by
  induction moves generalizing o with
  | nil => rfl
  | cons m' moves ih => exact congrArg _ (ih (o.step m'))

theorem run_concat (o : Observed) (moves : List ChannelMove) (m : ChannelMove) :
    o.run (moves ++ [m]) = (o.run moves).step m := by
  simp [run]

theorem numbers_cons (o : Observed) (m : ChannelMove) (moves : List ChannelMove) :
    o.numbers (m :: moves) = (o.attached m).toList ++ (o.step m).numbers moves := by
  rw [numbers, Observed.history, List.filterMap_cons]
  cases o.attached m <;> rfl

theorem numbers_concat (o : Observed) (moves : List ChannelMove) (m : ChannelMove) :
    o.numbers (moves ++ [m]) = o.numbers moves ++ ((o.run moves).attached m).toList := by
  rw [numbers, history_concat, List.filterMap_append]
  cases (o.run moves).attached m <;> rfl

theorem length_numbers_le (o : Observed) (moves : List ChannelMove) :
    (o.numbers moves).length ≤ moves.countP ChannelMove.attaches := by
  induction moves generalizing o with
  | nil => exact Nat.le_refl 0
  | cons m moves ih =>
    have hm : (o.attached m).toList.length ≤ if m.attaches then 1 else 0 := by
      cases m with
      | attach buffer => cases o.attached (.attach buffer) <;> simp [ChannelMove.attaches]
      | _ => exact Nat.le_refl 0
    rw [numbers_cons, List.length_append, List.countP_cons, Nat.add_comm]
    exact Nat.add_le_add (ih (o.step m)) hm

/-- The end and the peer of a channel, told from its history. -/
structure Tracks (o : Observed) (history : List (ChannelMove × Option Nat)) : Prop where
  closed : o.channel.closed = true ↔ ∃ x ∈ history, x.1 = .close
  peer : ∀ conn, o.channel.peer = some conn ↔ o.channel.closed = false ∧ Stands conn history

theorem Tracks.step (h : o.Tracks history) (hs : o.channel.Sound) (m : ChannelMove) :
    (o.step m).Tracks (history ++ [(m, o.attached m)]) := by
  have he := o.step_effect m
  constructor
  · rw [he.closed_iff, h.closed]
    constructor
    · rintro (hm | ⟨x, hx, hclose⟩)
      · exact ⟨_, List.mem_append_right _ List.mem_cons_self, hm⟩
      · exact ⟨x, List.mem_append_left _ hx, hclose⟩
    · rintro ⟨x, hx, hclose⟩
      rcases List.mem_append.mp hx with hx | hx
      · exact .inr ⟨x, hx, hclose⟩
      · cases List.mem_singleton.mp hx
        exact .inl hclose
  · intro conn
    have hopen : (o.step m).channel.closed = false ↔ m ≠ .close ∧ o.channel.closed = false := by
      rw [← Bool.not_eq_true, he.closed_iff, not_or, Bool.not_eq_true]
    rw [he.peer_iff hs, h.peer, hopen, stands_concat_iff]
    constructor
    · rintro (hgiven | ⟨hnone, hclose, hdetach, hc, hstands⟩)
      · exact ⟨he.open_of_given hgiven, .inl hgiven⟩
      · exact ⟨⟨hclose, hc⟩, .inr ⟨⟨hnone, hdetach⟩, hstands⟩⟩
    · rintro ⟨⟨hclose, hc⟩, hgiven | ⟨⟨hnone, hdetach⟩, hstands⟩⟩
      · exact .inl hgiven
      · exact .inr ⟨hnone, hclose, hdetach, hc, hstands⟩

section Runs

variable {opening : Json} (moves : List ChannelMove)

theorem tracks_run (h : o.Streams opening) (hopen : o.channel.closed = false)
    (hvacant : o.channel.peer = none) : (o.run moves).Tracks (o.history moves) := by
  induction moves using List.reverseRecOn with
  | nil =>
    constructor
    · simp [run, Observed.history, hopen]
    · simp [run, Observed.history, hvacant, Stands]
  | append_singleton moves m ih =>
    rw [run_concat, history_concat]
    exact ih.step (h.run moves).sound m

theorem numbers_run (hnew : o.channel.queues = []) :
    o.numbers moves = List.range' 1 (o.run moves).channel.queues.length := by
  induction moves using List.reverseRecOn with
  | nil => simp [run, numbers, Observed.history, hnew]
  | append_singleton moves m ih =>
    rw [numbers_concat, run_concat, ((o.run moves).step_effect m).range_queues, ih]

end Runs

theorem map_history (o : Observed) (moves : List ChannelMove) :
    (o.history moves).map Prod.fst = moves := by
  induction moves generalizing o with
  | nil => rfl
  | cons m moves ih => exact congrArg _ (ih (o.step m))

end Observed

/-- Connections are numbered in the order in which they came. The peer of a channel is the last that
came, unless it has detached or the channel was closed since; a detach by any other changes nothing.
To the others the channel has no sender any more: whatever happens, each reads the frames that wait
for it, in order, and then finds that it is over. -/
theorem newest_connection_stands (id target : String) (opening : Json) (handler : Option Handler)
    (moves : List ChannelMove) :
    let start : Observed := { channel := { id, target, opening, handler } }
    let o := start.run moves
    let numbers := start.numbers moves
    (numbers = List.range' 1 o.channel.queues.length ∧ numbers.Pairwise (· < ·)) ∧
    (moves.countP ChannelMove.attaches + 1 < UInt64.size →
      ∀ conn ∈ numbers, (UInt64.ofNat conn).toNat = conn) ∧
    (o.channel.closed = true ↔ .close ∈ moves) ∧
    (∀ conn, o.channel.peer = some conn ↔
      o.channel.closed = false ∧ Stands conn (start.history moves)) ∧
    (∀ conn, o.channel.peer ≠ some conn → o.channel.detach conn = o.channel) ∧
    ∀ place, place + 1 ∈ numbers → ∃ q, o.channel.queues[place]? = some q ∧
      (q.hasSender = true ↔ o.channel.peer = some (place + 1)) ∧
      (o.channel.peer ≠ some (place + 1) → ∀ later, .stopReading place ∉ later →
        let o' := o.run later
        let taken := later.countP (·.takesAt place)
        o'.readBy place = o.readBy place ++ q.frames.take taken ∧
        (q.frames.length ≤ taken →
          ∃ c, o'.channel.read (place + 1) = some (.disconnected, c))) := by
  intro start o numbers
  have hstart : start.Streams start.channel.openFrame := .start id target opening handler
  have h := hstart.run moves
  have ht : o.Tracks (start.history moves) := Observed.tracks_run moves hstart rfl rfl
  have hnumbers : numbers = List.range' 1 o.channel.queues.length :=
    Observed.numbers_run moves rfl
  refine ⟨⟨hnumbers, ?_⟩, fun hcount conn hconn => ?_, ?_, ht.peer, fun conn hp => if_neg hp,
    fun place hplace => ?_⟩
  · rw [hnumbers]
    exact List.pairwise_lt_range'
  · have hlength : numbers.length ≤ _ := start.length_numbers_le moves
    rw [hnumbers, List.length_range'] at hlength
    rw [hnumbers, List.mem_range'_1] at hconn
    exact UInt64.toNat_ofNat_of_lt' (by omega)
  · rw [ht.closed, ← List.mem_map, start.map_history]
  · rw [hnumbers, List.mem_range'_1] at hplace
    have hlt : place < o.channel.queues.length := by omega
    have hq := List.getElem?_eq_getElem hlt
    have hsender := h.sound.sender place _ hq
    refine ⟨_, hq, hsender, fun hp later hlater => ?_⟩
    have hgone := eq_false_of_ne_true (fun hs => hp (hsender.mp hs))
    have he := Observed.ebbs_run h hgone (Observed.ebbs_start hq) hlater
    rw [Nat.zero_add] at he
    exact ⟨he.read, he.disconnected hgone⟩

/-- Two connections came, and the first detached late, as did one that never was. -/
def revisited : List ChannelMove := [.attach 4, .attach 4, .send .null, .detach 1, .detach 7]

theorem stale_detaches_harmless :
    let start : Observed :=
      { channel := { id := "a", target := "t", opening := .null, handler := none } }
    let o := start.run revisited
    o.channel.peer = some 2 ∧ Stands 2 (start.history revisited) ∧
    o.channel.detach 1 = o.channel ∧
    (o.run [.read 0, .send .null, .read 0]).readBy 0 = [.message start.channel.openFrame] ∧
    ∃ c, (o.run [.read 0, .send .null, .read 0]).channel.read 1 = some (.disconnected, c) := by
  intro start o
  obtain ⟨_, _, _, hpeer, hdetach, hqueues⟩ := newest_connection_stands "a" "t" .null none revisited
  have hp : o.channel.peer = some 2 := rfl
  have hother : o.channel.peer ≠ some 1 := by
    rw [hp]
    decide
  obtain ⟨q, hq, _, hreads⟩ := hqueues 0 (by decide)
  cases Option.some.inj hq
  obtain ⟨hread, hover⟩ := hreads hother [.read 0, .send .null, .read 0] (by simp)
  exact ⟨hp, ((hpeer 2).mp hp).2, hdetach 1 hother, hread, hover (by decide)⟩

end PagedTables
