import PagedTables.Connection
import PagedTables.Proofs.Coherence

namespace PagedTables

/-- What a viewer gets for a queued frame. -/
def Frame.written : Frame → Outbound
  | .message v => .text v.render
  | .close => .close

namespace Connection

/-- The queue that the connection reads. -/
def queue? (c : Connection) (w : Hub) : Option Queue := w.queue? c.channel (c.conn - 1)

/-- The hub with other frames in that queue. -/
def setFrames (c : Connection) (w : Hub) (frames : List Frame) : Hub :=
  w.setFrames c.channel (c.conn - 1) frames

def wrote (c : Connection) (frames : List Frame) (running : Bool) : Connection :=
  { c with written := c.written ++ frames.map Frame.written, running }

theorem wrote_wrote (c : Connection) (frames frames' : List Frame) (running running' : Bool) :
    (c.wrote frames running).wrote frames' running' = c.wrote (frames ++ frames') running' := by
  simp [wrote]

theorem put_message {c : Connection} (hr : c.running = true) (v : Json) :
    c.put (.message v) = c.wrote [.message v] true := by
  simp [put, write, wrote, Frame.written, hr]

theorem put_eq_wrote {c : Connection} (hr : c.running = true) (f : Frame) :
    c.put f = c.wrote [f] (c.put f).running := by
  cases f with
  | message v => rw [put_message hr]; rfl
  | close => rfl

theorem setFrames_self {c : Connection} {w : Hub} {q : Queue} (hq : c.queue? w = some q) :
    c.setFrames w q.frames = w := Hub.setFrames_self hq

theorem queue?_setFrames {c : Connection} {w : Hub} {q : Queue} (hq : c.queue? w = some q)
    (rest : List Frame) : c.queue? (c.setFrames w rest) = some { q with frames := rest } := by
  simp only [queue?] at hq
  simp only [queue?, setFrames, Hub.setFrames_queue?, hq, and_self, ↓reduceIte, Option.map_some]

theorem read_eq {c : Connection} {w : Hub} {q : Queue} (hq : c.queue? w = some q) :
    w.read c.channel c.conn = some (q.pop.1, c.setFrames w q.frames.tail) := Hub.read_eq hq

/-- A flush writes frames of the queue in order. The connection goes on when it has written them all,
none of them was the last one, and the channel still sends to it; it stops early only at the last one.
-/
theorem flushUpTo_spec {most : Nat} {c : Connection} {w : Hub} {q : Queue}
    (hr : c.running = true) (hq : c.queue? w = some q) (hlt : q.frames.length < most) :
    ∃ taken rest running, q.frames = taken ++ rest ∧
      flushUpTo most c w = (c.wrote taken running, c.setFrames w rest) ∧
      (running = true → rest = [] ∧ q.hasSender = true) ∧
      (running = false → .close ∈ taken ∨ rest = [] ∧ q.hasSender = false) := by
  induction most generalizing c w q with
  | zero => exact (Nat.not_lt_zero _ hlt).elim
  | succ most ih =>
    have hread := read_eq hq
    cases hf : q.frames with
    | nil =>
      have hw : c.setFrames w [] = w := by rw [← hf]; exact setFrames_self hq
      cases hs : q.hasSender with
      | true =>
        refine ⟨[], [], true, rfl, ?_, fun _ => ⟨rfl, rfl⟩, (fun h => by cases h)⟩
        simp [flushUpTo, hread, Queue.pop, hf, hs, hw, wrote, hr.symm]
      | false =>
        refine ⟨[], [], false, rfl, ?_, (fun h => by cases h), fun _ => .inr ⟨rfl, rfl⟩⟩
        simp [flushUpTo, hread, Queue.pop, hf, hs, hw, wrote, stop]
    | cons f fs =>
      have hpop : q.pop.1 = .frame f := by simp [Queue.pop, hf]
      rw [hpop, hf, List.tail_cons] at hread
      cases f with
      | close =>
        refine ⟨[.close], fs, false, rfl, ?_, (fun h => by cases h), fun _ => .inl List.mem_cons_self⟩
        simp only [flushUpTo, hread]
        rfl
      | message v =>
        have hlt' : fs.length < most := by
          simp only [hf, List.length_cons] at hlt
          omega
        obtain ⟨taken, rest, running, hfs, heq, hon, hoff⟩ :=
          ih (c := c.wrote [.message v] true) (w := c.setFrames w fs) rfl (queue?_setFrames hq fs) hlt'
        simp only at hfs
        refine ⟨.message v :: taken, rest, running, by rw [hfs]; rfl, ?_, hon, fun h => ?_⟩
        · simp only [flushUpTo, hread, put_message hr]
          refine (if_pos rfl).trans (heq.trans ?_)
          rw [wrote_wrote]
          exact congrArg (Prod.mk _) (Hub.setFrames_setFrames _ _ _ _ _)
        · exact (hoff h).imp_left (List.mem_cons_of_mem _)

theorem waiting_eq {c : Connection} {w : Hub} {q : Queue} (hq : c.queue? w = some q) :
    c.waiting w = q.frames.length := by
  obtain ⟨d, hd, hq⟩ := Hub.queue?_eq_some_iff.mp hq
  simp only [waiting, hd, hq, Option.elim_some]

theorem flush_spec {c : Connection} {h : Host Hub} {q : Queue} (hr : c.running = true)
    (hq : c.queue? h.world = some q) :
    ∃ taken rest running, q.frames = taken ++ rest ∧
      c.flush h = (c.wrote taken running, { h with world := c.setFrames h.world rest }) ∧
      (running = true → rest = [] ∧ q.hasSender = true) ∧
      (running = false → .close ∈ taken ∨ rest = [] ∧ q.hasSender = false) := by
  have hlt : q.frames.length < c.waiting h.world + 1 := by rw [waiting_eq hq]; omega
  obtain ⟨taken, rest, running, hfs, heq, hon, hoff⟩ := flushUpTo_spec hr hq hlt
  refine ⟨taken, rest, running, hfs, ?_, hon, hoff⟩
  simp only [flush, hr, ↓reduceIte, heq]

theorem task_of_frame {c : Connection} {w : Hub} {q : Queue} {f : Frame} {fs : List Frame}
    (hq : c.queue? w = some q) (hf : q.frames = f :: fs) : c.task w = .write f (c.setFrames w fs) := by
  simp only [task, read_eq hq, Queue.pop, hf, List.tail_cons]

theorem task_of_gone {c : Connection} {w : Hub} {q : Queue} (hq : c.queue? w = some q)
    (hf : q.frames = []) (hs : q.hasSender = false) : c.task w = .stop := by
  simp only [task, read_eq hq, Queue.pop, hf, hs, Bool.false_eq_true, ↓reduceIte]

/-- A frame from the socket is dealt with when nothing is queued. -/
theorem task_of_empty {c : Connection} {w : Hub} {q : Queue} (hq : c.queue? w = some q)
    (hf : q.frames = []) (hs : q.hasSender = true) :
    c.task w = .ofInbox c.inbox := by
  simp only [task, read_eq hq, Queue.pop, hf, hs, ↓reduceIte]

/-- A connection hands over a message only when its queue is empty and the channel still sends to it.
-/
theorem of_task_hand {c : Connection} {w : Hub} {q : Queue} {v : Json} (hq : c.queue? w = some q)
    (ht : c.task w = .hand v) : q.frames = [] ∧ q.hasSender = true := by
  cases hf : q.frames with
  | cons f fs =>
    rw [task_of_frame hq hf] at ht
    cases ht
  | nil =>
    cases hs : q.hasSender with
    | true => exact ⟨rfl, rfl⟩
    | false =>
      rw [task_of_gone hq hf hs] at ht
      cases ht

/-- All that a running connection with the queue `q` can do to itself and to the host. -/
inductive Effect (c : Connection) (h : Host Hub) (q : Queue) : Connection → Host Hub → Prop
  | wrote {taken rest : List Frame} {running : Bool} : q.frames = taken ++ rest →
      Effect c h q (c.wrote taken running) { h with world := c.setFrames h.world rest }
  | handed {s : String} {inbox : List Inbound} {v : Json} : q.frames = [] → q.hasSender = true →
      c.inbox = .text s :: inbox → Json.parse .ofText s = .ok v →
      Effect c h q c.shift (h.deliver c.channel v).1
  | passed {out : List Outbound} : q.frames = [] → q.hasSender = true →
      (∀ o ∈ out, o = .text notJsonReply.render) →
      Effect c h q { c.shift with written := c.written ++ out } h
  | stayed {running : Bool} : Effect c h q { c with running } h

theorem flush_effect {c : Connection} {h : Host Hub} {q : Queue} (hr : c.running = true)
    (hq : c.queue? h.world = some q) : c.Effect h q (c.flush h).1 (c.flush h).2 := by
  obtain ⟨taken, rest, running, hfs, heq, _, _⟩ := flush_spec hr hq
  rw [heq]
  exact .wrote hfs

theorem select_effect {c : Connection} {h : Host Hub} {q : Queue} (hr : c.running = true)
    (hq : c.queue? h.world = some q) : c.Effect h q (c.select h).1 (c.select h).2 := by
  simp only [select, hr, ↓reduceIte]
  cases hf : q.frames with
  | cons f fs =>
    rw [task_of_frame hq hf]
    simp only
    rw [put_eq_wrote hr f]
    exact .wrote (by rw [hf]; rfl)
  | nil =>
    cases hs : q.hasSender with
    | false =>
      rw [task_of_gone hq hf hs]
      exact .stayed
    | true =>
      rw [task_of_empty hq hf hs]
      cases hi : c.inbox with
      | nil =>
        have heq : c = { c with running := c.running } := rfl
        rw [heq]
        exact .stayed
      | cons m inbox =>
        cases m with
        | close => exact .stayed
        | other =>
          have : c.shift = { c.shift with written := c.written ++ [] } := by simp [shift]
          simp only [Task.ofInbox]
          rw [this]
          exact .passed hf hs (fun _ ho => nomatch ho)
        | text s =>
          simp only [Task.ofInbox]
          cases hv : Json.parse .ofText s with
          | ok v => exact .handed hf hs hi hv
          | error e => exact .passed hf hs (fun _ ho => List.mem_singleton.mp ho)

namespace Effect

variable {c c' : Connection} {h h' : Host Hub} {q : Queue}

theorem same (he : c.Effect h q c' h') : c'.channel = c.channel ∧ c'.conn = c.conn := by
  cases he <;> exact ⟨rfl, rfl⟩

theorem evolves (he : c.Effect h q c' h') :
    Hub.EvolvesBeside c.channel (c.conn - 1) h.world h'.world := by
  cases he with
  | wrote _ => exact .setFrames _ _ _ _
  | @handed _ _ v => exact (step_evolves h (.deliver c.channel v)).beside _ _
  | passed => exact (Hub.Evolves.refl _).beside _ _
  | stayed => exact (Hub.Evolves.refl _).beside _ _

theorem matched {target : String} (hm : h.Matched target) (he : c.Effect h q c' h') :
    h'.Matched target := by
  cases he with
  | wrote _ => exact hm.of_keeps rfl (Hub.Keeps.update (fun d => d.setFrames_face _ _)).channel
  | @handed _ _ v => exact hm.step (.deliver c.channel v)
  | passed => exact hm
  | stayed => exact hm

theorem coherent {target : String} (hh : h.Coherent target) (he : c.Effect h q c' h') :
    h'.Coherent target := by
  cases he with
  | wrote _ => exact hh.of_keeps rfl (.update (fun d => d.setFrames_face _ _))
  | @handed _ _ v => exact hh.step (e := .deliver c.channel v) trivial
  | passed => exact hh
  | stayed => exact hh

end Effect

/-- Whoever asks is the peer of the open channel that is registered under its id and serves it. -/
structure Asks (x : Connection) (h : Host Hub) (c : HubChannel) (e : Entry) : Prop where
  channel : h.world.channels[x.channel]? = some c
  isOpen : c.closed = false
  handler : c.handler = some .service
  peer : c.peer = some x.conn
  entry : h.registered? c.id = some e
  registered : e.channel = x.channel

variable {x x' : Connection} {h : Host Hub} {c : HubChannel} {e : Entry} {q : Queue}

theorem Asks.of_same (ha : x.Asks h c e) (hch : x'.channel = x.channel) (hconn : x'.conn = x.conn) :
    x'.Asks h c e :=
  ⟨hch ▸ ha.channel, ha.isOpen, ha.handler, hconn ▸ ha.peer, ha.entry, hch ▸ ha.registered⟩

theorem Asks.setFrames (ha : x.Asks h c e) (frames : List Frame) :
    x.Asks { h with world := x.setFrames h.world frames } (c.setFrames (x.conn - 1) frames) e := by
  refine ⟨?_, ha.isOpen, ha.handler, ha.peer, ha.entry, ha.registered⟩
  simp [Connection.setFrames, Hub.setFrames, Hub.update_channels, ha.channel]

theorem Asks.queue (ha : x.Asks h c e) (hq : x.queue? h.world = some q) :
    c.queues[x.conn - 1]? = some q := by
  rw [← Hub.queue?_of_channel ha.channel]
  exact hq

/-- The answer to the peer of a channel finds its queue empty, and so has room there. -/
theorem hand_served (hw : h.world.Sound) (ha : x.Asks h c e) (hq : x.queue? h.world = some q)
    (hempty : q.frames = []) (v : Json) :
    (∃ s, h.service = some s ∧ s.dispatch h.world c.id v =
        .ok (x.setFrames h.world [.message (Message.reply e.dataset v).toJson])) ∧
      (h.deliver x.channel v).1 = { h with
        world := x.setFrames h.world [.message (Message.reply e.dataset v).toJson] } := by
  obtain ⟨s, hs, hentry⟩ := Host.registered?_eq_some_iff.mp ha.entry
  obtain ⟨hsound, hheard⟩ := hw _ c ha.channel
  have hmem := List.mem_of_getElem? (ha.queue hq)
  have hroom : q.frames.length < q.capacity := by
    rw [hempty]
    exact hsound.capacity q hmem
  have hsend : Transport.send h.world e.channel (Message.reply e.dataset v).toJson =
      .ok (x.setFrames h.world [.message (Message.reply e.dataset v).toJson]) := by
    rw [ha.registered]
    refine Hub.send_ok_iff.mpr
      ⟨c, x.conn, q, ha.channel, ha.isOpen, ha.peer, ha.queue hq, hheard q hmem, hroom, ?_⟩
    rw [hempty]
    rfl
  have hisOpen : Transport.isOpen h.world e.channel = true := by
    simp [Transport.isOpen, Hub.isOpen, ha.registered, ha.channel, ha.isOpen]
  have hdispatch := dispatch_ok_iff.mpr ⟨e, hentry, hisOpen, hsend⟩
  have hreceiver : Transport.receiver? h.world x.channel = some (c.id, .service) := by
    simp [Transport.receiver?, Hub.receiver?, ha.channel, ha.handler]
  refine ⟨⟨s, hs, hdispatch⟩, ?_⟩
  simp only [Host.deliver, hreceiver, hs, hdispatch]

end Connection

end PagedTables
