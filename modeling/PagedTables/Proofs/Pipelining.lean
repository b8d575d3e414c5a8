import Mathlib.Data.List.Forall2
import PagedTables.Memory
import PagedTables.Proofs.Replies
import PagedTables.Proofs.Viewers

namespace PagedTables

/-- What a service with `d` alone has recorded on its in-process channel once `v` was dispatched. -/
def Dataset.recorded (d : Dataset) (v : Json) : List Json :=
  let h := (Host.start Service.defaultTarget ({} : Memory)).run [.register "" d, .dispatch d.id v]
  (h.world.channels[0]?).elim [] (fun c => c.sent)

/-- What a viewer of `d` is to see for a frame that it sends. -/
inductive Inbound.Answered (d : Dataset) : Inbound → List Outbound → Prop
  | json {s : String} {v answer : Json} : Json.parse .ofText s = .ok v → d.recorded v = [answer] →
      Answered d (.text s) [.text answer.render]
  | notJson {s detail : String} {e : ReadError} : Json.parse .ofText s = .error e →
      Answered d (.text s) [.text (Json.obj [("error", .str ("Malformed message" ++ detail)),
        ("msg_type", .str "error")]).render]
  | other : Answered d .other []

def Inbound.answer (d : Dataset) : Inbound → List Outbound
  | .text s =>
    match Json.parse .ofText s with
    | .ok v => [.text (Message.reply d v).toJson.render]
    | .error _ => [.text Connection.notJsonReply.render]
  | _ => []

theorem recorded_eq_reply (d : Dataset) (v : Json) :
    d.recorded v = [(Message.reply d v).toJson] := by
  have hn : d.named "" = d := by
    unfold Dataset.named
    split
    next h => rw [← h]
    next => rfl
  simp [Dataset.recorded, Host.run, Host.start, Host.step, Service.register, hn, Transport.create,
    Memory.create, KeyMap.insert, KeyMap.get?_cons, Service.dispatch, Transport.isOpen]
  rfl

theorem answered_answer (d : Dataset) {f : Inbound} (hf : f ≠ .close) :
    f.Answered d (f.answer d) := by
  cases f with
  | close => exact (hf rfl).elim
  | other => exact .other
  | text s =>
    simp only [Inbound.answer]
    cases hs : Json.parse .ofText s with
    | ok v => exact .json hs (recorded_eq_reply d v)
    | error e =>
      have ht : RequestError.notJson.message = "Malformed message" ++ ": not JSON" := rfl
      simp only [Connection.notJsonReply, ht]
      exact .notJson hs

namespace Server

/-- A run in which connection `number` takes `n` turns, and whatever else happens leaves alone the
connection, its channel, and what is registered under the id of that. -/
inductive Alone (number channel : Nat) (id : String) (s : Server) : Nat → Server → Prop
  | start : Alone number channel id s 0 s
  | turn {n : Nat} {s' : Server} : Alone number channel id s n s' →
      Alone number channel id s (n + 1) (s'.turn number)
  | other {n : Nat} {s' : Server} (a : Action) : Alone number channel id s n s' →
      (s'.act a).connections[number]? = s'.connections[number]? →
      (s'.act a).host.world.channels[channel]? = s'.host.world.channels[channel]? →
      (s'.act a).host.registered? id = s'.host.registered? id →
      Alone number channel id s n (s'.act a)

/-- Nothing waits for connection `number`, and the service has room for its answer to any message for
`id`. -/
def Clear (s : Server) (number : Nat) (id : String) : Prop :=
  (∃ x q, s.connections[number]? = some x ∧ x.queue? s.host.world = some q ∧ q.frames = []) ∧
    ∀ v, ∃ service w, s.host.service = some service ∧ service.dispatch s.host.world id v = .ok w

/-- Where a connection stands that has dealt with `n` of the frames: what was written to it and what
is queued for it, taken together, are the opening and the answers so far. -/
structure Serving (number : Nat) (id : String) (e : Entry) (opening : Json) (frames : List Inbound)
    (n : Nat) (s : Server) (x : Connection) (c : HubChannel) (q : Queue) : Prop where
  connection : s.connections[number]? = some x
  running : x.running = true
  named : c.id = id
  asks : x.Asks s.host c e
  queue : x.queue? s.host.world = some q
  messages : .close ∉ q.frames
  inbox : x.inbox = frames.drop n
  written : x.written ++ q.frames.map Frame.written =
    .text opening.render :: (frames.take n).flatMap (Inbound.answer e.dataset)
  drained : frames.length < n → q.frames = []

variable {target : String} {buffer : Nat} {s s' : Server} {number n : Nat} {id : String} {e : Entry}
  {opening : Json} {frames : List Inbound} {x x' : Connection} {c : HubChannel} {q : Queue}

theorem hasSender_of_serving (hs : s.Seated target buffer)
    (h : s.Serving number id e opening frames n x c q) : q.hasSender = true := by
  have hne := hs.placed number x h.connection h.running
  refine ((hs.sound _ c h.asks.channel).1.sender _ q (h.asks.queue h.queue)).mpr ?_
  rw [Nat.sub_one_add_one hne]
  exact h.asks.peer

/-- A flush writes all that is queued. -/
theorem serving_flush (hs : s.Seated target buffer)
    (h : s.Serving number id e opening frames n x c q) :
    (s.doing number Connection.flush).Serving number id e opening frames n (x.wrote q.frames true)
      (c.setFrames (x.conn - 1) []) { q with frames := [] } := by
  obtain ⟨taken, rest, running, hf, heq, hon, hoff⟩ := Connection.flush_spec h.running h.queue
  have hr : running = true := by
    cases running with
    | true => rfl
    | false =>
      rcases hoff rfl with hclose | ⟨_, hgone⟩
      · exact (h.messages (hf ▸ List.mem_append_left _ hclose)).elim
      · cases hgone.symm.trans (hasSender_of_serving hs h)
  obtain ⟨rfl, _⟩ := hon hr
  obtain rfl : q.frames = taken := by simpa using hf
  subst hr
  have hlt := (List.getElem?_eq_some_iff.mp h.connection).1
  rw [doing_of_some h.connection, heq]
  refine ⟨by simp [hlt], rfl, h.named, (h.asks.setFrames []).of_same rfl rfl,
    Connection.queue?_setFrames h.queue [], List.not_mem_nil, h.inbox, ?_, fun _ => rfl⟩
  simp only [Connection.wrote, List.map_nil, List.append_nil]
  exact h.written

/-- The next frame is dealt with and leads to its answer, which is written or queued. -/
theorem serving_next {f : Inbound} {rest : List Inbound} {c' : HubChannel} {q' : Queue}
    (h : s.Serving number id e opening frames n x c q) (hempty : q.frames = [])
    (hi : x.inbox = f :: rest) (hx : s'.connections[number]? = some x') (hr : x'.running = true)
    (hid : c'.id = id) (ha : x'.Asks s'.host c' e) (hq : x'.queue? s'.host.world = some q')
    (hm : .close ∉ q'.frames) (hrest : x'.inbox = rest)
    (hw : x'.written ++ q'.frames.map Frame.written = x.written ++ f.answer e.dataset) :
    s'.Serving number id e opening frames (n + 1) x' c' q' := by
  have hdrop : frames.drop n = f :: rest := h.inbox.symm.trans hi
  have hlt : n < frames.length := by
    have := congrArg List.length hdrop
    simp only [List.length_drop, List.length_cons] at this
    omega
  refine ⟨hx, hr, hid, ha, hq, hm, ?_, ?_, fun _ => by omega⟩
  · rw [hrest, ← List.drop_drop, hdrop, List.drop_one, List.tail_cons]
  · have hold := h.written
    rw [hempty, List.map_nil, List.append_nil] at hold
    rw [hw, hold, List.take_add, hdrop]
    simp

theorem serving_select (hs : s.Seated target buffer)
    (h : s.Serving number id e opening frames n x c q) (hempty : q.frames = [])
    (hf : .close ∉ frames) :
    ∃ x' c' q', (s.doing number Connection.select).Serving number id e opening frames (n + 1)
      x' c' q' := by
  have hlt := (List.getElem?_eq_some_iff.mp h.connection).1
  have htask := Connection.task_of_empty h.queue hempty (hasSender_of_serving hs h)
  rw [doing_of_some h.connection]
  simp only [Connection.select, h.running, ↓reduceIte, htask]
  cases hi : x.inbox with
  | nil =>
    have hle : frames.length ≤ n := List.drop_eq_nil_iff.mp (h.inbox.symm.trans hi)
    refine ⟨x, c, q, by simp [Task.ofInbox, hlt], h.running, h.named, h.asks, h.queue, h.messages,
      ?_, ?_, fun _ => hempty⟩
    · rw [hi, List.drop_of_length_le (by omega)]
    · rw [h.written, List.take_of_length_le hle, List.take_of_length_le (by omega)]
  | cons f rest =>
    have hmem : f ∈ frames := by
      refine List.mem_of_mem_drop (i := n) ?_
      rw [← h.inbox, hi]
      exact List.mem_cons_self
    cases f with
    | close => exact (hf hmem).elim
    | other =>
      refine ⟨x.shift, c, q, serving_next h hempty hi (by simp [Task.ofInbox, hlt]) h.running h.named
        (h.asks.of_same rfl rfl) h.queue h.messages ?_ ?_⟩
      · simp [Connection.shift, hi]
      · simp [Connection.shift, hempty, Inbound.answer]
    | text t =>
      cases ht : Json.parse .ofText t with
      | error err =>
        simp only [Task.ofInbox, ht]
        refine ⟨x.shift.write (.text Connection.notJsonReply.render), c, q, serving_next h hempty hi
          (by simp [hlt]) h.running h.named
          (h.asks.of_same rfl rfl) h.queue h.messages ?_ ?_⟩
        · simp [Connection.write, Connection.shift, hi]
        · simp [Connection.write, Connection.shift, hempty, Inbound.answer, ht]
      | ok v =>
        obtain ⟨_, hdeliver⟩ := Connection.hand_served hs.sound h.asks h.queue hempty v
        simp only [Task.ofInbox, ht, hdeliver]
        refine ⟨x.shift, c.setFrames (x.conn - 1) [.message (Message.reply e.dataset v).toJson],
          { q with frames := [.message (Message.reply e.dataset v).toJson] },
          serving_next h hempty hi (by simp [hlt]) h.running h.named
          ((h.asks.setFrames _).of_same rfl rfl) (Connection.queue?_setFrames h.queue _) ?_ ?_ ?_⟩
        · simp
        · simp [Connection.shift, hi]
        · simp [Connection.shift, Inbound.answer, ht, Frame.written]

theorem serving_turn (hs : s.Seated target buffer)
    (h : s.Serving number id e opening frames n x c q) (hf : .close ∉ frames) :
    ∃ x' c' q', (s.turn number).Serving number id e opening frames (n + 1) x' c' q' := by
  have hflush := serving_flush hs h
  have hflushed : (s.doing number Connection.flush).Seated target buffer := hs.act (.flush number)
  obtain ⟨x', c', q', h'⟩ := serving_select hflushed hflush rfl hf
  refine ⟨x', c', q', ?_⟩
  have hleave : ∀ host : Host Hub, x'.leave host = (x', host) := fun host => by
    simp [Connection.leave, h'.running]
  rw [turn, doing_of_same h'.connection (by rw [hleave]), hleave]
  exact h'

theorem serving_other (h : s.Serving number id e opening frames n x c q) (a : Action)
    (hx : (s.act a).connections[number]? = s.connections[number]?)
    (hc : (s.act a).host.world.channels[x.channel]? = s.host.world.channels[x.channel]?)
    (he : (s.act a).host.registered? id = s.host.registered? id) :
    (s.act a).Serving number id e opening frames n x c q := by
  refine ⟨hx.trans h.connection, h.running, h.named, ?_, ?_, h.messages, h.inbox, h.written,
    h.drained⟩
  · refine ⟨hc.trans h.asks.channel, h.asks.isOpen, h.asks.handler, h.asks.peer, ?_,
      h.asks.registered⟩
    rw [h.named, he, ← h.named]
    exact h.asks.entry
  · rw [Connection.queue?, Hub.queue?, hc]
    exact h.queue

theorem serving_alone {s₀ : Server} (hs : s₀.Seated target buffer)
    (h : s₀.Serving number id e opening frames 0 x c q) (hf : .close ∉ frames)
    (ha : s₀.Alone number e.channel id n s) :
    s.Seated target buffer ∧ ∃ x c q, s.Serving number id e opening frames n x c q := by
  induction ha with
  | start => exact ⟨hs, x, c, q, h⟩
  | turn _ ih =>
    obtain ⟨hs', x', c', q', h'⟩ := ih
    exact ⟨hs'.act (.turn number), serving_turn hs' h' hf⟩
  | other a _ hx hc he ih =>
    obtain ⟨hs', x', c', q', h'⟩ := ih
    rw [h'.asks.registered] at hc
    exact ⟨hs'.act a, x', c', q', serving_other h' a hx hc he⟩

/-- A connection that joins the channel of a registered dataset begins with the opening. -/
theorem serving_join (hs : s.Seated target buffer) (hb : max buffer 1 ≤ Queue.maxCapacity)
    (he : s.host.registered? id = some e) (hc : s.host.world.channels[e.channel]? = some c)
    (hopen : c.closed = false) (hhandler : c.handler = some .service) (frames : List Inbound) :
    ∃ x c' q, ((s.join e.channel).arrive s.connections.length frames).Serving s.connections.length id e
      c.openFrame frames 0 x c' q := by
  have hid : c.id = id := by
    obtain ⟨_, c', hc', hid, _⟩ := hs.matched.entry id e he
    cases hc.symm.trans hc'
    exact hid
  have ha : s.host.world.attach e.channel s.host.world.buffer = .attached (c.queues.length + 1)
      (s.host.world.update e.channel (fun c => c.seat (max buffer 1))) := by
    rw [hs.buffer]
    exact Hub.attach_ok_iff.mpr ⟨c, hc, hopen, hb, rfl, rfl⟩
  have hface : (c.seat (max buffer 1)).face = c.face := c.seat_face _
  obtain ⟨hid', _, _, hhandler', hclosed'⟩ := HubChannel.of_face hface
  have hqueue := (Hub.attach_newest ha).2
  simp only [join, ha]
  refine ⟨{ channel := e.channel, conn := c.queues.length + 1, inbox := frames },
    c.seat (max buffer 1), { capacity := max buffer 1, frames := [.message c.openFrame] },
    ?_, rfl, hid'.trans hid, ⟨?_, hclosed'.trans hopen, hhandler'.trans hhandler, rfl, ?_, rfl⟩, ?_,
    by simp, rfl, rfl, fun h => by omega⟩
  · simp [arrive]
  · simp [arrive, Hub.update_channels, hc]
  · rw [hid', hid]
    exact he
  · obtain ⟨c', hc', hq⟩ := hqueue
    cases hc.symm.trans hc'
    rw [hs.buffer] at hq
    exact hq

theorem clear_of_serving (hs : s.Seated target buffer)
    (h : s.Serving number id e opening frames n x c q) (hempty : q.frames = []) :
    s.Clear number id := by
  refine ⟨⟨x, q, h.connection, h.queue, hempty⟩, fun v => ?_⟩
  obtain ⟨⟨service, hservice, hdispatch⟩, _⟩ :=
    Connection.hand_served hs.sound h.asks h.queue hempty v
  rw [h.named] at hdispatch
  exact ⟨service, _, hservice, hdispatch⟩

theorem written_prefix (h : s.Serving number id e opening frames n x c q) :
    x.written <+: .text opening.render :: frames.flatMap (Inbound.answer e.dataset) := by
  refine List.IsPrefix.trans ⟨_, h.written⟩ ?_
  refine ⟨(frames.drop n).flatMap (Inbound.answer e.dataset), ?_⟩
  rw [List.cons_append, ← List.flatMap_append, List.take_append_drop]

/-- The channel of a registered dataset opens with what was registered. -/
theorem openFrame_of_registered (hs : s.Seated target buffer) (he : s.host.registered? id = some e)
    (hc : s.host.world.channels[e.channel]? = some c) :
    c.openFrame = .obj [("comm_id", .str id), ("data", .obj [("title", .str e.dataset.title)]),
      ("msg_type", .str "comm_open"), ("target_name", .str target)] := by
  obtain ⟨_, c', hc', hid, htarget, hopening⟩ := hs.matched.entry id e he
  cases hc.symm.trans hc'
  simp only [HubChannel.openFrame, hid, htarget, hopening, Dataset.opening]

/-- Whatever the burst and the buffer, a viewer is written the opening with the id and the title of
the dataset and then, frame by frame, what answers the frames it sent: all of it once there was a turn
for each frame and one more. Whenever a frame is read, nothing is queued and the answer has room. -/
theorem burst_answered_in_order {network : Network} {actions : List Action}
    (hs : s = (Server.start target buffer network).run actions)
    (hb : max buffer 1 ≤ Queue.maxCapacity) (he : s.host.registered? id = some e)
    (hc : s.host.world.channels[e.channel]? = some c) (hopen : c.closed = false)
    (hhandler : c.handler = some .service) (hf : .close ∉ frames)
    (hnumber : number = s.connections.length) :
    let opening : Json := .obj [("comm_id", .str id),
      ("data", .obj [("title", .str e.dataset.title)]), ("msg_type", .str "comm_open"),
      ("target_name", .str target)]
    ∃ outs, List.Forall₂ (Inbound.Answered e.dataset) frames outs ∧ ∀ n s',
      ((s.join e.channel).arrive number frames).Alone number e.channel id n s' →
        (∃ x, s'.connections[number]? = some x ∧ x.running = true ∧ x.inbox = frames.drop n ∧
          x.written <+: .text opening.render :: outs.flatten ∧
          (frames.length < n → x.written = .text opening.render :: outs.flatten)) ∧
        (s'.doing number Connection.flush).Clear number id := by
  intro opening
  have hseated : s.Seated target buffer := by
    rw [hs]
    exact (Coherent.start target buffer network).toSeated.run actions
  have hjoined : (s.join e.channel).Seated target buffer := hseated.act (.join e.channel)
  have harrived : ((s.join e.channel).arrive number frames).Seated target buffer :=
    hjoined.change (a := .join e.channel) .arrived
  obtain ⟨x₀, c₀, q₀, h₀⟩ := serving_join hseated hb he hc hopen hhandler frames
  rw [← hnumber, openFrame_of_registered hseated he hc] at h₀
  refine ⟨frames.map (Inbound.answer e.dataset), ?_, fun n s' ha => ?_⟩
  · rw [List.forall₂_map_right_iff]
    exact List.forall₂_same.mpr (fun f hmem => answered_answer _ (fun h => hf (h ▸ hmem)))
  · obtain ⟨hs', x, c', q, h⟩ := serving_alone harrived h₀ hf ha
    have hflushed : (s'.doing number Connection.flush).Seated target buffer := hs'.act (.flush number)
    rw [← List.flatMap_def]
    refine ⟨⟨x, h.connection, h.running, h.inbox, written_prefix h, fun hn => ?_⟩,
      clear_of_serving hflushed (serving_flush hs' h) rfl⟩
    have hw := h.written
    rwa [h.drained hn, List.map_nil, List.append_nil, List.take_of_length_le (by omega)] at hw

/-- A server without a buffer that serves one table. -/
def oneTable : Server := (Server.start "t" 0 .loopback).run [.host (.register "" primes)]

def burst : List Inbound :=
  [.text "\x7b\"msg_type\":\"ready\"\x7d", .other, .text "ping", .text "7"]

theorem burst_of_four_answered : ∃ e c s' outs x,
    oneTable.host.registered? "primes" = some e ∧
    oneTable.host.world.channels[e.channel]? = some c ∧
    ((oneTable.join e.channel).arrive 0 burst).Alone 0 e.channel "primes" 5 s' ∧
    List.Forall₂ (Inbound.Answered e.dataset) burst outs ∧ s'.connections[0]? = some x ∧
    x.written = .text (Json.obj [("comm_id", .str "primes"),
      ("data", .obj [("title", .str "Primes")]), ("msg_type", .str "comm_open"),
      ("target_name", .str "t")]).render :: outs.flatten := by
  have hs : oneTable = (Server.start "t" 0 .loopback).run [.host (.register "" primes)] := rfl
  have he : oneTable.host.registered? "primes" = some ⟨primes, 0⟩ := rfl
  have hc : oneTable.host.world.channels[0]? =
      some ⟨"primes", "t", primes.opening, some .service, false, none, []⟩ := rfl
  have hf : .close ∉ burst := by simp [burst]
  obtain ⟨outs, hall, hrun⟩ := burst_answered_in_order hs (by decide) he hc rfl rfl hf rfl
  have ha : ((oneTable.join 0).arrive 0 burst).Alone 0 0 "primes" 5 _ :=
    Alone.start.turn.turn.turn.turn.turn
  obtain ⟨⟨x, hx, _, _, _, hw⟩, _⟩ := hrun 5 _ ha
  exact ⟨_, _, _, outs, x, he, hc, ha, hall, hx, hw (by decide)⟩

end Server

end PagedTables
