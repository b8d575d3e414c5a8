import PagedTables.Proofs.NewestConnection
import PagedTables.Proofs.Replacement

namespace PagedTables

namespace Queue

/-- What a connection is told of the end of its channel: nothing, when its queue is full. -/
def notice (q : Queue) : List Frame := if q.frames.length < q.capacity then [.close] else []

/-- The queue of a connection whose channel was closed. -/
def ended (q : Queue) : Queue := { q with frames := q.frames ++ q.notice, hasSender := false }

/-- Only the last frame of a queue that was ended can be the one that tells of the end. -/
theorem ended_last {q : Queue} (h : .close ∉ q.frames) : .close ∉ q.ended.frames.dropLast := by
  simp only [ended, notice]
  split
  next => rwa [List.dropLast_concat]
  next =>
    rw [List.append_nil]
    exact fun hmem => h (List.dropLast_subset q.frames hmem)

end Queue

theorem eq_nil_of_close {taken rest : List Frame}
    (h : .close ∉ (taken ++ .close :: rest).dropLast) :
    rest = [] := by
  cases rest with
  | nil => rfl
  | cons f rest =>
    rw [List.dropLast_append_of_ne_nil (List.cons_ne_nil _ _), List.dropLast_cons_cons] at h
    exact (h (List.mem_append_right _ List.mem_cons_self)).elim

namespace HubChannel

variable {c : HubChannel} {place : Nat} {q : Queue}

theorem isOpen_of_peer (h : c.Sound) {conn : Nat} (hp : c.peer = some conn) : c.closed = false := by
  cases hc : c.closed with
  | false => rfl
  | true => cases (h.closed hc).symm.trans hp

/-- When a channel is closed, its peer finds what waited for it and the notice, and no sender. -/
theorem shut_peer_queue (h : c.Sound) (hp : c.peer = some (place + 1))
    (hq : c.queues[place]? = some q) (hr : q.hasReader = true) :
    c.shut.queues[place]? = some q.ended := by
  have hpeer : c.peerQueue? = some (place + 1, q) := peerQueue?_eq_some_iff.mpr ⟨hp, hq⟩
  have htold : c.tell.queues[place]? = some { q with frames := q.frames ++ q.notice } := by
    simp only [tell, hpeer, Queue.notice]
    split
    next q' hpush =>
      obtain ⟨_, hroom, rfl⟩ := Queue.push_ok_iff.mp hpush
      simp [setQueue, updateQueue, hq, hroom]
    next e hpush =>
      have hfull : ¬ q.frames.length < q.capacity := fun hroom => by
        cases hpush.symm.trans (Queue.push_ok_iff.mpr ⟨hr, hroom, rfl⟩)
      simp [hq, hfull]
  rw [shut_of_open (isOpen_of_peer h hp)]
  refine ((tell_sound h).dropPeer_queues place).trans ?_
  rw [htold]
  rfl

end HubChannel

namespace Observed

variable {opening : Json} {o o' : Observed} {place n : Nat} {q : Queue}

/-- The connection at `place` has read `n` frames of `q`, which its channel had ended, since it
stood at `o`. -/
structure Drained (place : Nat) (q : Queue) (o : Observed) (n : Nat) (o' : Observed) : Prop where
  closed : o'.channel.closed = true
  queue : o'.channel.queues[place]? = some { q with frames := q.frames.drop n }
  read : o'.readBy place = o.readBy place ++ q.frames.take n

/-- Nothing but its own reading makes a difference to the connection. -/
theorem drained_run (h : o'.Streams opening) (hd : o.Drained place q n o')
    {later : List ChannelMove} (hm : .stopReading place ∉ later) :
    o.Drained place q (n + later.countP (·.takesAt place)) (o'.run later) := by
  have hgone : q.hasSender = false := by
    have hsender := h.sound.sender place _ hd.queue
    simpa [h.sound.closed hd.closed] using hsender
  have he := ebbs_run h hgone ⟨hd.queue, hd.read⟩ hm
  exact ⟨closed_run hd.closed later, he.queue, he.read⟩

/-- As long as the channel holds on to it, the queue has nothing of the end. -/
theorem close_not_mem (h : o.Streams opening) (hp : o.channel.peer = some (place + 1))
    (hq : o.channel.queues[place]? = some q) (hr : q.hasReader = true) : .close ∉ q.frames := by
  have hsender := (h.sound.sender place q hq).mpr hp
  obtain ⟨last, rfl | ⟨_, hgone⟩, hframes⟩ := (h.due place q hq).stream hr
  · intro hmem
    have hall := List.mem_append_right (o.readBy place) hmem
    rw [hframes] at hall
    simp at hall
  · cases hsender.symm.trans hgone

theorem drained_close (h : o.Streams opening) (hp : o.channel.peer = some (place + 1))
    (hq : o.channel.queues[place]? = some q) (hr : q.hasReader = true) :
    o.Drained place q.ended 0 (o.step .close) := by
  have hopen := HubChannel.isOpen_of_peer h.sound hp
  simp only [step, HubChannel.close_ok_iff.mpr ⟨hopen, rfl⟩]
  refine ⟨HubChannel.shut_closed _, HubChannel.shut_peer_queue h.sound hp hq hr, ?_⟩
  rw [List.take_zero, List.append_nil]
  rfl

theorem disconnected_of_drained (hd : o.Drained place q n o') (hgone : q.hasSender = false)
    (hall : q.frames.length ≤ n) : ∃ c, o'.channel.read (place + 1) = some (.disconnected, c) :=
  Ebbs.disconnected (o := o) ⟨hd.queue, hd.read⟩ hgone hall

end Observed

namespace HubChannel

/-- Every queue is as large as the channel's connections ask for, and none that still has its sender
was told of the end. -/
def Untold (capacity : Nat) (c : HubChannel) : Prop :=
  ∀ q ∈ c.queues, q.capacity = capacity ∧ (q.hasSender = true → .close ∉ q.frames)

namespace Untold

variable {capacity : Nat} {c : HubChannel}

theorem setFrames (h : c.Untold capacity) {place : Nat} {q : Queue} {frames : List Frame}
    (hq : c.queues[place]? = some q) (hf : .close ∈ frames → .close ∈ q.frames) :
    (c.setFrames place frames).Untold capacity := by
  intro q' hq'
  obtain ⟨n, hn⟩ := List.mem_iff_getElem?.mp hq'
  rw [setFrames_queues] at hn
  split at hn
  next heq =>
    subst heq
    rw [hq, Option.map_some] at hn
    cases Option.some.inj hn
    obtain ⟨hcapacity, hclose⟩ := h q (List.mem_of_getElem? hq)
    exact ⟨hcapacity, fun hs hmem => hclose hs (hf hmem)⟩
  next => exact h q' (List.mem_of_getElem? hn)

theorem dropPeer (h : c.Untold capacity) (hs : c.Sound) : c.dropPeer.Untold capacity := by
  intro q' hq'
  obtain ⟨n, hn⟩ := List.mem_iff_getElem?.mp hq'
  rw [hs.dropPeer_queues] at hn
  obtain ⟨q, hq, rfl⟩ := Option.map_eq_some_iff.mp hn
  exact ⟨(h q (List.mem_of_getElem? hq)).1, fun hsender => nomatch hsender⟩

theorem seat (h : c.Untold capacity) (hs : c.Sound) : (c.seat capacity).Untold capacity := by
  intro q hq
  rcases mem_seat hq with hq | rfl
  · exact h.dropPeer hs q hq
  · exact ⟨rfl, fun _ hmem => nomatch List.mem_singleton.mp hmem⟩

theorem shut (h : c.Untold capacity) (hs : c.Sound) : c.shut.Untold capacity := by
  cases hc : c.closed with
  | true => rwa [shut_of_closed hc]
  | false =>
    intro q' hq'
    obtain ⟨n, hn⟩ := List.mem_iff_getElem?.mp hq'
    obtain ⟨q, hq, rfl | ⟨_, _, rfl⟩⟩ := hs.shut_queues hc hn <;>
      exact ⟨(h q (List.mem_of_getElem? hq)).1, fun hsender => nomatch hsender⟩

end Untold

end HubChannel

namespace Hub

def Untold (capacity : Nat) (w : Hub) : Prop :=
  ∀ (n : Nat) (c : HubChannel), w.channels[n]? = some c → c.Untold capacity

namespace Untold

variable {capacity : Nat} {w w' : Hub}

theorem update (h : w.Untold capacity) {n : Nat} {f : HubChannel → HubChannel}
    (hf : ∀ c, w.channels[n]? = some c → c.Untold capacity → (f c).Untold capacity) :
    (w.update n f).Untold capacity := by
  intro m c' hc'
  rw [update_channels, getElem?_modify_ite] at hc'
  split at hc'
  next hn =>
    subst hn
    obtain ⟨c, hc, rfl⟩ := Option.map_eq_some_iff.mp hc'
    exact hf c hc (h n c hc)
  next => exact h m c' hc'

theorem setFrames (h : w.Untold capacity) {n place : Nat} {q : Queue} {frames : List Frame}
    (hq : w.queue? n place = some q) (hf : .close ∈ frames → .close ∈ q.frames) :
    (w.setFrames n place frames).Untold capacity := by
  refine h.update (fun c hc hu => ?_)
  rw [queue?_of_channel hc] at hq
  exact hu.setFrames hq hf

theorem send (h : w.Untold capacity) {n : Nat} {v : Json} (hs : Transport.send w n v = .ok w') :
    w'.Untold capacity := by
  obtain ⟨c, conn, q, hc, _, _, hq, _, _, rfl⟩ := send_ok_iff.mp hs
  refine h.setFrames (queue?_eq_some_iff.mpr ⟨c, hc, hq⟩) (fun hmem => ?_)
  simpa using hmem

theorem closes (h : w.Untold capacity) (hw : w.Sound) {which : Nat → Bool}
    (hcl : Closes which w w') : w'.Untold capacity := by
  intro n c' hc'
  rw [hcl.channels n] at hc'
  split at hc'
  next =>
    obtain ⟨c, hc, rfl⟩ := Option.map_eq_some_iff.mp hc'
    exact (h n c hc).shut (hw n c hc).1
  next => exact h n c' hc'

theorem create (h : w.Untold capacity) {target id : String} {opening : Json} {handler : Handler}
    {n : Nat} (hc : Transport.create w target id opening handler = .ok (n, w')) :
    w'.Untold capacity := by
  obtain ⟨_, rfl⟩ := create_ok_iff.mp hc
  intro m c hm
  rcases getElem?_concat_cases hm with hm | ⟨_, rfl⟩
  · exact h m c hm
  · exact fun q hq => nomatch hq

theorem step {h : Host Hub} (hu : h.world.Untold capacity) (hw : h.world.Sound) (e : Event) :
    (h.step e).1.world.Untold capacity := by
  have hf := step_effect h e
  generalize (h.step e).1 = h' at hf
  cases hf with
  | nothing _ hsame => rwa [hsame]
  | send _ hsend => exact hu.send hsend
  | close hclose =>
    obtain ⟨_, _, _, rfl⟩ := close_ok_iff.mp hclose
    exact hu.closes hw (.of_list (list.closes_update h.world _))
  | register _ hreg =>
    obtain ⟨_, channel, w₁, hcreate, _, rfl⟩ := register_ok_iff.mp hreg
    exact (hu.create hcreate).closes ((Evolves.create hcreate).sound hw)
      (.of_list (list.closes_old w₁ _))
  | shutdown => exact hu.closes hw (.of_list (list.closes_each h.world _))
  | drop => exact hu
  | create hcreate => exact hu.create hcreate
  | listen => exact hu.update (fun _ _ hc => hc)

end Untold

end Hub

namespace Connection

variable {c : Connection} {h : Host Hub} {q : Queue}

/-- A connection whose channel has let go of it writes all that waits, and stops. -/
theorem flush_ended (hr : c.running = true) (hq : c.queue? h.world = some q)
    (hgone : q.hasSender = false) (hlast : .close ∉ q.frames.dropLast) :
    c.flush h = (c.wrote q.frames false, { h with world := c.setFrames h.world [] }) := by
  obtain ⟨taken, rest, running, hf, heq, hon, hoff⟩ := flush_spec hr hq
  have hstop : running = false := by
    cases running with
    | false => rfl
    | true => cases hgone.symm.trans (hon rfl).2
  subst hstop
  have hrest : rest = [] := by
    rcases hoff rfl with hclose | ⟨hrest, _⟩
    · obtain ⟨before, after, rfl⟩ := List.append_of_mem hclose
      rw [hf, List.append_assoc, List.cons_append] at hlast
      exact (List.append_eq_nil_iff.mp (eq_nil_of_close hlast)).2
    · exact hrest
  rw [heq, hf, hrest, List.append_nil]

end Connection

/-- The events that close channel `n`: its host closes it, the dataset that it serves is replaced,
or the service shuts down. -/
inductive Host.Closing (h : Host Hub) (n : Nat) : Event → Prop
  | host : Closing h n (.close n)
  | replaced {fresh : String} {d : Dataset} {e : Entry} :
      h.registered? (d.named fresh).id = some e → e.channel = n → Closing h n (.register fresh d)
  | shutdown {id : String} {e : Entry} :
      h.registered? id = some e → e.channel = n → Closing h n .shutdown

theorem closing_step {h : Host Hub} {n : Nat} {c : HubChannel} {e : Event}
    (hc : h.world.channels[n]? = some c) (hopen : c.closed = false) (he : h.Closing n e) :
    (h.step e).1.world.channels[n]? = some c.shut := by
  cases he with
  | host =>
    have hclose : Transport.close h.world n = .ok (h.world.update n HubChannel.shut) :=
      Hub.close_ok_iff.mpr ⟨c, hc, hopen, rfl⟩
    simp only [Host.step, Host.settle, hclose]
    simp [Hub.update_channels, hc]
  | @replaced fresh d e he hn =>
    obtain ⟨s, hs, he⟩ := Host.registered?_eq_some_iff.mp he
    obtain ⟨⟨id, s', w⟩, hreg⟩ : ∃ made, s.register h.world fresh d = .ok made := ⟨_, rfl⟩
    obtain ⟨rfl, _, hcl⟩ := register_hub hreg
    have hlt := (List.getElem?_eq_some_iff.mp hc).1
    simp only [Host.step, hs, hreg]
    rw [hcl.channels, he]
    simp [hn, List.getElem?_append_left hlt, hc]
  | @shutdown id e he hn =>
    obtain ⟨s, hs, he⟩ := Host.registered?_eq_some_iff.mp he
    have hany : s.entries.any (fun e => e.2.channel == n) = true :=
      List.any_eq_true.mpr ⟨_, KeyMap.mem_of_get? he, by simp [hn]⟩
    simp only [Host.step, hs, Service.shutdown]
    have hcl := Hub.Closes.of_list (Hub.list.closes_each h.world s.entries)
    rw [hcl.channels, if_pos hany, hc, Option.map_some]

namespace Server

variable {target : String} {buffer : Nat} {s : Server} {number : Nat} {x : Connection} {q : Queue}

theorem untold_touches {a : Action} {h h' : Host Hub} (hw : h.world.Sound)
    (hb : h.world.buffer = buffer) (hu : h.world.Untold (max buffer 1)) (ht : Touches a h h') :
    h'.world.Untold (max buffer 1) := by
  subst hb
  cases ht with
  | same => exact hu
  | event _ => exact hu.step hw _
  | found id =>
    obtain ⟨_, hc⟩ := h.world.find_channels id
    exact fun n c hn => hu n c (hc ▸ hn)
  | seated ha =>
    obtain ⟨_, _, _, _, _, rfl⟩ := Hub.attach_ok_iff.mp ha
    exact hu.update (fun c hc hu => hu.seat (hw _ c hc).1)
  | left n conn =>
    refine hu.update (fun c hc hu => ?_)
    rcases HubChannel.detach_cases c conn with heq | heq
    · rwa [heq]
    · rw [heq]
      exact hu.dropPeer (hw _ c hc).1
  | read hq hf => exact hu.setFrames hq (fun hmem => hf ▸ List.mem_append_right _ hmem)

theorem untold_run (target : String) (buffer : Nat) (network : Network) (actions : List Action) :
    ((Server.start target buffer network).run actions).host.world.Untold (max buffer 1) := by
  have hstart : (Server.start target buffer network).Seated target buffer ∧
      (Server.start target buffer network).host.world.Untold (max buffer 1) := by
    refine ⟨(Coherent.start target buffer network).toSeated, fun n c hc => ?_⟩
    simp [Server.start, Host.start] at hc
  refine (run_of_single (P := fun s => s.Seated target buffer ∧
    s.host.world.Untold (max buffer 1)) ?_ hstart).2
  rintro s a h1 _ ⟨hs, hu⟩
  exact ⟨hs.change (act_change hs h1), untold_touches hs.sound hs.buffer hu (act_touches hs h1)⟩

theorem doing_on_still {other : Nat} (hx : s.connections[number]? = some x)
    {f : Connection → Host Hub → Connection × Host Hub}
    (hf : other = number → (f x s.host).1 = x) :
    (s.doing other f).connections[number]? = some x := by
  by_cases hn : other = number
  · subst hn
    rwa [doing_of_same hx (hf rfl)]
  · cases ho : s.connections[other]? with
    | none => rwa [doing_of_none ho]
    | some y => rwa [doing_of_some ho, List.getElem?_set_ne hn]

/-- What is written to a connection, and when it stops, is up to its own flushes and selects, and to
nothing once it has stopped. -/
theorem connection_act (hx : s.connections[number]? = some x) {a : Action} (h1 : a.Single)
    (hown : a = .flush number ∨ a = .select number → x.running = false) :
    ∃ y, (s.act a).connections[number]? = some y ∧ y.written = x.written ∧
      y.running = x.running := by
  cases a with
  | host e => exact ⟨x, hx, rfl, rfl⟩
  | look id => exact ⟨x, hx, rfl, rfl⟩
  | join channel =>
    have hlt := (List.getElem?_eq_some_iff.mp hx).1
    refine ⟨x, ?_, rfl, rfl⟩
    simp only [act, join]
    split <;> exact (List.getElem?_append_left hlt).trans hx
  | connect id => exact h1.elim
  | arrive other frame =>
    by_cases hn : other = number
    · exact ⟨{ x with inbox := x.inbox ++ [frame] }, by simp [act, arrive, hn, hx], rfl, rfl⟩
    · exact ⟨x, by simp [act, arrive, hn, hx], rfl, rfl⟩
  | flush other =>
    refine ⟨x, doing_on_still hx (fun hn => ?_), rfl, rfl⟩
    have hr := hown (.inl (hn ▸ rfl))
    simp [Connection.flush, hr]
  | select other =>
    refine ⟨x, doing_on_still hx (fun hn => ?_), rfl, rfl⟩
    have hr := hown (.inr (hn ▸ rfl))
    simp [Connection.select, hr]
  | leave other =>
    refine ⟨x, doing_on_still hx (fun _ => ?_), rfl, rfl⟩
    unfold Connection.leave
    split <;> rfl
  | turn other => exact h1.elim

/-- A connection that trails stops only when nothing waits for it any more. -/
def Exhausts (s : Server) (number : Nat) (x : Connection) (q : Queue) : Prop :=
  ∃ x' taken rest, s.Trails number x q x' taken rest ∧ (x'.running = false → rest = [])

section exhausts

variable {x' : Connection} {taken rest : List Frame}

theorem exhausts_flush (hgone : q.hasSender = false) (hlast : .close ∉ q.frames.dropLast)
    (ht : s.Trails number x q x' taken rest) (hr : x'.running = true) :
    (s.doing number Connection.flush).Exhausts number x q := by
  have hrest : .close ∉ rest.dropLast := by
    intro hmem
    cases rest with
    | nil => exact nomatch hmem
    | cons f rest =>
      rw [ht.frames, List.dropLast_append_of_ne_nil (List.cons_ne_nil _ _)] at hlast
      exact hlast (List.mem_append_right _ hmem)
  rw [doing_of_some ht.connection, Connection.flush_ended hr ht.queue hgone hrest]
  exact ⟨_, _, _, trails_wrote ht (List.append_nil rest).symm false, fun _ => rfl⟩

theorem exhausts_select (hgone : q.hasSender = false) (hlast : .close ∉ q.frames.dropLast)
    (ht : s.Trails number x q x' taken rest) (hr : x'.running = true) :
    (s.doing number Connection.select).Exhausts number x q := by
  have hlt := (List.getElem?_eq_some_iff.mp ht.connection).1
  rw [doing_of_some ht.connection]
  simp only [Connection.select, hr, ↓reduceIte]
  cases rest with
  | nil =>
    rw [Connection.task_of_gone ht.queue rfl hgone]
    exact ⟨x'.stop, taken, [], ⟨by simp [hlt], ht.channel, ht.conn, ht.frames, ht.queue, ht.written,
      ht.inbox⟩, fun _ => rfl⟩
  | cons f rest =>
    rw [Connection.task_of_frame ht.queue rfl]
    simp only
    rw [Connection.put_eq_wrote hr f]
    refine ⟨_, _, _, trails_wrote ht rfl _, fun hstopped => ?_⟩
    cases f with
    | message v =>
      have hgoes : (x'.put (.message v)).running = true := congrArg Connection.running
        (Connection.put_message hr v)
      exact (Bool.false_ne_true (hstopped.symm.trans hgoes)).elim
    | close =>
      rw [ht.frames] at hlast
      exact eq_nil_of_close hlast

theorem exhausts_act (hs : s.Seated target buffer) (hne : x.conn ≠ 0) (hgone : q.hasSender = false)
    (hlast : .close ∉ q.frames.dropLast) (h : s.Exhausts number x q) {a : Action} (h1 : a.Single) :
    (s.act a).Exhausts number x q := by
  obtain ⟨x', taken, rest, ht, hover⟩ := h
  by_cases hown : x'.running = true ∧ (a = .flush number ∨ a = .select number)
  · obtain ⟨hr, rfl | rfl⟩ := hown
    · exact exhausts_flush hgone hlast ht hr
    · exact exhausts_select hgone hlast ht hr
  · -- nothing more is written now, so what waits is still the same
    have hstill : a = .flush number ∨ a = .select number → x'.running = false := by
      intro ha
      by_contra hr
      exact hown ⟨eq_true_of_ne_false hr, ha⟩
    obtain ⟨y, hy, hwritten, hrunning⟩ := connection_act ht.connection h1 hstill
    obtain ⟨x'', taken', rest', ht'⟩ := trails_change hs hne hgone ht (act_change hs h1)
    cases hy.symm.trans ht'.connection
    have hlength : taken.length = taken'.length := by
      have := congrArg List.length (ht'.written.symm.trans (hwritten.trans ht.written))
      simp only [List.length_append, List.length_map] at this
      omega
    obtain ⟨_, rfl⟩ := List.append_inj (ht.frames.symm.trans ht'.frames) hlength
    exact ⟨y, taken', rest, ht', fun hstopped => hover (hrunning.symm.trans hstopped)⟩

theorem exhausts_run (hs : s.Seated target buffer) (hne : x.conn ≠ 0) (hgone : q.hasSender = false)
    (hlast : .close ∉ q.frames.dropLast) (h : s.Exhausts number x q) (later : List Action) :
    (s.run later).Exhausts number x q := by
  refine (run_of_single (P := fun s => s.Seated target buffer ∧ s.Exhausts number x q) ?_
    ⟨hs, h⟩).2
  rintro s a h1 _ ⟨hs, h⟩
  exact ⟨hs.change (act_change hs h1), exhausts_act hs hne hgone hlast h h1⟩

/-- At its next turn at the latest the connection has written all that waited for it, and stops. -/
theorem exhausts_turn (hs : s.Seated target buffer) (hne : x.conn ≠ 0) (hgone : q.hasSender = false)
    (hlast : .close ∉ q.frames.dropLast) (h : s.Exhausts number x q) :
    ∃ y, (s.turn number).connections[number]? = some y ∧ y.running = false ∧
      y.written = x.written ++ q.frames.map Frame.written := by
  have hafter := exhausts_run hs hne hgone hlast h [.turn number]
  obtain ⟨x', taken, rest, ht, -⟩ := h
  obtain ⟨y, hy, hstopped⟩ := turn_stops ht.connection ht.queue hgone
  obtain ⟨y', all, none, hall, hover⟩ := hafter
  cases hy.symm.trans hall.connection
  have hframes := hall.frames
  rw [hover hstopped, List.append_nil] at hframes
  subst hframes
  exact ⟨y, hy, hstopped, hall.written⟩

theorem exhausts_start (hx : s.connections[number]? = some x) (hr : x.running = true)
    (hq : x.queue? s.host.world = some q) : s.Exhausts number x q := by
  refine ⟨x, [], q.frames, ⟨hx, rfl, rfl, rfl, hq, by simp, List.prefix_rfl⟩, fun hstopped => ?_⟩
  cases hr.symm.trans hstopped

end exhausts

end Server

/-- A channel with a peer that reads can be closed, by its host, by another dataset under its id or
by a shutdown. Until then nothing tells the peer of an end. Whatever happens then, the peer gets the
frames that waited for it, in order, then the notice, if there was room for it in the queue, and then
it is over: its connection stops when all of that is written, and at the next turn at the latest. -/
theorem peer_told_of_close :
    (∀ (id target : String) (opening : Json) (handler : Option Handler) (moves : List ChannelMove)
        (place : Nat) (q : Queue),
      let o := Observed.run { channel := { id, target, opening, handler } } moves
      o.channel.peer = some (place + 1) → o.channel.queues[place]? = some q → q.hasReader = true →
      (∃ buffer, o.buffers[place]? = some buffer ∧ q.capacity = max buffer 1) ∧
      .close ∉ q.frames ∧ (∃ c, o.channel.close = .ok c) ∧
      ∀ later, .stopReading place ∉ later →
        let o' := (o.step .close).run later
        let taken := later.countP (·.takesAt place)
        o'.readBy place = o.readBy place ++ (q.frames ++ q.notice).take taken ∧
        ((q.frames ++ q.notice).length ≤ taken →
          ∃ c, o'.channel.read (place + 1) = some (.disconnected, c))) ∧
    ∀ (target : String) (buffer : Nat) (network : Network) (actions : List Server.Action)
        (number : Nat) (x : Connection) (c : HubChannel),
      let s := (Server.start target buffer network).run actions
      s.connections[number]? = some x → x.running = true →
      s.host.world.channels[x.channel]? = some c → c.peer = some x.conn →
      ∃ q, x.queue? s.host.world = some q ∧ q.capacity = max buffer 1 ∧ .close ∉ q.frames ∧
        (∃ w, Transport.close s.host.world x.channel = .ok w) ∧
        ∀ e, s.host.Closing x.channel e → ∀ later,
          let s' := (s.step e).1.run later
          s'.Exhausts number x q.ended ∧
          ∃ y, (s'.turn number).connections[number]? = some y ∧ y.running = false ∧
            y.written = x.written ++ (q.frames ++ q.notice).map Frame.written := by
  constructor
  · intro id target opening handler moves place q o hp hq hr
    have h : o.Streams (HubChannel.openFrame { id, target, opening, handler }) :=
      (Observed.Streams.start id target opening handler).run moves
    obtain ⟨buffer, hb⟩ := h.buffer_of_queue hq
    have hopen := HubChannel.isOpen_of_peer h.sound hp
    have hclosed := Observed.drained_close h hp hq hr
    refine ⟨⟨buffer, hb, (h.due place q hq).capacity buffer hb⟩, Observed.close_not_mem h hp hq hr,
      ⟨_, HubChannel.close_ok_iff.mpr ⟨hopen, rfl⟩⟩, fun later hm => ?_⟩
    have hd := Observed.drained_run (h.step .close) hclosed hm
    rw [Nat.zero_add] at hd
    exact ⟨hd.read, Observed.disconnected_of_drained hd rfl⟩
  · intro target buffer network actions number x c s hx hr hc hp
    have hs : s.Seated target buffer := (Server.Coherent.start target buffer network).toSeated.run _
    have hne := hs.placed number x hx hr
    obtain ⟨q, hq⟩ := hs.queue number x hx hne
    obtain ⟨hsound, hheard⟩ := hs.sound _ c hc
    have hopen := HubChannel.isOpen_of_peer hsound hp
    have hqc : c.queues[x.conn - 1]? = some q := (Hub.queue?_of_channel hc _).symm.trans hq
    have hpeer : c.peer = some (x.conn - 1 + 1) := by rw [hp, Nat.sub_one_add_one hne]
    have hmem := List.mem_of_getElem? hqc
    obtain ⟨hcapacity, hclose⟩ := Server.untold_run target buffer network actions _ c hc q hmem
    have huntold := hclose ((hsound.sender _ q hqc).mpr hpeer)
    have hlast := Queue.ended_last huntold
    refine ⟨q, hq, hcapacity, huntold, ⟨_, Hub.close_ok_iff.mpr ⟨c, hc, hopen, rfl⟩⟩, fun e he later => ?_⟩
    have hq' : x.queue? (s.step e).1.host.world = some q.ended :=
      (Hub.queue?_of_channel (closing_step hc hopen he) _).trans
        (HubChannel.shut_peer_queue hsound hpeer hqc (hheard q hmem))
    have hexhausts : ((s.step e).1.run later).Exhausts number x q.ended :=
      Server.exhausts_run (hs.act (.host e)) hne rfl hlast (Server.exhausts_start hx hr hq') later
    exact ⟨hexhausts, Server.exhausts_turn ((hs.act (.host e)).run later) hne rfl hlast hexhausts⟩

/-- A channel with one viewer, who has read nothing so far. -/
def visited (buffer : Nat) : Observed :=
  Observed.run { channel := { id := "a", target := "t", opening := .null, handler := none } }
    [.attach buffer]

/-- A server with one table and one viewer, who was sent nothing so far. -/
def visitedTable (buffer : Nat) : Server :=
  (Server.start "t" buffer .loopback).run [.host (.register "" primes), .connect "primes"]

theorem peer_with_room_told :
    (visited 2).channel.peer = some 1 ∧
    (((visited 2).step .close).run [.read 0, .read 0]).readBy 0 =
      [.message (visited 2).channel.openFrame, .close] ∧
    (visitedTable 2).host.Closing 0 (.register "" primes) ∧
    ∃ y, (((visitedTable 2).step (.register "" primes)).1.turn 0).connections[0]? = some y ∧
      y.running = false ∧ ∃ opening, y.written = [.text opening, .close] := by
  have he : (visitedTable 2).host.Closing 0 (.register "" primes) := .replaced rfl rfl
  obtain ⟨_, _, _, hread⟩ := peer_told_of_close.1 "a" "t" .null none [.attach 2] 0
    { capacity := 2, frames := [.message (visited 2).channel.openFrame] } rfl rfl rfl
  obtain ⟨hread, _⟩ := hread [.read 0, .read 0] (by simp)
  obtain ⟨q, hq, _, _, _, hclosed⟩ := peer_told_of_close.2 "t" 2 .loopback
    [.host (.register "" primes), .connect "primes"] 0 { channel := 0, conn := 1 }
    (((visitedTable 2).host.world.channels[0]?).getD (visited 2).channel) rfl rfl rfl rfl
  cases Option.some.inj hq
  obtain ⟨_, y, hy, hstopped, hwritten⟩ := hclosed _ he []
  exact ⟨rfl, hread, he, y, hy, hstopped, _, hwritten⟩

/-- A queue that the opening alone fills takes no notice, and its connection ends without one. -/
theorem peer_of_full_queue_not_told :
    (visited 1).channel.peer = some 1 ∧
    (∃ q, (visited 1).channel.queues[0]? = some q ∧ q.hasReader = true ∧
      q.frames = [.message (visited 1).channel.openFrame]) ∧
    (((visited 1).step .close).run [.read 0]).readBy 0 =
      [.message (visited 1).channel.openFrame] ∧
    (∃ c, (((visited 1).step .close).run [.read 0]).channel.read 1 = some (.disconnected, c)) ∧
    ∃ y, (((visitedTable 1).step (.close 0)).1.turn 0).connections[0]? = some y ∧
      y.running = false ∧ .close ∉ y.written := by
  refine ⟨rfl, ⟨_, rfl, rfl, rfl⟩, rfl, ⟨_, rfl⟩, _, rfl, rfl, ?_⟩
  exact fun hmem => nomatch List.mem_singleton.mp hmem

end PagedTables
