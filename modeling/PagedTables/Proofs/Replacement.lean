import PagedTables.Proofs.Replies
import PagedTables.Proofs.Viewers

namespace PagedTables

namespace Server

/-- `x` has a place at a channel, but a newer connection has come there, or the channel was closed, or
its id no longer leads the service to it. -/
def Outdated (s : Server) (x : Connection) : Prop :=
  x.conn ≠ 0 ∧
    ((∃ y ∈ s.connections, y.channel = x.channel ∧ x.conn < y.conn) ∨
      ∃ c, s.host.world.channels[x.channel]? = some c ∧
        (c.closed = true ∨ ∀ e, s.host.registered? c.id = some e → e.channel ≠ x.channel))

variable {target : String} {buffer : Nat} {s : Server} {number : Nat} {x : Connection}

theorem gone_of_outdated (hs : s.Coherent target buffer) (ho : s.Outdated x) {q : Queue}
    (hq : x.queue? s.host.world = some q) : q.hasSender = false := by
  obtain ⟨hne, hcases⟩ := ho
  refine Bool.eq_false_iff.mpr (fun hsender => ?_)
  obtain ⟨c, e, ha⟩ := asks_of_hasSender hs hne hq hsender
  rcases hcases with ⟨y, hy, hch, hlt⟩ | ⟨c', hc', hclosed | hentry⟩
  · obtain ⟨j, hj⟩ := List.mem_iff_getElem?.mp hy
    obtain ⟨qy, hqy⟩ := hs.queue j y hj (by omega)
    rw [Connection.queue?, hch, Hub.queue?_of_channel ha.channel] at hqy
    have hlen := (List.getElem?_eq_some_iff.mp hqy).1
    -- the peer is the newest connection
    have hnewest := ((hs.sound _ c ha.channel).1.peer _ ha.peer).2
    omega
  · cases ha.channel.symm.trans hc'
    simp [ha.isOpen] at hclosed
  · cases ha.channel.symm.trans hc'
    exact hentry e ha.entry ha.registered

/-- How far the connection `x` has come with the frames that were queued for it when its channel let
go of it; no frame from its socket was dealt with since. -/
structure Trails (number : Nat) (x : Connection) (q : Queue) (s : Server) (x' : Connection)
    (taken rest : List Frame) : Prop where
  connection : s.connections[number]? = some x'
  channel : x'.channel = x.channel
  conn : x'.conn = x.conn
  frames : q.frames = taken ++ rest
  queue : x'.queue? s.host.world = some { q with frames := rest }
  written : x'.written = x.written ++ taken.map Frame.written
  inbox : x.inbox <+: x'.inbox

/-- The connection writes more of what waits. -/
theorem trails_wrote {q : Queue} {x' : Connection} {taken rest taken' rest' : List Frame}
    (ht : s.Trails number x q x' taken rest) (hf : rest = taken' ++ rest') (running : Bool) :
    Trails number x q { s with
      host := { s.host with world := x'.setFrames s.host.world rest' }
      connections := s.connections.set number (x'.wrote taken' running) }
      (x'.wrote taken' running) (taken ++ taken') rest' := by
  have hlt := (List.getElem?_eq_some_iff.mp ht.connection).1
  refine ⟨by simp [hlt], ht.channel, ht.conn, ?_, ?_, ?_, ht.inbox⟩
  · rw [ht.frames, hf, List.append_assoc]
  · exact Connection.queue?_setFrames ht.queue rest'
  · simp only [Connection.wrote, ht.written, List.map_append, List.append_assoc]

theorem trails_effect {q q' : Queue} {x' x'' : Connection} {taken rest : List Frame} {h : Host Hub}
    (hgone : q.hasSender = false) (ht : s.Trails number x q x' taken rest)
    (hq : x'.queue? s.host.world = some q') (he : x'.Effect s.host q' x'' h) :
    ∃ taken rest, Trails number x q
      { s with host := h, connections := s.connections.set number x'' } x'' taken rest := by
  have hlt := (List.getElem?_eq_some_iff.mp ht.connection).1
  have hset : (s.connections.set number x'')[number]? = some x'' := by simp [hlt]
  cases ht.queue.symm.trans hq
  cases he with
  | @wrote taken' rest' running hf => exact ⟨taken ++ taken', rest', trails_wrote ht hf running⟩
  | handed _ hsender => cases hgone.symm.trans hsender
  | passed _ hsender => cases hgone.symm.trans hsender
  | stayed =>
    exact ⟨taken, rest, hset, ht.channel, ht.conn, ht.frames, ht.queue, ht.written, ht.inbox⟩

theorem trails_change {q : Queue} {s' : Server} {x' : Connection} {taken rest : List Frame}
    (hs : s.Seated target buffer) (hne : x.conn ≠ 0) (hgone : q.hasSender = false)
    (ht : s.Trails number x q x' taken rest) {a : Action} (hc : Change a s s') :
    ∃ x' taken rest, s'.Trails number x q x' taken rest := by
  cases hc with
  | host hf =>
    obtain ⟨q', hq', heq⟩ := hf.evolves.spares hs.sound _ _ _ ht.queue
    cases heq hgone
    exact ⟨x', taken, rest, ht.connection, ht.channel, ht.conn, ht.frames, hq', ht.written, ht.inbox⟩
  | joined hf =>
    obtain ⟨q', hq', heq⟩ := hf.evolves.spares hs.sound _ _ _ ht.queue
    cases heq hgone
    have hlt := (List.getElem?_eq_some_iff.mp ht.connection).1
    exact ⟨x', taken, rest, (List.getElem?_append_left hlt).trans ht.connection, ht.channel, ht.conn,
      ht.frames, hq', ht.written, ht.inbox⟩
  | @arrived number' frames =>
    by_cases hn : number' = number
    · refine ⟨{ x' with inbox := x'.inbox ++ frames }, taken, rest, ?_, ht.channel, ht.conn, ht.frames,
        ht.queue, ht.written, ht.inbox.trans (List.prefix_append _ _)⟩
      simp [arrive, hn, ht.connection]
    · refine ⟨x', taken, rest, ?_, ht.channel, ht.conn, ht.frames, ht.queue, ht.written, ht.inbox⟩
      simp [arrive, hn, ht.connection]
  | @acted number' y y' q' h hy hr hq he =>
    by_cases hn : number' = number
    · subst hn
      cases hy.symm.trans ht.connection
      obtain ⟨taken', rest', ht'⟩ := trails_effect hgone ht hq he
      exact ⟨y', taken', rest', ht'⟩
    · obtain ⟨q'', hq'', heq⟩ := he.evolves.spares hs.sound _ _ _ ht.queue
      -- no two connections read one queue
      have hapart : ¬ (y.channel = x'.channel ∧ y.conn - 1 = x'.conn - 1) := by
        rintro ⟨hch, hplace⟩
        have hy0 := hs.placed number' y hy hr
        have hx0 : x'.conn ≠ 0 := ht.conn ▸ hne
        exact hn (hs.apart number' number y x' hy ht.connection hch (by omega) hy0)
      cases heq hgone hapart
      refine ⟨x', taken, rest, ?_, ht.channel, ht.conn, ht.frames, hq'', ht.written, ht.inbox⟩
      simp [hn, ht.connection]

theorem trails_run {q : Queue} (hs : s.Seated target buffer) (hne : x.conn ≠ 0)
    (hgone : q.hasSender = false) (hx : s.connections[number]? = some x)
    (hq : x.queue? s.host.world = some q) (later : List Action) :
    ∃ x' taken rest, (s.run later).Trails number x q x' taken rest := by
  have hstart : s.Seated target buffer ∧ ∃ x' taken rest, s.Trails number x q x' taken rest :=
    ⟨hs, x, [], q.frames, hx, rfl, rfl, rfl, hq, by simp, List.prefix_rfl⟩
  refine (run_of_single (P := fun s => s.Seated target buffer ∧
    ∃ x' taken rest, s.Trails number x q x' taken rest) ?_ hstart).2
  rintro s a h1 _ ⟨hs, x', taken, rest, ht⟩
  have hc := act_change hs h1
  exact ⟨hs.change hc, trails_change hs hne hgone ht hc⟩

/-- A turn after the channel let go of a connection is the last one. -/
theorem turn_stops {q : Queue} (hx : s.connections[number]? = some x)
    (hq : x.queue? s.host.world = some q) (hgone : q.hasSender = false) :
    ∃ y, (s.turn number).connections[number]? = some y ∧ y.running = false := by
  have hlt := (List.getElem?_eq_some_iff.mp hx).1
  obtain ⟨y, hy, hstopped⟩ : ∃ y, (s.doing number Connection.flush).connections[number]? = some y ∧
      y.running = false := by
    rw [doing_of_some hx]
    refine ⟨(x.flush s.host).1, by simp [hlt], ?_⟩
    cases hr : x.running with
    | false => simp [Connection.flush, hr]
    | true =>
      obtain ⟨taken, rest, running, _, heq, hon, _⟩ := Connection.flush_spec hr hq
      rw [heq]
      cases running with
      | false => rfl
      | true => cases hgone.symm.trans (hon rfl).2
  have hselect : (s.doing number Connection.flush).doing number Connection.select =
      s.doing number Connection.flush := by
    have hsame : y.select (s.doing number Connection.flush).host =
        (y, (s.doing number Connection.flush).host) := by simp [Connection.select, hstopped]
    rw [doing_of_same hy (by rw [hsame]), hsame]
  rw [turn, hselect, doing_of_same hy (by simp [Connection.leave, hstopped])]
  exact ⟨y, hy, hstopped⟩

/-- The connection that hands a message to its channel is the peer of the open channel that is
registered under its id, and the answer is put into its queue and into no other. Once the connection
is outdated it hands over nothing more: whatever happens, it only writes what was queued for it, and
its next turn is its last one. -/
theorem asker_answered_until_outdated {network : Network} {actions : List Action}
    (ha : ∀ a ∈ actions, a.Ordinary)
    (hs : s = (Server.start target buffer network).run actions)
    (hx : s.connections[number]? = some x) :
    (∀ v, x.running = true → x.task s.host.world = .hand v →
      ∃ c e q answer, x.Asks s.host c e ∧ x.queue? s.host.world = some q ∧ Answers e.dataset v answer ∧
        ∀ n place, (x.select s.host).2.world.queue? n place =
          if x.channel = n ∧ x.conn - 1 = place
            then some { q with frames := q.frames ++ [.message answer] }
          else s.host.world.queue? n place) ∧
      (s.Outdated x → ∃ q, x.queue? s.host.world = some q ∧ ∀ later : List Action,
        ∃ x' taken rest, (s.run later).Trails number x q x' taken rest ∧
          (∀ v, x'.task (s.run later).host.world ≠ .hand v) ∧
          ∃ y, ((s.run later).turn number).connections[number]? = some y ∧ y.running = false) := by
  have hcoherent : s.Coherent target buffer := by
    rw [hs]
    exact (Coherent.start target buffer network).run ha
  refine ⟨fun v hr ht => ?_, fun ho => ?_⟩
  · have hne := hcoherent.placed number x hx hr
    obtain ⟨q, hq⟩ := hcoherent.queue number x hx hne
    obtain ⟨hempty, hsender⟩ := Connection.of_task_hand hq ht
    obtain ⟨c, e, hasks⟩ := asks_of_hasSender hcoherent hne hq hsender
    obtain ⟨_, hdeliver⟩ := Connection.hand_served hcoherent.sound hasks hq hempty v
    refine ⟨c, e, q, _, hasks, hq, reply_answers e.dataset v, fun n place => ?_⟩
    have hselect : (x.select s.host).2 = (s.host.deliver x.channel v).1 := by
      simp [Connection.select, hr, ht]
    rw [hselect, hdeliver, hempty]
    simp only [Connection.setFrames, Hub.setFrames_queue?]
    split
    next hown =>
      obtain ⟨rfl, rfl⟩ := hown
      rw [show s.host.world.queue? x.channel (x.conn - 1) = some q from hq]
      rfl
    next => rfl
  · obtain ⟨q, hq⟩ := hcoherent.queue number x hx ho.1
    have hgone := gone_of_outdated hcoherent ho hq
    refine ⟨q, hq, fun later => ?_⟩
    obtain ⟨x', taken, rest, ht⟩ := trails_run hcoherent.toSeated ho.1 hgone hx hq later
    refine ⟨x', taken, rest, ht, fun v hv => ?_, turn_stops ht.connection ht.queue hgone⟩
    cases hgone.symm.trans (Connection.of_task_hand ht.queue hv).2

/-- Two viewers come to one table, and the second one asks for the first page. -/
def twoViewers : List Action :=
  [.host (.register "" primes), .connect "primes", .connect "primes",
    .arrive 1 (.text "\x7b\"msg_type\":\"ready\"\x7d"), .flush 1]

def replaced : Server := (Server.start "t" 0 .loopback).run twoViewers

theorem newer_viewer_answered : (∀ a ∈ twoViewers, a.Ordinary) ∧
    ∃ x y, replaced.connections[0]? = some x ∧ replaced.connections[1]? = some y ∧
      y.task replaced.host.world = .hand readyRequest ∧
      (∃ c e answer, y.Asks replaced.host c e ∧ Answers e.dataset readyRequest answer) ∧
      replaced.Outdated x ∧
      ∃ z, (replaced.turn 0).connections[0]? = some z ∧ z.running = false := by
  have ha : ∀ a ∈ twoViewers, a.Ordinary := by
    intro a ha
    simp only [twoViewers, List.mem_cons, List.not_mem_nil, or_false] at ha
    rcases ha with rfl | rfl | rfl | rfl | rfl <;> trivial
  have hs : replaced = (Server.start "t" 0 .loopback).run twoViewers := rfl
  have hparse : Json.parse .ofText "\x7b\"msg_type\":\"ready\"\x7d" = .ok readyRequest := by
    have htokens : Json.tokens "\x7b\"msg_type\":\"ready\"\x7d".toList = [.mark '\x7b',
        .text (some "msg_type"), .mark ':', .text (some "ready"), .mark '\x7d'] := by
      simp [Json.tokens, Json.isBlank, Json.scanToken, Json.scanText]
    rw [Json.parse, Json.decode, Json.scan, htokens]
    rfl
  have htask : Task.ofInbox [.text "\x7b\"msg_type\":\"ready\"\x7d"] = .hand readyRequest := by
    simp only [Task.ofInbox, hparse]
  obtain ⟨y, hy, hr, ht⟩ : ∃ y, replaced.connections[1]? = some y ∧ y.running = true ∧
      y.task replaced.host.world = .hand readyRequest := ⟨_, rfl, rfl, htask⟩
  have hx : replaced.connections[0]? = some { channel := 0, conn := 1 } := rfl
  have ho : replaced.Outdated { channel := 0, conn := 1 } :=
    ⟨by decide, .inl ⟨_, List.mem_cons_of_mem _ List.mem_cons_self, rfl, by decide⟩⟩
  obtain ⟨c, e, _, answer, hasks, _, hanswer, _⟩ := (asker_answered_until_outdated ha hs hy).1 _ hr ht
  obtain ⟨_, _, hlater⟩ := (asker_answered_until_outdated ha hs hx).2 ho
  obtain ⟨_, _, _, _, _, hlast⟩ := hlater []
  exact ⟨ha, _, y, hx, hy, ht, ⟨c, e, answer, hasks, hanswer⟩, ho, hlast⟩

end Server

end PagedTables
