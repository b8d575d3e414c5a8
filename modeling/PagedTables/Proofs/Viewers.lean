import PagedTables.Proofs.ConnectionTurns
import PagedTables.Server

namespace PagedTables

namespace Server

def Action.Ordinary : Action → Prop
  | .host e => e.Ordinary
  | _ => True

/-- An action that is not made of others. -/
def Action.Single : Action → Prop
  | .connect _ => False
  | .turn _ => False
  | _ => True

/-- The actions in which the host has no part. -/
def Action.Viewing : Action → Prop
  | .host _ => False
  | _ => True

/-- Every connection that has a place at a channel has it for itself. -/
structure Seated (target : String) (buffer : Nat) (s : Server) : Prop where
  buffer : s.host.world.buffer = buffer
  sound : s.host.world.Sound
  matched : s.host.Matched target
  queue : ∀ (i : Nat) (x : Connection), s.connections[i]? = some x → x.conn ≠ 0 →
    ∃ q, x.queue? s.host.world = some q
  placed : ∀ (i : Nat) (x : Connection), s.connections[i]? = some x → x.running = true → x.conn ≠ 0
  apart : ∀ (i j : Nat) (x y : Connection), s.connections[i]? = some x →
    s.connections[j]? = some y → x.channel = y.channel → x.conn = y.conn → x.conn ≠ 0 → i = j

structure Coherent (target : String) (buffer : Nat) (s : Server) : Prop
    extends Seated target buffer s where
  host : s.host.Coherent target

/-- All that a single action does to a server. -/
inductive Change (a : Action) (s : Server) : Server → Prop
  | host {h : Host Hub} : Host.Follows a.Ordinary s.host h → Change a s { s with host := h }
  | joined {h : Host Hub} {c : Connection} : Host.Follows a.Ordinary s.host h →
      (c.running = true → c.conn ≠ 0) →
      (c.conn ≠ 0 → c.queue? s.host.world = none ∧ ∃ q, c.queue? h.world = some q) →
      Change a s { s with host := h, connections := s.connections ++ [c] }
  | arrived {number : Nat} {frames : List Inbound} : Change a s (s.arrive number frames)
  | acted {number : Nat} {x x' : Connection} {q : Queue} {h : Host Hub} :
      s.connections[number]? = some x → x.running = true → x.queue? s.host.world = some q →
      x.Effect s.host q x' h →
      Change a s { s with host := h, connections := s.connections.set number x' }

/-- All that a single action does to the host. A message is delivered when a connection hands it over.
-/
inductive Touches (a : Action) (h : Host Hub) : Host Hub → Prop
  | same : Touches a h h
  | event {e : Event} : a = .host e ∨ (∃ n v, e = .deliver n v) → Touches a h (h.step e).1
  | found (id : String) : Touches a h { h with world := (h.world.find id).2 }
  | seated {n conn : Nat} {w : Hub} : h.world.attach n h.world.buffer = .attached conn w →
      Touches a h { h with world := w }
  | left (n conn : Nat) : Touches a h { h with world := h.world.detach n conn }
  | read {n place : Nat} {q : Queue} {taken rest : List Frame} : h.world.queue? n place = some q →
      q.frames = taken ++ rest → Touches a h { h with world := h.world.setFrames n place rest }

variable {target : String} {buffer : Nat} {s s' : Server}

theorem doing_of_some {number : Nat} {x : Connection} (hx : s.connections[number]? = some x)
    (f : Connection → Host Hub → Connection × Host Hub) :
    s.doing number f =
      { s with host := (f x s.host).2, connections := s.connections.set number (f x s.host).1 } := by
  simp only [doing, hx]

theorem doing_of_none {number : Nat} (hx : s.connections[number]? = none)
    (f : Connection → Host Hub → Connection × Host Hub) : s.doing number f = s := by
  simp only [doing, hx]

theorem doing_of_same {number : Nat} {x : Connection} (hx : s.connections[number]? = some x)
    {f : Connection → Host Hub → Connection × Host Hub} (hf : (f x s.host).1 = x) :
    s.doing number f = { s with host := (f x s.host).2 } := by
  rw [doing_of_some hx, hf]
  obtain ⟨hlt, rfl⟩ := List.getElem?_eq_some_iff.mp hx
  rw [List.set_getElem_self]

theorem change_of_effect (hs : s.Seated target buffer) (a : Action) {number : Nat}
    {f : Connection → Host Hub → Connection × Host Hub}
    (hstill : ∀ x : Connection, x.running = false → f x s.host = (x, s.host))
    (heffect : ∀ (x : Connection) (q : Queue), x.running = true → x.queue? s.host.world = some q →
      x.Effect s.host q (f x s.host).1 (f x s.host).2) : Change a s (s.doing number f) := by
  cases hx : s.connections[number]? with
  | none =>
    rw [doing_of_none hx]
    exact .host (.refl _ _)
  | some x =>
    cases hr : x.running with
    | false =>
      have hf := hstill x hr
      rw [doing_of_same hx (by rw [hf]), hf]
      exact .host (.refl _ _)
    | true =>
      obtain ⟨q, hq⟩ := hs.queue number x hx (hs.placed number x hx hr)
      rw [doing_of_some hx]
      exact .acted hx hr hq (heffect x q hr hq)

theorem leave_change (s : Server) (a : Action) (number : Nat) :
    Change a s (s.doing number Connection.leave) := by
  cases hx : s.connections[number]? with
  | none =>
    rw [doing_of_none hx]
    exact .host (.refl _ _)
  | some x =>
    have hsame : (x.leave s.host).1 = x := by
      unfold Connection.leave
      split <;> rfl
    rw [doing_of_same hx hsame]
    unfold Connection.leave
    split
    next => exact .host (.refl _ _)
    next => exact .host (.detach _ _ _)

theorem join_change (s : Server) (a : Action) (channel : Nat) : Change a s (s.join channel) := by
  unfold join
  split
  next conn w ha =>
    obtain ⟨hnone, _, _, hsome⟩ := Hub.attach_newest ha
    obtain ⟨_, _, _, _, hconn, _⟩ := Hub.attach_ok_iff.mp ha
    exact .joined (.attach ha) (fun _ => by simp [hconn]) (fun _ => ⟨hnone, _, hsome⟩)
  next => exact .joined (.refl _ _) (fun h => by cases h) (fun h => (h rfl).elim)
  next => exact .joined (.refl _ _) (fun h => by cases h) (fun h => (h rfl).elim)

theorem act_change (hs : s.Seated target buffer) {a : Action} (h1 : a.Single) :
    Change a s (s.act a) := by
  cases a with
  | host e => exact .host (.step s.host e)
  | look id => exact .host (.find s.host id)
  | join channel => exact join_change s _ channel
  | connect id => exact h1.elim
  | arrive number frame => exact .arrived
  | flush number =>
    exact change_of_effect hs _ (fun x hr => by simp [Connection.flush, hr])
      (fun x q hr hq => Connection.flush_effect hr hq)
  | select number =>
    exact change_of_effect hs _ (fun x hr => by simp [Connection.select, hr])
      (fun x q hr hq => Connection.select_effect hr hq)
  | leave number => exact leave_change s _ number
  | turn number => exact h1.elim

theorem touches_doing (hs : s.Seated target buffer) (a : Action) {number : Nat}
    {f : Connection → Host Hub → Connection × Host Hub}
    (hstill : ∀ x : Connection, x.running = false → f x s.host = (x, s.host))
    (heffect : ∀ (x : Connection) (q : Queue), x.running = true → x.queue? s.host.world = some q →
      x.Effect s.host q (f x s.host).1 (f x s.host).2) :
    Touches a s.host (s.doing number f).host := by
  cases hx : s.connections[number]? with
  | none =>
    rw [doing_of_none hx]
    exact .same
  | some x =>
    rw [doing_of_some hx]
    cases hr : x.running with
    | false =>
      rw [hstill x hr]
      exact .same
    | true =>
      obtain ⟨q, hq⟩ := hs.queue number x hx (hs.placed number x hx hr)
      have he := heffect x q hr hq
      generalize f x s.host = made at he
      obtain ⟨x', h⟩ := made
      cases he with
      | wrote hf => exact .read hq hf
      | handed => exact .event (e := .deliver x.channel _) (.inr ⟨_, _, rfl⟩)
      | passed => exact .same
      | stayed => exact .same

theorem touches_leave (s : Server) (a : Action) (number : Nat) :
    Touches a s.host (s.doing number Connection.leave).host := by
  cases hx : s.connections[number]? with
  | none =>
    rw [doing_of_none hx]
    exact .same
  | some x =>
    rw [doing_of_some hx]
    unfold Connection.leave
    split
    next => exact .same
    next => exact .left _ _

theorem act_touches (hs : s.Seated target buffer) {a : Action} (h1 : a.Single) :
    Touches a s.host (s.act a).host := by
  cases a with
  | host e => exact .event (.inl rfl)
  | look id => exact .found id
  | join channel =>
    simp only [act, join]
    split
    next ha => exact .seated ha
    next => exact .same
    next => exact .same
  | connect id => exact h1.elim
  | arrive number frame => exact .same
  | flush number =>
    exact touches_doing hs _ (fun x hr => by simp [Connection.flush, hr])
      (fun x q hr hq => Connection.flush_effect hr hq)
  | select number =>
    exact touches_doing hs _ (fun x hr => by simp [Connection.select, hr])
      (fun x q hr hq => Connection.select_effect hr hq)
  | leave number => exact touches_leave s _ number
  | turn number => exact h1.elim

namespace Seated

theorem of_connections (hs : s.Seated target buffer) (hb : s'.host.world.buffer = buffer)
    (hsound : s'.host.world.Sound) (hm : s'.host.Matched target)
    (hq : ∀ (n k : Nat) (q : Queue), s.host.world.queue? n k = some q →
      ∃ q', s'.host.world.queue? n k = some q')
    (hc : ∀ (i : Nat) (x' : Connection), s'.connections[i]? = some x' →
      ∃ x, s.connections[i]? = some x ∧ x'.channel = x.channel ∧ x'.conn = x.conn ∧
        (x'.running = true → x.running = true)) : s'.Seated target buffer := by
  refine ⟨hb, hsound, hm, fun i x' hx' hne => ?_, fun i x' hx' hr => ?_,
    fun i j x' y' hx' hy' hch hconn hne => ?_⟩
  · obtain ⟨x, hx, hchannel, hconn, _⟩ := hc i x' hx'
    obtain ⟨q, hq₀⟩ := hs.queue i x hx (hconn ▸ hne)
    simp only [Connection.queue?, hchannel, hconn]
    exact hq _ _ q hq₀
  · obtain ⟨x, hx, _, hconn, hrun⟩ := hc i x' hx'
    exact hconn ▸ hs.placed i x hx (hrun hr)
  · obtain ⟨x, hx, hchannel, hconn', _⟩ := hc i x' hx'
    obtain ⟨y, hy, hchannel', hconn'', _⟩ := hc j y' hy'
    exact hs.apart i j x y hx hy (by rw [← hchannel, hch, hchannel'])
      (by rw [← hconn', hconn, hconn'']) (hconn' ▸ hne)

theorem join (hs : s.Seated target buffer) {h : Host Hub} {c : Connection} {ordinary : Prop}
    (hf : Host.Follows ordinary s.host h) (hr : c.running = true → c.conn ≠ 0)
    (hq : c.conn ≠ 0 → c.queue? s.host.world = none ∧ ∃ q, c.queue? h.world = some q) :
    Seated target buffer { s with host := h, connections := s.connections ++ [c] } := by
  -- an older connection has a queue where the new one had none
  have hapart : ∀ (i : Nat) (x : Connection), s.connections[i]? = some x →
      x.channel = c.channel → x.conn = c.conn → x.conn ≠ 0 → False := by
    intro i x hx hch hconn hne
    obtain ⟨q, hq₀⟩ := hs.queue i x hx hne
    have hnone := (hq (hconn ▸ hne)).1
    simp only [Connection.queue?, hch, hconn] at hq₀ hnone
    exact Option.some_ne_none _ (hq₀.symm.trans hnone)
  refine ⟨hf.evolves.buffer.trans hs.buffer, hf.evolves.sound hs.sound, hf.matched _ hs.matched,
    fun i x hx hne => ?_, fun i x hx hrun => ?_, fun i j x y hx hy hch hconn hne => ?_⟩
  · rcases getElem?_concat_cases hx with hx | ⟨_, rfl⟩
    · obtain ⟨q, hq₀⟩ := hs.queue i x hx hne
      obtain ⟨q', hq', _⟩ := hf.evolves.spares hs.sound _ _ q hq₀
      exact ⟨q', hq'⟩
    · exact (hq hne).2
  · rcases getElem?_concat_cases hx with hx | ⟨_, rfl⟩
    · exact hs.placed i x hx hrun
    · exact hr hrun
  · rcases getElem?_concat_cases hx with hx₀ | ⟨hi, rfl⟩
    · rcases getElem?_concat_cases hy with hy₀ | ⟨_, rfl⟩
      · exact hs.apart i j x y hx₀ hy₀ hch hconn hne
      · exact (hapart i x hx₀ hch hconn hne).elim
    · rcases getElem?_concat_cases hy with hy₀ | ⟨hj, rfl⟩
      · exact (hapart j y hy₀ hch.symm hconn.symm (hconn ▸ hne)).elim
      · exact hi.trans hj.symm

theorem change (hs : s.Seated target buffer) {a : Action} (hc : Change a s s') :
    s'.Seated target buffer := by
  cases hc with
  | host hf =>
    refine hs.of_connections (hf.evolves.buffer.trans hs.buffer) (hf.evolves.sound hs.sound)
      (hf.matched _ hs.matched) (fun n k q hq => ?_) (fun i x hx => ⟨x, hx, rfl, rfl, id⟩)
    obtain ⟨q', hq', _⟩ := hf.evolves.spares hs.sound n k q hq
    exact ⟨q', hq'⟩
  | joined hf hr hq => exact hs.join hf hr hq
  | @arrived number frames =>
    refine hs.of_connections hs.buffer hs.sound hs.matched (fun n k q hq => ⟨q, hq⟩)
      (fun i x' hx' => ?_)
    rw [arrive, List.getElem?_modify] at hx'
    obtain ⟨x, hx, rfl⟩ := Option.map_eq_some_iff.mp hx'
    refine ⟨x, hx, ?_⟩
    split <;> exact ⟨rfl, rfl, id⟩
  | @acted number x x' q h hx hr hq he =>
    refine hs.of_connections (he.evolves.buffer.trans hs.buffer) (he.evolves.sound hs.sound)
      (he.matched hs.matched) (fun n k q hq => ?_) (fun i y' hy' => ?_)
    · obtain ⟨q', hq', _⟩ := he.evolves.spares hs.sound n k q hq
      exact ⟨q', hq'⟩
    · rw [List.getElem?_set] at hy'
      split at hy'
      next hi =>
        subst hi
        split at hy'
        next =>
          cases Option.some.inj hy'
          obtain ⟨hch, hconn⟩ := he.same
          exact ⟨x, hx, hch, hconn, fun _ => hr⟩
        next => cases hy'
      next => exact ⟨y', hy', rfl, rfl, id⟩

end Seated

namespace Coherent

theorem change (hs : s.Coherent target buffer) {a : Action} (ha : a.Ordinary)
    (hc : Change a s s') : s'.Coherent target buffer := by
  refine ⟨hs.toSeated.change hc, ?_⟩
  cases hc with
  | host hf => exact hf.coherent ha _ hs.host
  | joined hf => exact hf.coherent ha _ hs.host
  | arrived => exact hs.host
  | acted _ _ _ he => exact he.coherent hs.host

theorem start (target : String) (buffer : Nat) (network : Network) :
    (Server.start target buffer network).Coherent target buffer := by
  have hh := Host.Coherent.start target buffer
  refine ⟨⟨rfl, ?_, hh.matched, ?_, ?_, ?_⟩, hh⟩
  · intro n c hc
    simp [Server.start, Host.start] at hc
  · intro i x hx
    simp [Server.start] at hx
  · intro i x hx
    simp [Server.start] at hx
  · intro i j x y hx
    simp [Server.start] at hx

end Coherent

/-- What single actions keep, all actions keep. The parts of an action are those of viewers, or it is
single. -/
theorem act_of_parts {P : Server → Prop} {a : Action}
    (hp : ∀ (s : Server) (b : Action), b.Single → b = a ∨ b.Viewing → P s → P (s.act b))
    (hs : P s) : P (s.act a) := by
  cases a with
  | connect id =>
    simp only [act, connect]
    split
    next => exact hs
    next =>
      have hl : P (s.look id).2 := hp s (.look id) trivial (.inr trivial) hs
      split
      next s' h => rwa [h] at hl
      next channel s' h =>
        rw [h] at hl
        exact hp s' (.join channel) trivial (.inr trivial) hl
  | turn number =>
    have hf := hp s (.flush number) trivial (.inr trivial) hs
    have hm := hp _ (.select number) trivial (.inr trivial) hf
    exact hp _ (.leave number) trivial (.inr trivial) hm
  | _ => exact hp s _ trivial (.inl rfl) hs

theorem Action.Viewing.ordinary {a : Action} (h : a.Viewing) : a.Ordinary := by
  cases a with
  | host e => exact h.elim
  | _ => trivial

/-- The parts of an ordinary action are ordinary. -/
theorem act_of_single {P : Server → Prop} {a : Action}
    (hp : ∀ (s : Server) (b : Action), b.Single → (a.Ordinary → b.Ordinary) → P s → P (s.act b))
    (hs : P s) : P (s.act a) := by
  refine act_of_parts (fun s b h1 hb hs => hp s b h1 (fun ha => ?_) hs) hs
  rcases hb with rfl | hview
  · exact ha
  · exact hview.ordinary

theorem run_of_single {P : Server → Prop} {actions : List Action}
    (hp : ∀ (s : Server) (b : Action), b.Single → ((∀ a ∈ actions, a.Ordinary) → b.Ordinary) →
      P s → P (s.act b)) (hs : P s) : P (s.run actions) := by
  induction actions generalizing s with
  | nil => exact hs
  | cons a actions ih =>
    refine ih (fun s b h1 hb => hp s b h1 (fun h => hb ?_)) (act_of_single (fun s b h1 hb => ?_) hs)
    · exact fun a ha => h a (List.mem_cons_of_mem _ ha)
    · exact hp s b h1 (fun h => hb (h a List.mem_cons_self))

theorem Seated.act (hs : s.Seated target buffer) (a : Action) : (s.act a).Seated target buffer :=
  act_of_single (fun _ _ h1 _ hs => hs.change (act_change hs h1)) hs

theorem Seated.run (hs : s.Seated target buffer) (actions : List Action) :
    (s.run actions).Seated target buffer :=
  run_of_single (fun _ _ h1 _ hs => hs.change (act_change hs h1)) hs

theorem Coherent.run (hs : s.Coherent target buffer) {actions : List Action}
    (ha : ∀ a ∈ actions, a.Ordinary) : (s.run actions).Coherent target buffer :=
  run_of_single (fun _ _ h1 hb hs => hs.change (hb ha) (act_change hs.toSeated h1)) hs

variable {number : Nat} {x : Connection}

/-- The channel of a connection sends to it only while the connection is its peer. -/
theorem asks_of_hasSender (hs : s.Coherent target buffer) {q : Queue} (hne : x.conn ≠ 0)
    (hq : x.queue? s.host.world = some q) (hsender : q.hasSender = true) :
    ∃ c e, x.Asks s.host c e := by
  obtain ⟨c, hc, hqc⟩ := Hub.queue?_eq_some_iff.mp hq
  obtain ⟨hsound, _⟩ := hs.sound _ c hc
  have hpeer : c.peer = some x.conn := by
    have h := (hsound.sender _ q hqc).mp hsender
    rwa [Nat.sub_one_add_one hne] at h
  have hopen : c.closed = false := by
    cases hclosed : c.closed with
    | false => rfl
    | true => cases (hsound.closed hclosed).symm.trans hpeer
  obtain ⟨hhandler, _, e, he, hch⟩ := hs.host.served _ c hc hopen
  exact ⟨c, e, hc, hopen, hhandler, hpeer, he, hch⟩

end Server

end PagedTables
