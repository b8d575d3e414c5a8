import PagedTables.Proofs.HubLookup
import PagedTables.Proofs.QueueContents
import PagedTables.Proofs.Replacement

namespace PagedTables

/-- What may be written to a viewer of `d` is what may be queued for it. That a text is no JSON is
written past the queue, and is an error message like those that are queued. -/
def Outbound.About (target : String) (d : Dataset) (o : Outbound) : Prop :=
  ∃ f : Frame, f.About target d ∧ f.written = o

/-- The queue with frames taken from its front. -/
def Queue.Drains (q q' : Queue) : Prop :=
  ∃ taken rest, q.frames = taken ++ rest ∧ q' = { q with frames := rest }

namespace Queue.Drains

theorem refl (q : Queue) : Drains q q := ⟨[], q.frames, rfl, rfl⟩

theorem trans {q q' q'' : Queue} (h : q.Drains q') (h' : q'.Drains q'') : q.Drains q'' := by
  obtain ⟨taken, rest, hf, rfl⟩ := h
  obtain ⟨taken', rest', hf', rfl⟩ := h'
  have hf' : rest = taken' ++ rest' := hf'
  exact ⟨taken ++ taken', rest', by rw [hf, hf', List.append_assoc], rfl⟩

end Queue.Drains

/-- A closed channel sends to nobody. -/
theorem HubChannel.Sound.gone_of_closed {c : HubChannel} (h : c.Sound) (hc : c.closed = true)
    {place : Nat} {q : Queue} (hq : c.queues[place]? = some q) : q.hasSender = false := by
  refine Bool.eq_false_iff.mpr (fun hs => ?_)
  cases (h.closed hc).symm.trans ((h.sender place q hq).mp hs)

namespace Server

def Action.Served : Action → Prop
  | .host e => e.Served
  | _ => True

def Action.opens : Action → List Dataset
  | .host e => e.opens
  | _ => []

theorem Action.Served.ordinary {a : Action} (h : a.Served) : a.Ordinary := by
  cases a with
  | host e => exact Event.Served.ordinary h
  | _ => trivial

/-- What can happen to a server whose host gives and takes places at its channels besides. -/
inductive Move where
  | action (a : Action)
  | attach (channel buffer : Nat)
  | detach (channel conn : Nat)

def Move.Served : Move → Prop
  | action a => a.Served
  | _ => True

def Move.opens : Move → List Dataset
  | action a => a.opens
  | _ => []

def move (s : Server) : Move → Server
  | .action a => s.act a
  | .attach channel buffer => { s with host := s.host.turn (.attach channel buffer) }
  | .detach channel conn => { s with host := s.host.turn (.detach channel conn) }

def moves (s : Server) (ms : List Move) : Server := ms.foldl move s

/-- All that is queued on the channels of a server, and all that was written to its connections, is
about the datasets that the channels were opened for. -/
structure Devoted (target : String) (ds : List Dataset) (s : Server) : Prop where
  host : s.host.Devoted target ds
  written : ∀ x ∈ s.connections, x.conn ≠ 0 → ∀ o ∈ x.written,
    ∃ d, ds[x.channel]? = some d ∧ o.About target d

variable {target : String} {buffer : Nat} {ds : List Dataset} {s s' : Server}

/-- An action is a single one, or does what single ones do in turn in which the host has no part. -/
theorem single_or_run (s : Server) (a : Action) : a.Single ∨ a.opens = [] ∧
    ∃ parts : List Action, s.act a = s.run parts ∧
      ∀ b ∈ parts, b.Single ∧ b.Served ∧ b.opens = [] := by
  cases a with
  | connect id =>
    refine .inr ⟨rfl, ?_⟩
    simp only [act, connect]
    split
    next => exact ⟨[], rfl, by simp⟩
    next =>
      split
      next s' hl =>
        refine ⟨[.look id], ?_, ?_⟩
        · simp [run, act, hl]
        · simp [Action.Single, Action.Served, Action.opens]
      next channel s' hl =>
        refine ⟨[.look id, .join channel], ?_, ?_⟩
        · simp [run, act, hl]
        · simp [Action.Single, Action.Served, Action.opens]
  | turn number =>
    refine .inr ⟨rfl, [.flush number, .select number, .leave number], rfl, ?_⟩
    simp [Action.Single, Action.Served, Action.opens]
  | _ => exact .inl trivial

namespace Devoted

theorem of_host (hd : s.Devoted target ds) {h : Host Hub} {more : List Dataset}
    (hh : h.Devoted target (ds ++ more)) : Devoted target (ds ++ more) { s with host := h } := by
  refine ⟨hh, fun x hx hne o ho => ?_⟩
  obtain ⟨d, hn, habout⟩ := hd.written x hx hne o ho
  exact ⟨d, (List.getElem?_append_left (List.getElem?_eq_some_iff.mp hn).1).trans hn, habout⟩

theorem effect (hd : s.Devoted target ds) {number : Nat} {x x' : Connection} {q : Queue}
    {h : Host Hub} (hx : s.connections[number]? = some x) (hne : x.conn ≠ 0)
    (hq : x.queue? s.host.world = some q) (he : x.Effect s.host q x' h) :
    Devoted target ds { s with host := h, connections := s.connections.set number x' } := by
  obtain ⟨c, hc, _⟩ := Hub.queue?_eq_some_iff.mp hq
  obtain ⟨d, hn, _⟩ := hd.host.opened _ c hc
  have hwrote : ∀ o ∈ x.written, o.About target d := by
    intro o ho
    obtain ⟨d', hn', habout⟩ := hd.written x (List.mem_of_getElem? hx) hne o ho
    cases hn.symm.trans hn'
    exact habout
  have hqueued : ∀ f ∈ q.frames, f.About target d := by
    intro f hf
    obtain ⟨d', hn', habout⟩ := hd.host.queued _ _ q hq f hf
    cases hn.symm.trans hn'
    exact habout
  obtain ⟨hhost, hwritten⟩ : h.Devoted target ds ∧ ∀ o ∈ x'.written, o.About target d := by
    cases he with
    | @wrote taken rest _ hf =>
      refine ⟨hd.host.of_adds (fun _ _ h => h) ?_ (.setFrames hq (fun f hf' => .inr ?_)),
        fun o ho => ?_⟩
      · exact (Hub.Keeps.update (fun d => d.setFrames_face _ _)).channel
      · exact hf ▸ List.mem_append_right _ hf'
      · rcases List.mem_append.mp ho with ho | ho
        · exact hwrote o ho
        · obtain ⟨f, hf', rfl⟩ := List.mem_map.mp ho
          exact ⟨f, hqueued f (hf ▸ List.mem_append_left _ hf'), rfl⟩
    | handed => exact ⟨hd.host.deliver _ _, hwrote⟩
    | passed _ _ hout =>
      refine ⟨hd.host, fun o ho => ?_⟩
      rcases List.mem_append.mp ho with ho | ho
      · exact hwrote o ho
      · exact ⟨.message Connection.notJsonReply, .refused _, (hout o ho).symm⟩
    | stayed => exact ⟨hd.host, hwrote⟩
  refine ⟨hhost, fun y hy hney o ho => ?_⟩
  rcases List.mem_or_eq_of_mem_set hy with hy | rfl
  · exact hd.written y hy hney o ho
  · exact ⟨d, he.same.1 ▸ hn, hwritten o ho⟩

theorem doing (hd : s.Devoted target ds) (hs : s.Seated target buffer) {number : Nat}
    {f : Connection → Host Hub → Connection × Host Hub}
    (hstill : ∀ x : Connection, x.running = false → f x s.host = (x, s.host))
    (heffect : ∀ (x : Connection) (q : Queue), x.running = true → x.queue? s.host.world = some q →
      x.Effect s.host q (f x s.host).1 (f x s.host).2) : (s.doing number f).Devoted target ds := by
  cases hx : s.connections[number]? with
  | none => rwa [doing_of_none hx]
  | some x =>
    cases hr : x.running with
    | false =>
      have hf := hstill x hr
      rw [doing_of_same hx (by rw [hf]), hf]
      exact hd
    | true =>
      have hne := hs.placed number x hx hr
      obtain ⟨q, hq⟩ := hs.queue number x hx hne
      rw [doing_of_some hx]
      exact hd.effect hx hne hq (heffect x q hr hq)

theorem detach (hd : s.Devoted target ds) (channel conn : Nat) :
    Devoted target ds
      { s with host := { s.host with world := s.host.world.detach channel conn } } := by
  refine ⟨hd.host.of_adds (fun _ _ h => h) ?_ (.detach _ channel conn), hd.written⟩
  refine (Hub.Keeps.update (fun c => ?_)).channel
  rcases HubChannel.detach_cases c conn with h | h
  · rw [h]
  · rw [h, HubChannel.dropPeer_face]

theorem leave (hd : s.Devoted target ds) (number : Nat) :
    (s.doing number Connection.leave).Devoted target ds := by
  cases hx : s.connections[number]? with
  | none => rwa [doing_of_none hx]
  | some x =>
    have hsame : (x.leave s.host).1 = x := by
      unfold Connection.leave
      split <;> rfl
    rw [doing_of_same hx hsame]
    unfold Connection.leave
    split
    next => exact hd
    next => exact hd.detach _ _

theorem attach (hd : s.Devoted target ds) {channel size conn : Nat}
    {w : Hub} (ha : s.host.world.attach channel size = .attached conn w) :
    Host.Devoted target ds { s.host with world := w } := by
  refine hd.host.of_adds (fun _ _ h => h) ?_ (.attach ha (fun c hc => ?_))
  · obtain ⟨_, _, _, _, _, rfl⟩ := Hub.attach_ok_iff.mp ha
    exact (Hub.Keeps.update (fun c => c.seat_face _)).channel
  · obtain ⟨d, hn, hid, htarget, hopening⟩ := hd.host.opened channel c hc
    exact ⟨d, hn, openFrame_about hid htarget hopening⟩

theorem join (hd : s.Devoted target ds) (channel : Nat) :
    (s.join channel).Devoted target ds := by
  unfold Server.join
  split
  next conn w ha =>
    refine ⟨hd.attach ha, fun x hx hne o ho => ?_⟩
    rcases List.mem_append.mp hx with hx | hx
    · exact hd.written x hx hne o ho
    · cases List.mem_singleton.mp hx
      cases ho
  next =>
    refine ⟨hd.host, fun x hx hne => ?_⟩
    rcases List.mem_append.mp hx with hx | hx
    · exact hd.written x hx hne
    · cases List.mem_singleton.mp hx
      exact (hne rfl).elim
  next =>
    refine ⟨hd.host, fun x hx hne => ?_⟩
    rcases List.mem_append.mp hx with hx | hx
    · exact hd.written x hx hne
    · cases List.mem_singleton.mp hx
      exact (hne rfl).elim

theorem arrive (hd : s.Devoted target ds) (number : Nat) (frames : List Inbound) :
    (s.arrive number frames).Devoted target ds := by
  refine ⟨hd.host, fun x' hx' => ?_⟩
  obtain ⟨i, hi⟩ := List.mem_iff_getElem?.mp hx'
  rw [Server.arrive, List.getElem?_modify] at hi
  obtain ⟨x, hx, rfl⟩ := Option.map_eq_some_iff.mp hi
  have hx := hd.written x (List.mem_of_getElem? hx)
  split
  · exact hx
  · exact hx

theorem single (hd : s.Devoted target ds) (hs : s.Coherent target buffer) {a : Action}
    (h1 : a.Single) (ha : a.Served) : (s.act a).Devoted target (ds ++ a.opens) := by
  cases a with
  | host e => exact hd.of_host (hd.host.step hs.host ha)
  | look id =>
    simp only [Action.opens, List.append_nil]
    obtain ⟨_, hc⟩ := s.host.world.find_channels id
    refine ⟨hd.host.of_adds (fun _ _ h => h) (fun n c hn => ?_) (.of_channels hc), hd.written⟩
    exact ⟨c, by rw [← hn]; exact congrArg (fun l => l[n]?) hc, rfl, rfl, rfl⟩
  | join channel =>
    simp only [Action.opens, List.append_nil]
    exact hd.join channel
  | arrive number frame =>
    simp only [Action.opens, List.append_nil]
    exact hd.arrive number [frame]
  | flush number =>
    simp only [Action.opens, List.append_nil]
    exact hd.doing hs.toSeated (fun x hr => by simp [Connection.flush, hr])
      (fun x q hr hq => Connection.flush_effect hr hq)
  | select number =>
    simp only [Action.opens, List.append_nil]
    exact hd.doing hs.toSeated (fun x hr => by simp [Connection.select, hr])
      (fun x q hr hq => Connection.select_effect hr hq)
  | leave number =>
    simp only [Action.opens, List.append_nil]
    exact hd.leave number
  | connect => exact h1.elim
  | turn => exact h1.elim

theorem act (hd : s.Devoted target ds) (hs : s.Coherent target buffer) {a : Action}
    (ha : a.Served) : (s.act a).Devoted target (ds ++ a.opens) := by
  rcases single_or_run s a with h1 | ⟨hopens, parts, heq, hparts⟩
  · exact hd.single hs h1 ha
  · rw [heq, hopens, List.append_nil]
    clear heq
    induction parts generalizing s with
    | nil => exact hd
    | cons b parts ih =>
      obtain ⟨h1, hserved, hquiet⟩ := hparts b List.mem_cons_self
      have hd' := hd.single hs h1 hserved
      rw [hquiet, List.append_nil] at hd'
      exact ih hd' (hs.change hserved.ordinary (act_change hs.toSeated h1))
        (fun b hb => hparts b (List.mem_cons_of_mem _ hb))

theorem move (hd : s.Devoted target ds) (hs : s.Coherent target buffer) {m : Move}
    (hm : m.Served) : (s.move m).Devoted target (ds ++ m.opens) := by
  cases m with
  | action a => exact hd.act hs hm
  | attach channel size =>
    simp only [Move.opens, List.append_nil, Server.move, Host.turn]
    split
    next conn w ha => exact ⟨hd.attach ha, hd.written⟩
    next => exact hd
    next => exact hd
  | detach channel conn =>
    simp only [Move.opens, List.append_nil]
    exact hd.detach channel conn

end Devoted

/-- What every change keeps, all moves keep. -/
theorem moves_of_change {P : Server → Prop} {ms : List Move}
    (hp : ∀ (s s' : Server) (a : Action), s.Seated target buffer →
      ((∀ m ∈ ms, m.Served) → a.Ordinary) → Change a s s' → P s → P s')
    (hs : s.Seated target buffer) (h : P s) : (s.moves ms).Seated target buffer ∧ P (s.moves ms) := by
  induction ms generalizing s with
  | nil => exact ⟨hs, h⟩
  | cons m ms ih =>
    have hstep : (s.move m).Seated target buffer ∧ P (s.move m) := by
      -- a change of the host alone is one that any action may bring about
      have hhost : ∀ {h' : Host Hub}, Host.Follows True s.host h' →
          Seated target buffer { s with host := h' } ∧ P { s with host := h' } := by
        intro h' hf
        have hc : Change (.leave 0) s { s with host := h' } := .host hf
        exact ⟨hs.change hc, hp s _ (.leave 0) hs (fun _ => trivial) hc h⟩
      cases m with
      | action a =>
        refine act_of_single (P := fun s => s.Seated target buffer ∧ P s) ?_ ⟨hs, h⟩
        rintro s₁ b h1 hb ⟨hs₁, h₁⟩
        have hc := act_change hs₁ h1
        have hordinary : (∀ m ∈ Move.action a :: ms, m.Served) → b.Ordinary :=
          fun hm => hb (Action.Served.ordinary (hm _ List.mem_cons_self))
        exact ⟨hs₁.change hc, hp s₁ _ b hs₁ hordinary hc h₁⟩
      | attach channel size =>
        refine hhost ?_
        simp only [Host.turn]
        split
        next conn w ha => exact .attach ha
        next => exact .refl _ _
        next => exact .refl _ _
      | detach channel conn => exact hhost (.detach s.host channel conn)
    refine ih (fun s s' a hs ha => hp s s' a hs (fun hm => ha ?_)) hstep.1 hstep.2
    exact fun m hmem => hm m (List.mem_cons_of_mem _ hmem)

theorem Coherent.moves (hs : s.Coherent target buffer) {ms : List Move} (hm : ∀ m ∈ ms, m.Served) :
    (s.moves ms).Coherent target buffer := by
  have hkept : (s.moves ms).Seated target buffer ∧ (s.moves ms).host.Coherent target :=
    moves_of_change (P := fun s => s.host.Coherent target)
      (fun s s' a hs ha hc hh => (Coherent.change ⟨hs, hh⟩ (ha hm) hc).host) hs.toSeated hs.host
  exact ⟨hkept.1, hkept.2⟩

theorem Devoted.moves (hd : s.Devoted target ds) (hs : s.Coherent target buffer) {ms : List Move}
    (hm : ∀ m ∈ ms, m.Served) : (s.moves ms).Devoted target (ds ++ ms.flatMap Move.opens) := by
  induction ms generalizing s ds with
  | nil =>
    rw [List.flatMap_nil, List.append_nil]
    exact hd
  | cons m ms ih =>
    obtain ⟨h1, hrest⟩ := List.forall_mem_cons.mp hm
    have hs' : (s.moves [m]).Coherent target buffer := hs.moves (by simpa using h1)
    rw [List.flatMap_cons, ← List.append_assoc]
    exact ih (hd.move hs h1) hs' hrest

theorem Devoted.start (target : String) (buffer : Nat) (network : Network) :
    (Server.start target buffer network).Devoted target [] :=
  ⟨.start target buffer, fun _ hx => nomatch hx⟩

theorem Move.opens_cases (m : Move) :
    m.opens = [] ∨ ∃ fresh given, m = .action (.host (.register fresh given)) := by
  cases m with
  | action a =>
    cases a with
    | host e =>
      cases e with
      | register fresh given => exact .inr ⟨fresh, given, rfl⟩
      | _ => exact .inl rfl
    | _ => exact .inl rfl
  | _ => exact .inl rfl

/-- Each dataset that was opened was so by a registration, after the ones before it. -/
theorem opened_by {ms : List Move} {n : Nat} {d : Dataset}
    (hn : (ms.flatMap Move.opens)[n]? = some d) : ∃ before fresh given after,
      ms = before ++ .action (.host (.register fresh given)) :: after ∧ d = given.named fresh ∧
        (before.flatMap Move.opens).length = n := by
  induction ms generalizing n with
  | nil => cases hn
  | cons m ms ih =>
    rw [List.flatMap_cons] at hn
    rcases m.opens_cases with hnone | ⟨fresh, given, rfl⟩
    · rw [hnone, List.nil_append] at hn
      obtain ⟨before, fresh, given, after, rfl, rfl, hlength⟩ := ih hn
      refine ⟨m :: before, fresh, given, after, rfl, rfl, ?_⟩
      rwa [List.flatMap_cons, hnone, List.nil_append]
    · cases n with
      | zero =>
        cases Option.some.inj hn
        exact ⟨[], fresh, given, ms, rfl, rfl, rfl⟩
      | succ n =>
        obtain ⟨before, fresh', given', after, rfl, rfl, hlength⟩ := ih hn
        refine ⟨_ :: before, fresh', given', after, rfl, rfl, ?_⟩
        rw [List.flatMap_cons, List.length_append, hlength]
        exact Nat.add_comm 1 n

/-- Once a channel has let go of a queue, nothing is put there. -/
theorem drains_change (hs : s.Seated target buffer) {n k : Nat} {q : Queue}
    (hq : s.host.world.queue? n k = some q) (hgone : q.hasSender = false) {a : Action}
    (hc : Change a s s') : ∃ q', s'.host.world.queue? n k = some q' ∧ q.Drains q' := by
  cases hc with
  | host hf =>
    obtain ⟨q', hq', heq⟩ := hf.evolves.spares hs.sound n k q hq
    cases heq hgone
    exact ⟨q, hq', .refl q⟩
  | joined hf =>
    obtain ⟨q', hq', heq⟩ := hf.evolves.spares hs.sound n k q hq
    cases heq hgone
    exact ⟨q, hq', .refl q⟩
  | arrived => exact ⟨q, hq, .refl q⟩
  | @acted number x x' q₀ h _ _ hq₀ he =>
    by_cases hown : x.channel = n ∧ x.conn - 1 = k
    · obtain ⟨rfl, rfl⟩ := hown
      cases hq.symm.trans hq₀
      cases he with
      | @wrote taken rest _ hf =>
        exact ⟨_, Connection.queue?_setFrames hq₀ rest, taken, rest, hf, rfl⟩
      | handed _ hsender => cases hgone.symm.trans hsender
      | passed => exact ⟨q, hq, .refl q⟩
      | stayed => exact ⟨q, hq, .refl q⟩
    · obtain ⟨q', hq', heq⟩ := he.evolves.spares hs.sound n k q hq
      cases heq hgone hown
      exact ⟨q, hq', .refl q⟩

theorem drains_moves (hs : s.Seated target buffer) {n k : Nat} {q : Queue}
    (hq : s.host.world.queue? n k = some q) (hgone : q.hasSender = false) (ms : List Move) :
    ∃ q', (s.moves ms).host.world.queue? n k = some q' ∧ q.Drains q' := by
  refine (moves_of_change (P := fun s => ∃ q', s.host.world.queue? n k = some q' ∧ q.Drains q')
    ?_ hs ⟨q, hq, .refl q⟩).2
  rintro s s' a hs _ hc ⟨q', hq', hdrains⟩
  have hgone' : q'.hasSender = false := by
    obtain ⟨_, _, _, rfl⟩ := hdrains
    exact hgone
  obtain ⟨q'', hq'', hdrains'⟩ := drains_change hs hq' hgone' hc
  exact ⟨q'', hq'', hdrains.trans hdrains'⟩

/-- When an id is registered again, the queues on the channel that was opened for it are let go of. -/
theorem queue_of_outdated (hs : s.Coherent target buffer) (hd : s.Devoted target ds) {n k : Nat}
    {q : Queue} (hq : s.host.world.queue? n k = some q) {d : Dataset} (hn : ds[n]? = some d)
    {fresh : String} {given : Dataset} (hid : (given.named fresh).id = d.id) :
    ∃ q', (s.act (.host (.register fresh given))).host.world.queue? n k = some q' ∧
      q'.hasSender = false ∧ (q'.frames = q.frames ∨ q'.frames = q.frames ++ [.close]) := by
  obtain ⟨c, hc, hqc⟩ := Hub.queue?_eq_some_iff.mp hq
  obtain ⟨hsound, _⟩ := hs.sound n c hc
  have hcid : c.id = (given.named fresh).id := by
    obtain ⟨d', hn', hid', _⟩ := hd.host.opened n c hc
    cases hn.symm.trans hn'
    exact hid'.trans hid.symm
  have hlt := (List.getElem?_eq_some_iff.mp hc).1
  obtain ⟨s₀, hs₀⟩ := hs.host.alive
  obtain ⟨w, which, heq, hcl⟩ := step_register_hub hs₀ fresh given
  have hafter := hs.host.step (e := .register fresh given) trivial
  simp only [act, step, heq] at hafter ⊢
  rcases hcl.either ((List.getElem?_append_left hlt).trans hc) with hc' | hc'
  · have hclosed : c.closed = true := by
      refine Bool.eq_false_imp_eq_true.mp (fun hopen => ?_)
      -- the id leads to the new channel now
      obtain ⟨_, _, e, he, hch⟩ := hafter.served n c hc' hopen
      rw [hcid] at he
      simp only [Host.registered?, Option.bind_some, KeyMap.get?_insert_self] at he
      cases Option.some.inj he
      exact (Nat.lt_irrefl _ (hch ▸ hlt)).elim
    exact ⟨q, Hub.queue?_eq_some_iff.mpr ⟨c, hc', hqc⟩, hsound.gone_of_closed hclosed hqc, .inl rfl⟩
  · obtain ⟨q', hq', _⟩ := HubChannel.spared_shut hsound q hqc
    obtain ⟨q₀, hq₀, hframes⟩ := HubChannel.shut_frames hq'
    cases hqc.symm.trans hq₀
    exact ⟨q', Hub.queue?_eq_some_iff.mpr ⟨_, hc', hq'⟩,
      hsound.shut.gone_of_closed c.shut_closed hq', hframes⟩

/-- All that is ever queued for a connection is about the one dataset that was registered together
with its channel. Once the id of that dataset is registered again, at most the end is still queued
there; from then on frames are only taken. -/
theorem queue_holds_one_snapshot {network : Network} {ms : List Move} (hm : ∀ m ∈ ms, m.Served)
    (hs : s = (Server.start target buffer network).moves ms) {n k : Nat} {q : Queue}
    (hq : s.host.world.queue? n k = some q) : ∃ before fresh given after,
      ms = before ++ .action (.host (.register fresh given)) :: after ∧
      let d := given.named fresh
      let h := ((Server.start target buffer network).moves before).host
      n = h.world.channels.length ∧
      (h.step (.register fresh given)).1.registered? d.id = some ⟨d, n⟩ ∧
      (∀ f ∈ q.frames, f.About target d) ∧
      (∀ x ∈ s.connections, x.channel = n → x.conn = k + 1 → ∀ o ∈ x.written, o.About target d) ∧
      ∀ fresh' given', (given'.named fresh').id = d.id →
        let s' := s.act (.host (.register fresh' given'))
        ∃ q', s'.host.world.queue? n k = some q' ∧
          (q'.frames = q.frames ∨ q'.frames = q.frames ++ [.close]) ∧
          ∀ later : List Move, ∃ q'', (s'.moves later).host.world.queue? n k = some q'' ∧
            q'.Drains q'' := by
  have hstart := Coherent.start target buffer network
  have hcoherent : s.Coherent target buffer := hs ▸ hstart.moves hm
  have hd : s.Devoted target (ms.flatMap Move.opens) :=
    hs ▸ (Devoted.start target buffer network).moves hstart hm
  obtain ⟨c, hc, _⟩ := Hub.queue?_eq_some_iff.mp hq
  obtain ⟨d, hn, _⟩ := hd.host.opened n c hc
  obtain ⟨before, fresh, given, after, hsplit, rfl, hlength⟩ := opened_by hn
  have hbefore : ∀ m ∈ before, m.Served :=
    fun m hmem => hm m (hsplit ▸ List.mem_append_left _ hmem)
  have hb := (Devoted.start target buffer network).moves hstart hbefore
  rw [List.nil_append] at hb
  have hnew : n = ((Server.start target buffer network).moves before).host.world.channels.length :=
    hlength.symm.trans hb.host.length.symm
  refine ⟨before, fresh, given, after, hsplit, hnew, ?_, fun f hf => ?_,
    fun x hx hch hconn o ho => ?_, fun fresh' given' hid => ?_⟩
  · obtain ⟨s₀, hs₀⟩ := (hstart.moves hbefore).host.alive
    obtain ⟨w, which, heq, _⟩ := step_register_hub hs₀ fresh given
    simp [heq, Host.registered?, hnew]
  · obtain ⟨d, hn', habout⟩ := hd.host.queued n k q hq f hf
    cases hn.symm.trans hn'
    exact habout
  · obtain ⟨d, hn', habout⟩ := hd.written x hx (by omega) o ho
    rw [hch] at hn'
    cases hn.symm.trans hn'
    exact habout
  · obtain ⟨q', hq', hgone, hframes⟩ := queue_of_outdated hcoherent hd hq hn hid
    exact ⟨q', hq', hframes, fun later => drains_moves (hcoherent.toSeated.act _) hq' hgone later⟩

/-- A viewer asks for rows of a table, and the host takes a place at its channel before they are
written. -/
def watched : List Move :=
  [.action (.host (.register "" primes)), .action (.connect "primes"),
    .action (.arrive 0 (.text "\x7b\"msg_type\":\"ready\"\x7d")), .action (.flush 0),
    .action (.select 0), .attach 0 8]

/-- Two connections of one channel. When the table is registered again with another title, neither of
them is sent anything about it. -/
theorem older_snapshot_kept_apart : (∀ m ∈ watched, m.Served) ∧
    let s := (Server.start "t" 1 .loopback).moves watched
    ∀ k < 2, ∃ q, s.host.world.queue? 0 k = some q ∧ q.frames.length = 1 ∧
      (∀ f ∈ q.frames, f.About "t" primes) ∧
      let s' := s.act (.host (.register "" { primes with title := "More primes" }))
      ∀ later : List Move, ∃ q', (s'.moves later).host.world.queue? 0 k = some q' ∧
        ∀ f ∈ q'.frames, f.About "t" primes := by
  have hm : ∀ m ∈ watched, m.Served := by
    simp [watched, Move.Served, Action.Served, Event.Served]
  refine ⟨hm, ?_⟩
  intro s k hk
  have hone : (s.host.world.queue? 0 k).map (fun q => q.frames.length) = some 1 := by
    match k with
    | 0 => decide +kernel
    | 1 => decide +kernel
  obtain ⟨q, hq, hlength⟩ := Option.map_eq_some_iff.mp hone
  obtain ⟨before, fresh, given, after, hsplit, _, _, hframes, _, hafter⟩ :=
    queue_holds_one_snapshot hm rfl hq
  have hd : given.named fresh = primes := by
    have hmem : .action (.host (.register fresh given)) ∈ watched := by simp [hsplit]
    simp only [watched, List.mem_cons, Move.action.injEq, Action.host.injEq, Event.register.injEq,
      reduceCtorEq, List.not_mem_nil, or_false] at hmem
    rw [hmem.1, hmem.2]
    rfl
  rw [hd] at hframes hafter
  refine ⟨q, hq, hlength, hframes, fun later => ?_⟩
  obtain ⟨q', _, hor, hlater⟩ := hafter "" { primes with title := "More primes" } rfl
  have habout : ∀ f ∈ q'.frames, f.About "t" primes := by
    intro f hf
    rcases hor with heq | heq
    · exact hframes f (heq ▸ hf)
    · rw [heq, List.mem_append, List.mem_singleton] at hf
      rcases hf with hf | rfl
      · exact hframes f hf
      · exact .close
  obtain ⟨q'', hq'', taken, rest, hrest, rfl⟩ := hlater later
  exact ⟨_, hq'', fun f hf => habout f (hrest ▸ List.mem_append_right _ hf)⟩

end Server

end PagedTables
