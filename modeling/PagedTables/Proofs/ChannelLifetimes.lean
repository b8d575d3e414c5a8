import PagedTables.Proofs.LifeCycle

namespace PagedTables

section

variable {W C : Type} [Transport W] {h : Host W} {n : Nat}

namespace LifeCycle

/-- What can happen to a host over such a transport: the events, and what only this transport can be
asked for. The latter leaves the service alone, and closes no channel. -/
structure Moves (k : LifeCycle W C) (M : Type) where
  next : Host W → M → Host W
  event? : M → Option Event
  next_event : ∀ h {m e}, event? m = some e → next h m = (h.step e).1
  next_own : ∀ h {m}, event? m = none → (next h m).service = h.service ∧
    ∃ new, k.sights (next h m).world = k.sights h.world ++ new ∧ ∀ x ∈ new, x.closed = false

namespace Moves

variable {M : Type} {k : LifeCycle W C} {c : C}

def run (p : k.Moves M) (h : Host W) (moves : List M) : Host W := moves.foldl p.next h

/-- What the events of a run come to. -/
def outcomes (p : k.Moves M) : Host W → List M → List Outcome
  | _, [] => []
  | h, m :: moves =>
    ((p.event? m).map (fun e => (h.step e).2)).toList ++ p.outcomes (p.next h m) moves

/-- How many channels the shutdowns of a run report as closed. -/
def reported (p : k.Moves M) (h : Host W) (moves : List M) : Nat :=
  (p.outcomes h moves).foldr (fun o n => o.closed + n) 0

def registrations (p : k.Moves M) (h : Host W) (moves : List M) : Nat :=
  (p.outcomes h moves).foldr (fun o n => o.registrations + n) 0

def Tells (p : k.Moves M) (h : Host W) (n : Nat) (m : M) (w : W) : Prop :=
  ∃ e, p.event? m = some e ∧ h.Tells n e w

def Shuts (p : k.Moves M) (h : Host W) (n : Nat) (m : M) : Prop :=
  ∃ e, p.event? m = some e ∧ h.Shuts n e

/-- The life of the channels in the state `h` and from there on. -/
structure Lived (p : k.Moves M) (h : Host W) : Prop where
  /-- A channel goes from open to closed exactly when a close of it succeeds. -/
  moment : ∀ n m, n < (k.channels h.world).length → (p.Shuts h n m ↔
    Transport.isOpen h.world n = true ∧ Transport.isOpen (p.next h m).world n = false)
  once : ∀ n m later m', n < (k.channels h.world).length → p.Shuts h n m →
    ¬ p.Shuts (p.run (p.next h m) later) n m'
  /-- From then on nothing gets through it. -/
  ended : ∀ n c later, (k.channels h.world)[n]? = some c → (k.sight c).closed = true →
    (p.run h later).Ended n (k.sight c).id
  /-- A close that fails leaves it as it is. -/
  refusal : ∀ n c m w cause, (k.channels h.world)[n]? = some c → p.Tells h n m w →
    Transport.close w n = .error cause → (k.channels (p.next h m).world)[n]? = some c
  counted : k.closedCount (h.step .shutdown).1.world =
    k.closedCount h.world + (h.step .shutdown).2.closed

variable (p : k.Moves M)

theorem sight_next (m : M) {x : Sight} (hx : (k.sights h.world)[n]? = some x) :
    ∃ x', (k.sights (p.next h m).world)[n]? = some x' ∧ x'.id = x.id ∧
      (x.closed = true → x'.closed = true) := by
  cases he : p.event? m with
  | some e =>
    rw [p.next_event h he]
    exact k.step_sight e hx
  | none =>
    obtain ⟨_, new, hnew, _⟩ := p.next_own h he
    refine ⟨x, ?_, rfl, id⟩
    rw [hnew, List.getElem?_append_left (List.getElem?_eq_some_iff.mp hx).1]
    exact hx

theorem sight_run (moves : List M) {x : Sight} (hx : (k.sights h.world)[n]? = some x) :
    ∃ x', (k.sights (p.run h moves).world)[n]? = some x' ∧ x'.id = x.id ∧
      (x.closed = true → x'.closed = true) := by
  induction moves generalizing h x with
  | nil => exact ⟨x, hx, rfl, id⟩
  | cons m moves ih =>
    obtain ⟨x₁, hx₁, hid₁, hclosed₁⟩ := p.sight_next m hx
    obtain ⟨x', hx', hid, hclosed⟩ := ih hx₁
    exact ⟨x', hx', hid.trans hid₁, fun h => hclosed (hclosed₁ h)⟩

theorem moment (m : M) {x : Sight} (hx : (k.sights h.world)[n]? = some x) : p.Shuts h n m ↔
    Transport.isOpen h.world n = true ∧ Transport.isOpen (p.next h m).world n = false := by
  cases he : p.event? m with
  | some e =>
    rw [p.next_event h he, ← k.shuts_iff e hx]
    simp only [Shuts, he, Option.some.injEq, exists_eq_left']
  | none =>
    have hnot : ¬ p.Shuts h n m := by
      rintro ⟨e, hsome, _⟩
      cases he.symm.trans hsome
    obtain ⟨_, new, hnew, _⟩ := p.next_own h he
    have hx' : (k.sights (p.next h m).world)[n]? = some x := by
      rw [hnew, List.getElem?_append_left (List.getElem?_eq_some_iff.mp hx).1]
      exact hx
    rw [k.isOpen_of_sight hx, k.isOpen_of_sight hx']
    cases x.closed <;> simp [hnot]

theorem lived (h : Host W) : p.Lived h := by
  have hsight : ∀ {n}, n < (k.channels h.world).length → ∃ x, (k.sights h.world)[n]? = some x :=
    fun hn => ⟨_, k.sight_of_channel (List.getElem?_eq_getElem hn)⟩
  -- Told of a sight rather than a channel, so that it can be used again after a move that closes.
  have hends : ∀ (h : Host W) n x later, (k.sights h.world)[n]? = some x → x.closed = true →
      (p.run h later).Ended n x.id := by
    intro h n x later hx hclosed
    obtain ⟨x', hx', hid, hclosed'⟩ := p.sight_run later hx
    rw [← hid]
    exact k.ended hx' (hclosed' hclosed)
  refine ⟨fun n m hn => ?_, fun n m later m' hn hshut hshut' => ?_,
    fun n c later hc hclosed => hends h n _ later (k.sight_of_channel hc) hclosed,
    fun n c m w cause hc ht hw => ?_, k.closedCount_shutdown h⟩
  · obtain ⟨x, hx⟩ := hsight hn
    exact p.moment m hx
  · obtain ⟨x, hx⟩ := hsight hn
    obtain ⟨_, hclosed⟩ := (p.moment m hx).mp hshut
    obtain ⟨x₁, hx₁, _⟩ := p.sight_next m hx
    rw [k.isOpen_of_sight hx₁] at hclosed
    have hended := hends _ n x₁ later hx₁ (by simpa using hclosed)
    obtain ⟨x', hx', _⟩ := p.sight_run later hx₁
    obtain ⟨hopen, _⟩ := (p.moment m' hx').mp hshut'
    cases hopen.symm.trans hended.isOpen
  · obtain ⟨e, he, ht⟩ := ht
    rw [p.next_event h he]
    exact k.channel_of_refusal hc ht hw

theorem reported_cons (h : Host W) (m : M) (moves : List M) : p.reported h (m :: moves) =
    (p.event? m).elim 0 (fun e => (h.step e).2.closed) + p.reported (p.next h m) moves := by
  simp only [reported, outcomes, List.foldr_append]
  cases p.event? m <;> simp

theorem registrations_cons (h : Host W) (m : M) (moves : List M) : p.registrations h (m :: moves) =
    (p.event? m).elim 0 (fun e => (h.step e).2.registrations) +
      p.registrations (p.next h m) moves := by
  simp only [registrations, outcomes, List.foldr_append]
  cases p.event? m <;> simp

/-- No channel is counted twice. -/
theorem reported_le_closedCount (h : Host W) (moves : List M) :
    k.closedCount h.world + p.reported h moves ≤ k.closedCount (p.run h moves).world := by
  induction moves generalizing h with
  | nil => exact Nat.le_refl _
  | cons m moves ih =>
    rw [reported_cons]
    refine Nat.le_trans ?_ (ih (p.next h m))
    cases he : p.event? m with
    | some e =>
      have hstep := k.closedCount_step h e
      rw [p.next_event h he, Option.elim_some]
      omega
    | none =>
      obtain ⟨_, new, hnew, hopen⟩ := p.next_own h he
      have hle : k.closedCount h.world ≤ k.closedCount (p.next h m).world := by
        rw [closedCount, closedCount, hnew, List.countP_append]
        exact Nat.le_add_right _ _
      rw [Option.elim_none]
      omega

/-- Each of them was registered. -/
theorem reported_le_registrations (h : Host W) (moves : List M) :
    p.reported h moves ≤ h.entryCount + p.registrations h moves := by
  induction moves generalizing h with
  | nil => exact Nat.zero_le _
  | cons m moves ih =>
    have hrest := ih (p.next h m)
    rw [reported_cons, registrations_cons]
    cases he : p.event? m with
    | some e =>
      have hstep := h.entryCount_step e
      rw [p.next_event h he] at hrest ⊢
      simp only [Option.elim_some]
      omega
    | none =>
      obtain ⟨hs, _⟩ := p.next_own h he
      rw [Host.entryCount, hs, ← Host.entryCount] at hrest
      simp only [Option.elim_none]
      omega

theorem reported_le (h0 : h.entryCount = 0) (moves : List M) :
    p.reported h moves ≤
        (k.channels (p.run h moves).world).countP (fun c => (k.sight c).closed) ∧
      p.reported h moves ≤ p.registrations h moves := by
  have hclosed := p.reported_le_closedCount h moves
  have hcount := k.closedCount_eq (p.run h moves).world
  have hregistered := p.reported_le_registrations h moves
  omega

end Moves

end LifeCycle

end

namespace Memory

/-- The life of a channel within the process. -/
def lifeCycle : LifeCycle Memory MemoryChannel where
  toChannelList := list
  sight c := ⟨c.id, c.closed⟩
  send := MemoryChannel.send
  isOpen_eq _ _ := rfl
  send_eq _ _ _ := rfl
  create_new h := by
    obtain ⟨_, _, rfl⟩ := create_ok_iff.mp h
    exact ⟨_, rfl, rfl⟩
  listen_keeps w n _ := map_modify_of_keeps w.channels n (by intro c; rfl)
  send_closed c v h := MemoryChannel.send_error_iff.mpr (.inl ⟨h, rfl⟩)
  send_keeps h := by
    obtain ⟨_, _, rfl⟩ := MemoryChannel.send_ok_iff.mp h
    rfl
  close_ends h := by
    obtain ⟨_, hopen, rfl⟩ := MemoryChannel.close_ok_iff.mp h
    exact ⟨hopen, rfl⟩

theorem sights_update (w : Memory) (n : Nat) {f : MemoryChannel → MemoryChannel}
    (hf : ∀ c, lifeCycle.sight (f c) = lifeCycle.sight c) :
    lifeCycle.sights (w.update n f) = lifeCycle.sights w ++ [] := by
  rw [List.append_nil]
  exact map_modify_of_keeps w.channels n hf

def moves : lifeCycle.Moves Move where
  next h m := (h.move m).1
  event?
    | .event e => some e
    | .memory _ => none
  next_event h m e he := by
    cases m with
    | event _ =>
      cases he
      rfl
    | memory _ => cases he
  next_own h m hm := by
    cases m with
    | event _ => cases hm
    | memory e =>
      refine ⟨rfl, ?_⟩
      cases e with
      | bare target id opening =>
        exact ⟨[⟨id, false⟩], List.map_append, by simp⟩
      | refuseOpen on => exact ⟨[], (List.append_nil _).symm, by simp⟩
      | refuseSend n on => exact ⟨[], sights_update _ n (fun _ => rfl), by simp⟩
      | refuseClose n on => exact ⟨[], sights_update _ n (fun _ => rfl), by simp⟩
      | takeSent n => exact ⟨[], sights_update _ n (fun _ => rfl), by simp⟩

end Memory

namespace Hub

/-- The life of a channel of the hub. -/
def lifeCycle : LifeCycle Hub HubChannel where
  toChannelList := list
  sight c := ⟨c.id, c.closed⟩
  send := HubChannel.send
  isOpen_eq _ _ := rfl
  send_eq _ _ _ := rfl
  create_new h := by
    obtain ⟨_, rfl⟩ := create_ok_iff.mp h
    exact ⟨_, rfl, rfl⟩
  listen_keeps w n _ := map_modify_of_keeps w.channels n (by intro c; rfl)
  send_closed c v h := by
    have hclosed : c.closed = true := h
    simp only [HubChannel.send, hclosed, if_true]
  send_keeps h := by
    obtain ⟨_, _, _, _, _, _, _, rfl⟩ := HubChannel.send_ok_iff.mp h
    rfl
  close_ends {c c'} h := by
    obtain ⟨hopen, rfl⟩ := HubChannel.close_ok_iff.mp h
    have hface := HubChannel.shut_face_of_open hopen
    have hid : c.shut.face.id = c.face.id := by rw [hface]
    exact ⟨hopen, congr (congrArg Sight.mk hid) c.shut_closed⟩

theorem sight_of_face {c c' : HubChannel} (hf : c'.face = c.face) :
    lifeCycle.sight c' = lifeCycle.sight c := by
  have hsame : lifeCycle.sight c'.face = lifeCycle.sight c.face := congrArg lifeCycle.sight hf
  exact hsame

theorem sights_update (w : Hub) (n : Nat) {f : HubChannel → HubChannel}
    (hf : ∀ c, (f c).face = c.face) :
    lifeCycle.sights (w.update n f) = lifeCycle.sights w ++ [] := by
  rw [List.append_nil]
  exact map_modify_of_keeps w.channels n (fun c => sight_of_face (hf c))

def moves : lifeCycle.Moves HubMove where
  next := Host.turn
  event?
    | .event e => some e
    | _ => none
  next_event h m e he := by
    cases m with
    | event _ =>
      cases he
      rfl
    | _ => cases he
  next_own h m hm := by
    rcases turn_service h m with ⟨e, rfl⟩ | hs
    · cases hm
    refine ⟨hs, [], ?_, by simp⟩
    cases m with
    | event _ => cases hm
    | find id =>
      obtain ⟨_, hc⟩ := h.world.find_channels id
      rw [List.append_nil]
      exact congrArg (List.map lifeCycle.sight) hc
    | attach n buffer =>
      simp only [Host.turn]
      split
      next ha =>
        obtain ⟨_, _, _, _, _, rfl⟩ := attach_ok_iff.mp ha
        exact sights_update _ n (fun c => c.seat_face _)
      next => exact (List.append_nil _).symm
      next => exact (List.append_nil _).symm
    | detach n conn =>
      refine sights_update _ n (fun c => ?_)
      rcases HubChannel.detach_cases c conn with hd | hd
      · rw [hd]
      · rw [hd, HubChannel.dropPeer_face]
    | read n conn =>
      cases hq : h.world.queue? n (conn - 1) with
      | some q =>
        simp only [Host.turn, read_eq hq]
        exact sights_update _ n (fun c => c.setFrames_face _ _)
      | none =>
        simp only [Host.turn, read_of_none hq]
        exact (List.append_nil _).symm
    | stopReading n conn => exact sights_update _ n (fun _ => rfl)

end Hub

/-- Over both transports every channel closes at most once, when a close of it succeeds, and takes
nothing from then on; a close that fails, which only an in-process channel can make one do that is
open, leaves it as it was. As many channels as shutdowns report closed have closed, and each of them
was registered. -/
theorem channels_close_once :
    (∀ h : Host Memory, Memory.moves.Lived h ∧
      ∀ (n : Nat) (c : MemoryChannel), h.world.channels[n]? = some c → c.closed = false →
        if c.refusesClose then h.step (.close n) = (h, .channelFailed (.refused .closing c.id))
        else (h.step (.close n)).2 = .done) ∧
    (∀ h : Host Hub, Hub.moves.Lived h ∧
      ∀ (n : Nat) (c : HubChannel), h.world.channels[n]? = some c → c.closed = false →
        (h.step (.close n)).2 = .done) ∧
    (∀ (target : String) (moves : List Move),
      let h := Host.start target ({} : Memory)
      Memory.moves.reported h moves ≤ (h.play moves).world.channels.countP MemoryChannel.closed ∧
        Memory.moves.reported h moves ≤ Memory.moves.registrations h moves) ∧
    ∀ (target : String) (buffer : Nat) (moves : List HubMove),
      let h := Host.start target ({ buffer } : Hub)
      Hub.moves.reported h moves ≤ (h.turns moves).world.channels.countP HubChannel.closed ∧
        Hub.moves.reported h moves ≤ Hub.moves.registrations h moves := by
  refine ⟨fun h => ⟨Memory.moves.lived h, fun n c hc hopen => ?_⟩,
    fun h => ⟨Hub.moves.lived h, fun n c hc hopen => ?_⟩, fun target moves => ?_,
    fun target buffer moves => ?_⟩
  · split
    next hrefuses =>
      simp [Host.step, Transport.close, Memory.apply, hc, MemoryChannel.close, hrefuses, Except.map,
        Host.settle]
    next hrefuses =>
      simp [Host.step, Transport.close, Memory.apply, hc, MemoryChannel.close, hrefuses, hopen,
        Except.map, Host.settle]
  · have hclose := Hub.close_ok_iff.mpr ⟨c, hc, hopen, rfl⟩
    simp only [Host.step, hclose, Host.settle]
  · exact Memory.moves.reported_le rfl moves
  · exact Hub.moves.reported_le rfl moves

/-- A channel refuses to close, and closes when it is told again. -/
theorem refused_close_tried_again :
    let h := (Host.start "t" ({} : Memory)).play
      [.event (.register "" primes), .memory (.refuseClose 0 true)]
    h.step (.close 0) = (h, .channelFailed (.refused .closing "primes")) ∧
    let h' := h.play [.memory (.refuseClose 0 false), .event (.close 0)]
    ∀ later : List Move, (h'.play later).Ended 0 "primes" := by
  obtain ⟨hmemory, _⟩ := channels_close_once
  intro h
  refine ⟨(hmemory h).2 0 _ rfl rfl, ?_⟩
  intro h' later
  exact (hmemory h').1.ended 0 _ later rfl rfl

end PagedTables
