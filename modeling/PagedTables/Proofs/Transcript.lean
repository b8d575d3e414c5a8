import Mathlib.Data.List.Forall2
import PagedTables.Proofs.InProcess
import PagedTables.Proofs.Replies

namespace PagedTables

/-- The moves of a host that opens no channel of its own, takes over none and sends nothing itself.
-/
def Move.Plain : Move → Prop
  | .event (.register _ _) => True
  | .event (.dispatch _ _) => True
  | .event (.deliver _ _) => True
  | .event .shutdown => True
  | .event .drop => True
  | .event (.close _) => True
  | .memory (.refuseOpen _) => True
  | .memory (.refuseSend _ _) => True
  | .memory (.refuseClose _ _) => True
  | _ => False

namespace Host

/-- The message that a move dispatches, and the id it is dispatched to. A message that arrives on an
open channel of the service goes to the id of that channel. -/
def asked? (h : Host Memory) : Move → Option (String × Json)
  | .event (.dispatch id msg) => some (id, msg)
  | .event (.deliver channel msg) =>
    (h.world.channels[channel]?).bind (fun c =>
      if c.closed = false ∧ c.handler = some .service then some (c.id, msg) else none)
  | _ => none

/-- Whether `channel` is the one registered under `id`, is open and does not refuse to send. -/
def serves (h : Host Memory) (id : String) (channel : Nat) : Bool :=
  (h.registered? id).any (fun e => e.channel == channel) &&
    (h.world.channels[channel]?).any (fun c => !c.closed && !c.refusesSend)

/-- The messages of a run that are dispatched to `id` while `channel` serves it, in order. -/
def heard (id : String) (channel : Nat) : Host Memory → List Move → List Json
  | _, [] => []
  | h, m :: ms =>
    match h.asked? m with
    | some (key, msg) =>
      if key = id ∧ h.serves id channel = true then msg :: heard id channel (h.move m).1 ms
      else heard id channel (h.move m).1 ms
    | none => heard id channel (h.move m).1 ms

theorem serves_iff {h : Host Memory} {id : String} {channel : Nat} :
    h.serves id channel = true ↔ ∃ e c, h.registered? id = some e ∧ e.channel = channel ∧
      h.world.channels[channel]? = some c ∧ c.closed = false ∧ c.refusesSend = false := by
  simp only [serves, Bool.and_eq_true, Option.any_eq_true, beq_iff_eq, Bool.not_eq_eq_eq_not,
    Bool.not_true]
  constructor
  · rintro ⟨⟨e, he, hch⟩, c, hc, hclosed, hrefuses⟩
    exact ⟨e, c, he, hch, hc, hclosed, hrefuses⟩
  · rintro ⟨e, c, he, hch, hc, hclosed, hrefuses⟩
    exact ⟨⟨e, he, hch⟩, c, hc, hclosed, hrefuses⟩

theorem heard_cons_of_serves {h : Host Memory} {m : Move} {id : String} {msg : Json}
    {channel : Nat} (ha : h.asked? m = some (id, msg)) (hs : h.serves id channel = true)
    (moves : List Move) :
    h.heard id channel (m :: moves) = msg :: (h.move m).1.heard id channel moves := by
  simp [heard, ha, hs]

theorem heard_cons_of_unserved {h : Host Memory} {m : Move} {id : String} {channel : Nat}
    (hu : ∀ msg, h.asked? m = some (id, msg) → h.serves id channel = false) (moves : List Move) :
    h.heard id channel (m :: moves) = (h.move m).1.heard id channel moves := by
  simp only [heard]
  split
  next key msg ha =>
    refine if_neg ?_
    rintro ⟨rfl, hs⟩
    exact Bool.eq_false_iff.mp (hu msg ha) hs
  next => rfl

end Host

theorem dispatch_eq_record {s : Service} {w w' : Memory} {id : String} {msg : Json} :
    s.dispatch w id msg = .ok w' ↔ ∃ e c, s.entries.get? id = some e ∧
      w.channels[e.channel]? = some c ∧ c.closed = false ∧ c.refusesSend = false ∧
      w' = w.record e.channel (Message.reply e.dataset msg).toJson := by
  rw [dispatch_ok_iff]
  constructor
  · rintro ⟨e, he, _, hs⟩
    obtain ⟨c, hc, hclosed, hrefuses, rfl⟩ := Memory.send_ok_iff.mp hs
    exact ⟨e, c, he, hc, hclosed, hrefuses, rfl⟩
  · rintro ⟨e, c, he, hc, hclosed, hrefuses, rfl⟩
    exact ⟨e, he, Memory.isOpen_iff.mpr ⟨c, hc, hclosed⟩,
      Memory.send_ok_iff.mpr ⟨c, hc, hclosed, hrefuses, rfl⟩⟩

/-- The service answers a message on the channel that serves its id, and else records nothing. -/
theorem dispatch_world (h : Host Memory) {s : Service} (hs : h.service = some s) (id : String)
    (msg : Json) :
    (∃ e, h.registered? id = some e ∧ h.serves id e.channel = true ∧ s.dispatch h.world id msg =
        .ok (h.world.record e.channel (Message.reply e.dataset msg).toJson)) ∨
      (∀ channel, h.serves id channel = false) ∧ ∃ e, s.dispatch h.world id msg = .error e := by
  cases hd : s.dispatch h.world id msg with
  | ok w =>
    obtain ⟨e, c, he, hc, hclosed, hrefuses, rfl⟩ := dispatch_eq_record.mp hd
    have hentry : h.registered? id = some e := Host.registered?_eq_some_iff.mpr ⟨s, hs, he⟩
    exact .inl ⟨e, hentry, Host.serves_iff.mpr ⟨e, c, hentry, rfl, hc, hclosed, hrefuses⟩, rfl⟩
  | error err =>
    refine .inr ⟨fun channel => Bool.eq_false_iff.mpr (fun hserves => ?_), err, rfl⟩
    obtain ⟨e, c, hentry, rfl, hc, hclosed, hrefuses⟩ := Host.serves_iff.mp hserves
    have he : s.entries.get? id = some e := by rwa [Host.registered?_of_service hs] at hentry
    cases hd.symm.trans (dispatch_eq_record.mpr ⟨e, c, he, hc, hclosed, hrefuses, rfl⟩)

/-- What a move did with what the channels have recorded. -/
def Answered (h : Host Memory) (m : Move) (h' : Host Memory) : Prop :=
  (∃ id msg e, h.asked? m = some (id, msg) ∧ h.registered? id = some e ∧
      h.serves id e.channel = true ∧
      h' = { h with world := h.world.record e.channel (Message.reply e.dataset msg).toJson }) ∨
    (∀ id msg channel, h.asked? m = some (id, msg) → h.serves id channel = false) ∧
      Memory.Silent h.world h'.world

theorem answered_of_unasked {h h' : Host Memory} {m : Move} (hm : h.asked? m = none)
    (hs : Memory.Silent h.world h'.world) : Answered h m h' :=
  .inr ⟨fun _ _ _ ha => (Option.some_ne_none _ (ha.symm.trans hm)).elim, hs⟩

theorem dispatch_answered (h : Host Memory) (id : String) (msg : Json) :
    Answered h (.event (.dispatch id msg)) (h.step (.dispatch id msg)).1 := by
  cases hs : h.service with
  | none =>
    refine .inr ⟨fun _ _ channel ha => ?_, by simp only [Host.step, hs]; exact .refl _⟩
    simp only [Host.asked?, Option.some.injEq, Prod.mk.injEq] at ha
    obtain ⟨rfl, rfl⟩ := ha
    simp [Host.serves, Host.registered?, hs]
  | some s =>
    rcases dispatch_world h hs id msg with ⟨e, he, hserves, hd⟩ | ⟨hserves, err, hd⟩
    · refine .inl ⟨id, msg, e, rfl, he, hserves, ?_⟩
      simp only [Host.step, hs, hd, Host.settle]
    · refine .inr ⟨fun _ _ channel ha => ?_, ?_⟩
      · simp only [Host.asked?, Option.some.injEq, Prod.mk.injEq] at ha
        obtain ⟨rfl, rfl⟩ := ha
        exact hserves channel
      · simp only [Host.step, hs, hd, Host.settle]
        exact .refl _

theorem asked?_deliver_of_service {h : Host Memory} {channel : Nat} {id : String} (msg : Json)
    (hr : Transport.receiver? h.world channel = some (id, .service)) :
    h.asked? (.event (.deliver channel msg)) = some (id, msg) := by
  simp only [Transport.receiver?, Memory.receiver?] at hr
  simp only [Host.asked?]
  cases hc : h.world.channels[channel]? with
  | none => simp [hc] at hr
  | some c => cases hclosed : c.closed <;> simp_all

theorem asked?_deliver_of_ne {h : Host Memory} {channel : Nat} (msg : Json)
    (hr : ∀ id, Transport.receiver? h.world channel ≠ some (id, .service)) :
    h.asked? (.event (.deliver channel msg)) = none := by
  simp only [Transport.receiver?, Memory.receiver?] at hr
  simp only [Host.asked?]
  cases hc : h.world.channels[channel]? with
  | none => rfl
  | some c => cases hclosed : c.closed <;> simp_all

theorem deliver_answered (h : Host Memory) (channel : Nat) (msg : Json) :
    Answered h (.event (.deliver channel msg)) (h.deliver channel msg).1 := by
  unfold Host.deliver
  split
  next hr => exact answered_of_unasked (asked?_deliver_of_ne msg (by simp [hr])) (.refl _)
  next hr => exact answered_of_unasked (asked?_deliver_of_ne msg (by simp [hr])) (.refl _)
  next id hr =>
    have ha := asked?_deliver_of_service msg hr
    have unserved : (∀ n, h.serves id n = false) → ∀ {h' : Host Memory},
        Memory.Silent h.world h'.world → Answered h (.event (.deliver channel msg)) h' := by
      intro hn h' hs
      refine .inr ⟨fun id' msg' n ha' => ?_, hs⟩
      cases ha.symm.trans ha'
      exact hn n
    split
    next hs => exact unserved (fun n => by simp [Host.serves, Host.registered?, hs]) (.refl _)
    next s hs =>
      rcases dispatch_world h hs id msg with ⟨e, he, hserves, hd⟩ | ⟨hserves, err, hd⟩
      · rw [hd]
        exact .inl ⟨id, msg, e, ha, he, hserves, rfl⟩
      · rw [hd]
        exact unserved hserves (.refl _)

theorem move_answered {h : Host Memory} {m : Move} (hm : m.Plain) :
    Answered h m (h.move m).1 := by
  cases m with
  | event e =>
    cases e with
    | register fresh d => exact answered_of_unasked rfl (register_silent h fresh d)
    | dispatch id msg => exact dispatch_answered h id msg
    | deliver channel msg => exact deliver_answered h channel msg
    | shutdown => exact answered_of_unasked rfl (shutdown_silent h)
    | drop => exact answered_of_unasked rfl (.refl _)
    | close channel =>
      refine answered_of_unasked rfl ?_
      simp only [Host.move, Host.step, Host.settle]
      split
      next h => exact .close h
      next => exact .refl _
    | sendData => exact hm.elim
    | create => exact hm.elim
    | send => exact hm.elim
    | listen => exact hm.elim
  | memory e =>
    cases e with
    | refuseOpen on => exact answered_of_unasked rfl (fun _ c hc => ⟨c, hc, rfl⟩)
    | refuseSend channel on => exact answered_of_unasked rfl (.update (fun _ => rfl))
    | refuseClose channel on => exact answered_of_unasked rfl (.update (fun _ => rfl))
    | bare => exact hm.elim
    | takeSent => exact hm.elim

/-- Only `d`, under `id`, is registered with `channel`. -/
def Host.Pairs (h : Host Memory) (id : String) (d : Dataset) (channel : Nat) : Prop :=
  channel < h.world.channels.length ∧
    ∀ key e, h.registered? key = some e → e.channel = channel → key = id ∧ e.dataset = d

theorem pairs_move {h : Host Memory} {id : String} {d : Dataset} {channel : Nat}
    (hp : h.Pairs id d channel) (m : Move) : (h.move m).1.Pairs id d channel := by
  refine ⟨Nat.lt_of_lt_of_le hp.1 (length_le_move h m), fun key x hx hch => ?_⟩
  cases m with
  | event e =>
    rcases registered?_step_cases hx with hold | ⟨fresh, d', rfl, hr⟩
    · exact hp.2 key x hold hch
    · obtain ⟨hentry, _⟩ := registered_in_process hr
      have heq : (h.step (.register fresh d')).1.registered? key = some x := hx
      rw [hentry, if_pos rfl, Option.some.injEq] at heq
      -- a new channel has the number of none before it
      have hnew : h.world.channels.length = channel := by rw [← hch, ← heq]
      have := hp.1
      omega
  | memory e => exact hp.2 key x hx hch

/-- What a move adds to the record of a channel is the answer to the message that the channel serves,
if there is one. -/
theorem recorded_move {h : Host Memory} {m : Move} {id : String} {d : Dataset} {channel : Nat}
    {c : MemoryChannel} (hp : h.Pairs id d channel) (hc : h.world.channels[channel]? = some c)
    (hm : m.Plain) :
    (∃ msg c', h.asked? m = some (id, msg) ∧ h.serves id channel = true ∧
        (h.move m).1.world.channels[channel]? = some c' ∧
        c'.sent = c.sent ++ [(Message.reply d msg).toJson]) ∨
      (∀ msg, h.asked? m = some (id, msg) → h.serves id channel = false) ∧
        ∃ c', (h.move m).1.world.channels[channel]? = some c' ∧ c'.sent = c.sent := by
  rcases move_answered hm with ⟨key, msg, e, ha, he, hserves, heq⟩ | ⟨hnot, hs⟩
  · by_cases hch : e.channel = channel
    · obtain ⟨rfl, rfl⟩ := hp.2 key e he hch
      refine .inl ⟨msg, { c with sent := c.sent ++ [(Message.reply e.dataset msg).toJson] }, ha,
        hch ▸ hserves, ?_, rfl⟩
      rw [heq]
      simp [Memory.record_getElem?, hch, hc]
    · refine .inr ⟨fun msg' ha' => Bool.eq_false_iff.mpr (fun hs => hch ?_), c, ?_, rfl⟩
      · cases ha.symm.trans ha'
        obtain ⟨e', _, he', hch', _⟩ := Host.serves_iff.mp hs
        cases he.symm.trans he'
        exact hch'
      · rw [heq]
        simp [Memory.record_getElem?, hch, hc]
  · exact .inr ⟨fun msg ha => hnot id msg channel ha, hs channel c hc⟩

theorem recorded_eq_replies {h : Host Memory} {id : String} {d : Dataset} {channel : Nat}
    {c : MemoryChannel} (hp : h.Pairs id d channel) (hc : h.world.channels[channel]? = some c)
    {moves : List Move} (hm : ∀ m ∈ moves, m.Plain) :
    ∃ c', (h.play moves).world.channels[channel]? = some c' ∧
      c'.sent = c.sent ++
        (h.heard id channel moves).map (fun msg => (Message.reply d msg).toJson) := by
  induction moves generalizing h c with
  | nil => exact ⟨c, hc, by simp [Host.heard]⟩
  | cons m moves ih =>
    have hp' := pairs_move hp m
    have hm' : ∀ m ∈ moves, m.Plain := fun m h => hm m (List.mem_cons_of_mem _ h)
    rcases recorded_move hp hc (hm m List.mem_cons_self) with
      ⟨msg, c₁, ha, hserves, hc₁, hs⟩ | ⟨hu, c₁, hc₁, hs⟩
    · obtain ⟨c', hc', hsent⟩ := ih hp' hc₁ hm'
      refine ⟨c', hc', ?_⟩
      rw [hsent, hs, Host.heard_cons_of_serves ha hserves, List.map_cons, List.append_assoc]
      rfl
    · obtain ⟨c', hc', hsent⟩ := ih hp' hc₁ hm'
      exact ⟨c', hc', by rw [hsent, hs, Host.heard_cons_of_unserved hu]⟩

/-- From its registration on, the channel of a dataset has recorded the answers to the messages that
were dispatched to it while it served them, in order, and nothing else. -/
theorem transcript_of_registered {target : String} {w : Memory} {before after : List Move}
    {fresh id : String} {d : Dataset} {h : Host Memory}
    (hr : ((Host.start target w).play before).step (.register fresh d) = (h, .registered id))
    (ha : ∀ m ∈ after, m.Plain) :
    ∃ c, (h.play after).world.channels[
        ((Host.start target w).play before).world.channels.length]? = some c ∧
      List.Forall₂ (Answers (d.named fresh))
        (h.heard id ((Host.start target w).play before).world.channels.length after) c.sent := by
  have hn := numbered_play (numbered_start target w) before
  obtain ⟨hentry, c, hc, hsent⟩ := registered_in_process hr
  have hp : h.Pairs id (d.named fresh)
      ((Host.start target w).play before).world.channels.length := by
    refine ⟨(List.getElem?_eq_some_iff.mp hc).1, fun key e he hch => ?_⟩
    rw [hentry] at he
    split at he
    next hkey =>
      cases Option.some.inj he
      exact ⟨hkey, rfl⟩
    next =>
      have := hn key e he
      omega
  obtain ⟨c', hc', hs⟩ := recorded_eq_replies hp hc ha
  refine ⟨c', hc', ?_⟩
  rw [hs, hsent, List.nil_append, List.forall₂_map_right_iff]
  exact List.forall₂_same.mpr (fun msg _ => reply_answers _ msg)

/-- The first channel of a dataset refuses to close when the dataset is registered again, and goes on
to bring in messages; the second one refuses to send for a while and is closed. -/
def refusedClose : List Move := [.event (.register "" primes), .memory (.refuseClose 0 true)]

def afterRefusedClose : List Move :=
  [.event (.deliver 0 readyRequest), .memory (.refuseSend 1 true),
    .event (.dispatch "primes" readyRequest), .memory (.refuseSend 1 false),
    .event (.deliver 1 (rowsRequest 7 1)), .event (.close 1), .event (.dispatch "primes" .null)]

theorem transcript_of_reregistered :
    ∃ h, ((Host.start "t" {}).play refusedClose).step (.register "" primes) =
        (h, .registered "primes") ∧
      (∀ m ∈ afterRefusedClose, m.Plain) ∧
      h.heard "primes" 1 afterRefusedClose = [readyRequest, rowsRequest 7 1] ∧
      ∃ c, (h.play afterRefusedClose).world.channels[1]? = some c ∧
        List.Forall₂ (Answers primes) (h.heard "primes" 1 afterRefusedClose) c.sent := by
  have hm : ∀ m ∈ afterRefusedClose, m.Plain := by
    intro m hm
    simp only [afterRefusedClose, List.mem_cons, List.not_mem_nil, or_false] at hm
    rcases hm with rfl | rfl | rfl | rfl | rfl | rfl | rfl <;> trivial
  have hr : ((Host.start "t" ({} : Memory)).play refusedClose).step (.register "" primes) =
      ((((Host.start "t" {}).play refusedClose).step (.register "" primes)).1, .registered "primes") :=
    rfl
  exact ⟨_, hr, hm, rfl, transcript_of_registered hr hm⟩

end PagedTables
