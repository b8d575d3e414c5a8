import PagedTables.Proofs.DispatchOutcomes
import PagedTables.Proofs.Parts
import PagedTables.Proofs.Shutdown

namespace PagedTables

theorem Dataset.named_eq (d : Dataset) (fresh : String) :
    d.named fresh = { d with id := (d.named fresh).id } := by
  unfold named
  split <;> rfl

section

variable {W : Type} [Transport W]

theorem closing_closeQuietly (w : W) (n : Nat) :
    Closing w [(n, closeError? w n)] (Service.closeQuietly w n) := by
  cases hc : Transport.close w n with
  | ok w' =>
    rw [closeError?_of_ok hc, Service.closeQuietly, hc]
    exact .closed hc .done
  | error cause =>
    rw [closeError?_of_error hc, Service.closeQuietly, hc]
    exact .failed hc .done

theorem step_register_of_refused {h : Host W} {s : Service} (hs : h.service = some s)
    {fresh : String} {d : Dataset} {cause : ChannelError}
    (hc : Transport.create h.world s.target (d.named fresh).id (d.named fresh).opening .service =
      .error cause) :
    h.step (.register fresh d) = (h, .registerFailed ⟨cause⟩) := by
  simp only [Host.step, hs, Service.register, hc]

theorem step_register_of_created {h : Host W} {s : Service} (hs : h.service = some s)
    {fresh : String} {d : Dataset} {n : Nat} {w : W}
    (hc : Transport.create h.world s.target (d.named fresh).id (d.named fresh).opening .service =
      .ok (n, w)) :
    h.step (.register fresh d) = ({ h with
      service := some { s with entries := s.entries.insert (d.named fresh).id ⟨d.named fresh, n⟩ }
      world := (h.registered? (d.named fresh).id).elim w
        (fun old => Service.closeQuietly w old.channel) }, .registered (d.named fresh).id) := by
  have hreg := register_ok_iff.mpr ⟨rfl, n, w, hc, rfl, rfl⟩
  rw [Host.registered?_of_service hs]
  simp only [Host.step, hs, hreg]

end

namespace Host

/-- `h'` is `h` with `d` registered as `id` on a new channel: all that this changes, and that nothing
else does. -/
structure Registers (h h' : Host Memory) (target id : String) (d : Dataset) : Prop where
  entry : ∀ key, h'.registered? key = if key = id then
    some ⟨{ d with id }, h.world.channels.length⟩ else h.registered? key
  length : h'.world.channels.length = h.world.channels.length + 1
  opened : h'.world.channels[h.world.channels.length]? =
    some { id, target, opening := d.opening, handler := some .service }
  latest : ∀ key, h'.world.latest.get? key =
    if key = id then some h.world.channels.length else h.world.latest.get? key
  /-- The channel of the earlier dataset with that id, if there is one, is told to close once, when
  the new one is open. -/
  closing : ∃ w, Transport.create h.world target id d.opening .service =
      .ok (h.world.channels.length, w) ∧
    Closing w ((h.registered? id).toList.map (fun e => (e.channel, closeError? w e.channel)))
      h'.world
  replaced : ∀ e c, h.Bound id e c → h'.world.channels[e.channel]? =
    some (if c.refusesClose || c.closed then c else { c with closed := true, handler := none })
  others : ∀ (n : Nat) (c : MemoryChannel), h.world.channels[n]? = some c →
    (∀ e, h.registered? id = some e → e.channel ≠ n) → h'.world.channels[n]? = some c
  sent : ∀ (n : Nat) (c : MemoryChannel), h'.world.channels[n]? = some c →
    c.sent = (h.world.channels[n]?).elim [] MemoryChannel.sent
  refusesOpen : h'.world.refusesOpen = h.world.refusesOpen
  received : h'.received = h.received
  service : ∃ s, h'.service = some s ∧ s.target = target

end Host

/-- A channel as the service opens it. -/
def MemoryChannel.fresh (target id : String) (told : Json) : MemoryChannel :=
  { id, target, opening := told, handler := some .service }

namespace Memory

theorem create_of_accepts {w : Memory} (h : w.refusesOpen = false) (target id : String)
    (told : Json) : Transport.create w target id told .service =
      .ok (w.channels.length, w.opening (.fresh target id told)) :=
  create_ok_iff.mpr ⟨h, rfl, rfl⟩

/-- `w` with the new channel, after the one of the earlier dataset was told to close. -/
def replacing (w : Memory) (new : MemoryChannel) (old : Option Entry) : Memory :=
  old.elim (w.opening new) (fun e => Service.closeQuietly (w.opening new) e.channel)

variable {w : Memory} {new : MemoryChannel} {old : Option Entry} {n : Nat} {c : MemoryChannel}

theorem getElem?_opening (hc : w.channels[n]? = some c) : (w.opening new).channels[n]? = some c :=
  (List.getElem?_append_left (List.getElem?_eq_some_iff.mp hc).1).trans hc

theorem closes_replacing : Closes (fun n => old.any (fun e => e.channel == n)) (w.opening new)
    (w.replacing new old) :=
  .of_list (list.closes_old _ old)

theorem replacing_length : (w.replacing new old).channels.length = w.channels.length + 1 := by
  cases old with
  | none => simp [replacing, opening]
  | some e => simp [replacing, closeQuietly_eq, opening]

theorem replacing_refusesOpen : (w.replacing new old).refusesOpen = w.refusesOpen := by
  cases old with
  | none => rfl
  | some e =>
    rw [replacing, Option.elim_some, closeQuietly_eq]
    rfl

/-- No channel is touched but the one of the earlier dataset. -/
theorem getElem?_replacing (hold : ∀ e, old = some e → e.channel ≠ n) :
    (w.replacing new old).channels[n]? = (w.opening new).channels[n]? := by
  have hnot : ¬ old.any (fun e => e.channel == n) = true := by
    intro h
    obtain ⟨e, he, heq⟩ := (Option.any_eq_true _ _).mp h
    exact hold e he (by simpa using heq)
  rw [closes_replacing.channels, if_neg hnot]

theorem getElem?_replacing_new (hold : ∀ e, old = some e → e.channel < w.channels.length) :
    (w.replacing new old).channels[w.channels.length]? = some new := by
  rw [getElem?_replacing (fun e he => Nat.ne_of_lt (hold e he))]
  exact List.getElem?_concat_length

theorem getElem?_replacing_old {e : Entry} (hc : w.channels[e.channel]? = some c) :
    (w.replacing new (some e)).channels[e.channel]? = some c.shut := by
  rw [closes_replacing.channels, getElem?_opening hc]
  simp

theorem getElem?_replacing_other (hc : w.channels[n]? = some c)
    (hold : ∀ e, old = some e → e.channel ≠ n) :
    (w.replacing new old).channels[n]? = some c := by
  rw [getElem?_replacing hold, getElem?_opening hc]

theorem sent_replacing (hnew : new.sent = []) (hc : (w.replacing new old).channels[n]? = some c) :
    c.sent = (w.channels[n]?).elim [] MemoryChannel.sent := by
  obtain ⟨c₁, hc₁, hsent⟩ := closes_replacing.sent hc
  rw [hsent]
  rcases getElem?_concat_cases hc₁ with hold | ⟨rfl, rfl⟩
  · rw [hold]
    rfl
  · rw [List.getElem?_eq_none (Nat.le_refl _)]
    exact hnew

theorem closing_replacing : Closing (w.opening new)
    (old.toList.map (fun e => (e.channel, closeError? (w.opening new) e.channel)))
    (w.replacing new old) := by
  cases old with
  | none => exact .done
  | some e => exact closing_closeQuietly _ e.channel

end Memory

namespace Host

variable {h : Host Memory} {target : String} {s : Service}

theorem step_register_eq (hs : h.service = some s) (haccepts : h.world.refusesOpen = false)
    (fresh : String) (d : Dataset) :
    let id := (d.named fresh).id
    h.step (.register fresh d) = ({ h with
      service := some { s with
        entries := s.entries.insert id ⟨{ d with id }, h.world.channels.length⟩ }
      world := h.world.replacing (.fresh s.target id d.opening) (h.registered? id) }, .registered id) := by
  intro id
  have hopening : (d.named fresh).opening = d.opening := by simp [Dataset.opening]
  have hcreate := Memory.create_of_accepts haccepts s.target id d.opening
  rw [← hopening] at hcreate
  rw [step_register_of_created hs hcreate, hopening, ← d.named_eq fresh]
  rfl

theorem registers_step (hh : h.Enrolled target) (hs : h.service = some s)
    (haccepts : h.world.refusesOpen = false) (fresh : String) (d : Dataset) :
    (h.step (.register fresh d)).2 = .registered (d.named fresh).id ∧
      h.Registers (h.step (.register fresh d)).1 target (d.named fresh).id d := by
  obtain ⟨rfl, _⟩ := hh.service s hs
  rw [step_register_eq hs haccepts fresh d]
  refine ⟨rfl, ?_⟩
  generalize (d.named fresh).id = id
  constructor
  case entry =>
    intro key
    simp only [Host.registered?, hs, Option.bind_some, KeyMap.get?_insert]
  case length => exact Memory.replacing_length
  case opened =>
    refine Memory.getElem?_replacing_new (fun e he => ?_)
    obtain ⟨_, c, hc, _⟩ := hh.entry id e he
    exact (List.getElem?_eq_some_iff.mp hc).1
  case latest =>
    intro key
    rw [Memory.closes_replacing.latest]
    exact KeyMap.get?_insert _ _ _ _
  case closing => exact ⟨_, Memory.create_of_accepts haccepts _ _ _, Memory.closing_replacing⟩
  case replaced =>
    rintro e c ⟨he, hc⟩
    rw [← MemoryChannel.shut_eq, he]
    exact Memory.getElem?_replacing_old hc
  case others => exact fun n c hc hold => Memory.getElem?_replacing_other hc hold
  case sent => exact fun n c hc => Memory.sent_replacing rfl hc
  case refusesOpen => exact Memory.replacing_refusesOpen
  case received => rfl
  case service => exact ⟨_, rfl, rfl⟩

variable {id : String} {e : Entry} {c : MemoryChannel}

/-- An open channel that takes messages gets the answer, whether it is asked for by id or by a message
that arrives on the channel. -/
theorem answered_of_bound (hh : h.Enrolled target) (hs : h.service = some s) (hb : h.Bound id e c)
    (hopen : c.closed = false) (htakes : c.refusesSend = false) (msg : Json) :
    ∃ h', h.step (.dispatch id msg) = (h', .done) ∧
      h.Gains h' e.channel (Message.reply e.dataset msg).toJson ∧
      (c.handler = some .service → h.step (.deliver e.channel msg) = (h', .delivered true)) := by
  obtain ⟨_, c', hc', hface⟩ := hh.entry id e hb.entry
  cases hb.channel.symm.trans hc'
  have hid : c.id = id := congrArg Prod.fst hface
  have hentry : s.entries.get? id = some e := (registered?_of_service hs id).symm.trans hb.entry
  have hdispatch : s.dispatch h.world id msg =
      .ok (h.world.record e.channel (Message.reply e.dataset msg).toJson) :=
    dispatch_ok_iff.mpr ⟨e, hentry, Memory.isOpen_iff.mpr ⟨c, hb.channel, hopen⟩,
      Memory.send_ok_iff.mpr ⟨c, hb.channel, hopen, htakes, rfl⟩⟩
  refine ⟨{ h with world := h.world.record e.channel (Message.reply e.dataset msg).toJson },
    ?_, ⟨c, hb.channel, ?_⟩, fun hhandler => ?_⟩
  · simp only [step, hs, hdispatch, settle]
  · rw [← Memory.set_eq_record _ hb.channel]
  · have hreceiver : Transport.receiver? h.world e.channel = some (id, .service) := by
      simp [Transport.receiver?, Memory.receiver?, hb.channel, hopen, hhandler, hid]
    simp only [step, deliver, hreceiver, hs, hdispatch]

end Host

/-- A registration changes nothing if no channel opens: what was registered is answered as before. If
one opens, the dataset and the channel are put under the id, the channel of an earlier dataset with
that id is told to close once, and all else stays. -/
theorem registration_atomic {target : String} {moves : List Move} {s : Service}
    (hs : ((Host.start target ({} : Memory)).play moves).service = some s) (fresh : String)
    (d : Dataset) :
    let h := (Host.start target ({} : Memory)).play moves
    let id := (d.named fresh).id
    let next := h.step (.register fresh d)
    id = (if d.id = "" then fresh else d.id) ∧
    (∀ cause, Transport.create h.world target id d.opening .service = .error cause →
      next = (h, .registerFailed ⟨cause⟩) ∧
      ∀ key e c msg, h.Bound key e c → c.closed = false → c.refusesSend = false →
        ∃ h', next.1.step (.dispatch key msg) = (h', .done) ∧
          next.1.Gains h' e.channel (Message.reply e.dataset msg).toJson ∧
          (c.handler = some .service →
            next.1.step (.deliver e.channel msg) = (h', .delivered true))) ∧
    ∀ n w, Transport.create h.world target id d.opening .service = .ok (n, w) →
      next.2 = .registered id ∧ h.Registers next.1 target id d := by
  intro h id next
  have hh : h.Enrolled target := (Host.Enrolled.start target _).play moves
  have htarget := (hh.service s hs).1
  refine ⟨?_, fun cause hc => ?_, fun n w hc => ?_⟩
  · simp only [id, Dataset.named]
    split <;> rfl
  · have hopening : (d.named fresh).opening = d.opening := by simp [Dataset.opening]
    have hnext : next = (h, .registerFailed ⟨cause⟩) := by
      rw [← hopening, ← htarget] at hc
      exact step_register_of_refused hs hc
    rw [hnext]
    exact ⟨rfl, fun key e c msg hb hopen htakes => Host.answered_of_bound hh hs hb hopen htakes msg⟩
  · exact Host.registers_step hh hs (Memory.create_ok_iff.mp hc).1 fresh d

def morePrimes : Dataset := { primes with title := "More primes" }

/-- The channel of an earlier dataset refuses to close and stays as it is, and the registration does
not fail; one for which no channel opens does, and the earlier dataset is still answered. -/
theorem stubborn_channel_replaced :
    (let h := (Host.start "t" ({} : Memory)).play
      [.event (.register "" primes), .memory (.refuseClose 0 true)]
    let next := h.step (.register "" morePrimes)
    next.2 = .registered "primes" ∧ next.1.world.channels[0]? = h.world.channels[0]? ∧
      ∃ w, Closing w [(0, some (.refused .closing "primes"))] next.1.world) ∧
    let h := (Host.start "t" ({} : Memory)).play
      [.event (.register "" primes), .memory (.refuseOpen true)]
    let next := h.step (.register "" morePrimes)
    next = (h, .registerFailed ⟨.refused .opening "primes"⟩) ∧
      ∃ h', next.1.step (.deliver 0 readyRequest) = (h', .delivered true) ∧
        h.Gains h' 0 (Message.reply primes readyRequest).toJson := by
  constructor
  · intro h next
    obtain ⟨s, hs⟩ : ∃ s, h.service = some s := ⟨_, rfl⟩
    obtain ⟨_, _, hopened⟩ := registration_atomic hs "" morePrimes
    obtain ⟨hnext, hr⟩ := hopened 1 _ rfl
    obtain ⟨w, hw, hclosing⟩ := hr.closing
    cases hw
    exact ⟨hnext, hr.replaced ⟨primes, 0⟩ _ ⟨rfl, rfl⟩, _, hclosing⟩
  · intro h next
    obtain ⟨s, hs⟩ : ∃ s, h.service = some s := ⟨_, rfl⟩
    obtain ⟨_, hrefused, _⟩ := registration_atomic hs "" morePrimes
    obtain ⟨hnext, hanswered⟩ := hrefused _ rfl
    obtain ⟨h', _, hgains, hdeliver⟩ :=
      hanswered "primes" ⟨primes, 0⟩ _ readyRequest ⟨rfl, rfl⟩ rfl rfl
    refine ⟨hnext, h', hdeliver rfl, ?_⟩
    rwa [hnext] at hgains

end PagedTables
