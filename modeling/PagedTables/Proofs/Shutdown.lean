import PagedTables.Proofs.HubLookup
import PagedTables.Proofs.RegistryHistory

namespace PagedTables

section

variable {W : Type} [Transport W]

/-- Why a channel does not close, if it does not. -/
def closeError? (w : W) (channel : Nat) : Option ChannelError :=
  match Transport.close w channel with
  | .ok _ => none
  | .error cause => some cause

/-- The channels of the entries, each with why it does not close. -/
def attempts (w : W) (order : List (String × Entry)) : List (Nat × Option ChannelError) :=
  order.map (fun x => (x.2.channel, closeError? w x.2.channel))

/-- The entries whose channels do not close, each with the reason. -/
def refused (w : W) (order : List (String × Entry)) : List CloseFailure :=
  order.filterMap (fun x => (closeError? w x.2.channel).map (CloseFailure.mk x.1))

/-- Channels are told to close one after another, each with the reason if it does not. -/
inductive Closing : W → List (Nat × Option ChannelError) → W → Prop
  | done {w : W} : Closing w [] w
  | closed {w w₁ w₂ : W} {channel : Nat} {later : List (Nat × Option ChannelError)} :
      Transport.close w channel = .ok w₁ → Closing w₁ later w₂ →
      Closing w ((channel, none) :: later) w₂
  | failed {w w₂ : W} {channel : Nat} {cause : ChannelError}
      {later : List (Nat × Option ChannelError)} : Transport.close w channel = .error cause →
      Closing w later w₂ → Closing w ((channel, some cause) :: later) w₂

/-- What becomes of a channel that is told to close has nothing to do with other channels. -/
structure Transport.Separate (W : Type) [Transport W] : Prop where
  error : ∀ (w w' : W) (n m : Nat), Transport.close w n = .ok w' → n ≠ m →
    closeError? w' m = closeError? w m
  swap : ∀ (w : W) (n m : Nat), Service.closeQuietly (Service.closeQuietly w n) m =
    Service.closeQuietly (Service.closeQuietly w m) n

namespace Host

/-- A shutdown that goes through the registered datasets in the given order. -/
def shutdownIn (h : Host W) (order : List (String × Entry)) : ShutdownReport × Host W :=
  let (report, w) := Service.closeEach h.world order
  (report, { h with service := h.service.map (fun s => { s with entries := [] }), world := w })

/-- Each channel is told to close once and no other is, whatever became of the ones before it; the
report accounts for all of them; and the order makes no difference to what is left. -/
structure Finishes (h : Host W) (order : List (String × Entry)) (report : ShutdownReport)
    (h' : Host W) : Prop where
  closing : Closing h.world (attempts h.world order) h'.world
  apart : (order.map (fun x => x.2.channel)).Nodup
  total : report.closed + report.failures.length = order.length
  failures : report.failures = refused h.world order
  same : (h.step .shutdown).1 = h'
  empty : ∀ id, h'.registered? id = none
  again : h'.step .shutdown = (h', .report ⟨0, []⟩)

/-- Nothing is known of `id`, and messages for it get no answer, whatever channel they arrive on. -/
structure Forgot (h : Host W) (id : String) : Prop where
  has : ∀ s, h.service = some s → s.has id = false
  dispatch : ∀ s msg, h.service = some s →
    h.step (.dispatch id msg) = (h, .dispatchFailed (.unknownDataset id))
  deliver : ∀ channel handler msg, Transport.receiver? h.world channel = some (id, handler) →
    (h.step (.deliver channel msg)).1.world = h.world

/-- The registered datasets are kept in the order of their ids. -/
def Sorted (h : Host W) : Prop := ∀ s, h.service = some s → s.entries.Sorted

end Host

theorem closeError?_of_ok {w w' : W} {n : Nat} (h : Transport.close w n = .ok w') :
    closeError? w n = none := by
  simp only [closeError?, h]

theorem closeError?_of_error {w : W} {n : Nat} {cause : ChannelError}
    (h : Transport.close w n = .error cause) : closeError? w n = some cause := by
  simp only [closeError?, h]

theorem attempts_congr {w w' : W} {order : List (String × Entry)}
    (h : ∀ x ∈ order, closeError? w' x.2.channel = closeError? w x.2.channel) :
    attempts w' order = attempts w order :=
  List.map_congr_left (fun x hx => by rw [h x hx])

theorem refused_congr {w w' : W} {order : List (String × Entry)}
    (h : ∀ x ∈ order, closeError? w' x.2.channel = closeError? w x.2.channel) :
    refused w' order = refused w order :=
  List.filterMap_congr (fun x hx => by rw [h x hx])

/-- Closing distinct channels in turn finds each of them as it was at the beginning. -/
theorem closing_each (sep : Transport.Separate W) {order : List (String × Entry)}
    (hn : (order.map (fun x => x.2.channel)).Nodup) (w : W) :
    Closing w (attempts w order) (Service.closeEach w order).2 ∧
      (Service.closeEach w order).1.closed + (Service.closeEach w order).1.failures.length =
        order.length ∧
      (Service.closeEach w order).1.failures = refused w order := by
  induction order generalizing w with
  | nil => exact ⟨.done, rfl, rfl⟩
  | cons x order ih =>
    obtain ⟨hx, hn⟩ := List.nodup_cons.mp hn
    cases hc : Transport.close w x.2.channel with
    | error cause =>
      obtain ⟨hclosing, htotal, hfailures⟩ := ih hn w
      simp only [attempts, refused] at hclosing hfailures
      simp only [Service.closeEach, hc, attempts, refused, List.map_cons, List.filterMap_cons,
        closeError?_of_error hc, Option.map_some, List.length_cons, hfailures]
      rw [hfailures] at htotal
      exact ⟨.failed hc hclosing, by omega, trivial⟩
    | ok w₁ =>
      obtain ⟨hclosing, htotal, hfailures⟩ := ih hn w₁
      have hsame : ∀ y ∈ order, closeError? w₁ y.2.channel = closeError? w y.2.channel := by
        intro y hy
        refine sep.error w w₁ _ _ hc (fun heq => hx ?_)
        exact List.mem_map.mpr ⟨y, hy, heq.symm⟩
      rw [attempts_congr hsame] at hclosing
      rw [refused_congr hsame] at hfailures
      simp only [attempts, refused] at hclosing hfailures
      simp only [Service.closeEach, hc, attempts, refused, List.map_cons, List.filterMap_cons,
        closeError?_of_ok hc, Option.map_none, List.length_cons, hfailures]
      rw [hfailures] at htotal
      exact ⟨.closed hc hclosing, by omega, trivial⟩

theorem closeEach_perm (sep : Transport.Separate W) {order order' : List (String × Entry)}
    (hp : order.Perm order') (w : W) :
    (Service.closeEach w order).2 = (Service.closeEach w order').2 := by
  rw [closeEach_world, closeEach_world]
  exact hp.foldl_eq' (fun x _ y _ w => sep.swap w x.2.channel y.2.channel) w

/-- Channels that carry the ids of their entries are as many as there are entries. -/
theorem nodup_channels {entries : KeyMap Entry} (hs : entries.Sorted)
    (ofChannel : Nat → Option String) (hid : ∀ x ∈ entries, ofChannel x.2.channel = some x.1) :
    (entries.map (fun x => x.2.channel)).Nodup := by
  refine List.pairwise_map.mpr ((List.pairwise_map.mp hs).imp_of_mem (fun {x y} hx hy hlt heq => ?_))
  have hids := (hid x hx).symm.trans ((congrArg ofChannel heq).trans (hid y hy))
  exact String.lt_irrefl _ (Option.some.inj hids ▸ hlt)

namespace Host

variable {h : Host W} {s : Service}

theorem step_shutdown (hs : h.service = some s) : h.step .shutdown =
    ((h.shutdownIn s.entries).2, .report (h.shutdownIn s.entries).1) := by
  simp only [step, hs, shutdownIn, Service.shutdown, Option.map_some]

theorem finishes (sep : Transport.Separate W) (hs : h.service = some s)
    (hn : (s.entries.map (fun x => x.2.channel)).Nodup) {order : List (String × Entry)}
    (hp : order.Perm s.entries) : h.Finishes order (h.shutdownIn order).1 (h.shutdownIn order).2 := by
  have hno : (order.map (fun x => x.2.channel)).Nodup := (hp.map _).nodup_iff.mpr hn
  obtain ⟨hclosing, htotal, hfailures⟩ := closing_each sep hno h.world
  refine ⟨hclosing, hno, htotal, hfailures, ?_, fun id => ?_, ?_⟩
  · rw [step_shutdown hs]
    simp only [shutdownIn, closeEach_perm sep hp]
  · simp [registered?, shutdownIn, hs]
  · simp [step, shutdownIn, hs, Service.shutdown, Service.closeEach]

theorem Forgot.of_unregistered {id : String} (hn : h.registered? id = none) : h.Forgot id := by
  have hnone : ∀ s, h.service = some s → s.entries.get? id = none :=
    fun s hs => (registered?_of_service hs id).symm.trans hn
  refine ⟨fun s hs => ?_, fun s msg hs => ?_, fun channel handler msg hr => ?_⟩
  · simp only [Service.has, KeyMap.contains, hnone s hs, Option.isSome_none]
  · simp only [Host.step, hs, Service.dispatch, hnone s hs, settle]
  · simp only [Host.step, Host.deliver, hr]
    cases handler with
    | recorder => rfl
    | service =>
      cases hs : h.service with
      | none => rfl
      | some s => simp only [Service.dispatch, hnone s hs]

end Host

theorem Host.Sorted.step {h : Host W} (hs : h.Sorted) (e : Event) : (h.step e).1.Sorted := by
  have hf := step_effect h e
  generalize (h.step e).1 = h' at hf
  cases hf with
  | nothing hs' => exact fun s h => hs s (hs'.symm.trans h)
  | send hs' => exact fun s h => hs s (hs'.symm.trans h)
  | close => exact hs
  | register hs₀ hreg =>
    obtain ⟨_, _, _, _, rfl, _⟩ := register_ok_iff.mp hreg
    intro s h
    cases h
    exact KeyMap.sorted_insert (hs _ hs₀) _ _
  | shutdown =>
    intro s h
    cases h
    exact List.Pairwise.nil
  | drop => exact fun s h => nomatch h
  | create => exact hs
  | listen => exact hs

namespace ChannelList

variable {C : Type} (k : ChannelList W C) {w w' : W} {n : Nat}

theorem closeError?_of_channel {c : C} (hc : (k.channels w)[n]? = some c) :
    closeError? w n = match k.close c with
      | .ok _ => none
      | .error cause => some cause := by
  unfold closeError?
  rw [k.close_eq, k.apply_some k.close hc]
  cases k.close c <;> rfl

theorem closeError?_congr (h : (k.channels w')[n]? = (k.channels w)[n]?) :
    closeError? w' n = closeError? w n := by
  cases hc : (k.channels w)[n]? with
  | none =>
    unfold closeError?
    rw [k.close_eq, k.close_eq, k.apply_none k.close hc, k.apply_none k.close (h.trans hc)]
  | some c => rw [k.closeError?_of_channel hc, k.closeError?_of_channel (h.trans hc)]

theorem separate (k : ChannelList W C) : Transport.Separate W := by
  refine ⟨fun w w' n m hc hne => k.closeError?_congr ?_, fun w n m => ?_⟩
  · obtain ⟨c, c', _, _, rfl⟩ := k.close_ok_iff.mp hc
    rw [k.channels_put, List.getElem?_set_ne hne]
  · simp only [k.closeQuietly_eq, update, k.channels_put, k.put_put]
    rw [modify_swap]

end ChannelList

end

namespace Memory

theorem closeError?_of_channel {w : Memory} {n : Nat} {c : MemoryChannel}
    (hc : w.channels[n]? = some c) : closeError? w n =
      if c.refusesClose then some (.refused .closing c.id)
      else if c.closed then some (.closed c.id) else none := by
  simp only [closeError?, Transport.close, apply, hc, MemoryChannel.close]
  cases c.refusesClose <;> cases c.closed <;> rfl

theorem Closes.sent {which : Nat → Bool} {w w' : Memory} (h : Closes which w w') {n : Nat}
    {c' : MemoryChannel} (hc' : w'.channels[n]? = some c') :
    ∃ c, w.channels[n]? = some c ∧ c'.sent = c.sent := by
  rw [h.channels n] at hc'
  split at hc'
  next =>
    obtain ⟨c, hc, rfl⟩ := Option.map_eq_some_iff.mp hc'
    refine ⟨c, hc, ?_⟩
    rw [MemoryChannel.shut_eq]
    split <;> rfl
  next => exact ⟨c', hc', rfl⟩

end Memory

namespace Hub

theorem closeError?_of_channel {w : Hub} {n : Nat} {c : HubChannel} (hc : w.channels[n]? = some c) :
    closeError? w n = if c.closed then some (.closed c.id) else none := by
  simp only [closeError?, Transport.close, apply, hc, HubChannel.close_eq]
  cases c.closed <;> rfl

end Hub

theorem Host.Enrolled.channel_of_mem {target : String} {h : Host Memory} (hh : h.Enrolled target)
    {s : Service} (hs : h.service = some s) {x : String × Entry} (hx : x ∈ s.entries) :
    ∃ c, h.world.channels[x.2.channel]? = some c ∧ c.id = x.1 := by
  obtain ⟨_, c, hc, hf⟩ := hh.entry x.1 x.2
    ((registered?_of_service hs x.1).trans (KeyMap.get?_of_mem (hh.service s hs).2 hx))
  exact ⟨c, hc, congrArg Prod.fst hf⟩

theorem not_any_of_perm {order entries : List (String × Entry)} (hp : order.Perm entries) {n : Nat}
    (hn : ∀ x ∈ entries, x.2.channel ≠ n) : ¬ order.any (fun x => x.2.channel == n) = true := by
  rw [List.any_eq_true]
  rintro ⟨x, hx, heq⟩
  exact hn x (hp.mem_iff.mp hx) (beq_iff_eq.mp heq)

theorem registered?_play {h : Host Memory} {id : String} {moves : List Move}
    (hm : ∀ fresh d, .event (.register fresh d) ∈ moves → (d.named fresh).id ≠ id)
    (hn : h.registered? id = none) : (h.play moves).registered? id = none := by
  induction moves generalizing h with
  | nil => exact hn
  | cons m moves ih =>
    refine ih (fun fresh d hmem => hm fresh d (List.mem_cons_of_mem _ hmem)) ?_
    cases m with
    | event e =>
      exact registered?_step_eq_none (fun fresh d he => hm fresh d (he ▸ List.mem_cons_self)) hn
    | memory e => exact hn

/-- No move but an event touches the service. -/
theorem turn_service (h : Host Hub) (m : HubMove) :
    (∃ e, m = .event e) ∨ (h.turn m).service = h.service := by
  cases m with
  | event e => exact .inl ⟨e, rfl⟩
  | find id => exact .inr rfl
  | attach channel buffer =>
    simp only [Host.turn]
    split <;> exact .inr rfl
  | detach channel conn => exact .inr rfl
  | read channel conn =>
    simp only [Host.turn]
    split <;> exact .inr rfl
  | stopReading channel conn => exact .inr rfl

theorem service_turns {h : Host Hub} {moves : List HubMove} {s : Service} (hs : h.service = some s)
    (hm : .event .drop ∉ moves) : ∃ s', (h.turns moves).service = some s' := by
  induction moves generalizing h s with
  | nil => exact ⟨s, hs⟩
  | cons m moves ih =>
    obtain ⟨s', hs'⟩ : ∃ s', (h.turn m).service = some s' := by
      rcases turn_service h m with ⟨e, rfl⟩ | hsame
      · exact service_step hs (fun he => hm (he ▸ List.mem_cons_self))
      · exact ⟨s, hsame.trans hs⟩
    exact ih hs' (fun hmem => hm (List.mem_cons_of_mem _ hmem))

namespace Host

variable {target : String} {h : Host Hub}

theorem Matched.turn (hm : h.Matched target) (m : HubMove) : (h.turn m).Matched target := by
  cases m with
  | event e => exact hm.step e
  | find id =>
    obtain ⟨_, hc⟩ := h.world.find_channels id
    exact hm.of_keeps rfl (fun n c hn => ⟨c, by rw [← hn]; exact congrArg (·[n]?) hc, rfl, rfl, rfl⟩)
  | attach channel buffer =>
    simp only [Host.turn]
    split
    next ha =>
      obtain ⟨_, _, _, _, _, rfl⟩ := Hub.attach_ok_iff.mp ha
      exact hm.of_keeps rfl (Hub.Keeps.update (fun c => c.seat_face _)).channel
    next => exact hm
    next => exact hm
  | detach channel conn =>
    refine hm.of_keeps rfl (Hub.Keeps.update (fun c => ?_)).channel
    rcases HubChannel.detach_cases c conn with hd | hd
    · rw [hd]
    · rw [hd, HubChannel.dropPeer_face]
  | read channel conn =>
    cases hq : h.world.queue? channel (conn - 1) with
    | some q =>
      simp only [Host.turn, Hub.read_eq hq]
      exact hm.of_keeps rfl (Hub.Keeps.update (fun c => c.setFrames_face _ _)).channel
    | none =>
      simp only [Host.turn, Hub.read_of_none hq]
      exact hm
  | stopReading channel conn =>
    have hk := Hub.Keeps.update (w := h.world) (n := channel) (f := fun c => c.stopReading conn)
      (fun _ => rfl)
    exact hm.of_keeps rfl hk.channel

theorem Matched.channel_of_mem (hm : h.Matched target) (hsorted : h.Sorted) {s : Service}
    (hs : h.service = some s) {x : String × Entry} (hx : x ∈ s.entries) :
    ∃ c, h.world.channels[x.2.channel]? = some c ∧ c.id = x.1 := by
  obtain ⟨_, c, hc, hid, _⟩ := hm.entry x.1 x.2
    ((registered?_of_service hs x.1).trans (KeyMap.get?_of_mem (hsorted s hs) hx))
  exact ⟨c, hc, hid⟩

theorem Sorted.turn (hs : h.Sorted) (m : HubMove) : (h.turn m).Sorted := by
  rcases turn_service h m with ⟨e, rfl⟩ | hsame
  · exact hs.step e
  · exact fun s h => hs s (hsame.symm.trans h)

theorem matched_turns (target : String) (buffer : Nat) (moves : List HubMove) :
    ((Host.start target ({ buffer } : Hub)).turns moves).Matched target ∧
      ((Host.start target ({ buffer } : Hub)).turns moves).Sorted := by
  suffices ∀ h : Host Hub, h.Matched target ∧ h.Sorted →
      (h.turns moves).Matched target ∧ (h.turns moves).Sorted by
    refine this _ ⟨(Host.Coherent.start target buffer).matched, fun s h => ?_⟩
    cases h
    exact List.Pairwise.nil
  induction moves with
  | nil => exact fun h hh => hh
  | cons m moves ih => exact fun h hh => ih (h.turn m) ⟨hh.1.turn m, hh.2.turn m⟩

end Host

/-- A shutdown tells the channel of each registered dataset to close, once and whatever became of the
others, and no other channel; it accounts for each of them; nothing is sent but that the end has come;
and nothing is left of the registry. From then on nothing is known of an id, and nothing answers for
it, until it is registered again. -/
theorem shutdown_leaves_nothing :
    (∀ (target : String) (before : List Move) (s : Service),
      let h := (Host.start target ({} : Memory)).play before
      h.service = some s →
      h.step .shutdown = ((h.shutdownIn s.entries).2, .report (h.shutdownIn s.entries).1) ∧
      (∀ x ∈ s.entries, ∃ c, h.world.channels[x.2.channel]? = some c ∧
        closeError? h.world x.2.channel =
          if c.refusesClose then some (.refused .closing x.1)
          else if c.closed then some (.closed x.1) else none) ∧
      ∀ order, order.Perm s.entries →
        let h' := (h.shutdownIn order).2
        h.Finishes order (h.shutdownIn order).1 h' ∧
        (∀ n : Nat, (∀ x ∈ s.entries, x.2.channel ≠ n) →
          h'.world.channels[n]? = h.world.channels[n]?) ∧
        (∀ (n : Nat) (c' : MemoryChannel), h'.world.channels[n]? = some c' →
          ∃ c, h.world.channels[n]? = some c ∧ c'.sent = c.sent) ∧
        ∀ id after, (∀ fresh d, .event (.register fresh d) ∈ after → (d.named fresh).id ≠ id) →
          (h'.play after).Forgot id ∧
            (.event .drop ∉ after → ∃ s', (h'.play after).service = some s')) ∧
    ∀ (target : String) (buffer : Nat) (before : List HubMove) (s : Service),
      let h := (Host.start target ({ buffer } : Hub)).turns before
      h.service = some s →
      h.step .shutdown = ((h.shutdownIn s.entries).2, .report (h.shutdownIn s.entries).1) ∧
      (∀ x ∈ s.entries, ∃ c, h.world.channels[x.2.channel]? = some c ∧
        closeError? h.world x.2.channel = if c.closed then some (.closed x.1) else none) ∧
      ∀ order, order.Perm s.entries →
        let h' := (h.shutdownIn order).2
        h.Finishes order (h.shutdownIn order).1 h' ∧
        (∀ n : Nat, (∀ x ∈ s.entries, x.2.channel ≠ n) →
          h'.world.channels[n]? = h.world.channels[n]?) ∧
        (∀ (n k : Nat) (q' : Queue), h'.world.queue? n k = some q' →
          ∃ q, h.world.queue? n k = some q ∧
            (q'.frames = q.frames ∨ q'.frames = q.frames ++ [.close])) ∧
        ∀ id after, (∀ fresh d, .event (.register fresh d) ∈ after → (d.named fresh).id ≠ id) →
          (h'.turns after).Forgot id ∧
            (.event .drop ∉ after → ∃ s', (h'.turns after).service = some s') := by
  constructor
  · intro target before s h hs
    have hh : h.Enrolled target := (Host.Enrolled.start target {}).play before
    have hapart := nodup_channels (hh.service s hs).2 (fun n => (h.world.channels[n]?).map (·.id))
      (fun x hx => Option.map_eq_some_iff.mpr (hh.channel_of_mem hs hx))
    refine ⟨Host.step_shutdown hs, fun x hx => ?_, fun order hp => ?_⟩
    · obtain ⟨c, hc, hid⟩ := hh.channel_of_mem hs hx
      exact ⟨c, hc, hid ▸ Memory.closeError?_of_channel hc⟩
    · have hcl := Memory.Closes.of_list (Memory.list.closes_each h.world order)
      have hfinishes := Host.finishes Memory.list.separate hs hapart hp
      refine ⟨hfinishes, fun n hn => ?_, fun n c' hc' => hcl.sent hc', fun id after hno => ⟨?_, ?_⟩⟩
      · exact (hcl.channels n).trans (if_neg (not_any_of_perm hp hn))
      · exact .of_unregistered (registered?_play hno (hfinishes.empty id))
      · exact Host.service_play (s := { s with entries := [] }) (by simp [Host.shutdownIn, hs])
  · intro target buffer before s h hs
    obtain ⟨hm, hsorted⟩ := Host.matched_turns target buffer before
    have hapart := nodup_channels (hsorted s hs) (fun n => (h.world.channels[n]?).map (·.id))
      (fun x hx => Option.map_eq_some_iff.mpr (hm.channel_of_mem hsorted hs hx))
    refine ⟨Host.step_shutdown hs, fun x hx => ?_, fun order hp => ?_⟩
    · obtain ⟨c, hc, hid⟩ := hm.channel_of_mem hsorted hs hx
      exact ⟨c, hc, hid ▸ Hub.closeError?_of_channel hc⟩
    · have hcl := Hub.Closes.of_list (Hub.list.closes_each h.world order)
      have hfinishes := Host.finishes Hub.list.separate hs hapart hp
      refine ⟨hfinishes, fun n hn => ?_, fun n k q' hq' => hcl.frames hq',
        fun id after hno => ⟨?_, ?_⟩⟩
      · exact (hcl.channels n).trans (if_neg (not_any_of_perm hp hn))
      · exact .of_unregistered (registered?_turns hno (hfinishes.empty id))
      · exact service_turns (s := { s with entries := [] }) (by simp [Host.shutdownIn, hs])

/-- Two tables, of which one has a channel that refuses to close and the other a closed one. -/
def stubborn : List Move :=
  [.event (.register "" primes), .event (.register "copy" { primes with id := "" }),
    .memory (.refuseClose 0 true), .event (.close 1)]

/-- A table whose channel its host has closed under a viewer. -/
def closedUnder : List HubMove :=
  [.event (.register "" primes), .attach 0 1, .event (.close 0)]

/-- The last table goes first. The channel that refuses stays open, but its viewer gets no answer. -/
theorem stubborn_channels_reported :
    (let h := (Host.start "t" ({} : Memory)).play stubborn
    ∃ s, h.service = some s ∧
      (h.shutdownIn s.entries.reverse).1.failures =
        [⟨"primes", .refused .closing "primes"⟩, ⟨"copy", .closed "copy"⟩] ∧
      let h' := (h.shutdownIn s.entries.reverse).2
      h'.step .shutdown = (h', .report ⟨0, []⟩) ∧
      Transport.receiver? h'.world 0 = some ("primes", .service) ∧
      (h'.step (.deliver 0 readyRequest)).1.world = h'.world) ∧
    let h := (Host.start "t" ({ buffer := 1 } : Hub)).turns closedUnder
    ∃ s, h.service = some s ∧
      (h.shutdownIn s.entries).1.failures = [⟨"primes", .closed "primes"⟩] ∧
      (h.shutdownIn s.entries).2.Forgot "primes" := by
  constructor
  · intro h
    obtain ⟨s, hs⟩ : ∃ s, h.service = some s := ⟨_, rfl⟩
    obtain ⟨_, _, hany⟩ := shutdown_leaves_nothing.1 "t" stubborn s hs
    obtain ⟨hfinishes, _, _, hlater⟩ := hany s.entries.reverse s.entries.reverse_perm
    obtain ⟨hforgot, _⟩ := hlater "primes" [] (fun _ _ hmem => nomatch hmem)
    cases hs
    exact ⟨_, rfl, hfinishes.failures.trans (by decide), hfinishes.again, by decide,
      hforgot.deliver 0 .service readyRequest (by decide)⟩
  · intro h
    obtain ⟨s, hs⟩ : ∃ s, h.service = some s := ⟨_, rfl⟩
    obtain ⟨_, _, hany⟩ := shutdown_leaves_nothing.2 "t" 1 closedUnder s hs
    obtain ⟨hfinishes, _, _, hlater⟩ := hany s.entries (List.Perm.refl _)
    obtain ⟨hforgot, _⟩ := hlater "primes" [] (fun _ _ hmem => nomatch hmem)
    cases hs
    exact ⟨_, rfl, hfinishes.failures.trans (by decide), hforgot⟩

end PagedTables
