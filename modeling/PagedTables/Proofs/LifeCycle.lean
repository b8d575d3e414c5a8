import PagedTables.Proofs.Shutdown

namespace PagedTables

/-- What the service can tell of a channel. -/
structure Sight where
  id : String
  closed : Bool

/-- A transport that keeps its channels in a list, and the life that each of them has: it is opened,
it closes once, and then it takes nothing more. -/
structure LifeCycle (W C : Type) [Transport W] extends ChannelList W C where
  sight : C → Sight
  send : C → Json → Except ChannelError C
  isOpen_eq : ∀ w n, Transport.isOpen w n = (channels w)[n]?.any (fun c => !(sight c).closed)
  send_eq : ∀ w n v, Transport.send w n v = apply w n (fun c => send c v)
  create_new : ∀ {w w' : W} {target id : String} {opening : Json} {handler : Handler} {n : Nat},
    Transport.create w target id opening handler = .ok (n, w') →
      ∃ c, channels w' = channels w ++ [c] ∧ sight c = ⟨id, false⟩
  listen_keeps : ∀ w n handler,
    (channels (Transport.listen w n handler)).map sight = (channels w).map sight
  send_closed : ∀ c v, (sight c).closed = true → send c v = .error (.closed (sight c).id)
  send_keeps : ∀ {c c' v}, send c v = .ok c' → sight c' = sight c
  close_ends : ∀ {c c'}, close c = .ok c' →
    (sight c).closed = false ∧ sight c' = { sight c with closed := true }

section

variable {W C : Type} [Transport W] {h h' : Host W} {n : Nat} {e : Event}

namespace Host

/-- During the event the service or the host tells the channel `n` to close, in the state `w`. What
else a shutdown has closed before makes no difference to the channel, so its turn is not told apart.
-/
inductive Tells (h : Host W) (n : Nat) : Event → W → Prop
  | close : Tells h n (.close n) h.world
  | replaced {fresh : String} {d : Dataset} {s : Service} {x : Entry} {channel : Nat} {w : W} :
      h.service = some s → s.entries.get? (d.named fresh).id = some x → x.channel = n →
      Transport.create h.world s.target (d.named fresh).id (d.named fresh).opening .service =
        .ok (channel, w) →
      Tells h n (.register fresh d) w
  | shutdown {s : Service} {x : String × Entry} : h.service = some s → x ∈ s.entries →
      x.2.channel = n → Tells h n .shutdown h.world

/-- During the event the channel `n` closes without an error. -/
def Shuts (h : Host W) (n : Nat) (e : Event) : Prop :=
  ∃ w w', h.Tells n e w ∧ Transport.close w n = .ok w'

/-- Nothing more gets through the channel `n`, and trying changes nothing. -/
structure Ended (h : Host W) (n : Nat) (id : String) : Prop where
  isOpen : Transport.isOpen h.world n = false
  send : ∀ v, h.step (.send n v) = (h, .channelFailed (.closed id))
  sendData : ∀ s d tag window, h.service = some s →
    h.step (.sendData n d tag window) = (h, .dispatchFailed (.send (.closed id)))
  close : ∃ cause, h.step (.close n) = (h, .channelFailed cause)
  dispatch : ∀ key x msg, h.registered? key = some x → x.channel = n →
    h.step (.dispatch key msg) = (h, .dispatchFailed (.channelUnavailable key))

end Host

namespace LifeCycle

variable (k : LifeCycle W C) {w w' : W} {c : C}

def sights (w : W) : List Sight := (k.channels w).map k.sight

/-- How many channels have been closed. -/
def closedCount (w : W) : Nat := (k.sights w).countP Sight.closed

theorem closedCount_eq (w : W) :
    k.closedCount w = (k.channels w).countP (fun c => (k.sight c).closed) := by
  rw [closedCount, sights, List.countP_map]
  rfl

theorem sights_put {c' : C} (hc : (k.channels w)[n]? = some c) (hs : k.sight c' = k.sight c) :
    k.sights (k.put w ((k.channels w).set n c')) = k.sights w := by
  obtain ⟨hlt, rfl⟩ := List.getElem?_eq_some_iff.mp hc
  have hlen : n < (k.sights w).length := by simpa [sights] using hlt
  have hsame : k.sight c' = (k.sights w)[n] := by simpa [sights] using hs
  rw [sights, k.channels_put, List.map_set, hsame]
  exact List.set_getElem_self _

theorem sights_send {v : Json} (hs : Transport.send w n v = .ok w') : k.sights w' = k.sights w := by
  rw [k.send_eq] at hs
  obtain ⟨c, c', hc, hsend, rfl⟩ := k.apply_ok_iff.mp hs
  exact k.sights_put hc (k.send_keeps hsend)

theorem sights_listen (w : W) (n : Nat) (handler : Handler) :
    k.sights (Transport.listen w n handler) = k.sights w :=
  k.listen_keeps w n handler

theorem closedCount_close (hw : Transport.close w n = .ok w') :
    k.closedCount w' = k.closedCount w + 1 := by
  obtain ⟨c, c', hc, hclose, rfl⟩ := k.close_ok_iff.mp hw
  obtain ⟨hopen, hsight⟩ := k.close_ends hclose
  obtain ⟨hlt, rfl⟩ := List.getElem?_eq_some_iff.mp hc
  have hlt' : n < (k.sights w).length := by simpa [sights] using hlt
  have hold : ((k.sights w)[n]).closed = false := by simpa [sights] using hopen
  have hsights : k.sights (k.put w ((k.channels w).set n c')) = (k.sights w).set n (k.sight c') := by
    rw [sights, k.channels_put, List.map_set]
    rfl
  simp [closedCount, hsights, List.countP_set hlt', hold, hsight]

theorem closedCount_closeEach (w : W) (entries : KeyMap Entry) :
    k.closedCount (Service.closeEach w entries).2 =
      k.closedCount w + (Service.closeEach w entries).1.closed := by
  induction entries generalizing w with
  | nil => rfl
  | cons x entries ih =>
    simp only [Service.closeEach]
    split
    next w₁ hw =>
      have hone := k.closedCount_close hw
      have hrest := ih w₁
      simp only [hrest]
      omega
    next => exact ih w

theorem closedCount_closeQuietly (w : W) (n : Nat) :
    k.closedCount w ≤ k.closedCount (Service.closeQuietly w n) := by
  unfold Service.closeQuietly
  split
  next hw => exact Nat.le.intro (k.closedCount_close hw).symm
  next => exact Nat.le_refl _

theorem closedCount_create {target id : String} {opening : Json} {handler : Handler}
    (hw : Transport.create w target id opening handler = .ok (n, w')) :
    k.closedCount w' = k.closedCount w := by
  obtain ⟨c, hc, hsight⟩ := k.create_new hw
  simp [closedCount, sights, hc, hsight]

theorem sight_of_channel (hc : (k.channels w)[n]? = some c) :
    (k.sights w)[n]? = some (k.sight c) := by
  rw [sights, List.getElem?_map, hc, Option.map_some]

theorem channel_of_sight {x : Sight} (hx : (k.sights w)[n]? = some x) :
    ∃ c, (k.channels w)[n]? = some c ∧ k.sight c = x := by
  rw [sights, List.getElem?_map] at hx
  exact Option.map_eq_some_iff.mp hx

theorem sight_of_kept {x : Sight} (hx : (k.sights w)[n]? = some x)
    (hkept : ∀ c, (k.channels w)[n]? = some c → (k.channels w')[n]? = some c) :
    (k.sights w')[n]? = some x := by
  obtain ⟨c, hc, rfl⟩ := k.channel_of_sight hx
  exact k.sight_of_channel (hkept c hc)

theorem getElem?_create {target id : String} {opening : Json} {handler : Handler} {m : Nat}
    (hw : Transport.create w target id opening handler = .ok (m, w'))
    (hc : (k.channels w)[n]? = some c) : (k.channels w')[n]? = some c := by
  obtain ⟨new, hnew, _⟩ := k.create_new hw
  rw [hnew, List.getElem?_append_left (List.getElem?_eq_some_iff.mp hc).1]
  exact hc

/-- A channel that is told to close is afterwards what its own closing makes of it. -/
theorem told_channel (ht : h.Tells n e w) (hc : (k.channels h.world)[n]? = some c) :
    (k.channels w)[n]? = some c ∧ (k.channels (h.step e).1.world)[n]? = some (k.shut c) := by
  cases ht with
  | close =>
    refine ⟨hc, ?_⟩
    have hworld : (h.step (.close n)).1.world = Service.closeQuietly h.world n := by
      simp only [Host.step, Host.settle, Service.closeQuietly]
      cases Transport.close h.world n <;> rfl
    rw [hworld, k.closeQuietly_eq, k.update_getElem?, if_pos rfl, hc, Option.map_some]
  | @replaced fresh d s x channel w hs hx hn hw =>
    have hcw := k.getElem?_create hw hc
    refine ⟨hcw, ?_⟩
    have hreg : s.register h.world fresh d = .ok ((d.named fresh).id,
        { s with entries := s.entries.insert (d.named fresh).id ⟨d.named fresh, channel⟩ },
        Service.closeQuietly w n) := by
      refine register_ok_iff.mpr ⟨rfl, channel, w, hw, rfl, ?_⟩
      rw [hx, Option.elim_some, hn]
    simp only [Host.step, hs, hreg]
    rw [k.closeQuietly_eq, k.update_getElem?, if_pos rfl, hcw, Option.map_some]
  | @shutdown s x hs hx hn =>
    refine ⟨hc, ?_⟩
    have hany : s.entries.any (fun x => x.2.channel == n) = true :=
      List.any_eq_true.mpr ⟨x, hx, beq_iff_eq.mpr hn⟩
    simp only [Host.step, hs, Service.shutdown]
    rw [(k.closes_each h.world s.entries).channels, if_pos hany, hc, Option.map_some]

/-- Any other channel stays as open or closed as it is. -/
theorem untold_sight (ht : ∀ w, ¬ h.Tells n e w) {x : Sight}
    (hx : (k.sights h.world)[n]? = some x) : (k.sights (h.step e).1.world)[n]? = some x := by
  have hf := step_effect h e
  generalize (h.step e).1 = h' at hf
  cases hf with
  | nothing _ hw => rwa [hw]
  | send _ hs => rwa [k.sights_send hs]
  | @close channel w hw =>
    have hne : channel ≠ n := by
      rintro rfl
      exact ht _ .close
    obtain ⟨_, c', _, _, rfl⟩ := k.close_ok_iff.mp hw
    refine k.sight_of_kept hx (fun c hc => ?_)
    rw [k.channels_put, List.getElem?_set_ne hne]
    exact hc
  | @register fresh id d s s' w hs hreg =>
    obtain ⟨rfl, channel, w₁, hw, _, rfl⟩ := register_ok_iff.mp hreg
    refine k.sight_of_kept hx (fun c hc => ?_)
    have hcw := k.getElem?_create hw hc
    cases hold : s.entries.get? (d.named fresh).id with
    | none => exact hcw
    | some old =>
      have hne : old.channel ≠ n := fun heq => ht _ (.replaced hs hold heq hw)
      rw [Option.elim_some, k.closeQuietly_eq, k.update_getElem?, if_neg hne]
      exact hcw
  | @shutdown s hs =>
    have hnot : ¬ s.entries.any (fun x => x.2.channel == n) = true := by
      rw [List.any_eq_true]
      rintro ⟨x, hmem, heq⟩
      exact ht _ (.shutdown hs hmem (beq_iff_eq.mp heq))
    refine k.sight_of_kept hx (fun c hc => ?_)
    rw [(k.closes_each h.world s.entries).channels, if_neg hnot]
    exact hc
  | drop => exact hx
  | create hw => exact k.sight_of_kept hx (fun c hc => k.getElem?_create hw hc)
  | listen => rwa [k.sights_listen]

theorem isOpen_of_sight {x : Sight} (hx : (k.sights w)[n]? = some x) :
    Transport.isOpen w n = !x.closed := by
  obtain ⟨c, hc, rfl⟩ := k.channel_of_sight hx
  rw [k.isOpen_eq, hc, Option.any_some]

/-- A channel that is there stays what it is, but for its closing. -/
theorem step_sight (e : Event) {x : Sight} (hx : (k.sights h.world)[n]? = some x) :
    ∃ x', (k.sights (h.step e).1.world)[n]? = some x' ∧ x'.id = x.id ∧
      (x.closed = true → x'.closed = true) := by
  by_cases ht : ∃ w, h.Tells n e w
  · obtain ⟨w, ht⟩ := ht
    obtain ⟨c, hc, rfl⟩ := k.channel_of_sight hx
    obtain ⟨_, hc'⟩ := k.told_channel ht hc
    refine ⟨_, k.sight_of_channel hc', ?_⟩
    cases hclose : k.close c with
    | error cause =>
      rw [k.shut_of_error hclose]
      exact ⟨rfl, id⟩
    | ok c' =>
      obtain ⟨_, hsight⟩ := k.close_ends hclose
      rw [k.shut_of_ok hclose, hsight]
      exact ⟨rfl, fun _ => rfl⟩
  · exact ⟨x, k.untold_sight (fun w hw => ht ⟨w, hw⟩) hx, rfl, id⟩

/-- A channel goes from open to closed exactly when a close succeeds. -/
theorem shuts_iff (e : Event) {x : Sight} (hx : (k.sights h.world)[n]? = some x) : h.Shuts n e ↔
    Transport.isOpen h.world n = true ∧ Transport.isOpen (h.step e).1.world n = false := by
  rw [k.isOpen_of_sight hx]
  obtain ⟨c, hc, rfl⟩ := k.channel_of_sight hx
  constructor
  · rintro ⟨w, w', ht, hw⟩
    obtain ⟨hcw, hc'⟩ := k.told_channel ht hc
    obtain ⟨_, c', hcw', hclose, _⟩ := k.close_ok_iff.mp hw
    cases hcw.symm.trans hcw'
    obtain ⟨hopen, hsight⟩ := k.close_ends hclose
    rw [k.isOpen_of_sight (k.sight_of_channel hc'), k.shut_of_ok hclose, hsight, hopen]
    exact ⟨rfl, rfl⟩
  · rintro ⟨ho, ho'⟩
    have hopen : (k.sight c).closed = false := by simpa using ho
    by_cases ht : ∃ w, h.Tells n e w
    · obtain ⟨w, ht⟩ := ht
      obtain ⟨hcw, hc'⟩ := k.told_channel ht hc
      cases hclose : k.close c with
      | error cause =>
        rw [k.isOpen_of_sight (k.sight_of_channel hc'), k.shut_of_error hclose, hopen] at ho'
        cases ho'
      | ok c' => exact ⟨w, _, ht, k.close_ok_iff.mpr ⟨c, c', hcw, hclose, rfl⟩⟩
    · have hx' := k.untold_sight (fun w hw => ht ⟨w, hw⟩) hx
      rw [k.isOpen_of_sight hx', hopen] at ho'
      cases ho'

/-- A close that fails leaves the channel as it is, whoever has told it to close. -/
theorem channel_of_refusal (hc : (k.channels h.world)[n]? = some c) (ht : h.Tells n e w)
    {cause : ChannelError} (hw : Transport.close w n = .error cause) :
    (k.channels (h.step e).1.world)[n]? = some c := by
  obtain ⟨hcw, hc'⟩ := k.told_channel ht hc
  rwa [k.shut_of_error (k.close_of_error hcw hw)] at hc'

theorem ended {x : Sight} (hx : (k.sights h.world)[n]? = some x) (hclosed : x.closed = true) :
    h.Ended n x.id := by
  have hopen : Transport.isOpen h.world n = false := by rw [k.isOpen_of_sight hx, hclosed]; rfl
  obtain ⟨c, hc, rfl⟩ := k.channel_of_sight hx
  have hsend : ∀ v, Transport.send h.world n v = .error (.closed (k.sight c).id) := by
    intro v
    rw [k.send_eq, k.apply_some _ hc, k.send_closed c v hclosed]
    rfl
  refine ⟨hopen, fun v => ?_, fun s d tag window hs => ?_, ?_, fun key y msg hy hch => ?_⟩
  · simp only [Host.step, hsend, Host.settle]
  · simp only [Host.step, hs, Service.sendData, Service.sendMessage, hsend, Except.mapError,
      Host.settle]
  · cases hclose : Transport.close h.world n with
    | ok w =>
      obtain ⟨_, c', hc', hok, _⟩ := k.close_ok_iff.mp hclose
      cases hc.symm.trans hc'
      cases (k.close_ends hok).1.symm.trans hclosed
    | error cause => exact ⟨cause, by simp only [Host.step, hclose, Host.settle]⟩
  · obtain ⟨s, hs, hentry⟩ := Host.registered?_eq_some_iff.mp hy
    simp only [Host.step, hs, Service.dispatch, hentry, hch, hopen, Bool.false_eq_true, if_false,
      Host.settle]

end LifeCycle

/-- How many channels a shutdown reports as closed. -/
def Outcome.closed : Outcome → Nat
  | .report r => r.closed
  | _ => 0

def Outcome.registrations : Outcome → Nat
  | .registered _ => 1
  | _ => 0

theorem KeyMap.length_insert_le {α : Type} (m : KeyMap α) (key : String) (a : α) :
    (m.insert key a).length ≤ m.length + 1 := by
  induction m with
  | nil => exact Nat.le_refl _
  | cons x m ih =>
    obtain ⟨k, b⟩ := x
    simp only [KeyMap.insert]
    split
    next => exact Nat.le_refl _
    next =>
      split
      next => exact Nat.le_succ _
      next => exact Nat.succ_le_succ ih

theorem closeEach_closed_le (w : W) (entries : KeyMap Entry) :
    (Service.closeEach w entries).1.closed ≤ entries.length := by
  induction entries generalizing w with
  | nil => exact Nat.le_refl _
  | cons x entries ih =>
    simp only [Service.closeEach]
    split
    next w₁ _ => exact Nat.succ_le_succ (ih w₁)
    next => exact Nat.le_succ_of_le (ih w)

namespace Host

def entryCount (h : Host W) : Nat := h.service.elim 0 (fun s => s.entries.length)

theorem closed_of_step (h : Host W) (he : e ≠ .shutdown) : (h.step e).2.closed = 0 := by
  cases e with
  | register fresh d =>
    simp only [step]
    split
    · rfl
    · split <;> rfl
  | dispatch id msg =>
    simp only [step]
    split
    next => rfl
    next s _ => cases s.dispatch h.world id msg <;> rfl
  | sendData channel d tag window =>
    simp only [step]
    split
    next => rfl
    next => cases Service.sendData h.world channel d tag window <;> rfl
  | shutdown => exact (he rfl).elim
  | drop => rfl
  | create target id opening =>
    simp only [step]
    split <;> rfl
  | deliver channel msg =>
    simp only [step, deliver]
    split
    · rfl
    · rfl
    · split
      · rfl
      · split <;> rfl
  | send channel msg =>
    simp only [step]
    cases Transport.send h.world channel msg <;> rfl
  | close channel =>
    simp only [step]
    cases Transport.close h.world channel <;> rfl
  | listen channel => rfl

theorem entryCount_le_of_step (h : Host W) (he : ∀ fresh d, e ≠ .register fresh d) :
    (h.step e).1.entryCount ≤ h.entryCount := by
  have hf := step_effect h e
  generalize (h.step e).1 = h' at hf
  cases hf with
  | nothing hs => exact Nat.le_of_eq (by rw [entryCount, entryCount, hs])
  | send hs => exact Nat.le_of_eq (by rw [entryCount, entryCount, hs])
  | close => exact Nat.le_refl _
  | register => exact (he _ _ rfl).elim
  | shutdown => exact Nat.zero_le _
  | drop => exact Nat.zero_le _
  | create => exact Nat.le_refl _
  | listen => exact Nat.le_refl _

/-- What a shutdown closes was registered before, and is not afterwards. -/
theorem entryCount_step (h : Host W) (e : Event) : (h.step e).2.closed + (h.step e).1.entryCount ≤
    h.entryCount + (h.step e).2.registrations := by
  by_cases hr : ∃ fresh d, e = .register fresh d
  · obtain ⟨fresh, d, rfl⟩ := hr
    rcases step_register_cases h fresh d with heq | ⟨id, hok⟩
    · rw [heq, closed_of_step h (by simp), Nat.zero_add]
      exact Nat.le_add_right _ _
    · obtain ⟨s, s', w, hs, hreg, heq⟩ := step_register_ok hok
      obtain ⟨_, channel, _, _, rfl, _⟩ := register_ok_iff.mp hreg
      rw [hok, heq]
      have hle := s.entries.length_insert_le id ⟨d.named fresh, channel⟩
      simpa [entryCount, hs, Outcome.closed, Outcome.registrations] using hle
  · by_cases hd : e = .shutdown
    · subst hd
      cases hs : h.service with
      | none => simp [step, hs, Outcome.closed]
      | some s =>
        have hle := closeEach_closed_le h.world s.entries
        simp only [step, hs, Service.shutdown, entryCount, Outcome.closed, Outcome.registrations,
          Option.elim_some, List.length_nil]
        omega
    · rw [closed_of_step h hd, Nat.zero_add]
      have hle := entryCount_le_of_step h (fun fresh d heq => hr ⟨fresh, d, heq⟩)
      omega

end Host

namespace LifeCycle

variable (k : LifeCycle W C) {w w' : W} {c : C}

theorem closedCount_effect (hf : h.Effect e h') :
    k.closedCount h.world ≤ k.closedCount h'.world := by
  cases hf with
  | nothing _ hw => exact Nat.le_of_eq (by rw [hw])
  | send _ hs => exact Nat.le_of_eq (by rw [closedCount, closedCount, k.sights_send hs])
  | close hw => exact Nat.le.intro (k.closedCount_close hw).symm
  | @register fresh id d s s' w hs hreg =>
    obtain ⟨_, channel, w₁, hw, _, rfl⟩ := register_ok_iff.mp hreg
    rw [← k.closedCount_create hw]
    cases s.entries.get? id with
    | none => exact Nat.le_refl _
    | some old => exact k.closedCount_closeQuietly w₁ old.channel
  | shutdown => exact Nat.le.intro (k.closedCount_closeEach _ _).symm
  | drop => exact Nat.le_refl _
  | create hw => exact Nat.le_of_eq (k.closedCount_create hw).symm
  | listen => exact Nat.le_of_eq (by rw [closedCount, closedCount, k.sights_listen])

theorem closedCount_shutdown (h : Host W) : k.closedCount (h.step .shutdown).1.world =
    k.closedCount h.world + (h.step .shutdown).2.closed := by
  cases hs : h.service with
  | none => simp only [Host.step, hs, Outcome.closed, Nat.add_zero]
  | some s => simp only [Host.step, hs, Service.shutdown, Outcome.closed, k.closedCount_closeEach]

theorem closedCount_step (h : Host W) (e : Event) : k.closedCount h.world + (h.step e).2.closed ≤
    k.closedCount (h.step e).1.world := by
  by_cases he : e = .shutdown
  · subst he
    exact Nat.le_of_eq (k.closedCount_shutdown h).symm
  · rw [Host.closed_of_step h he, Nat.add_zero]
    exact k.closedCount_effect (step_effect h e)

end LifeCycle

end

end PagedTables
