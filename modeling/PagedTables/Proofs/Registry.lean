import PagedTables.Host
import PagedTables.Proofs.General

namespace PagedTables

@[simp] theorem Dataset.named_title (d : Dataset) (fresh : String) :
    (d.named fresh).title = d.title := by
  unfold named; split <;> rfl

@[simp] theorem Dataset.named_columns (d : Dataset) (fresh : String) :
    (d.named fresh).columns = d.columns := by
  unfold named; split <;> rfl

@[simp] theorem Dataset.named_rowCount (d : Dataset) (fresh : String) :
    (d.named fresh).rowCount = d.rowCount := by
  unfold named; split <;> rfl

namespace Service

/-- The entries come in the order of their ids, and each is kept under the id of its dataset. -/
structure Indexed (s : Service) : Prop where
  sorted : s.entries.Sorted
  named : ∀ id e, s.entries.get? id = some e → e.dataset.id = id

variable {s : Service}

theorem Indexed.summaries_ids (h : s.Indexed) :
    s.summaries.map Summary.id = s.entries.map Prod.fst := by
  simp only [Service.summaries, List.map_map]
  refine List.map_congr_left (fun e he => ?_)
  exact h.named e.1 e.2 (KeyMap.get?_of_mem h.sorted he)

theorem Indexed.summaries_sorted (h : s.Indexed) :
    (s.summaries.map Summary.id).Pairwise (· < ·) := by
  rw [h.summaries_ids]
  exact h.sorted

theorem Indexed.summaries_nodup (h : s.Indexed) : (s.summaries.map Summary.id).Nodup := by
  refine h.summaries_sorted.imp (fun hlt => ?_)
  rintro rfl
  exact String.lt_irrefl _ hlt

theorem Indexed.mem_summaries_iff (h : s.Indexed) {x : Summary} :
    x ∈ s.summaries ↔ ∃ d, (s.entries.get? x.id).map Entry.dataset = some d ∧ x = d.summary := by
  simp only [Service.summaries, List.mem_map, Option.map_eq_some_iff]
  constructor
  · rintro ⟨⟨id, e⟩, hmem, rfl⟩
    have he := KeyMap.get?_of_mem h.sorted hmem
    have hid : e.dataset.summary.id = id := h.named id e he
    exact ⟨e.dataset, ⟨e, by rw [hid, he], rfl⟩, rfl⟩
  · rintro ⟨d, ⟨e, he, rfl⟩, hx⟩
    exact ⟨(x.id, e), KeyMap.mem_of_get? he, hx.symm⟩

end Service

variable {W : Type}

/-- What is registered under `id`, if the service is still there. -/
def Host.registered? (h : Host W) (id : String) : Option Entry :=
  h.service.bind (fun s => s.entries.get? id)

theorem Host.registered?_eq_some_iff {h : Host W} {id : String} {e : Entry} :
    h.registered? id = some e ↔ ∃ s, h.service = some s ∧ s.entries.get? id = some e :=
  Option.bind_eq_some_iff

theorem Host.registered?_of_service {h : Host W} {s : Service} (hs : h.service = some s) (id : String) :
    h.registered? id = s.entries.get? id := by
  simp only [registered?, hs, Option.bind_some]

variable [Transport W]

theorem register_ok_iff {s s' : Service} {w w' : W} {fresh id : String} {d : Dataset} :
    s.register w fresh d = .ok (id, s', w') ↔ id = (d.named fresh).id ∧ ∃ channel w₁,
      Transport.create w s.target id (d.named fresh).opening .service = .ok (channel, w₁) ∧
      s' = { s with entries := s.entries.insert id ⟨d.named fresh, channel⟩ } ∧
      w' = (s.entries.get? id).elim w₁ (fun old => Service.closeQuietly w₁ old.channel) := by
  simp only [Service.register]
  cases hc : Transport.create w s.target (d.named fresh).id (d.named fresh).opening .service with
  | error e =>
    simp only [reduceCtorEq, false_iff]
    rintro ⟨rfl, channel, w₁, h, _⟩
    cases hc.symm.trans h
  | ok made =>
    obtain ⟨channel, w₁⟩ := made
    simp only [Except.ok.injEq, Prod.mk.injEq]
    constructor
    · rintro ⟨rfl, rfl, rfl⟩
      refine ⟨rfl, channel, w₁, hc, rfl, ?_⟩
      cases s.entries.get? (d.named fresh).id <;> rfl
    · rintro ⟨rfl, channel', w₁', h, rfl, rfl⟩
      cases hc.symm.trans h
      refine ⟨rfl, rfl, ?_⟩
      cases s.entries.get? (d.named fresh).id <;> rfl

theorem sendMessage_ok_iff {w w' : W} {channel : Nat} {msg : Message} :
    Service.sendMessage w channel msg = .ok w' ↔ Transport.send w channel msg.toJson = .ok w' := by
  unfold Service.sendMessage
  cases Transport.send w channel msg.toJson with
  | error e => constructor <;> intro h <;> cases h
  | ok w₁ => constructor <;> intro h <;> cases h <;> rfl

theorem dispatch_ok_iff {s : Service} {w w' : W} {id : String} {msg : Json} :
    s.dispatch w id msg = .ok w' ↔ ∃ e, s.entries.get? id = some e ∧
      Transport.isOpen w e.channel = true ∧
      Transport.send w e.channel (Message.reply e.dataset msg).toJson = .ok w' := by
  unfold Service.dispatch
  cases s.entries.get? id with
  | none => simp
  | some e =>
    by_cases ho : Transport.isOpen w e.channel = true
    · cases hs : Transport.send w e.channel (Message.reply e.dataset msg).toJson <;>
        simp [ho, hs, sendMessage_ok_iff]
    · simp [ho]

theorem closeEach_world (w : W) (entries : KeyMap Entry) : (Service.closeEach w entries).2 =
    entries.foldl (fun w e => Service.closeQuietly w e.2.channel) w := by
  induction entries generalizing w with
  | nil => rfl
  | cons e entries ih =>
    rw [List.foldl_cons, ← ih]
    simp only [Service.closeEach, Service.closeQuietly]
    split <;> rfl

/-- A registration that does not fail puts the dataset and a new channel under its id. -/
theorem step_register_ok {h h' : Host W} {fresh id : String} {d : Dataset}
    (hr : h.step (.register fresh d) = (h', .registered id)) :
    ∃ s s' w, h.service = some s ∧ s.register h.world fresh d = .ok (id, s', w) ∧
      h' = { h with service := some s', world := w } := by
  cases hs : h.service with
  | none => simp [Host.step, hs] at hr
  | some s =>
    cases hreg : s.register h.world fresh d with
    | error e => simp [Host.step, hs, hreg] at hr
    | ok r =>
      obtain ⟨i, s', w⟩ := r
      simp only [Host.step, hs, hreg, Prod.mk.injEq, Outcome.registered.injEq] at hr
      obtain ⟨rfl, rfl⟩ := hr
      exact ⟨s, s', w, rfl, hreg, rfl⟩

theorem step_register_cases (h : Host W) (fresh : String) (d : Dataset) :
    (h.step (.register fresh d)).1 = h ∨
      ∃ id, h.step (.register fresh d) = ((h.step (.register fresh d)).1, .registered id) := by
  cases hs : h.service with
  | none => exact .inl (by simp only [Host.step, hs])
  | some s =>
    cases hreg : s.register h.world fresh d with
    | error e => exact .inl (by simp only [Host.step, hs, hreg])
    | ok r => exact .inr ⟨r.1, by simp only [Host.step, hs, hreg]⟩

theorem registered?_of_register {h h' : Host W} {fresh id : String} {d : Dataset}
    (hr : h.step (.register fresh d) = (h', .registered id)) :
    id = (d.named fresh).id ∧ ∃ channel, ∀ key, h'.registered? key =
      if key = id then some ⟨d.named fresh, channel⟩ else h.registered? key := by
  obtain ⟨s, s', w, hs, hreg, rfl⟩ := step_register_ok hr
  obtain ⟨rfl, channel, w₁, _, rfl, _⟩ := register_ok_iff.mp hreg
  refine ⟨rfl, channel, fun key => ?_⟩
  simp only [Host.registered?, hs, Option.bind_some, KeyMap.get?_insert]

/-- All that an event can do to the service and to the channels. -/
inductive Host.Effect (h : Host W) : Event → Host W → Prop
  | nothing {e : Event} {h' : Host W} : h'.service = h.service → h'.world = h.world →
      Effect h e h'
  | send {e : Event} {h' : Host W} {channel : Nat} {v : Json} : h'.service = h.service →
      Transport.send h.world channel v = .ok h'.world → Effect h e h'
  | close {channel : Nat} {w : W} : Transport.close h.world channel = .ok w →
      Effect h (.close channel) { h with world := w }
  | register {fresh id : String} {d : Dataset} {s s' : Service} {w : W} : h.service = some s →
      s.register h.world fresh d = .ok (id, s', w) →
      Effect h (.register fresh d) { h with service := some s', world := w }
  | shutdown {s : Service} : h.service = some s →
      Effect h .shutdown { h with
        service := some { s with entries := [] }
        world := (Service.closeEach h.world s.entries).2 }
  | drop : Effect h .drop { h with service := none }
  | create {target id : String} {opening : Json} {channel : Nat} {w : W} :
      Transport.create h.world target id opening .recorder = .ok (channel, w) →
      Effect h (.create target id opening) { h with world := w }
  | listen {channel : Nat} :
      Effect h (.listen channel) { h with world := Transport.listen h.world channel .recorder }

theorem dispatch_effect {h : Host W} {s : Service} {id : String} {msg : Json} {w : W}
    (hd : s.dispatch h.world id msg = .ok w) (e : Event) : h.Effect e { h with world := w } := by
  obtain ⟨x, _, _, hs⟩ := dispatch_ok_iff.mp hd
  exact .send rfl hs

theorem deliver_effect (h : Host W) (channel : Nat) (msg : Json) (e : Event) :
    h.Effect e (h.deliver channel msg).1 := by
  unfold Host.deliver
  split
  next => exact .nothing rfl rfl
  next => exact .nothing rfl rfl
  next =>
    split
    next => exact .nothing rfl rfl
    next =>
      split
      next hd => exact dispatch_effect hd e
      next => exact .nothing rfl rfl

theorem step_effect (h : Host W) (e : Event) : h.Effect e (h.step e).1 := by
  cases e with
  | register fresh d =>
    rcases step_register_cases h fresh d with heq | ⟨id, hr⟩
    · rw [heq]
      exact .nothing rfl rfl
    · obtain ⟨s, s', w, hs, hreg, heq⟩ := step_register_ok hr
      rw [heq]
      exact .register hs hreg
  | dispatch id msg =>
    simp only [Host.step]
    split
    next => exact .nothing rfl rfl
    next s hs =>
      cases hd : s.dispatch h.world id msg with
      | ok w => exact dispatch_effect hd _
      | error err => exact .nothing rfl rfl
  | sendData channel d tag window =>
    simp only [Host.step]
    split
    next => exact .nothing rfl rfl
    next =>
      simp only [Service.sendData, Service.sendMessage]
      cases hs : Transport.send h.world channel (Message.ofWindow d tag window).toJson with
      | ok w => exact .send rfl hs
      | error err => exact .nothing rfl rfl
  | shutdown =>
    simp only [Host.step]
    split
    next => exact .nothing rfl rfl
    next s hs => exact .shutdown hs
  | drop => exact .drop
  | create target id opening =>
    simp only [Host.step]
    split
    next hc => exact .create hc
    next => exact .nothing rfl rfl
  | deliver channel msg => exact deliver_effect h channel msg _
  | send channel msg =>
    simp only [Host.step]
    cases hs : Transport.send h.world channel msg with
    | ok w => exact .send rfl hs
    | error err => exact .nothing rfl rfl
  | close channel =>
    simp only [Host.step]
    cases hc : Transport.close h.world channel with
    | ok w => exact .close hc
    | error err => exact .nothing rfl rfl
  | listen channel => exact .listen

theorem service_step {h : Host W} {e : Event} {s : Service} (hs : h.service = some s)
    (he : e ≠ .drop) : ∃ s', (h.step e).1.service = some s' := by
  have hf := step_effect h e
  generalize (h.step e).1 = h' at hf
  cases hf with
  | nothing hs' => exact ⟨s, hs'.trans hs⟩
  | send hs' => exact ⟨s, hs'.trans hs⟩
  | close => exact ⟨s, hs⟩
  | register => exact ⟨_, rfl⟩
  | shutdown => exact ⟨_, rfl⟩
  | drop => exact (he rfl).elim
  | create => exact ⟨s, hs⟩
  | listen => exact ⟨s, hs⟩

/-- An event that neither takes the registry away nor registers anything under `id`. -/
def Event.Spares (id : String) : Event → Prop
  | .register fresh d => (d.named fresh).id ≠ id
  | .shutdown => False
  | .drop => False
  | _ => True

theorem registered?_step_of_spares {h : Host W} {id : String} {e : Event} (he : e.Spares id) :
    (h.step e).1.registered? id = h.registered? id := by
  have hf := step_effect h e
  generalize (h.step e).1 = h' at hf
  cases hf with
  | nothing hs => simp only [Host.registered?, hs]
  | send hs => simp only [Host.registered?, hs]
  | close => rfl
  | register hs hreg =>
    obtain ⟨rfl, channel, w₁, _, rfl, _⟩ := register_ok_iff.mp hreg
    simp only [Host.registered?, hs, Option.bind_some, KeyMap.get?_insert, if_neg (Ne.symm he)]
  | shutdown => exact he.elim
  | drop => exact he.elim
  | create => rfl
  | listen => rfl

/-- Whatever is registered after an event was so before, or the event registered it. -/
theorem registered?_step_cases {h : Host W} {e : Event} {key : String} {x : Entry}
    (hx : (h.step e).1.registered? key = some x) :
    h.registered? key = some x ∨
      ∃ fresh d, e = .register fresh d ∧ h.step e = ((h.step e).1, .registered key) := by
  by_cases hs : e.Spares key
  · exact .inl ((registered?_step_of_spares hs).symm.trans hx)
  · cases e with
    | register fresh d =>
      rcases step_register_cases h fresh d with heq | ⟨id, hr⟩
      · exact .inl (by rwa [heq] at hx)
      · obtain ⟨hid, _⟩ := registered?_of_register hr
        have hkey : (d.named fresh).id = key := Decidable.not_not.mp hs
        exact .inr ⟨fresh, d, rfl, by rw [hr, hid, hkey]⟩
    | shutdown =>
      simp only [Host.step] at hx
      split at hx
      next => exact .inl hx
      next => simp [Host.registered?, Service.shutdown] at hx
    | drop => simp [Host.step, Host.registered?] at hx
    | _ => exact (hs trivial).elim

/-- What is not registered stays so until it is registered. -/
theorem registered?_step_eq_none {h : Host W} {e : Event} {id : String}
    (he : ∀ fresh d, e = .register fresh d → (d.named fresh).id ≠ id)
    (hn : h.registered? id = none) : (h.step e).1.registered? id = none := by
  refine Option.eq_none_iff_forall_ne_some.mpr (fun x hx => ?_)
  rcases registered?_step_cases hx with hold | ⟨fresh, d, heq, hr⟩
  · cases hn.symm.trans hold
  · rw [heq] at hr
    exact he fresh d heq (registered?_of_register hr).1.symm

end PagedTables
