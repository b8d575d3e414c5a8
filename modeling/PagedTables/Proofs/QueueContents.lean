import PagedTables.Proofs.Coherence
import PagedTables.Proofs.Replies

namespace PagedTables

/-- What a viewer of `d` may find in its queue: the opening with the id and the title of `d`, rows of
`d`, why a request was refused, and the end. -/
inductive Frame.About (target : String) (d : Dataset) : Frame → Prop
  | opening : About target d (.message (.obj [("comm_id", .str d.id),
      ("data", .obj [("title", .str d.title)]), ("msg_type", .str "comm_open"),
      ("target_name", .str target)]))
  | rows {type : String} {window : RowWindow} {columns : List Column} :
      type = "initial_data" ∨ type = "receive_rows" →
      d.slice window.startRow window.fetchSize = .ok columns →
      About target d (.message (.obj [
        ("data", .obj [
          ("columns", .arr (columns.map (fun c => .obj [("data", .arr (c.cells.map Cell.clean)),
            ("name", .str c.name), ("type", .str c.type)]))),
          ("id", .str d.id), ("rowCount", .count d.rowCount), ("title", .str d.title)]),
        ("fetch_size", .int window.fetchSize), ("msg_type", .str type),
        ("start_row", .int window.startRow)]))
  | refused (text : String) :
      About target d (.message (.obj [("error", .str text), ("msg_type", .str "error")]))
  | close : About target d .close

/-- All frames of `w'` were in the same queue of `w`, or are such as `p` allows. -/
structure Hub.Adds (p : Nat → Frame → Prop) (w w' : Hub) : Prop where
  length : w'.channels.length = w.channels.length
  frames : ∀ (n k : Nat) (q' : Queue), w'.queue? n k = some q' → ∀ f ∈ q'.frames,
    p n f ∨ ∃ q, w.queue? n k = some q ∧ f ∈ q.frames

/-- `ds` are the datasets that were registered, in order. Each has a channel that was opened for it,
and all that is queued there is about it. -/
structure Host.Devoted (target : String) (ds : List Dataset) (h : Host Hub) : Prop where
  length : h.world.channels.length = ds.length
  opened : ∀ (n : Nat) (c : HubChannel), h.world.channels[n]? = some c →
    ∃ d, ds[n]? = some d ∧ c.id = d.id ∧ c.target = target ∧ c.opening = d.opening
  entry : ∀ id e, h.registered? id = some e → ds[e.channel]? = some e.dataset
  queued : ∀ (n k : Nat) (q : Queue), h.world.queue? n k = some q → ∀ f ∈ q.frames,
    ∃ d, ds[n]? = some d ∧ f.About target d

/-- What the host does when all channels are opened, and sent to, by the service. -/
def Event.Served : Event → Prop
  | .register _ _ => True
  | .dispatch _ _ => True
  | .shutdown => True
  | .deliver _ _ => True
  | .close _ => True
  | _ => False

/-- The datasets that an event registers. -/
def Event.opens : Event → List Dataset
  | .register fresh d => [d.named fresh]
  | _ => []

theorem Event.Served.ordinary {e : Event} (h : e.Served) : e.Ordinary := by
  cases e <;> first | exact trivial | exact h.elim

theorem reply_about (target : String) (d : Dataset) (msg : Json) :
    Frame.About target d (.message (Message.reply d msg).toJson) := by
  have ha := reply_answers d msg
  generalize (Message.reply d msg).toJson = v at ha
  cases ha with
  | rejected => exact .refused _
  | outside => exact .refused _
  | rows _ _ _ hc => exact .rows (by split <;> simp) hc

theorem openFrame_about {target : String} {d : Dataset} {c : HubChannel} (hid : c.id = d.id)
    (htarget : c.target = target) (hopening : c.opening = d.opening) :
    Frame.About target d (.message c.openFrame) := by
  simp only [HubChannel.openFrame, hid, htarget, hopening]
  exact .opening

namespace Hub.Adds

variable {p : Nat → Frame → Prop} {w w' : Hub}

theorem of_channels (h : w'.channels = w.channels) : Adds p w w' := by
  refine ⟨by rw [h], fun n k q' hq' f hf => .inr ⟨q', ?_, hf⟩⟩
  rwa [queue?, h] at hq'

theorem of_closes {which : Nat → Bool} (h : Closes which w w')
    (hp : ∀ n, n < w.channels.length → p n .close) : Adds p w w' := by
  refine ⟨h.length, fun n k q' hq' f hf => ?_⟩
  obtain ⟨q, hq, heq⟩ := h.frames hq'
  rcases heq with heq | heq
  · exact .inr ⟨q, hq, heq ▸ hf⟩
  · rw [heq, List.mem_append, List.mem_singleton] at hf
    rcases hf with hf | rfl
    · exact .inr ⟨q, hq, hf⟩
    · obtain ⟨c, hc, _⟩ := queue?_eq_some_iff.mp hq
      exact .inl (hp n (List.getElem?_eq_some_iff.mp hc).1)

theorem update {n : Nat} {g : HubChannel → HubChannel}
    (hg : ∀ c, w.channels[n]? = some c → ∀ (k : Nat) (q' : Queue), (g c).queues[k]? = some q' →
      ∀ f ∈ q'.frames, p n f ∨ ∃ q, c.queues[k]? = some q ∧ f ∈ q.frames) :
    Adds p w (w.update n g) := by
  refine ⟨by simp [Hub.update], fun m k q' hq' f hf => ?_⟩
  obtain ⟨c', hc', hq'⟩ := queue?_eq_some_iff.mp hq'
  rw [update_channels, getElem?_modify_ite] at hc'
  split at hc'
  next hn =>
    subst hn
    obtain ⟨c, hc, rfl⟩ := Option.map_eq_some_iff.mp hc'
    refine (hg c hc k q' hq' f hf).imp_right ?_
    rintro ⟨q, hq, hf⟩
    exact ⟨q, queue?_eq_some_iff.mpr ⟨c, hc, hq⟩, hf⟩
  next => exact .inr ⟨q', queue?_eq_some_iff.mpr ⟨c', hc', hq'⟩, hf⟩

theorem setFrames {n place : Nat} {frames : List Frame} {q : Queue}
    (hq : w.queue? n place = some q) (hp : ∀ f ∈ frames, p n f ∨ f ∈ q.frames) :
    Adds p w (w.setFrames n place frames) := by
  refine ⟨by simp [Hub.setFrames, Hub.update], fun m k q' hq' f hf => ?_⟩
  rw [setFrames_queue?] at hq'
  split at hq'
  next hown =>
    obtain ⟨rfl, rfl⟩ := hown
    rw [hq, Option.map_some] at hq'
    cases Option.some.inj hq'
    exact (hp f hf).imp_right (fun hf => ⟨q, hq, hf⟩)
  next => exact .inr ⟨q', hq', hf⟩

theorem send {n : Nat} {v : Json} (hs : Transport.send w n v = .ok w')
    (hp : p n (.message v)) : Adds p w w' := by
  obtain ⟨c, conn, q, hc, _, _, hq, _, _, rfl⟩ := send_ok_iff.mp hs
  refine setFrames (queue?_eq_some_iff.mpr ⟨c, hc, hq⟩) (fun f hf => ?_)
  rw [List.mem_append, List.mem_singleton] at hf
  rcases hf with hf | rfl
  · exact .inr hf
  · exact .inl hp

theorem detach (w : Hub) (n conn : Nat) : Adds p w (w.detach n conn) := by
  refine update (fun c _ k q' hq' f hf => .inr ?_)
  rcases HubChannel.detach_cases c conn with hd | hd
  · rw [hd] at hq'
    exact ⟨q', hq', hf⟩
  · rw [hd] at hq'
    obtain ⟨q, hq, heq⟩ := HubChannel.dropPeer_frames hq'
    exact ⟨q, hq, heq ▸ hf⟩

theorem attach {n buffer conn : Nat} (ha : w.attach n buffer = .attached conn w')
    (hp : ∀ c, w.channels[n]? = some c → p n (.message c.openFrame)) : Adds p w w' := by
  obtain ⟨_, _, _, _, _, rfl⟩ := attach_ok_iff.mp ha
  refine update (fun c hc k q' hq' f hf => ?_)
  rcases getElem?_concat_cases hq' with hold | ⟨_, rfl⟩
  · obtain ⟨q, hq, heq⟩ := HubChannel.dropPeer_frames hold
    exact .inr ⟨q, hq, heq ▸ hf⟩
  · cases List.mem_singleton.mp hf
    exact .inl (hp c hc)

end Hub.Adds

/-- A registration opens a channel, and closes at most channels that were there before. -/
theorem step_register_hub {h : Host Hub} {s : Service} (hs : h.service = some s) (fresh : String)
    (d : Dataset) : ∃ w which, h.step (.register fresh d) =
      ({ h with
        service := some { s with
          entries := s.entries.insert (d.named fresh).id ⟨d.named fresh, h.world.channels.length⟩ }
        world := w }, .registered (d.named fresh).id) ∧
      Hub.Closes which { h.world with
        channels := h.world.channels ++ [{
          id := (d.named fresh).id
          target := s.target
          opening := (d.named fresh).opening
          handler := some .service }]
        routes := h.world.routes.insert (d.named fresh).id h.world.channels.length } w := by
  obtain ⟨⟨id, s', w⟩, hreg⟩ : ∃ made, s.register h.world fresh d = .ok made := ⟨_, rfl⟩
  obtain ⟨rfl, rfl, hcl⟩ := register_hub hreg
  have ho : (d.named fresh).opening = d.opening := by simp [Dataset.opening]
  refine ⟨w, _, ?_, ho ▸ hcl⟩
  simp only [Host.step, hs, hreg]

namespace Host.Devoted

variable {target : String} {ds : List Dataset} {h h' : Host Hub}

theorem start (target : String) (buffer : Nat) :
    (Host.start target ({ buffer } : Hub)).Devoted target [] := by
  refine ⟨rfl, fun n c hc => ?_, fun id e he => ?_, fun n k q hq => ?_⟩
  · simp [Host.start] at hc
  · simp [Host.start, Host.registered?] at he
  · simp [Host.start, Hub.queue?] at hq

theorem of_adds (hd : h.Devoted target ds)
    (hr : ∀ id e, h'.registered? id = some e → h.registered? id = some e)
    (hc : ∀ (n : Nat) (c : HubChannel), h.world.channels[n]? = some c →
      ∃ c', h'.world.channels[n]? = some c' ∧ c'.id = c.id ∧ c'.target = c.target ∧
        c'.opening = c.opening)
    (ha : Hub.Adds (fun n f => ∃ d, ds[n]? = some d ∧ f.About target d) h.world h'.world) :
    h'.Devoted target ds := by
  refine ⟨ha.length.trans hd.length, fun n c' hc' => ?_, fun id e he => hd.entry id e (hr id e he),
    fun n k q' hq' f hf => ?_⟩
  · have hlt := (List.getElem?_eq_some_iff.mp hc').1
    rw [ha.length] at hlt
    have hold := List.getElem?_eq_getElem hlt
    obtain ⟨c₁, hc₁, hid, htarget, hopening⟩ := hc n _ hold
    cases hc'.symm.trans hc₁
    obtain ⟨d, hn, hid', htarget', hopening'⟩ := hd.opened n _ hold
    exact ⟨d, hn, hid.trans hid', htarget.trans htarget', hopening.trans hopening'⟩
  · rcases ha.frames n k q' hq' f hf with habout | ⟨q, hq, hf⟩
    · exact habout
    · exact hd.queued n k q hq f hf

theorem close_about (hd : h.Devoted target ds) {n : Nat} (hn : n < h.world.channels.length) :
    ∃ d, ds[n]? = some d ∧ Frame.About target d .close := by
  rw [hd.length] at hn
  exact ⟨_, List.getElem?_eq_getElem hn, .close⟩

theorem closes (hd : h.Devoted target ds) {which : Nat → Bool} {w : Hub}
    (hcl : Hub.Closes which h.world w) {service : Option Service}
    (hr : ∀ s id e, service = some s → s.entries.get? id = some e → h.registered? id = some e) :
    Host.Devoted target ds { h with service, world := w } := by
  refine hd.of_adds (fun id e he => ?_) (Hub.Keeps.closes hcl).channel
    (.of_closes hcl (fun n hn => hd.close_about hn))
  obtain ⟨s, hs, he⟩ := Host.registered?_eq_some_iff.mp he
  exact hr s id e hs he

/-- The channel that a registration opens, before the one of the earlier dataset is closed. -/
theorem opening (hd : h.Devoted target ds) {s : Service} (hs : h.service = some s)
    (htarget : s.target = target) (d : Dataset) : Host.Devoted target (ds ++ [d]) { h with
      service := some { s with entries := s.entries.insert d.id ⟨d, h.world.channels.length⟩ }
      world := { h.world with
        channels := h.world.channels ++ [{
          id := d.id
          target := s.target
          opening := d.opening
          handler := some .service }]
        routes := h.world.routes.insert d.id h.world.channels.length } } := by
  have hnew : (ds ++ [d])[h.world.channels.length]? = some d := by
    rw [hd.length]
    exact List.getElem?_concat_length
  have hold : ∀ (n : Nat) (d' : Dataset), ds[n]? = some d' → (ds ++ [d])[n]? = some d' :=
    fun n d' hn => (List.getElem?_append_left (List.getElem?_eq_some_iff.mp hn).1).trans hn
  refine ⟨by simp [hd.length], fun n c hc => ?_, fun id e he => ?_, fun n k q hq f hf => ?_⟩
  · rcases getElem?_concat_cases hc with hc | ⟨rfl, rfl⟩
    · obtain ⟨d', hn, hopened⟩ := hd.opened n c hc
      exact ⟨d', hold n d' hn, hopened⟩
    · exact ⟨d, hnew, rfl, htarget, rfl⟩
  · simp only [Host.registered?, Option.bind_some, KeyMap.get?_insert] at he
    split at he
    next =>
      cases Option.some.inj he
      exact hnew
    next =>
      rw [← Host.registered?_of_service hs] at he
      exact hold _ _ (hd.entry id e he)
  · obtain ⟨c, hc, hq⟩ := Hub.queue?_eq_some_iff.mp hq
    rcases getElem?_concat_cases hc with hc | ⟨_, rfl⟩
    · obtain ⟨d', hn, habout⟩ := hd.queued n k q (Hub.queue?_eq_some_iff.mpr ⟨c, hc, hq⟩) f hf
      exact ⟨d', hold n d' hn, habout⟩
    · cases hq

theorem dispatch (hd : h.Devoted target ds) {s : Service} (hs : h.service = some s) {id : String}
    {msg : Json} {w : Hub} (hok : s.dispatch h.world id msg = .ok w) :
    Host.Devoted target ds { h with world := w } := by
  obtain ⟨e, he, _, hsend⟩ := dispatch_ok_iff.mp hok
  rw [← Host.registered?_of_service hs] at he
  exact hd.of_adds (fun _ _ h => h) (Hub.Keeps.send hsend).channel
    (.send hsend ⟨e.dataset, hd.entry id e he, reply_about target e.dataset msg⟩)

theorem deliver (hd : h.Devoted target ds) (channel : Nat) (msg : Json) :
    (h.deliver channel msg).1.Devoted target ds := by
  unfold Host.deliver
  split
  next => exact hd
  next => exact ⟨hd.length, hd.opened, hd.entry, hd.queued⟩
  next =>
    split
    next => exact hd
    next s hs =>
      split
      next w hok => exact hd.dispatch hs hok
      next => exact hd

theorem step (hd : h.Devoted target ds) (hh : h.Coherent target) {e : Event}
    (he : e.Served) : (h.step e).1.Devoted target (ds ++ e.opens) := by
  obtain ⟨s, hs⟩ := hh.alive
  cases e with
  | register fresh d =>
    obtain ⟨w, which, heq, hcl⟩ := step_register_hub hs fresh d
    have hopened := hd.opening hs (hh.matched.service s hs) (d.named fresh)
    rw [heq]
    refine hopened.closes hcl (fun s' id e hs' he => ?_)
    cases hs'
    exact he
  | dispatch id msg =>
    simp only [Host.step, hs, Event.opens, List.append_nil]
    cases hok : s.dispatch h.world id msg with
    | ok w => exact hd.dispatch hs hok
    | error err => exact hd
  | shutdown =>
    simp only [Host.step, hs, Event.opens, List.append_nil, Service.shutdown]
    refine hd.closes (.of_list (Hub.list.closes_each h.world s.entries)) (fun s' id e hs' he => ?_)
    cases hs'
    cases he
  | deliver channel msg =>
    simp only [Host.step, Event.opens, List.append_nil]
    exact hd.deliver channel msg
  | close channel =>
    simp only [Host.step, Event.opens, List.append_nil]
    cases hc : Transport.close h.world channel with
    | error err => exact hd
    | ok w =>
      obtain ⟨_, _, _, rfl⟩ := Hub.close_ok_iff.mp hc
      refine hd.closes (.of_list (Hub.list.closes_update h.world channel)) (fun s' id e hs' he => ?_)
      exact Host.registered?_eq_some_iff.mpr ⟨s', hs', he⟩
  | sendData => exact he.elim
  | drop => exact he.elim
  | create => exact he.elim
  | send => exact he.elim
  | listen => exact he.elim

end Host.Devoted

end PagedTables
