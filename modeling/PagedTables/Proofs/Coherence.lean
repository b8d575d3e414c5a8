import PagedTables.Proofs.HubOperations

namespace PagedTables

/-- The events of a host that keeps its service and lets it open all channels. -/
def Event.Ordinary : Event → Prop
  | .create _ _ _ => False
  | .listen _ => False
  | .drop => False
  | _ => True

/-- Channels stay, none opens, and those that are open are found as before. -/
structure Hub.Keeps (w w' : Hub) : Prop where
  sorted : w.routes.Sorted → w'.routes.Sorted
  channel : ∀ (n : Nat) (c : HubChannel), w.channels[n]? = some c → ∃ c', w'.channels[n]? = some c' ∧
    c'.id = c.id ∧ c'.target = c.target ∧ c'.opening = c.opening
  opened : ∀ (n : Nat) (c' : HubChannel), w'.channels[n]? = some c' → c'.closed = false →
    ∃ c, w.channels[n]? = some c ∧ c'.face = c.face ∧ w'.routes.get? c.id = w.routes.get? c.id

/-- Whatever is registered has a channel that was opened for it. -/
structure Host.Matched (target : String) (h : Host Hub) : Prop where
  service : ∀ s, h.service = some s → s.target = target
  entry : ∀ (id : String) (e : Entry), h.registered? id = some e → e.dataset.id = id ∧
    ∃ c, h.world.channels[e.channel]? = some c ∧ c.id = id ∧ c.target = target ∧
      c.opening = e.dataset.opening

/-- The registry, the channels and the routes to them agree: whatever is open serves the dataset that
is registered under its id, and is found there. -/
structure Host.Coherent (target : String) (h : Host Hub) : Prop where
  alive : ∃ s, h.service = some s
  matched : h.Matched target
  sorted : h.world.routes.Sorted
  served : ∀ (n : Nat) (c : HubChannel), h.world.channels[n]? = some c → c.closed = false →
    c.handler = some .service ∧ h.world.routes.get? c.id = some n ∧
      ∃ e, h.registered? c.id = some e ∧ e.channel = n

theorem HubChannel.of_face {c c' : HubChannel} (h : c'.face = c.face) :
    c'.id = c.id ∧ c'.target = c.target ∧ c'.opening = c.opening ∧ c'.handler = c.handler ∧
      c'.closed = c.closed := by
  simp only [face, HubChannel.mk.injEq, and_true] at h
  exact h

/-- Closing changes neither the id of a channel nor what it was opened with. -/
theorem HubChannel.shut_opening (c : HubChannel) :
    c.shut.id = c.id ∧ c.shut.target = c.target ∧ c.shut.opening = c.opening := by
  cases h : c.closed with
  | true => rw [shut_of_closed h]; exact ⟨rfl, rfl, rfl⟩
  | false =>
    have hf := shut_face_of_open h
    simp only [face, HubChannel.mk.injEq] at hf
    exact ⟨hf.1, hf.2.1, hf.2.2.1⟩

namespace Hub.Keeps

theorem refl (w : Hub) : Keeps w w :=
  ⟨id, fun _ c hc => ⟨c, hc, rfl, rfl, rfl⟩, fun _ c hc _ => ⟨c, hc, rfl, rfl⟩⟩

theorem update {w : Hub} {n : Nat} {f : HubChannel → HubChannel} (hf : ∀ c, (f c).face = c.face) :
    Keeps w (w.update n f) := by
  refine ⟨id, fun m c hc => ?_, fun m c' hc' _ => ?_⟩
  · rw [update_channels, getElem?_modify_ite, hc]
    split
    next =>
      obtain ⟨hid, htarget, hopening, _⟩ := HubChannel.of_face (hf c)
      exact ⟨f c, rfl, hid, htarget, hopening⟩
    next => exact ⟨c, rfl, rfl, rfl, rfl⟩
  · rw [update_channels, getElem?_modify_ite] at hc'
    split at hc'
    next =>
      obtain ⟨c, hc, rfl⟩ := Option.map_eq_some_iff.mp hc'
      exact ⟨c, hc, hf c, rfl⟩
    next => exact ⟨c', hc', rfl, rfl⟩

theorem send {w w' : Hub} {n : Nat} {v : Json} (h : Transport.send w n v = .ok w') :
    Keeps w w' := by
  obtain ⟨c, conn, q, _, _, _, _, _, _, rfl⟩ := send_ok_iff.mp h
  exact update (fun d => d.setFrames_face _ _)

theorem closes {which : Nat → Bool} {w w' : Hub} (h : Closes which w w') : Keeps w w' := by
  refine ⟨fun hs => by rwa [h.routes], fun n c hc => ?_, fun n c' hc' hopen => ?_⟩
  · rcases h.either hc with hc' | hc'
    · exact ⟨c, hc', rfl, rfl, rfl⟩
    · exact ⟨c.shut, hc', c.shut_opening⟩
  · exact ⟨c', (h.of_open hc' hopen).1, rfl, by rw [h.routes]⟩

end Hub.Keeps

/-- No event reads a queue. -/
theorem step_evolves (h : Host Hub) (e : Event) : Hub.Evolves h.world (h.step e).1.world := by
  have hf := step_effect h e
  generalize (h.step e).1 = h' at hf
  cases hf with
  | nothing _ hw => rw [hw]; exact .refl _
  | send _ hsend => exact .send hsend
  | close hclose =>
    obtain ⟨_, _, _, rfl⟩ := Hub.close_ok_iff.mp hclose
    exact .closes (.of_list (Hub.list.closes_update h.world _))
  | register _ hreg =>
    obtain ⟨_, channel, w₁, hcreate, _, rfl⟩ := register_ok_iff.mp hreg
    exact (Hub.Evolves.create hcreate).trans (.closes (.of_list (Hub.list.closes_old w₁ _)))
  | shutdown => exact .closes (.of_list (Hub.list.closes_each h.world _))
  | drop => exact .refl _
  | create hcreate => exact .create hcreate
  | listen => exact .update (fun c _ hs hh => ⟨⟨⟨hs.1, hs.2, hs.3, hs.4⟩, hh⟩, fun _ => .refl _⟩)

/-- What a registration makes of the hub: a new channel, and the one of an earlier dataset with that id
closed. -/
theorem register_hub {h : Host Hub} {s s' : Service} {w : Hub} {fresh id : String} {d : Dataset}
    (hreg : s.register h.world fresh d = .ok (id, s', w)) :
    id = (d.named fresh).id ∧
      s' = { s with
        entries := s.entries.insert id ⟨d.named fresh, h.world.channels.length⟩ } ∧
      Hub.Closes (fun n => (s.entries.get? id).any (fun e => e.channel == n)) { h.world with
        channels := h.world.channels ++
          [{ id, target := s.target, opening := d.opening, handler := some .service }]
        routes := h.world.routes.insert id h.world.channels.length } w := by
  obtain ⟨hid, channel, w₁, hcreate, rfl, rfl⟩ := register_ok_iff.mp hreg
  obtain ⟨rfl, rfl⟩ := Hub.create_ok_iff.mp hcreate
  have ho : (d.named fresh).opening = d.opening := by simp [Dataset.opening]
  rw [ho]
  exact ⟨hid, rfl, .of_list (Hub.list.closes_old _ _)⟩

namespace Host.Matched

variable {target : String} {h h' : Host Hub}

theorem of_keeps (hm : h.Matched target) (hs : h'.service = h.service)
    (hw : ∀ (n : Nat) (c : HubChannel), h.world.channels[n]? = some c →
      ∃ c', h'.world.channels[n]? = some c' ∧ c'.id = c.id ∧ c'.target = c.target ∧
        c'.opening = c.opening) : h'.Matched target := by
  refine ⟨fun s h => hm.service s (hs.symm.trans h), fun id e he => ?_⟩
  simp only [Host.registered?, hs] at he
  obtain ⟨hd, c, hc, hid, htarget, hopening⟩ := hm.entry id e he
  obtain ⟨c', hc', hid', htarget', hopening'⟩ := hw _ c hc
  exact ⟨hd, c', hc', hid'.trans hid, htarget'.trans htarget, hopening'.trans hopening⟩

theorem of_forgotten (hm : h.Matched target) (hs : ∀ s, h'.service = some s → s.entries = [] ∧
    ∃ s₀, h.service = some s₀ ∧ s.target = s₀.target) : h'.Matched target := by
  refine ⟨fun s h => ?_, fun id e he => ?_⟩
  · obtain ⟨_, s₀, hs₀, ht⟩ := hs s h
    exact ht.trans (hm.service s₀ hs₀)
  · obtain ⟨s, h, he⟩ := Host.registered?_eq_some_iff.mp he
    simp [(hs s h).1] at he

theorem register {s s' : Service} {w : Hub} {fresh id : String} {d : Dataset}
    (hm : h.Matched target) (hs : h.service = some s)
    (hreg : s.register h.world fresh d = .ok (id, s', w)) :
    Host.Matched target { h with service := some s', world := w } := by
  obtain ⟨hid, rfl, hcl⟩ := register_hub hreg
  have htarget := hm.service s hs
  refine ⟨fun s₁ h₁ => by cases h₁; exact htarget, fun key e he => ?_⟩
  simp only [Host.registered?, Option.bind_some, KeyMap.get?_insert] at he
  split at he
  next hkey =>
    cases Option.some.inj he
    obtain ⟨c, hc, h1, h2, h3⟩ := (Hub.Keeps.closes hcl).channel _ _ List.getElem?_concat_length
    refine ⟨hid.symm.trans hkey.symm, c, hc, h1.trans hkey.symm, h2.trans htarget, h3.trans ?_⟩
    simp [Dataset.opening]
  next hkey =>
    rw [← Host.registered?_of_service hs] at he
    obtain ⟨hd, c, hc, h1, h2, h3⟩ := hm.entry key e he
    obtain ⟨c', hc', h1', h2', h3'⟩ := (Hub.Keeps.closes hcl).channel e.channel c
      ((List.getElem?_append_left (List.getElem?_eq_some_iff.mp hc).1).trans hc)
    exact ⟨hd, c', hc', h1'.trans h1, h2'.trans h2, h3'.trans h3⟩

theorem step (hm : h.Matched target) (e : Event) : (h.step e).1.Matched target := by
  have hf := step_effect h e
  generalize (h.step e).1 = h' at hf
  cases hf with
  | nothing hs hw => exact hm.of_keeps hs (by rw [hw]; exact (Hub.Keeps.refl _).channel)
  | send hs hsend => exact hm.of_keeps hs (Hub.Keeps.send hsend).channel
  | close hclose =>
    obtain ⟨_, _, _, rfl⟩ := Hub.close_ok_iff.mp hclose
    exact hm.of_keeps rfl (Hub.Keeps.closes (.of_list (Hub.list.closes_update h.world _))).channel
  | register hs hreg => exact hm.register hs hreg
  | @shutdown s hs =>
    refine hm.of_forgotten (fun s' h' => ?_)
    cases h'
    exact ⟨rfl, s, hs, rfl⟩
  | drop => exact hm.of_forgotten (fun _ h' => nomatch h')
  | create hcreate =>
    obtain ⟨_, rfl⟩ := Hub.create_ok_iff.mp hcreate
    refine hm.of_keeps rfl (fun n c hc => ⟨c, ?_, rfl, rfl, rfl⟩)
    exact (List.getElem?_append_left (List.getElem?_eq_some_iff.mp hc).1).trans hc
  | @listen channel =>
    refine hm.of_keeps rfl (fun n c hc => ?_)
    by_cases hn : channel = n
    · exact ⟨{ c with handler := some .recorder }, by simp [Transport.listen, Hub.update, hn, hc],
        rfl, rfl, rfl⟩
    · exact ⟨c, by simp [Transport.listen, Hub.update, hn, hc], rfl, rfl, rfl⟩

end Host.Matched

namespace Host.Coherent

variable {target : String} {h h' : Host Hub}

theorem of_keeps (hh : h.Coherent target) (hs : h'.service = h.service)
    (hw : Hub.Keeps h.world h'.world) : h'.Coherent target := by
  refine ⟨by rw [hs]; exact hh.alive, hh.matched.of_keeps hs hw.channel, hw.sorted hh.sorted,
    fun n c' hc' hopen => ?_⟩
  obtain ⟨c, hc, hf, hroute⟩ := hw.opened n c' hc' hopen
  obtain ⟨hid, _, _, hhandler, hclosed⟩ := HubChannel.of_face hf
  obtain ⟨hserve, hfound, e, he, hch⟩ := hh.served n c hc (hclosed.symm.trans hopen)
  rw [hhandler, hid, hroute]
  refine ⟨hserve, hfound, e, ?_, hch⟩
  simpa only [Host.registered?, hs] using he

theorem find (hh : h.Coherent target) (id : String) :
    Host.Coherent target { h with world := (h.world.find id).2 } := by
  refine hh.of_keeps rfl ?_
  simp only [Hub.find]
  split
  next => exact .refl _
  next n hn =>
    split
    next => exact .refl _
    next hclosed =>
      refine ⟨fun hs => KeyMap.sorted_erase hs id, fun _ c hc => ⟨c, hc, rfl, rfl, rfl⟩,
        fun m c hc hopen => ⟨c, hc, rfl, ?_⟩⟩
      -- what is forgotten leads to a channel that is closed, so not to this one
      have hne : c.id ≠ id := by
        intro heq
        obtain ⟨_, hfound, _⟩ := hh.served m c hc hopen
        rw [heq, hn] at hfound
        cases Option.some.inj hfound
        exact hclosed (by simp [Hub.isOpen, hc, hopen])
      rw [KeyMap.get?_erase hh.sorted, if_neg hne]

/-- Only the new channel and the ones that stay open under other ids are open after a
registration. -/
theorem register {s s' : Service} {w : Hub} {fresh id : String} {d : Dataset}
    (hh : h.Coherent target) (hs : h.service = some s)
    (hreg : s.register h.world fresh d = .ok (id, s', w)) :
    Host.Coherent target { h with service := some s', world := w } := by
  have hmatched := hh.matched.register hs hreg
  obtain ⟨hid, rfl, hcl⟩ := register_hub hreg
  refine ⟨⟨_, rfl⟩, hmatched, ?_, fun n c hc hopen => ?_⟩
  · rw [hcl.routes]
    exact KeyMap.sorted_insert hh.sorted _ _
  · obtain ⟨hc₁, hwhich⟩ := hcl.of_open hc hopen
    simp only [Host.registered?, Option.bind_some, hcl.routes, KeyMap.get?_insert]
    have hlt := (List.getElem?_eq_some_iff.mp hc₁).1
    simp only [List.length_append, List.length_singleton] at hlt
    by_cases hn : n < h.world.channels.length
    · have hc₀ : h.world.channels[n]? = some c := (List.getElem?_append_left hn).symm.trans hc₁
      obtain ⟨hserve, hfound, e, he, hch⟩ := hh.served n c hc₀ hopen
      rw [Host.registered?_of_service hs] at he
      have hne : c.id ≠ id := by
        intro heq
        rw [heq] at he
        simp [he, hch] at hwhich
      simp only [if_neg hne]
      exact ⟨hserve, hfound, e, he, hch⟩
    · have heq : n = h.world.channels.length := by omega
      subst heq
      cases Option.some.inj (List.getElem?_concat_length.symm.trans hc₁)
      simp

/-- After a shutdown nothing is open. -/
theorem shutdown {s : Service} (hh : h.Coherent target) (hs : h.service = some s) :
    Host.Coherent target { h with
      service := some { s with entries := [] }
      world := (Service.closeEach h.world s.entries).2 } := by
  have hcl := Hub.Closes.of_list (Hub.list.closes_each h.world s.entries)
  refine ⟨⟨_, rfl⟩, ?_, by rw [hcl.routes]; exact hh.sorted, fun n c hc hopen => ?_⟩
  · refine hh.matched.of_forgotten (fun s' h' => ?_)
    cases h'
    exact ⟨rfl, s, hs, rfl⟩
  · obtain ⟨hc₀, hwhich⟩ := hcl.of_open hc hopen
    obtain ⟨_, _, e, he, hch⟩ := hh.served n c hc₀ hopen
    rw [Host.registered?_of_service hs] at he
    have hmem := KeyMap.mem_of_get? he
    have hany : s.entries.any (fun e => e.2.channel == n) = true :=
      List.any_eq_true.mpr ⟨_, hmem, by simp [hch]⟩
    simp [hany] at hwhich

theorem start (target : String) (buffer : Nat) :
    (Host.start target ({ buffer } : Hub)).Coherent target := by
  refine ⟨⟨_, rfl⟩, ⟨fun s h => by cases h; rfl, ?_⟩, List.Pairwise.nil, ?_⟩
  · intro id e he
    simp [Host.registered?, Host.start] at he
  · intro n c hc
    simp [Host.start] at hc

theorem step (hh : h.Coherent target) {e : Event} (he : e.Ordinary) :
    (h.step e).1.Coherent target := by
  have hf := step_effect h e
  generalize (h.step e).1 = h' at hf
  cases hf with
  | nothing hs hw => exact hh.of_keeps hs (by rw [hw]; exact .refl _)
  | send hs hsend => exact hh.of_keeps hs (.send hsend)
  | close hclose =>
    obtain ⟨_, _, _, rfl⟩ := Hub.close_ok_iff.mp hclose
    exact hh.of_keeps rfl (.closes (.of_list (Hub.list.closes_update h.world _)))
  | register hs hreg => exact hh.register hs hreg
  | shutdown hs => exact hh.shutdown hs
  | drop => exact he.elim
  | create => exact he.elim
  | listen => exact he.elim

end Host.Coherent

/-- What becomes of a host as long as no connection reads; `ordinary` says whether it still lets the
service open all channels. -/
structure Host.Follows (ordinary : Prop) (h h' : Host Hub) : Prop where
  evolves : Hub.Evolves h.world h'.world
  matched : ∀ target, h.Matched target → h'.Matched target
  coherent : ordinary → ∀ target, h.Coherent target → h'.Coherent target

namespace Host.Follows

variable {h h' : Host Hub}

theorem of_keeps {ordinary : Prop} (hs : h'.service = h.service) (hw : Hub.Keeps h.world h'.world)
    (he : Hub.Evolves h.world h'.world) : Host.Follows ordinary h h' :=
  ⟨he, fun _ hm => hm.of_keeps hs hw.channel, fun _ _ hh => hh.of_keeps hs hw⟩

theorem refl (ordinary : Prop) (h : Host Hub) : Host.Follows ordinary h h :=
  of_keeps rfl (.refl _) (.refl _)

theorem step (h : Host Hub) (e : Event) : Host.Follows e.Ordinary h (h.step e).1 :=
  ⟨step_evolves h e, fun _ hm => hm.step e, fun he _ hh => hh.step he⟩

theorem find {ordinary : Prop} (h : Host Hub) (id : String) :
    Host.Follows ordinary h { h with world := (h.world.find id).2 } := by
  obtain ⟨hb, hc⟩ := h.world.find_channels id
  refine ⟨.of_channels hb hc, fun _ hm => ?_, fun _ _ hh => hh.find id⟩
  exact hm.of_keeps rfl (fun n c hn => ⟨c, by rwa [hc], rfl, rfl, rfl⟩)

theorem attach {ordinary : Prop} {channel buffer conn : Nat} {w : Hub}
    (ha : h.world.attach channel buffer = .attached conn w) :
    Host.Follows ordinary h { h with world := w } := by
  have he := Hub.Evolves.attach ha
  obtain ⟨_, _, _, _, _, rfl⟩ := Hub.attach_ok_iff.mp ha
  exact of_keeps rfl (.update (fun c => c.seat_face _)) he

theorem detach {ordinary : Prop} (h : Host Hub) (channel conn : Nat) :
    Host.Follows ordinary h { h with world := h.world.detach channel conn } := by
  refine of_keeps rfl (.update (fun c => ?_)) (.detach h.world channel conn)
  rcases HubChannel.detach_cases c conn with hd | hd
  · rw [hd]
  · rw [hd, HubChannel.dropPeer_face]

end Host.Follows

end PagedTables
