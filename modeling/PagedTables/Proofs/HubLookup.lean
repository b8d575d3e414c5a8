import PagedTables.Proofs.Coherence
import PagedTables.Proofs.Replies

namespace PagedTables

/-- What can happen to a service over the channels of a hub, and to the connections of its viewers. -/
inductive HubMove where
  | event (e : Event)
  | find (id : String)
  | attach (channel buffer : Nat)
  | detach (channel conn : Nat)
  | read (channel conn : Nat)
  | stopReading (channel conn : Nat)

def HubMove.Ordinary : HubMove → Prop
  | event e => e.Ordinary
  | _ => True

namespace Host

def turn (h : Host Hub) : HubMove → Host Hub
  | .event e => (h.step e).1
  | .find id => { h with world := (h.world.find id).2 }
  | .attach channel buffer =>
    match h.world.attach channel buffer with
    | .attached _ w => { h with world := w }
    | .refused => h
    | .overCapacity => h
  | .detach channel conn => { h with world := h.world.detach channel conn }
  | .read channel conn =>
    match h.world.read channel conn with
    | some (_, w) => { h with world := w }
    | none => h
  | .stopReading channel conn => { h with world := h.world.stopReading channel conn }

def turns (h : Host Hub) (moves : List HubMove) : Host Hub := moves.foldl turn h

end Host

namespace HubChannel

/-- Nobody is connected to a channel that is closed. -/
def Vacant (c : HubChannel) : Prop := c.closed = true → c.peer = none

theorem Vacant.dropPeer (c : HubChannel) : c.dropPeer.Vacant := fun _ => dropPeer_peer c

theorem Vacant.seat {c : HubChannel} (h : c.closed = false) (capacity : Nat) :
    (c.seat capacity).Vacant := by
  intro hclosed
  have hf : (c.seat capacity).closed = c.closed := dropPeer_closed c
  cases (hf.symm.trans hclosed).symm.trans h

theorem Vacant.shut {c : HubChannel} (h : c.Vacant) : c.shut.Vacant := by
  cases hc : c.closed with
  | true => rwa [shut_of_closed hc]
  | false =>
    rw [shut_of_open hc]
    exact fun _ => dropPeer_peer _

end HubChannel

namespace Hub

/-- Each route leads to a channel with its id, and closed channels are vacant. -/
structure Tidy (w : Hub) : Prop where
  routed : ∀ id n, w.routes.get? id = some n → ∃ c, w.channels[n]? = some c ∧ c.id = id
  vacant : ∀ (n : Nat) (c : HubChannel), w.channels[n]? = some c → c.Vacant

namespace Tidy

variable {w w' : Hub}

theorem update (hw : w.Tidy) {n : Nat} {f : HubChannel → HubChannel} (hf : ∀ c, (f c).id = c.id)
    (hv : ∀ c, w.channels[n]? = some c → (f c).Vacant) : (w.update n f).Tidy := by
  refine ⟨fun id m hm => ?_, fun m c hc => ?_⟩
  · obtain ⟨c, hc, hid⟩ := hw.routed id m hm
    rw [update_channels, getElem?_modify_ite, hc]
    split
    next => exact ⟨f c, rfl, (hf c).trans hid⟩
    next => exact ⟨c, rfl, hid⟩
  · rw [update_channels, getElem?_modify_ite] at hc
    split at hc
    next hn =>
      subst hn
      obtain ⟨d, hd, rfl⟩ := Option.map_eq_some_iff.mp hc
      exact hv d hd
    next => exact hw.vacant m c hc

theorem closes {which : Nat → Bool} (hw : w.Tidy) (h : Closes which w w') : w'.Tidy := by
  refine ⟨fun id m hm => ?_, fun m c hc => ?_⟩
  · rw [h.routes] at hm
    obtain ⟨c, hc, hid⟩ := hw.routed id m hm
    rcases h.either hc with hc' | hc'
    · exact ⟨c, hc', hid⟩
    · exact ⟨c.shut, hc', c.shut_opening.1.trans hid⟩
  · rw [h.channels m] at hc
    split at hc
    next =>
      obtain ⟨d, hd, rfl⟩ := Option.map_eq_some_iff.mp hc
      exact (hw.vacant m d hd).shut
    next => exact hw.vacant m c hc

theorem opening (hw : w.Tidy) (new : HubChannel) (hopen : new.closed = false) :
    Tidy { w with
      channels := w.channels ++ [new]
      routes := w.routes.insert new.id w.channels.length } := by
  refine ⟨fun id m hm => ?_, fun m c hc => ?_⟩
  · rw [KeyMap.get?_insert] at hm
    split at hm
    next hid =>
      cases Option.some.inj hm
      exact ⟨new, List.getElem?_concat_length, hid.symm⟩
    next =>
      obtain ⟨c, hc, hid⟩ := hw.routed id m hm
      exact ⟨c, (List.getElem?_append_left (List.getElem?_eq_some_iff.mp hc).1).trans hc, hid⟩
  · rcases List.mem_append.mp (List.mem_of_getElem? hc) with hold | hnew
    · obtain ⟨k, hk⟩ := List.mem_iff_getElem?.mp hold
      exact hw.vacant k c hk
    · cases List.mem_singleton.mp hnew
      exact fun hclosed => nomatch hopen.symm.trans hclosed

theorem find (hw : w.Tidy) (hs : w.routes.Sorted) (id : String) : (w.find id).2.Tidy := by
  unfold Hub.find
  split
  next => exact hw
  next =>
    split
    next => exact hw
    next =>
      refine ⟨fun other m hm => ?_, hw.vacant⟩
      simp only [KeyMap.get?_erase hs] at hm
      split at hm
      next => cases hm
      next => exact hw.routed other m hm

theorem step {h : Host Hub} (hw : h.world.Tidy) (e : Event) :
    (h.step e).1.world.Tidy := by
  have hf := step_effect h e
  generalize (h.step e).1 = h' at hf
  cases hf with
  | nothing _ hs => rwa [hs]
  | send _ hsend =>
    obtain ⟨_, _, _, _, _, _, _, _, _, heq⟩ := Hub.send_ok_iff.mp hsend
    rw [heq]
    exact hw.update (fun _ => rfl) (fun c hc => hw.vacant _ c hc)
  | close hclose =>
    obtain ⟨_, _, _, rfl⟩ := Hub.close_ok_iff.mp hclose
    exact hw.closes (.of_list (Hub.list.closes_update h.world _))
  | register hs hreg =>
    obtain ⟨_, _, hcl⟩ := register_hub hreg
    exact (hw.opening _ rfl).closes hcl
  | shutdown hs => exact hw.closes (.of_list (Hub.list.closes_each h.world _))
  | drop => exact hw
  | create hcreate =>
    obtain ⟨_, rfl⟩ := Hub.create_ok_iff.mp hcreate
    exact hw.opening _ rfl
  | listen => exact hw.update (fun _ => rfl) (fun c hc => hw.vacant _ c hc)

end Tidy

theorem read_of_none {w : Hub} {channel conn : Nat} (hq : w.queue? channel (conn - 1) = none) :
    w.read channel conn = none := by
  unfold queue? at hq
  cases hc : w.channels[channel]? with
  | none => simp only [read, hc]
  | some c =>
    rw [hc, Option.bind_some] at hq
    simp only [read, hc, HubChannel.read, hq]

theorem find_eq_some_iff {w : Hub} {id : String} {n : Nat} : (w.find id).1 = some n ↔
    w.routes.get? id = some n ∧ Transport.isOpen w n = true := by
  simp only [find, Transport.isOpen]
  cases w.routes.get? id with
  | none => simp
  | some m =>
    simp only [Option.some.injEq]
    cases ho : w.isOpen m with
    | true =>
      simp only [if_true, Option.some.injEq]
      exact ⟨fun heq => ⟨heq, heq ▸ ho⟩, And.left⟩
    | false =>
      simp only [Bool.false_eq_true, if_false, reduceCtorEq, false_iff]
      rintro ⟨rfl, hopen⟩
      cases ho.symm.trans hopen

theorem closed_of_isOpen {w : Hub} {n : Nat} {c : HubChannel} (hc : w.channels[n]? = some c)
    (ho : Transport.isOpen w n = true) : c.closed = false := by
  simpa [Transport.isOpen, isOpen, hc] using ho

end Hub

/-- What is not registered stays so until it is registered. -/
theorem registered?_turns {h : Host Hub} {id : String} {moves : List HubMove}
    (hm : ∀ fresh d, .event (.register fresh d) ∈ moves → (d.named fresh).id ≠ id)
    (hn : h.registered? id = none) : (h.turns moves).registered? id = none := by
  induction moves generalizing h with
  | nil => exact hn
  | cons m moves ih =>
    refine ih (fun fresh d hmem => hm fresh d (List.mem_cons_of_mem _ hmem)) ?_
    cases m with
    | event e =>
      exact registered?_step_eq_none (fun fresh d he => hm fresh d (he ▸ List.mem_cons_self)) hn
    | find => exact hn
    | attach channel buffer =>
      simp only [Host.turn]
      split <;> exact hn
    | detach => exact hn
    | read channel conn =>
      simp only [Host.turn]
      split <;> exact hn
    | stopReading => exact hn

/-- Registry, channels and routes agree, and each route leads to a channel with its id. -/
structure Host.Tied (target : String) (h : Host Hub) : Prop extends Host.Coherent target h where
  tidy : h.world.Tidy

namespace Host.Tied

variable {target : String} {h : Host Hub}

theorem start (target : String) (buffer : Nat) :
    (Host.start target ({ buffer } : Hub)).Tied target :=
  ⟨.start target buffer, (fun _ _ hn => nomatch hn), (fun _ _ hc => nomatch hc)⟩

theorem update (hh : h.Tied target) {n : Nat} {f : HubChannel → HubChannel}
    (hf : ∀ c, (f c).face = c.face) (hv : ∀ c, h.world.channels[n]? = some c → (f c).Vacant) :
    Host.Tied target { h with world := h.world.update n f } :=
  ⟨hh.toCoherent.of_keeps rfl (.update hf),
    hh.tidy.update (fun c => (HubChannel.of_face (hf c)).1) hv⟩

theorem turn (hh : h.Tied target) {m : HubMove} (hm : m.Ordinary) : (h.turn m).Tied target := by
  cases m with
  | event e => exact ⟨hh.toCoherent.step hm, hh.tidy.step e⟩
  | find id => exact ⟨hh.toCoherent.find id, hh.tidy.find hh.sorted id⟩
  | attach channel buffer =>
    simp only [Host.turn]
    split
    next conn w ha =>
      obtain ⟨c, hc, hopen, _, _, rfl⟩ := Hub.attach_ok_iff.mp ha
      refine hh.update (fun c => c.seat_face _) (fun d hd => ?_)
      cases hc.symm.trans hd
      exact .seat hopen _
    next => exact hh
    next => exact hh
  | detach channel conn =>
    refine hh.update (fun c => ?_) (fun c hc => ?_)
    · rcases HubChannel.detach_cases c conn with hd | hd
      · rw [hd]
      · rw [hd, HubChannel.dropPeer_face]
    · rcases HubChannel.detach_cases c conn with hd | hd
      · rw [hd]
        exact hh.tidy.vacant channel c hc
      · rw [hd]
        exact .dropPeer c
  | read channel conn =>
    cases hq : h.world.queue? channel (conn - 1) with
    | some q =>
      simp only [Host.turn, Hub.read_eq hq]
      exact hh.update (fun _ => rfl) (fun c hc => hh.tidy.vacant channel c hc)
    | none =>
      simp only [Host.turn, Hub.read_of_none hq]
      exact hh
  | stopReading channel conn =>
    exact hh.update (fun _ => rfl) (fun c hc => hh.tidy.vacant channel c hc)

theorem turns (hh : h.Tied target) {moves : List HubMove} (hm : ∀ m ∈ moves, m.Ordinary) :
    (h.turns moves).Tied target := by
  induction moves generalizing h with
  | nil => exact hh
  | cons m moves ih =>
    exact ih (hh.turn (hm m List.mem_cons_self)) (fun m h => hm m (List.mem_cons_of_mem _ h))

/-- A viewer finds the channel of the registry entry, as long as it is open. -/
theorem find_iff (hh : h.Tied target) (id : String) (n : Nat) : (h.world.find id).1 = some n ↔
    ∃ e, h.registered? id = some e ∧ e.channel = n ∧ Transport.isOpen h.world n = true := by
  rw [Hub.find_eq_some_iff]
  constructor
  · rintro ⟨hroute, ho⟩
    obtain ⟨c, hc, rfl⟩ := hh.tidy.routed id n hroute
    obtain ⟨_, _, e, he, hch⟩ := hh.served n c hc (Hub.closed_of_isOpen hc ho)
    exact ⟨e, he, hch, ho⟩
  · rintro ⟨e, he, rfl, ho⟩
    obtain ⟨_, c, hc, rfl, _⟩ := hh.matched.entry id e he
    exact ⟨(hh.served e.channel c hc (Hub.closed_of_isOpen hc ho)).2.1, ho⟩

theorem open_unique (hh : h.Tied target) {n m : Nat} {c d : HubChannel}
    (hc : h.world.channels[n]? = some c) (hd : h.world.channels[m]? = some d)
    (hcopen : c.closed = false) (hdopen : d.closed = false) (hid : c.id = d.id) : n = m := by
  obtain ⟨_, hroute, _⟩ := hh.served n c hc hcopen
  obtain ⟨_, hroute', _⟩ := hh.served m d hd hdopen
  rw [hid] at hroute
  exact Option.some.inj (hroute.symm.trans hroute')

theorem attach_refused (hh : h.Tied target) {n : Nat} {c : HubChannel}
    (hc : h.world.channels[n]? = some c) (hclosed : c.closed = true) :
    c.peer = none ∧ ∀ buffer, h.world.attach n buffer = .refused := by
  refine ⟨hh.tidy.vacant n c hc hclosed, fun buffer => ?_⟩
  simp only [Hub.attach, hc, HubChannel.attach_eq, hclosed, if_true]

/-- With nothing registered no channel is open, and none is found. -/
theorem closed_of_unregistered (hh : h.Tied target) (hn : ∀ id, h.registered? id = none) :
    (∀ id, (h.world.find id).1 = none) ∧
      ∀ (n : Nat) (c : HubChannel), h.world.channels[n]? = some c → c.closed = true := by
  refine ⟨fun id => ?_, fun n c hc => ?_⟩
  · refine Option.eq_none_iff_forall_ne_some.mpr (fun n hfound => ?_)
    obtain ⟨e, he, _⟩ := (hh.find_iff id n).mp hfound
    cases (hn id).symm.trans he
  · refine Bool.eq_false_imp_eq_true.mp (fun hopen => ?_)
    obtain ⟨_, _, e, he, _⟩ := hh.served n c hc hopen
    cases (hn c.id).symm.trans he

end Host.Tied

/-- A viewer finds under an id the channel that is registered there, as long as it is open; no two
open channels have one id; nobody is or gets connected to a closed channel; and from a shutdown to the
next registration nothing is open and nothing is found. -/
theorem lookup_agrees_with_registry {target : String} {buffer : Nat} {moves : List HubMove}
    (hm : ∀ m ∈ moves, m.Ordinary) :
    let h := (Host.start target ({ buffer } : Hub)).turns moves
    (∀ id n, (h.world.find id).1 = some n ↔
      ∃ e, h.registered? id = some e ∧ e.channel = n ∧ Transport.isOpen h.world n = true) ∧
    (∀ (n m : Nat) (c d : HubChannel), h.world.channels[n]? = some c →
      h.world.channels[m]? = some d → c.closed = false → d.closed = false → c.id = d.id → n = m) ∧
    (∀ (n : Nat) (c : HubChannel), h.world.channels[n]? = some c → c.closed = true →
      c.peer = none ∧ ∀ buffer, h.world.attach n buffer = .refused) ∧
    ∀ after : List HubMove, (∀ m ∈ after, m.Ordinary) →
      (∀ fresh d, .event (.register fresh d) ∉ after) →
      let h' := (h.turn (.event .shutdown)).turns after
      (∀ id, (h'.world.find id).1 = none) ∧
        ∀ (n : Nat) (c : HubChannel), h'.world.channels[n]? = some c → c.closed = true := by
  intro h
  have hh : h.Tied target := (Host.Tied.start target buffer).turns hm
  refine ⟨hh.find_iff, fun n m c d hc hd => hh.open_unique hc hd,
    fun n c hc => hh.attach_refused hc, fun after hafter hno => ?_⟩
  have hdown : (h.turn (.event .shutdown)).Tied target := hh.turn trivial
  refine (hdown.turns hafter).closed_of_unregistered (fun id => ?_)
  refine registered?_turns (fun fresh d hmem => (hno fresh d hmem).elim) ?_
  obtain ⟨s, hs⟩ := hh.alive
  simp [Host.turn, Host.step, Host.registered?, hs, Service.shutdown]

/-- A dataset is registered twice while a viewer is connected to it, and the viewer connects again. -/
def replacedMoves : List HubMove :=
  [.event (.register "" primes), .attach 0 1, .event (.register "" primes), .attach 1 1,
    .event (.deliver 1 readyRequest)]

theorem lookup_after_replacement :
    let h := (Host.start "t" ({ buffer := 1 } : Hub)).turns replacedMoves
    (h.world.find "primes").1 = some 1 ∧ h.world.attach 0 1 = .refused ∧
      (((h.turn (.event .shutdown)).turns [.attach 1 1]).world.find "primes").1 = none := by
  have hm : ∀ m ∈ replacedMoves, m.Ordinary := by
    simp [replacedMoves, HubMove.Ordinary, Event.Ordinary]
  obtain ⟨hfind, _, hclosed, hdown⟩ := @lookup_agrees_with_registry "t" 1 _ hm
  refine ⟨(hfind "primes" 1).mpr ⟨_, rfl, rfl, rfl⟩, (hclosed 0 _ rfl rfl).2 1, ?_⟩
  exact (hdown [.attach 1 1] (by simp [HubMove.Ordinary]) (by simp)).1 "primes"

end PagedTables
