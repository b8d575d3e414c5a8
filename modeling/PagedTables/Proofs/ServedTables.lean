import PagedTables.Proofs.ClosingNotice
import PagedTables.Proofs.Pipelining
import PagedTables.Proofs.Shutdown
import PagedTables.Proofs.Startup

namespace PagedTables

/-- No later dataset of the list has its id. -/
def Dataset.Stays (d : Dataset) (ds : List Dataset) : Prop :=
  ∃ before after, ds = before ++ d :: after ∧ ∀ other ∈ after, other.id ≠ d.id

namespace Launch

/-- The datasets as they are registered, each with an id. -/
def named : List Dataset → List String → List Dataset
  | [], _ => []
  | d :: ds, fresh =>
    d.named (fresh.headD "") :: named ds (if d.id = "" then fresh.tail else fresh)

/-- There is a fresh id for each dataset that has none, and it is no other dataset's id. -/
structure Suffices (fresh : List String) (ds : List Dataset) : Prop where
  nodup : fresh.Nodup
  apart : ∀ d ∈ ds, d.id ∉ fresh
  enough : ds.countP (fun d => d.id = "") ≤ fresh.length

variable {d d' t t' : Dataset} {ds : List Dataset} {fresh : List String}

namespace Suffices

theorem rest (h : Suffices fresh (d :: ds)) :
    Suffices (if d.id = "" then fresh.tail else fresh) ds := by
  have henough := h.enough
  rw [List.countP_cons] at henough
  by_cases hd : d.id = ""
  · simp only [hd, ↓reduceIte]
    refine ⟨h.nodup.sublist (List.tail_sublist fresh), fun d hmem hfresh => ?_, ?_⟩
    · exact h.apart d (List.mem_cons_of_mem _ hmem) (List.mem_of_mem_tail hfresh)
    · simp only [hd, decide_true, ↓reduceIte] at henough
      rw [List.length_tail]
      omega
  · simp only [hd, ↓reduceIte]
    exact ⟨h.nodup, fun d hmem => h.apart d (List.mem_cons_of_mem _ hmem), by omega⟩

theorem first (h : Suffices fresh (d :: ds)) (hd : d.id = "") :
    ∃ id rest, fresh = id :: rest ∧ id ∉ rest := by
  have henough := h.enough
  cases fresh with
  | nil => simp [hd] at henough
  | cons id rest => exact ⟨id, rest, rfl, (List.nodup_cons.mp h.nodup).1⟩

end Suffices

end Launch

/-- What is registered under `id` has an open channel that the service listens to, and viewers find
it. -/
structure Host.Offers (h : Host Hub) (id : String) (e : Entry) : Prop where
  entry : h.registered? id = some e
  route : h.world.routes.get? id = some e.channel
  channel : ∃ c, h.world.channels[e.channel]? = some c ∧ c.closed = false ∧
    c.handler = some .service

namespace Host

variable {target id : String} {h h' : Host Hub} {e : Entry} {d : Dataset} {fresh : String}

/-- A registration closes no channel of another dataset. -/
theorem offers_register (hm : h.Matched target) {s : Service} (hs : h.service = some s)
    (ho : ∀ id e, h.registered? id = some e → h.Offers id e)
    (he : (h.step (.register fresh d)).1.registered? id = some e) :
    (h.step (.register fresh d)).1.Offers id e := by
  obtain ⟨⟨key, s', w⟩, hreg⟩ : ∃ made, s.register h.world fresh d = .ok made := ⟨_, rfl⟩
  obtain ⟨rfl, rfl, hcl⟩ := register_hub hreg
  have hstep : (h.step (.register fresh d)).1 = { h with
      service := some { s with
        entries := s.entries.insert (d.named fresh).id ⟨d.named fresh, h.world.channels.length⟩ }
      world := w } := by
    simp only [Host.step, hs, hreg]
  rw [hstep] at he ⊢
  have hentry := he
  simp only [registered?, Option.bind_some, KeyMap.get?_insert] at hentry
  have hold : ∀ {key : String} {old : Entry}, s.entries.get? key = some old →
      ∃ c, h.world.channels[old.channel]? = some c ∧ c.id = key := by
    intro key old hget
    obtain ⟨_, c, hc, hid, _⟩ := hm.entry key old ((registered?_of_service hs key).trans hget)
    exact ⟨c, hc, hid⟩
  by_cases hid : id = (d.named fresh).id
  · rw [if_pos hid] at hentry
    cases Option.some.inj hentry
    refine ⟨he, ?_, ⟨(d.named fresh).id, s.target, d.opening, some .service, false, none, []⟩, ?_,
      rfl, rfl⟩
    · simp only [hcl.routes, KeyMap.get?_insert, if_pos hid]
    · -- the channel of an earlier dataset with that id has a smaller number
      have hwhich : (s.entries.get? (d.named fresh).id).any
          (fun e => e.channel == h.world.channels.length) = false := by
        cases hget : s.entries.get? (d.named fresh).id with
        | none => rfl
        | some old =>
          obtain ⟨c, hc, _⟩ := hold hget
          have hlt := (List.getElem?_eq_some_iff.mp hc).1
          simp only [Option.any_some, beq_eq_false_iff_ne]
          omega
      rw [hcl.channels, hwhich]
      exact List.getElem?_concat_length
  · rw [if_neg hid] at hentry
    obtain ⟨_, hroute, c, hc, hopen, hhandler⟩ :=
      ho id e ((registered?_of_service hs id).trans hentry)
    refine ⟨he, ?_, c, ?_, hopen, hhandler⟩
    · simp only [hcl.routes, KeyMap.get?_insert, if_neg hid, hroute]
    · have hwhich : (s.entries.get? (d.named fresh).id).any (fun old => old.channel == e.channel) =
          false := by
        cases hget : s.entries.get? (d.named fresh).id with
        | none => rfl
        | some old =>
          obtain ⟨c', hc', hid'⟩ := hold hget
          obtain ⟨c'', hc'', hid''⟩ := hold hentry
          have hne : old.channel ≠ e.channel := by
            intro heq
            rw [heq, hc''] at hc'
            cases Option.some.inj hc'
            exact hid (hid''.symm.trans hid')
          simpa using hne
      have hlt := (List.getElem?_eq_some_iff.mp hc).1
      rw [hcl.channels, hwhich]
      exact (List.getElem?_append_left hlt).trans hc

/-- What viewers do takes no dataset away. -/
theorem Offers.of_face (ho : h.Offers id e) (hs : h'.service = h.service)
    (hroutes : h'.world.routes.get? id = some e.channel)
    (hface : ∀ c, h.world.channels[e.channel]? = some c →
      ∃ c', h'.world.channels[e.channel]? = some c' ∧ c'.face = c.face) : h'.Offers id e := by
  obtain ⟨hentry, _, c, hc, hopen, hhandler⟩ := ho
  obtain ⟨c', hc', hf⟩ := hface c hc
  obtain ⟨_, _, _, hhandler', hclosed'⟩ := HubChannel.of_face hf
  refine ⟨?_, hroutes, c', hc', hclosed'.trans hopen, hhandler'.trans hhandler⟩
  rw [← hentry]
  simp only [registered?, hs]

theorem Offers.update (ho : h.Offers id e) {n : Nat} {f : HubChannel → HubChannel}
    (hs : h'.service = h.service) (hw : h'.world = h.world.update n f)
    (hf : ∀ c, (f c).face = c.face) : h'.Offers id e := by
  refine ho.of_face hs (hw ▸ ho.route) (fun c hc => ?_)
  rw [hw, Hub.update_channels, getElem?_modify_ite, hc]
  split
  next => exact ⟨f c, rfl, hf c⟩
  next => exact ⟨c, rfl, rfl⟩

theorem Offers.find (ho : h.Offers id e) (hsorted : h.world.routes.Sorted) (key : String) :
    Offers { h with world := (h.world.find key).2 } id e := by
  simp only [Hub.find]
  split
  next => exact ho
  next n hn =>
    split
    next => exact ho
    next hclosed =>
      refine ho.of_face rfl ?_ (fun c hc => ⟨c, hc, rfl⟩)
      obtain ⟨c, hc, hopen, _⟩ := ho.channel
      have hne : id ≠ key := by
        rintro rfl
        cases Option.some.inj (hn.symm.trans ho.route)
        exact hclosed (by simp [Hub.isOpen, hc, hopen])
      rw [KeyMap.get?_erase hsorted, if_neg hne]
      exact ho.route

/-- A host with nothing registered that is not offered. -/
structure Ready (target : String) (h : Host Hub) : Prop where
  alive : ∃ s, h.service = some s
  matched : h.Matched target
  sorted : h.Sorted
  offers : ∀ id e, h.registered? id = some e → h.Offers id e

theorem Ready.start (target : String) (buffer : Nat) :
    (Host.start target ({ buffer } : Hub)).Ready target := by
  refine ⟨⟨_, rfl⟩, (Host.Coherent.start target buffer).matched, fun s hs => ?_, fun id e he => ?_⟩
  · cases hs
    exact List.Pairwise.nil
  · simp [Host.registered?, Host.start] at he

theorem Ready.register (hr : h.Ready target) (fresh : String) (d : Dataset) :
    (h.step (.register fresh d)).1.Ready target := by
  obtain ⟨s, hs⟩ := hr.alive
  refine ⟨service_step hs (fun heq => nomatch heq), hr.matched.step _, hr.sorted.step _,
    fun id e he => ?_⟩
  exact offers_register hr.matched hs hr.offers he

theorem Ready.indexed (hr : h.Ready target) {s : Service} (hs : h.service = some s) :
    s.Indexed := by
  refine ⟨hr.sorted s hs, fun id e he => ?_⟩
  exact (hr.matched.entry id e ((registered?_of_service hs id).trans he)).1

end Host

namespace Launch

variable {target : String} {s : Server} {ds : List Dataset} {fresh : List String}

end Launch

namespace Server

variable {target id : String} {buffer : Nat} {s : Server} {e : Entry}

end Server

namespace Launch

section started

variable (target : String) (buffer : Nat) (network : Network)

variable {ds : List Dataset} {fresh : List String} {service : Service} {t : Dataset}

variable {target buffer network}

end started

end Launch

end PagedTables
