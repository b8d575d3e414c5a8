import PagedTables.Proofs.Parts
import PagedTables.Proofs.Replies

namespace PagedTables

/-- What can be asked of one channel. -/
inductive ChannelStep where
  | deliver (msg : Json)
  | send (msg : Json)
  | sendData (d : Dataset) (tag : DataTag) (window : RowWindow)
  | close
  | listen
  | refuseSend (on : Bool)
  | refuseClose (on : Bool)

def ChannelStep.move (channel : Nat) : ChannelStep → Move
  | deliver msg => .event (.deliver channel msg)
  | send msg => .event (.send channel msg)
  | sendData d tag window => .event (.sendData channel d tag window)
  | close => .event (.close channel)
  | listen => .event (.listen channel)
  | refuseSend on => .memory (.refuseSend channel on)
  | refuseClose on => .memory (.refuseClose channel on)

/-- A step that names a dataset by its id, and a channel by its id and its place among the channels
with that id. The last three name none. -/
inductive Step where
  | register (fresh : String) (d : Dataset)
  | has (id : String)
  | dispatch (id : String) (msg : Json)
  | on (id : String) (place : Nat) (step : ChannelStep)
  | shutdown
  | refuseOpen (on : Bool)
  | drop

namespace Step

def id? : Step → Option String
  | register fresh d => some (d.named fresh).id
  | has id => some id
  | dispatch id _ => some id
  | on id _ _ => some id
  | shutdown => none
  | refuseOpen _ => none
  | drop => none

/-- The step names `id`, or no id at all. -/
def concerns (id : String) (s : Step) : Bool := s.id?.all (fun other => other == id)

theorem concerns_iff {s : Step} {id other : String} (h : s.id? = some other) :
    s.concerns id = true ↔ other = id := by
  rw [concerns, h, Option.all_some, beq_iff_eq]

end Step

inductive StepAnswer where
  | outcome (o : Outcome)
  | has (registered : Bool)
  | noChannel

/-- What an answer says about one dataset. -/
def StepAnswer.about (id : String) (had : Bool) : StepAnswer → StepAnswer
  | outcome (.report r) => .outcome (.report (r.about id had))
  | a => a

namespace Host

def act (h : Host Memory) (m : Move) : Host Memory × StepAnswer :=
  ((h.move m).1, .outcome (h.move m).2)

def take (h : Host Memory) : Step → Host Memory × StepAnswer
  | .register fresh d => h.act (.event (.register fresh d))
  | .has id => (h, h.service.elim (.outcome .noService) (fun s => .has (s.has id)))
  | .dispatch id msg => h.act (.event (.dispatch id msg))
  | .on id place step =>
    let channel := h.world.channels.findIdxNth (fun c => c.id == id) place
    if channel < h.world.channels.length then h.act (step.move channel) else (h, .noChannel)
  | .shutdown => h.act (.event .shutdown)
  | .refuseOpen on => h.act (.memory (.refuseOpen on))
  | .drop => h.act (.event .drop)

def takes (h : Host Memory) (steps : List Step) : Host Memory :=
  steps.foldl (fun h s => (h.take s).1) h

def answers : Host Memory → List Step → List StepAnswer
  | _, [] => []
  | h, s :: steps => (h.take s).2 :: answers (h.take s).1 steps

/-- The answer to a step as far as it is about `id`: a shutdown speaks of every dataset. -/
def told (h : Host Memory) (id : String) : Step → StepAnswer
  | .shutdown => (h.take .shutdown).2.about id (h.registered? id).isSome
  | step => (h.take step).2

/-- The answers to the steps that concern `id`, as far as they are about it. -/
def seen (id : String) : Host Memory → List Step → List StepAnswer
  | _, [] => []
  | h, s :: steps =>
    if s.concerns id then h.told id s :: seen id (h.take s).1 steps else seen id (h.take s).1 steps

/-- What belongs to `id`: its entry, its channels and the messages that the host got on them. -/
def part (h : Host Memory) (id : String) : Host Memory where
  service := h.service.map (fun s => s.part id (h.world.place id))
  world := h.world.part id
  received := h.received.filter (fun r => r.1 == id)

/-- Each entry has a channel of its own id, and the latest channels are there. -/
structure Placed (target : String) (h : Host Memory) : Prop extends Host.Enrolled target h where
  latest : ∀ key n, h.world.latest.get? key = some n → n < h.world.channels.length

namespace Placed

variable {target : String} {h : Host Memory}

theorem start (target : String) : (Host.start target ({} : Memory)).Placed target :=
  ⟨.start target {}, fun _ _ h => nomatch h⟩

theorem leads (hh : h.Placed target) {s : Service} (hs : h.service = some s) :
    Service.Leads s.entries h.world := by
  intro key e he
  have hx := KeyMap.get?_of_mem (hh.service s hs).2 he
  rw [← Host.registered?_of_service hs] at hx
  obtain ⟨_, c, hc, hf⟩ := hh.entry key e hx
  exact ⟨c, hc, congrArg Prod.fst hf⟩

theorem move (hh : h.Placed target) (m : Move) : (h.move m).1.Placed target := by
  refine ⟨hh.toEnrolled.move m, fun key n hn => ?_⟩
  have hle := length_le_move h m
  suffices h.world.latest.get? key = some n ∨ n < (h.move m).1.world.channels.length from
    this.elim (fun hold => Nat.lt_of_lt_of_le (hh.latest key n hold) hle) (fun hnew => hnew)
  cases m with
  | memory e =>
    cases e <;> exact .inl hn
  | event e =>
    have hf := step_effect h e
    simp only [Host.move] at hn hle ⊢
    generalize (h.step e).1 = h' at hf hn hle
    cases hf with
    | nothing _ hw => exact .inl (hw ▸ hn)
    | send _ hs =>
      obtain ⟨_, _, _, _, hw⟩ := Memory.send_ok_iff.mp hs
      rw [hw] at hn
      exact .inl hn
    | close hc =>
      obtain ⟨_, _, _, _, rfl⟩ := Memory.close_ok_iff.mp hc
      exact .inl hn
    | register hs hreg =>
      obtain ⟨_, _, hcl⟩ := Memory.register_memory hreg
      rw [hcl.latest, KeyMap.get?_insert] at hn
      split at hn
      next =>
        cases Option.some.inj hn
        obtain ⟨c, hc, _⟩ := Memory.Stays.closes hcl _ _ List.getElem?_concat_length
        exact .inr (List.getElem?_eq_some_iff.mp hc).1
      next => exact .inl hn
    | shutdown =>
      rw [(Memory.Closes.of_list (Memory.list.closes_each _ _)).latest] at hn
      exact .inl hn
    | drop => exact .inl hn
    | create hc =>
      obtain ⟨_, _, rfl⟩ := Memory.create_ok_iff.mp hc
      rw [KeyMap.get?_insert] at hn
      split at hn
      next =>
        cases Option.some.inj hn
        exact .inr (by simp)
      next => exact .inl hn
    | listen => exact .inl hn

theorem take (hh : h.Placed target) (step : Step) : (h.take step).1.Placed target := by
  cases step with
  | has id => exact hh
  | on id place step =>
    simp only [Host.take]
    split
    · exact hh.move _
    · exact hh
  | register fresh d => exact hh.move _
  | dispatch id msg => exact hh.move _
  | shutdown => exact hh.move _
  | refuseOpen on => exact hh.move _
  | drop => exact hh.move _

end Placed

variable {target id : String} {h : Host Memory}

theorem part_eq_of_beside (hh : h.Placed target) {w : Memory} (hw : Memory.Beside id h.world w) :
    ({ h with world := w } : Host Memory).part id = h.part id := by
  have hservice : h.service.map (fun s => s.part id (w.place id)) =
      h.service.map (fun s => s.part id (h.world.place id)) := by
    refine Option.map_congr (fun s hs => ?_)
    unfold Service.part
    rw [KeyMap.only_congr (fun e he => ?_)]
    obtain ⟨c, hc, _⟩ := hh.leads hs id e (KeyMap.mem_of_get? he)
    rw [hw.place _ (Nat.le_of_lt (List.getElem?_eq_some_iff.mp hc).1)]
  unfold part
  rw [hw.part, hservice]

theorem part_settle_of_beside (hh : h.Placed target) {ε : Type} (failed : ε → Outcome)
    {r : Except ε Memory} (hr : ∀ w, r = .ok w → Memory.Beside id h.world w) :
    (h.settle failed r).1.part id = h.part id := by
  cases r with
  | error e => rfl
  | ok w => exact part_eq_of_beside hh (hr w rfl)

theorem part_move_of_ne (hh : h.Placed target) {channel : Nat} {c : MemoryChannel}
    (hc : h.world.channels[channel]? = some c) (hid : c.id ≠ id) (step : ChannelStep) :
    (h.move (step.move channel)).1.part id = h.part id := by
  cases step with
  | deliver msg =>
    simp only [ChannelStep.move, move, Host.step, deliver]
    split
    next => rfl
    next other hr =>
      have hother : other ≠ id := Memory.receiver?_id hc hr ▸ hid
      simp [part, hother]
    next other hr =>
      have hother : other ≠ id := Memory.receiver?_id hc hr ▸ hid
      split
      next => rfl
      next s hs =>
        split
        next w hw => exact part_eq_of_beside hh (Service.dispatch_beside (hh.leads hs) hother hw)
        next => rfl
  | send msg =>
    exact part_settle_of_beside hh _ (fun w hw => .apply hc hid (fun _ _ => MemoryChannel.send_id) hw)
  | sendData d tag window =>
    simp only [ChannelStep.move, move, Host.step]
    split
    next => rfl
    next => exact part_settle_of_beside hh _ (fun w hw => Service.sendMessage_beside hc hid hw)
  | close =>
    exact part_settle_of_beside hh _ (fun w hw => .apply hc hid (fun _ _ => MemoryChannel.close_id) hw)
  | listen => exact part_eq_of_beside hh (.update hc hid (fun _ => rfl))
  | refuseSend on => exact part_eq_of_beside hh (.update hc hid (fun _ => rfl))
  | refuseClose on => exact part_eq_of_beside hh (.update hc hid (fun _ => rfl))

/-- A step that names another id does not touch what belongs to `id`. -/
theorem part_take_of_ne (hh : h.Placed target) {step : Step} (hs : ¬ step.concerns id = true) :
    (h.take step).1.part id = h.part id := by
  cases step with
  | register fresh d =>
    have hne : (d.named fresh).id ≠ id := mt (Step.concerns_iff rfl).mpr hs
    simp only [take, act, move, Host.step]
    split
    next => rfl
    next s hservice =>
      split
      next i s' w hreg =>
        obtain ⟨hb, ht, he⟩ := Service.register_beside (hh.leads hservice)
          (fun n hn => Nat.le_of_lt (hh.latest id n hn)) hne hreg
        rw [← part_eq_of_beside hh hb]
        simp only [part, hservice, Option.map_some, Service.part, ht, KeyMap.only, he]
      next => rfl
  | has other => rfl
  | dispatch other msg =>
    have hne : other ≠ id := mt (Step.concerns_iff rfl).mpr hs
    simp only [take, act, move, Host.step]
    split
    next => rfl
    next s hservice =>
      exact part_settle_of_beside hh _ (fun w hw =>
        Service.dispatch_beside (hh.leads hservice) hne hw)
  | on other place step =>
    have hne : other ≠ id := mt (Step.concerns_iff rfl).mpr hs
    simp only [take]
    split
    next hlt =>
      have hother := beq_iff_eq.mp (List.pos_findIdxNth_getElem (h := hlt))
      exact part_move_of_ne hh (List.getElem?_eq_getElem hlt) (fun heq => hne (hother.symm.trans heq)) step
    next => rfl
  | shutdown => exact (hs rfl).elim
  | refuseOpen on => exact (hs rfl).elim
  | drop => exact (hs rfl).elim

theorem part_settle {ε : Type} {failed : ε → Outcome} {r r' : Except ε Memory}
    (hr' : r' = r.map (fun w => w.part id)) (hr : ∀ w, r = .ok w → w.place id = h.world.place id) :
    (h.part id).settle failed r' = ((h.settle failed r).1.part id, (h.settle failed r).2) := by
  subst hr'
  cases r with
  | error e => rfl
  | ok w => simp only [settle, Except.map, part, hr w rfl]

theorem part_update {channel : Nat} {c : MemoryChannel} (hc : h.world.channels[channel]? = some c)
    (hid : c.id = id) {f : MemoryChannel → MemoryChannel} (hf : ∀ c, (f c).id = c.id) :
    ({ h with world := h.world.update channel f } : Host Memory).part id =
      { h.part id with world := (h.world.part id).update (h.world.place id channel) f } := by
  unfold part
  rw [Memory.part_update hc hid hf, Memory.place_update hc hf]

theorem part_move (hh : h.Placed target) {channel : Nat} {c : MemoryChannel}
    (hc : h.world.channels[channel]? = some c) (hid : c.id = id) (step : ChannelStep) :
    (h.part id).move (step.move (h.world.place id channel)) =
      ((h.move (step.move channel)).1.part id, (h.move (step.move channel)).2) := by
  cases step with
  | deliver msg =>
    have hr : Transport.receiver? (h.part id).world (h.world.place id channel) =
        Transport.receiver? h.world channel := Memory.part_receiver? hc hid
    simp only [ChannelStep.move, move, Host.step, deliver, hr]
    -- the service answers for the id of the channel, so it looks at no entry but that of `id`
    cases hreceiver : Transport.receiver? h.world channel with
    | none => rfl
    | some receiver =>
      obtain ⟨other, handler⟩ := receiver
      obtain rfl : other = id := (Memory.receiver?_id hc hreceiver).symm.trans hid
      cases handler with
      | recorder => simp [part]
      | service =>
        obtain ⟨service, w, received⟩ := h
        cases service with
        | none => rfl
        | some s =>
          simp only [part, Option.map_some, Service.dispatch_part (hh.leads rfl)]
          cases hd : s.dispatch w other msg with
          | error e => rfl
          | ok w' => simp only [Except.map, Option.map_some, Service.dispatch_place hd]
  | send msg =>
    exact part_settle (Memory.part_send hc hid msg)
      (fun w hw => Memory.place_apply (fun _ _ => MemoryChannel.send_id) hw id)
  | sendData d tag window =>
    obtain ⟨service, w, received⟩ := h
    cases service with
    | none => rfl
    | some s =>
      exact part_settle (Service.sendMessage_part hc hid _)
        (fun w hw => Service.sendMessage_place hw id)
  | close =>
    exact part_settle (Memory.part_close hc hid)
      (fun w hw => Memory.place_apply (fun _ _ => MemoryChannel.close_id) hw id)
  | listen =>
    exact Prod.ext (part_update hc hid (f := fun c => { c with handler := some .recorder })
      (fun _ => rfl)).symm rfl
  | refuseSend on =>
    exact Prod.ext (part_update hc hid (f := fun c => { c with refusesSend := on })
      (fun _ => rfl)).symm rfl
  | refuseClose on =>
    exact Prod.ext (part_update hc hid (f := fun c => { c with refusesClose := on })
      (fun _ => rfl)).symm rfl

theorem take_on_part (hh : h.Placed target) (place : Nat) (step : ChannelStep) :
    (h.part id).take (.on id place step) =
      ((h.take (.on id place step)).1.part id, (h.take (.on id place step)).2) := by
  have hiff : (h.part id).world.channels.findIdxNth (fun c => c.id == id) place <
      (h.part id).world.channels.length ↔
        h.world.channels.findIdxNth (fun c => c.id == id) place < h.world.channels.length :=
    findIdxNth_filter_lt_iff
  simp only [take, hiff]
  split
  next hlt =>
    have hown : (h.part id).world.channels.findIdxNth (fun c => c.id == id) place =
        h.world.place id (h.world.channels.findIdxNth (fun c => c.id == id) place) :=
      (findIdxNth_filter hlt).trans
        (List.countPBefore_findIdxNth_of_lt_countP (List.findIdxNth_lt_length_iff.mp hlt)).symm
    have hid := List.pos_findIdxNth_getElem (h := hlt)
    simp only [act, hown, part_move hh (List.getElem?_eq_getElem hlt) (by simpa using hid)]
  next => rfl

theorem part_shutdown (hh : h.Placed target) : (h.part id).take .shutdown =
    ((h.take .shutdown).1.part id, h.told id .shutdown) := by
  obtain ⟨service, w, received⟩ := h
  cases service with
  | none => rfl
  | some s =>
    have hclose : Service.closeEach (w.part id) _ = _ :=
      Service.closeEach_part (hh.service s rfl).2 (hh.leads rfl)
    simp only [told, take, act, move, Host.step, part, Option.map_some, Service.shutdown,
      Service.part, hclose]
    rfl

/-- A step that names the id, or none, does the same to what belongs to the id alone, and is answered
the same. -/
theorem part_take (hh : h.Placed target) {step : Step} (hs : step.concerns id = true) :
    (h.part id).take step = ((h.take step).1.part id, h.told id step) := by
  cases step with
  | register fresh d =>
    have hid : (d.named fresh).id = id := (Step.concerns_iff rfl).mp hs
    obtain ⟨service, w, received⟩ := h
    cases service with
    | none => rfl
    | some s =>
      simp only [told, take, act, move, Host.step, part, Option.map_some,
        Service.register_part (hh.leads rfl) hid]
      cases s.register w fresh d <;> rfl
  | has other =>
    obtain rfl : other = id := (Step.concerns_iff rfl).mp hs
    obtain ⟨service, w, received⟩ := h
    cases service with
    | none => rfl
    | some s => simp [told, take, part, Service.has, Service.part, KeyMap.contains]
  | dispatch other msg =>
    obtain rfl : other = id := (Step.concerns_iff rfl).mp hs
    obtain ⟨service, w, received⟩ := h
    cases service with
    | none => rfl
    | some s =>
      have hsettle : (part ⟨some s, w, received⟩ other).settle .dispatchFailed _ = _ :=
        part_settle (Service.dispatch_part (hh.leads rfl) msg)
          (fun w hw => Service.dispatch_place hw other)
      exact congrArg (fun r : Host Memory × Outcome => (r.1, StepAnswer.outcome r.2)) hsettle
  | on other place step =>
    obtain rfl : other = id := (Step.concerns_iff rfl).mp hs
    exact take_on_part hh place step
  | shutdown => exact part_shutdown hh
  | refuseOpen on => rfl
  | drop => rfl

theorem takes_part (hh : h.Placed target) (steps : List Step) :
    (h.part id).takes (steps.filter (Step.concerns id)) = (h.takes steps).part id ∧
      (h.part id).answers (steps.filter (Step.concerns id)) = h.seen id steps := by
  induction steps generalizing h with
  | nil => exact ⟨rfl, rfl⟩
  | cons step steps ih =>
    obtain ⟨hstate, hanswers⟩ := ih (hh.take step)
    by_cases hs : step.concerns id = true
    · have hstep := part_take hh hs
      rw [List.filter_cons_of_pos hs]
      simp only [takes, List.foldl_cons, answers, seen, if_pos hs, hstep]
      exact ⟨hstate, congrArg _ hanswers⟩
    · rw [part_take_of_ne hh hs] at hstate hanswers
      rw [List.filter_cons_of_neg hs]
      simp only [seen, if_neg hs]
      exact ⟨hstate, hanswers⟩

theorem Placed.takes (hh : h.Placed target) (steps : List Step) : (h.takes steps).Placed target := by
  induction steps generalizing h with
  | nil => exact hh
  | cons step steps ih => exact ih (hh.take step)

/-- The line of one dataset in the listing. -/
def summary? (h : Host Memory) (id : String) : Option Summary :=
  h.service.bind (fun s => s.summaries.find? (fun x => x.id == id))

theorem find?_summary {entries : KeyMap Entry} (he : ∀ e ∈ entries, e.2.dataset.id = e.1) :
    (entries.map (fun e => e.2.dataset.summary)).find? (fun x => x.id == id) =
      (entries.get? id).map (fun e => e.dataset.summary) := by
  induction entries with
  | nil => rfl
  | cons x entries ih =>
    obtain ⟨key, e⟩ := x
    have hid : e.dataset.summary.id = key := he (key, e) List.mem_cons_self
    rw [List.map_cons, KeyMap.get?_cons]
    by_cases hkey : id = key
    · rw [List.find?_cons_of_pos (by simpa [hid] using hkey.symm), if_pos hkey]
      rfl
    · rw [List.find?_cons_of_neg (by simpa [hid] using Ne.symm hkey), if_neg hkey]
      exact ih (fun e h => he e (List.mem_cons_of_mem _ h))

theorem summary?_eq (hh : h.Enrolled target) (id : String) :
    h.summary? id = (h.registered? id).map (fun e => e.dataset.summary) := by
  cases hs : h.service with
  | none => simp only [summary?, registered?, hs, Option.bind_none, Option.map_none]
  | some s =>
    simp only [summary?, registered?, hs, Option.bind_some]
    refine find?_summary (fun e he => ?_)
    have hx := KeyMap.get?_of_mem (hh.service s hs).2 he
    rw [← registered?_of_service hs] at hx
    exact (hh.entry e.1 e.2 hx).1

theorem registered?_part (h : Host Memory) (id : String) : (h.part id).registered? id =
    (h.registered? id).map (fun e => { e with channel := h.world.place id e.channel }) := by
  obtain ⟨service, w, received⟩ := h
  cases service with
  | none => rfl
  | some s => simp [registered?, part, Service.part]

/-- Two hosts show the same of `id`: what its channels are and have recorded, its line in the listing
and what the host got on its channels. -/
structure Alike (id : String) (h h' : Host Memory) : Prop where
  channels : h.world.channelsOf id = h'.world.channelsOf id
  summary : h.summary? id = h'.summary? id
  received : h.received.filter (fun r => r.1 == id) = h'.received.filter (fun r => r.1 == id)

theorem alike_of_part {h' : Host Memory} (hh : h.Placed target) (hh' : h'.Placed target)
    (hp : h.part id = h'.part id) : Alike id h h' := by
  refine ⟨congrArg (fun h => h.world.channels) hp, ?_, congrArg Host.received hp⟩
  have hx := congrArg (fun h => (h.registered? id).map (fun e => e.dataset.summary)) hp
  simp only [registered?_part, Option.map_map] at hx
  rw [summary?_eq hh.toEnrolled, summary?_eq hh'.toEnrolled]
  exact hx

end Host

/-- Steps that name different ids change places. -/
inductive Reordered : List Step → List Step → Prop
  | refl (steps : List Step) : Reordered steps steps
  | swap {before after : List Step} {a b : Step} {id other : String} : a.id? = some id →
      b.id? = some other → id ≠ other → Reordered (before ++ a :: b :: after) (before ++ b :: a :: after)
  | trans {steps steps' steps'' : List Step} : Reordered steps steps' → Reordered steps' steps'' →
      Reordered steps steps''

theorem Reordered.filter {steps steps' : List Step} (h : Reordered steps steps') (id : String) :
    steps.filter (Step.concerns id) = steps'.filter (Step.concerns id) := by
  induction h with
  | refl => rfl
  | trans _ _ ih ih' => exact ih.trans ih'
  | @swap before after a b ida idb ha hb hne =>
    -- of the two steps that change places, one does not concern `id`
    have hnot : ¬ a.concerns id = true ∨ ¬ b.concerns id = true := by
      rw [Step.concerns_iff ha, Step.concerns_iff hb, ← not_and_or]
      rintro ⟨rfl, rfl⟩
      exact hne rfl
    simp only [List.filter_append, List.filter_cons]
    rcases hnot with hca | hcb
    · simp only [if_neg hca]
    · simp only [if_neg hcb]

/-- A run without the steps that name other ids gives the same answers about `id` and leaves the same
behind of it. So steps that name different ids may change places. -/
theorem datasets_do_not_interfere (target : String) (steps : List Step) (id : String) :
    let start := Host.start target ({} : Memory)
    let own := steps.filter (Step.concerns id)
    start.answers own = start.seen id steps ∧ (start.takes own).Alike id (start.takes steps) ∧
      start.takes own = (start.takes steps).part id ∧
      ∀ steps', Reordered steps steps' → ∀ other, start.seen other steps = start.seen other steps' ∧
        (start.takes steps).Alike other (start.takes steps') := by
  intro start own
  have hstart : start.Placed target := Host.Placed.start target
  have hparts : ∀ id steps, start.takes (steps.filter (Step.concerns id)) =
      (start.takes steps).part id ∧
        start.answers (steps.filter (Step.concerns id)) = start.seen id steps :=
    fun _ steps => Host.takes_part hstart steps
  obtain ⟨hstate, hanswers⟩ := hparts id steps
  -- what is left of a run once only steps that concern `id` are in it is all about `id`
  have hown : start.takes own = (start.takes own).part id := by
    have hagain := (hparts id own).1
    rwa [List.filter_filter, List.filter_congr (fun _ _ => Bool.and_self _)] at hagain
  refine ⟨hanswers, Host.alike_of_part (hstart.takes own) (hstart.takes steps)
    (hown.symm.trans hstate), hstate, fun steps' hr other => ?_⟩
  have hsame := hr.filter other
  refine ⟨?_, Host.alike_of_part (hstart.takes steps) (hstart.takes steps') ?_⟩
  · rw [← (hparts other steps).2, ← (hparts other steps').2, hsame]
  · rw [← (hparts other steps).1, ← (hparts other steps').1, hsame]

/-- Two tables, of which the first is registered twice and refuses to close. -/
def interleavedSteps : List Step :=
  [.register "" primes, .register "" { primes with id := "other" },
    .on "primes" 0 (.refuseClose true), .on "other" 0 (.deliver readyRequest),
    .register "" { primes with title := "Again" }, .on "primes" 1 (.refuseClose true),
    .on "other" 0 .close, .shutdown]

theorem interleaved_datasets_apart :
    (Host.start "t" {}).seen "other" interleavedSteps =
      [.outcome (.registered "other"), .outcome (.delivered true), .outcome .done,
        .outcome (.report ⟨0, [⟨"other", .closed "other"⟩]⟩)] ∧
    (Host.start "t" {}).seen "primes" interleavedSteps =
      [.outcome (.registered "primes"), .outcome .done, .outcome (.registered "primes"),
        .outcome .done, .outcome (.report ⟨0, [⟨"primes", .refused .closing "primes"⟩]⟩)] ∧
    ∃ steps, Reordered interleavedSteps steps ∧ steps.head?.bind Step.id? = some "other" ∧
      ((Host.start "t" {}).takes interleavedSteps).Alike "primes" ((Host.start "t" {}).takes steps) := by
  obtain ⟨hother, _⟩ := datasets_do_not_interfere "t" interleavedSteps "other"
  obtain ⟨hprimes, _, _, hreordered⟩ := datasets_do_not_interfere "t" interleavedSteps "primes"
  have hr : Reordered interleavedSteps _ :=
    @Reordered.swap [] (interleavedSteps.drop 2) (.register "" primes)
      (.register "" { primes with id := "other" }) "primes" "other" rfl rfl (by decide)
  exact ⟨hother.symm.trans rfl, hprimes.symm.trans rfl, _, hr, rfl, (hreordered _ hr "primes").2⟩

end PagedTables
