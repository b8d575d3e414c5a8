import Mathlib.Data.List.Induction
import Mathlib.Data.List.Nodup
import PagedTables.Proofs.ByteOrder
import PagedTables.Proofs.MemoryChannels
import PagedTables.Proofs.Replies

namespace PagedTables

/-- The moves of a run with their outcomes. -/
def Host.history : Host Memory → List Move → List (Move × Outcome)
  | _, [] => []
  | h, m :: moves => (m, (h.move m).2) :: history (h.move m).1 moves

/-- A registration of `given` that returned `id`. -/
def Registers (id : String) (given : Dataset) (x : Move × Outcome) : Prop :=
  ∃ fresh, x = (.event (.register fresh given), .registered id)

/-- Some registration returned `id` since the last shutdown. -/
def Since (id : String) (history : List (Move × Outcome)) : Prop :=
  ∃ before x after given, history = before ++ x :: after ∧ Registers id given x ∧
    ∀ y ∈ after, y.1 ≠ .event .shutdown

/-- The latest registration that returned `id` since the last shutdown registered `d`. -/
def Latest (id : String) (d : Dataset) (history : List (Move × Outcome)) : Prop :=
  ∃ before x after given, history = before ++ x :: after ∧ Registers id given x ∧
    d = { given with id } ∧
    ∀ y ∈ after, y.1 ≠ .event .shutdown ∧ ∀ other, ¬ Registers id other y

theorem latest_concat_iff {id : String} {d : Dataset} {history : List (Move × Outcome)}
    {x : Move × Outcome} : Latest id d (history ++ [x]) ↔
      (∃ given, Registers id given x ∧ d = { given with id }) ∨
        x.1 ≠ .event .shutdown ∧ (∀ other, ¬ Registers id other x) ∧ Latest id d history := by
  have hlatest : ∀ history, Latest id d history ↔ ∃ before x after, history = before ++ x :: after ∧
      (∃ given, Registers id given x ∧ d = { given with id }) ∧
      ∀ y ∈ after, y.1 ≠ .event .shutdown ∧ ∀ other, ¬ Registers id other y := by
    intro history
    constructor
    · rintro ⟨before, x, after, given, heq, hx, hd, hafter⟩
      exact ⟨before, x, after, heq, ⟨given, hx, hd⟩, hafter⟩
    · rintro ⟨before, x, after, heq, ⟨given, hx, hd⟩, hafter⟩
      exact ⟨before, x, after, given, heq, hx, hd, hafter⟩
  rw [hlatest, hlatest, since_concat_iff, and_assoc]

/-- Of the registrations since the last shutdown one is the latest. -/
theorem since_iff_latest {id : String} {history : List (Move × Outcome)} :
    Since id history ↔ ∃ d, Latest id d history := by
  constructor
  · rintro ⟨before, x, after, given, rfl, hx, hafter⟩
    induction after using List.reverseRecOn with
    | nil => exact ⟨_, before, x, [], given, rfl, hx, rfl, by simp⟩
    | append_singleton after y ih =>
      obtain ⟨d, hd⟩ := ih (fun z hz => hafter z (by simp [hz]))
      rw [← List.cons_append, ← List.append_assoc]
      by_cases hy : ∃ other, Registers id other y
      · obtain ⟨other, hy⟩ := hy
        exact ⟨_, latest_concat_iff.mpr (.inl ⟨other, hy, rfl⟩)⟩
      · exact ⟨d, latest_concat_iff.mpr
          (.inr ⟨hafter y (by simp), fun other h => hy ⟨other, h⟩, hd⟩)⟩
  · rintro ⟨d, before, x, after, given, rfl, hx, _, hafter⟩
    exact ⟨before, x, after, given, rfl, hx, fun y hy => (hafter y hy).1⟩

namespace Host

variable {h : Host Memory}

theorem history_concat (h : Host Memory) (moves : List Move) (m : Move) :
    h.history (moves ++ [m]) = h.history moves ++ [(m, ((h.play moves).move m).2)] := by
  induction moves generalizing h with
  | nil => rfl
  | cons m' moves ih => exact congrArg _ (ih (h.move m').1)

theorem play_concat (h : Host Memory) (moves : List Move) (m : Move) :
    h.play (moves ++ [m]) = ((h.play moves).move m).1 := by
  simp [play]

/-- A service that is gone does not come back. -/
theorem service_of_move {m : Move} {s' : Service} (hs' : (h.move m).1.service = some s') :
    ∃ s, h.service = some s := by
  cases m with
  | memory e => exact ⟨s', hs'⟩
  | event e =>
    have hf := step_effect h e
    simp only [Host.move] at hs'
    generalize (h.step e).1 = h' at hf hs'
    cases hf with
    | nothing hs => exact ⟨s', hs.symm.trans hs'⟩
    | send hs => exact ⟨s', hs.symm.trans hs'⟩
    | close => exact ⟨s', hs'⟩
    | register hs => exact ⟨_, hs⟩
    | shutdown hs => exact ⟨_, hs⟩
    | drop => cases hs'
    | create => exact ⟨s', hs'⟩
    | listen => exact ⟨s', hs'⟩

theorem service_move {m : Move} {s : Service} (hs : h.service = some s) (hm : m ≠ .event .drop) :
    ∃ s', (h.move m).1.service = some s' := by
  cases m with
  | memory e => exact ⟨s, hs⟩
  | event e => exact service_step hs (fun he => hm (congrArg Move.event he))

/-- A service stays as long as it is not dropped. -/
theorem service_play {moves : List Move} {s : Service} (hs : h.service = some s)
    (hm : .event .drop ∉ moves) : ∃ s', (h.play moves).service = some s' := by
  induction moves generalizing h s with
  | nil => exact ⟨s, hs⟩
  | cons m moves ih =>
    obtain ⟨s', hs'⟩ := service_move hs (fun heq => hm (heq ▸ List.mem_cons_self))
    exact ih hs' (fun hmem => hm (List.mem_cons_of_mem _ hmem))

/-- The dataset that is registered under `id`. -/
def dataset? (h : Host Memory) (id : String) : Option Dataset :=
  (h.registered? id).map Entry.dataset

theorem dataset?_of_registers {m : Move} {id : String} {given : Dataset}
    (hr : Registers id given (m, (h.move m).2)) :
    (h.move m).1.dataset? id = some { given with id } := by
  obtain ⟨fresh, heq⟩ := hr
  obtain ⟨rfl, hout⟩ := Prod.mk.inj heq
  have hstep : h.step (.register fresh given) = ((h.step (.register fresh given)).1, .registered id) :=
    Prod.ext rfl hout
  obtain ⟨rfl, channel, hentry⟩ := registered?_of_register hstep
  have hnamed : given.named fresh = { given with id := (given.named fresh).id } := by
    unfold Dataset.named
    split <;> rfl
  simp only [dataset?, move, hentry, if_true, Option.map_some]
  rw [← hnamed]

theorem dataset?_of_unregistered {m : Move} {id : String} (hs : m ≠ .event .shutdown)
    (hother : ∀ other, ¬ Registers id other (m, (h.move m).2))
    (halive : ∃ s, (h.move m).1.service = some s) :
    (h.move m).1.dataset? id = h.dataset? id := by
  cases m with
  | memory e => rfl
  | event e =>
    by_cases he : e.Spares id
    · exact congrArg _ (registered?_step_of_spares he)
    · cases e with
      | register fresh given =>
        rcases step_register_cases h fresh given with heq | ⟨id', hr⟩
        · exact congrArg (fun h => h.dataset? id) heq
        · obtain ⟨hid, _⟩ := registered?_of_register hr
          have hkey : (given.named fresh).id = id := Decidable.not_not.mp he
          have hout : (h.move (.event (.register fresh given))).2 = .registered id := by
            rw [← hkey, ← hid]
            exact congrArg Prod.snd hr
          exact (hother given ⟨fresh, by rw [hout]⟩).elim
      | shutdown => exact (hs rfl).elim
      | drop =>
        obtain ⟨s, h'⟩ := halive
        cases h'
      | _ => exact (he trivial).elim

theorem dataset?_of_shutdown (h : Host Memory) (id : String) :
    (h.move (.event .shutdown)).1.dataset? id = none := by
  cases hs : h.service with
  | none => simp [dataset?, move, step, registered?, hs]
  | some s => simp [dataset?, move, step, registered?, hs, Service.shutdown]

/-- As long as the service is there, the registry is the replay of its history. -/
theorem dataset?_eq_some_iff_latest {target : String} {w : Memory} {moves : List Move} {s : Service}
    (hs : ((Host.start target w).play moves).service = some s) {id : String} {d : Dataset} :
    ((Host.start target w).play moves).dataset? id = some d ↔
      Latest id d ((Host.start target w).history moves) := by
  induction moves using List.reverseRecOn generalizing s d with
  | nil =>
    refine ⟨fun h => ?_, fun ⟨before, x, after, given, heq, _⟩ => ?_⟩
    · simp [play, dataset?, registered?, start] at h
    · simp [history] at heq
  | append_singleton moves m ih =>
    rw [play_concat] at hs ⊢
    obtain ⟨s₀, hs₀⟩ := service_of_move hs
    rw [history_concat, latest_concat_iff, ← ih hs₀]
    by_cases hr : ∃ given, Registers id given (m, (((Host.start target w).play moves).move m).2)
    · obtain ⟨given, hr⟩ := hr
      rw [dataset?_of_registers hr]
      refine ⟨fun h => .inl ⟨given, hr, (Option.some.inj h).symm⟩, ?_⟩
      rintro (⟨given', hr', rfl⟩ | ⟨_, hother, _⟩)
      · obtain ⟨_, heq⟩ := hr
        obtain ⟨_, heq'⟩ := hr'
        cases heq.symm.trans heq'
        rfl
      · exact (hother given hr).elim
    · have hother : ∀ other, ¬ Registers id other (m, (((Host.start target w).play moves).move m).2) :=
        fun other h => hr ⟨other, h⟩
      by_cases hm : m = .event .shutdown
      · subst hm
        rw [dataset?_of_shutdown]
        refine ⟨fun h => (Option.some_ne_none d h.symm).elim, ?_⟩
        rintro (⟨given, h, _⟩ | ⟨hne, _⟩)
        · exact (hother given h).elim
        · exact (hne rfl).elim
      · rw [dataset?_of_unregistered hm hother ⟨s, hs⟩]
        refine ⟨fun h => .inr ⟨hm, hother, h⟩, ?_⟩
        rintro (⟨given, h, _⟩ | ⟨_, _, h⟩)
        · exact (hother given h).elim
        · exact h

/-- Nothing is registered under the empty id, as long as no fresh id is empty. -/
theorem id_ne_empty {moves : List Move} (hh : ∀ e, h.registered? "" ≠ some e)
    (hf : ∀ fresh d, Move.event (.register fresh d) ∈ moves → fresh ≠ "") (e : Entry) :
    (h.play moves).registered? "" ≠ some e := by
  induction moves generalizing h with
  | nil => exact hh e
  | cons m moves ih =>
    refine ih (fun e he => ?_) (fun fresh d hm => hf fresh d (List.mem_cons_of_mem _ hm))
    cases m with
    | memory _ => exact hh e he
    | event ev =>
      rcases registered?_step_cases he with hold | ⟨fresh, d, rfl, hr⟩
      · exact hh e hold
      · obtain ⟨hid, _⟩ := registered?_of_register hr
        have hne := hf fresh d List.mem_cons_self
        unfold Dataset.named at hid
        split at hid
        next => exact hne hid.symm
        next hd => exact hd hid.symm

end Host

/-- The summaries of a registry whose entries come in any order, sorted by id. -/
def listing (entries : List (String × Entry)) : List Summary :=
  (entries.map (fun e => e.2.dataset.summary)).mergeSort (fun a b => a.id ≤ b.id)

namespace Host.Enrolled

variable {target : String} {h : Host Memory} {s : Service}

theorem registered_iff_mem (hh : h.Enrolled target) (hs : h.service = some s) {id : String}
    {e : Entry} : (id, e) ∈ s.entries ↔ h.registered? id = some e := by
  rw [Host.registered?_of_service hs]
  exact ⟨KeyMap.get?_of_mem (hh.service s hs).2, KeyMap.mem_of_get?⟩

theorem indexed (hh : h.Enrolled target) (hs : h.service = some s) : s.Indexed := by
  refine ⟨(hh.service s hs).2, fun id e he => ?_⟩
  exact (hh.entry id e ((Host.registered?_of_service hs id).trans he)).1

theorem summaries_sorted (hh : h.Enrolled target) (hs : h.service = some s) :
    (s.summaries.map Summary.id).Pairwise (· < ·) :=
  (hh.indexed hs).summaries_sorted

/-- The order in which the entries come does not show. -/
theorem listing_of_perm (hh : h.Enrolled target) (hs : h.service = some s)
    {order : List (String × Entry)} (ho : order.Perm s.entries) : listing order = s.summaries := by
  have hsorted := hh.summaries_sorted hs
  have hperm : (listing order).Perm s.summaries :=
    (List.mergeSort_perm _ _).trans (ho.map _)
  have hle : (listing order).Pairwise (fun a b => a.id ≤ b.id) := by
    refine (List.pairwise_mergeSort (fun a b c => ?_) (fun a b => ?_) _).imp of_decide_eq_true
    · simpa using String.le_trans
    · simpa using String.le_total a.id b.id
  refine List.Perm.eq_of_pairwise (fun a b ha hb hab hba => ?_) hle ?_ hperm
  · have hnodup := (hh.indexed hs).summaries_nodup
    exact List.inj_on_of_nodup_map hnodup (hperm.mem_iff.mp ha) hb (String.le_antisymm hab hba)
  · exact (List.pairwise_map.mp hsorted).imp (fun hlt => String.not_lt.mp (String.lt_asymm hlt))

end Host.Enrolled

theorem has_iff_dataset? {h : Host Memory} {s : Service} (hs : h.service = some s) (id : String) :
    s.has id = true ↔ ∃ d, h.dataset? id = some d := by
  simp [Service.has, KeyMap.contains, Host.dataset?, Host.registered?_of_service hs,
    Option.isSome_iff_exists]

theorem mem_summaries_iff {target : String} {h : Host Memory} (hh : h.Enrolled target) {s : Service}
    (hs : h.service = some s) {x : Summary} :
    x ∈ s.summaries ↔ ∃ d, h.dataset? x.id = some d ∧ x = d.summary := by
  rw [Host.dataset?, Host.registered?_of_service hs]
  exact (hh.indexed hs).mem_summaries_iff

/-- The registry has an entry for exactly those ids that a registration returned since the last
shutdown, lists them in the order of their bytes with what was registered last, and keeps each under
its id with a channel of its own that was opened for it. -/
theorem registry_replays_history {target : String} {w : Memory} {moves : List Move}
    (hdrop : .event .drop ∉ moves)
    (hf : ∀ fresh d, Move.event (.register fresh d) ∈ moves → fresh ≠ "") :
    let h := (Host.start target w).play moves
    let history := (Host.start target w).history moves
    ∃ s, h.service = some s ∧
      (∀ id, s.has id = true ↔ Since id history) ∧
      (∀ x, x ∈ s.summaries ↔ ∃ d, Latest x.id d history ∧ x = d.summary) ∧
      (s.summaries.map (fun x => x.id.toUTF8.data.toList)).Pairwise (· < ·) ∧
      (∀ order : List (String × Entry), order.Perm s.entries → listing order = s.summaries) ∧
      (∀ id e, (id, e) ∈ s.entries → id ≠ "" ∧ e.dataset.id = id ∧
        ∃ c, h.world.channels[e.channel]? = some c ∧ c.id = id ∧ c.target = s.target ∧
          c.opening = .obj [("title", .str e.dataset.title)]) ∧
      (∀ id id' e e', (id, e) ∈ s.entries → (id', e') ∈ s.entries → e.channel = e'.channel →
        id = id') := by
  intro h history
  obtain ⟨s, hs⟩ : ∃ s, h.service = some s := Host.service_play rfl hdrop
  have hh : h.Enrolled target := (Host.Enrolled.start target w).play moves
  have hlatest : ∀ {id d}, h.dataset? id = some d ↔ Latest id d history :=
    Host.dataset?_eq_some_iff_latest hs
  refine ⟨s, hs, fun id => ?_, fun x => ?_, ?_, fun order ho => hh.listing_of_perm hs ho,
    fun id e he => ?_, fun id id' e e' he he' hch => ?_⟩
  · rw [has_iff_dataset? hs, since_iff_latest]
    exact exists_congr (fun d => hlatest)
  · rw [mem_summaries_iff hh hs]
    exact exists_congr (fun d => and_congr_left' hlatest)
  · have hsorted := hh.summaries_sorted hs
    rw [List.pairwise_map] at hsorted ⊢
    exact hsorted.imp lt_iff_utf8_lt.mp
  · have hx := (hh.registered_iff_mem hs).mp he
    obtain ⟨hid, c, hc, hface⟩ := hh.entry id e hx
    obtain ⟨hcid, htarget, hopening⟩ : c.id = id ∧ c.target = target ∧
        c.opening = e.dataset.opening := by simpa [MemoryChannel.face] using hface
    refine ⟨?_, hid, c, hc, hcid, htarget.trans (hh.service s hs).1.symm, hopening⟩
    rintro rfl
    exact Host.id_ne_empty (fun e he => by simp [Host.registered?, Host.start] at he) hf e hx
  · exact hh.apart ((hh.registered_iff_mem hs).mp he) ((hh.registered_iff_mem hs).mp he') hch

/-- A table comes twice, a registration fails, another table is given an id, and before all that the
service was shut down. -/
def eventfulMoves : List Move :=
  [.event (.register "0" { primes with id := "early" }), .event .shutdown,
    .event (.register "1" primes), .event (.register "2" { primes with id := "" }),
    .memory (.refuseOpen true), .event (.register "3" { primes with title := "Lost" }),
    .memory (.refuseOpen false), .event (.deliver 1 readyRequest), .event (.close 1),
    .event (.register "4" { primes with title := "Primes again" })]

theorem eventful_registry_replays :
    ∃ s : Service, ((Host.start "t" {}).play eventfulMoves).service = some s ∧
      s.summaries = [⟨"2", "Primes", 5⟩, ⟨"primes", "Primes again", 5⟩] ∧
      Since "2" ((Host.start "t" {}).history eventfulMoves) ∧
      ¬ Since "early" ((Host.start "t" {}).history eventfulMoves) ∧
      ∃ d, Latest "primes" d ((Host.start "t" {}).history eventfulMoves) ∧
        d.title = "Primes again" := by
  have hf : ∀ fresh d, Move.event (.register fresh d) ∈ eventfulMoves → fresh ≠ "" := by
    intro fresh d hm
    simp [eventfulMoves] at hm
    rcases hm with ⟨rfl, _⟩ | ⟨rfl, _⟩ | ⟨rfl, _⟩ | ⟨rfl, _⟩ | ⟨rfl, _⟩ <;> decide
  have hdrop : .event .drop ∉ eventfulMoves := by simp [eventfulMoves]
  obtain ⟨s, hs, hhas, hmem, _⟩ := @registry_replays_history "t" {} eventfulMoves hdrop hf
  cases Option.some.inj hs
  obtain ⟨d, hd, hx⟩ := (hmem ⟨"primes", "Primes again", 5⟩).mp (by decide)
  refine ⟨_, hs, rfl, (hhas "2").mp rfl, fun h => ?_, d, hd, ?_⟩
  · cases (hhas "early").mpr h
  · exact (congrArg Summary.title hx).symm

end PagedTables
