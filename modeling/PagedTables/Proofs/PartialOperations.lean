import PagedTables.Proofs.ClosingNotice
import PagedTables.Proofs.HubLookup
import PagedTables.Proofs.Startup

namespace PagedTables

/-- The sum is clamped to the range of 64 bits. -/
theorem toInt_saturatingAdd (a b : Int64) : (Dataset.saturatingAdd a b).toInt =
    max Int64.minValue.toInt (min Int64.maxValue.toInt (a.toInt + b.toInt)) := by
  have hmin : Int64.minValue.toInt ≤ Int64.maxValue.toInt := by decide
  by_cases hlow : Int64.minValue.toInt ≤ a.toInt + b.toInt
  · by_cases hhigh : a.toInt + b.toInt ≤ Int64.maxValue.toInt
    · rw [toInt_saturatingAdd_of_le hlow hhigh]
      omega
    · rw [toInt_saturatingAdd_of_gt (Int.not_le.mp hhigh)]
      omega
  · rw [Dataset.saturatingAdd, Int64.ofIntClamp, dif_neg hlow]
    omega

/-- The rows from `first` up to `last`, if there are such. -/
def Column.rows? (c : Column) (first last : Nat) : Option Column :=
  if first ≤ last ∧ last ≤ c.cells.length then some (c.rows first last) else none

def Column.window? (c : Column) (start : Nat) (last : Int64) : Option Column :=
  let n := c.cells.length
  let first := min start n
  c.rows? first (windowEnd n first last)

/-- A slice that fails altogether when it takes rows of a column that are not there. -/
def Dataset.slice? (d : Dataset) (start size : Int64) :
    Option (Except InvalidRange (List Column)) :=
  match d.firstRow? start with
  | none => some (.error ⟨start⟩)
  | some first =>
    if first = 0 ∧ (d.rowCount : Int) ≤ size.toInt then some (.ok d.columns)
    else (d.columns.mapM (fun c : Column => c.window? first (saturatingAdd start size))).map .ok

theorem Column.window?_eq (c : Column) (start : Nat) (last : Int64) :
    c.window? start last = some (c.window start last) := by
  have hfirst : min start c.cells.length ≤ c.cells.length := Nat.min_le_right _ _
  exact if_pos ⟨le_windowEnd _ _ _, windowEnd_le hfirst last⟩

theorem Dataset.slice?_eq (d : Dataset) (start size : Int64) :
    d.slice? start size = some (d.slice start size) := by
  unfold slice? slice
  cases d.firstRow? start with
  | none => rfl
  | some first =>
    dsimp only
    split
    next => rfl
    next =>
      have hcolumns : d.columns.mapM (fun c : Column => c.window? first (saturatingAdd start size)) =
          pure (d.columns.map (fun c => c.window first (saturatingAdd start size))) := by
        simp only [Column.window?_eq]
        exact List.mapM_pure
      rw [hcolumns]
      rfl

namespace Config

theorem setting_eq_some {α : Type} {entries : List (String × Toml.Value)} {key : String}
    {default a : α} {read : Toml.Value → Option α} (h : setting entries key default read = some a) :
    a = default ∨ ∃ v, read v = some a := by
  unfold setting at h
  split at h
  next => exact .inl (Option.some.inj h).symm
  next v _ => exact .inr ⟨v, h⟩

/-- An integer of a configuration text has 64 bits, one of them for the sign. -/
theorem wsBuffer_le {entries : List (String × Toml.Value)} {config : Config}
    (h : ofEntries? entries = some config) : (config.wsBuffer : Int) ≤ Int64.maxValue.toInt := by
  simp only [ofEntries?, Option.bind_eq_bind, Option.bind_eq_some_iff, Option.pure_def,
    Option.some.injEq] at h
  obtain ⟨apiPort, _, targetName, _, wsBuffer, hbuffer, datasets, _, rfl⟩ := h
  rcases setting_eq_some hbuffer with rfl | ⟨v, hv⟩
  · have hdefault : ((1024 : Nat) : Int) ≤ Int64.maxValue.toInt := by decide
    exact hdefault
  · cases v with
    | integer i =>
      simp only [Toml.Value.natBelow?] at hv
      split at hv
      next hi =>
        cases Option.some.inj hv
        have hle : (i.toInt.toNat : Int) ≤ Int64.maxValue.toInt := by
          rw [Int.toNat_of_nonneg hi.1]
          exact Int64.toInt_le i
        exact hle
      next => cases hv
    | _ => cases hv

theorem setting_append_of_ne {α : Type} {entries : List (String × Toml.Value)} {key other : String}
    {v : Toml.Value} (default : α) (read : Toml.Value → Option α) (hne : key ≠ other) :
    setting (entries ++ [(other, v)]) key default read = setting entries key default read := by
  have hget : KeyMap.get? (entries ++ [(other, v)]) key = KeyMap.get? entries key := by
    rw [KeyMap.get?, List.lookup_append, ← KeyMap.get?, ← KeyMap.get?, KeyMap.get?_cons,
      if_neg hne, KeyMap.get?_nil, Option.or_none]
  simp only [setting, hget]

theorem setting_append_self {α : Type} {entries : List (String × Toml.Value)} {key : String}
    {v : Toml.Value} (default : α) (read : Toml.Value → Option α)
    (hnone : KeyMap.get? entries key = none) :
    setting (entries ++ [(key, v)]) key default read = read v := by
  have hget : KeyMap.get? (entries ++ [(key, v)]) key = some v := by
    rw [KeyMap.get?, List.lookup_append, ← KeyMap.get?, ← KeyMap.get?, hnone, KeyMap.get?_cons,
      if_pos rfl, Option.none_or]
  simp only [setting, hget]

/-- Any natural number of 63 bits may be added to settings without a buffer. -/
theorem ofEntries?_append {entries : List (String × Toml.Value)} {config : Config} {i : Int64}
    (h : ofEntries? entries = some config) (hnone : KeyMap.get? entries "ws_buffer" = none)
    (h0 : 0 ≤ i.toInt) : ofEntries? (entries ++ [("ws_buffer", .integer i)]) =
      some { config with wsBuffer := i.toInt.toNat } := by
  have hlt : i.toInt.toNat < 1 <<< 64 := by
    have hle := Int64.toInt_le i
    have hmax : Int64.maxValue.toInt < ((1 <<< 64 : Nat) : Int) := by decide
    omega
  have hread : Toml.Value.natBelow? (1 <<< 64) (.integer i) = some i.toInt.toNat :=
    if_pos ⟨h0, hlt⟩
  simp only [ofEntries?, Option.bind_eq_bind, Option.bind_eq_some_iff, Option.pure_def,
    Option.some.injEq] at h ⊢
  obtain ⟨apiPort, hport, targetName, htarget, wsBuffer, _, datasets, hdatasets, rfl⟩ := h
  refine ⟨apiPort, ?_, targetName, ?_, i.toInt.toNat, ?_, datasets, ?_, rfl⟩
  · rwa [setting_append_of_ne _ _ (by decide)]
  · rwa [setting_append_of_ne _ _ (by decide)]
  · rwa [setting_append_self _ _ hnone]
  · rwa [setting_append_of_ne _ _ (by decide)]

theorem entries_of_load {files : Files} {path : String} {config : Config}
    (h : load files path = .ok config) : ∃ entries, ofEntries? entries = some config := by
  obtain ⟨text, _, hparse⟩ := bind_ok_iff.mp h
  split at hparse
  next config' hconfig =>
    cases hparse
    obtain ⟨entries, _, hentries⟩ := Option.bind_eq_some_iff.mp hconfig
    exact ⟨entries, hentries⟩
  next => cases hparse

end Config

theorem Queue.lt_max_iff {buffer : Nat} : maxCapacity < max buffer 1 ↔ maxCapacity < buffer := by
  have hone : 1 ≤ maxCapacity := by decide
  omega

theorem Hub.attach_over_iff {w : Hub} {n buffer : Nat} : w.attach n buffer = .overCapacity ↔
    Queue.maxCapacity < buffer ∧ Transport.isOpen w n = true := by
  rw [← Queue.lt_max_iff]
  simp only [attach, Transport.isOpen, isOpen]
  cases w.channels[n]? with
  | none => simp
  | some c =>
    simp only [HubChannel.attach_eq, Option.any_some]
    cases c.closed with
    | true => simp
    | false => by_cases hb : Queue.maxCapacity < max buffer 1 <;> simp [hb]

namespace Server

variable {target : String} {buffer : Nat} {s : Server}

/-- Whoever takes a place at channel `n` asks for a queue that is longer than any may be. -/
def Overruns (s : Server) (n : Nat) : Prop :=
  s.host.world.attach n s.host.world.buffer = .overCapacity

/-- The action may send rows of `d`, whatever a viewer asks for. -/
def MaySend (s : Server) (d : Dataset) : Action → Prop
  | .host (.sendData _ given _ _) => given = d
  | _ => ∃ id e, s.host.registered? id = some e ∧ e.dataset = d

/-- The action uses an operation beyond what it is defined for: it asks for too long a queue, or
rows are taken that are not there. -/
def Breaks (s : Server) : Action → Prop
  | .join n => s.Overruns n
  | .connect id => s.network ≠ .unreachable ∧ ∃ n, (s.look id).1 = some n ∧ (s.look id).2.Overruns n
  | a => ∃ d start size, s.MaySend d a ∧ d.slice? start size = none

/-- The action takes a place at a channel that is open. -/
def Takes (s : Server) : Action → Prop
  | .join n => Transport.isOpen s.host.world n = true
  | .connect id => s.network ≠ .unreachable ∧ ∃ n, (s.look id).1 = some n
  | _ => False

theorem overruns_iff (hb : s.host.world.buffer = buffer) (n : Nat) :
    s.Overruns n ↔ Queue.maxCapacity < buffer ∧ Transport.isOpen s.host.world n = true := by
  rw [Overruns, hb]
  exact Hub.attach_over_iff

theorem breaks_iff (hb : s.host.world.buffer = buffer) (a : Action) :
    s.Breaks a ↔ Queue.maxCapacity < buffer ∧ s.Takes a := by
  cases a with
  | join n => exact overruns_iff hb n
  | connect id =>
    obtain ⟨hbuffer, hchannels⟩ := s.host.world.find_channels id
    have hopen : ∀ n, (s.look id).1 = some n →
        Transport.isOpen (s.look id).2.host.world n = true := by
      intro n hn
      obtain ⟨_, ho⟩ := Hub.find_eq_some_iff.mp hn
      simp only [look, Transport.isOpen, Hub.isOpen, hchannels] at ho ⊢
      exact ho
    have hiff : ∀ n, (s.look id).2.Overruns n ↔
        Queue.maxCapacity < buffer ∧ Transport.isOpen (s.look id).2.host.world n = true :=
      fun n => overruns_iff (hbuffer.trans hb) n
    simp only [Breaks, Takes, hiff]
    constructor
    · rintro ⟨hnetwork, n, hn, hlt, _⟩
      exact ⟨hlt, hnetwork, n, hn⟩
    · rintro ⟨hlt, hnetwork, n, hn⟩
      exact ⟨hnetwork, n, hn, hlt, hopen n hn⟩
  | _ => simp [Breaks, Takes, Dataset.slice?_eq]

end Server

theorem Launch.run_of_prepare {files : Files} {path : String} {fresh : List String}
    {network : Network} {port : Nat} {server : Server}
    (h : prepare files path fresh network = .ok (port, server)) :
    ∃ (config : Config) (actions : List Server.Action), Config.load files path = .ok config ∧
      server = (Server.start config.targetName config.wsBuffer network).run actions := by
  rcases refuses_or_loads files path with ⟨e, he⟩ | ⟨config, loaded, hload, hd, hsources, hloaded⟩
  · cases (prepare_refuses he).symm.trans h
  · cases (prepare_of_loads hload hd hsources hloaded).symm.trans h
    exact ⟨config, _, hload, rfl⟩

/-- A buffer may be set to any number of 63 bits. Whatever happens to the server, a queue is as long
as its buffer, and at least one; where the buffer is larger than any queue may be, whoever takes a
place at an open channel ends the server, and nothing else does: the rows that a slice takes of a
column are always there, and no number in it leaves its range. A server that is launched is one of
those. -/
theorem partial_operations_in_range {entries : List (String × Toml.Value)} {config : Config}
    (hconfig : Config.ofEntries? entries = some config) (network : Network)
    (actions : List Server.Action) (a : Server.Action) :
    let s := (Server.start config.targetName config.wsBuffer network).run actions
    (s.Breaks a ↔ Queue.maxCapacity < config.wsBuffer ∧ s.Takes a) ∧
    (∀ n place q, s.host.world.queue? n place = some q → q.capacity = max config.wsBuffer 1) ∧
    (config.wsBuffer : Int) ≤ Int64.maxValue.toInt ∧
    (∀ i : Int64, KeyMap.get? entries "ws_buffer" = none → 0 ≤ i.toInt →
      Config.ofEntries? (entries ++ [("ws_buffer", .integer i)]) =
        some { config with wsBuffer := i.toInt.toNat }) ∧
    (∀ (d : Dataset) (start size : Int64), d.slice? start size = some (d.slice start size)) ∧
    (∀ a b : Int64, (Dataset.saturatingAdd a b).toInt =
      max Int64.minValue.toInt (min Int64.maxValue.toInt (a.toInt + b.toInt))) ∧
    (∀ (n first : Nat) (last : Int64), first ≤ n → Column.windowEnd n first last ≤ n ∧
      (Column.windowEnd n first last : Int) = max (first : Int)
        (if last.toInt < 0 then max 0 (n + last.toInt) else min (n : Int) last.toInt)) ∧
    ∀ (files : Files) (path : String) (fresh : List String) (port : Nat) (server : Server),
      Launch.prepare files path fresh network = .ok (port, server) →
      ∃ (entries : List (String × Toml.Value)) (config : Config) (actions : List Server.Action),
        Config.load files path = .ok config ∧ Config.ofEntries? entries = some config ∧
        server = (Server.start config.targetName config.wsBuffer network).run actions := by
  intro s
  have hstart := (Server.Coherent.start config.targetName config.wsBuffer network).toSeated
  refine ⟨Server.breaks_iff (hstart.run actions).buffer a, fun n place q hq => ?_,
    Config.wsBuffer_le hconfig, fun i hnone h0 => Config.ofEntries?_append hconfig hnone h0,
    Dataset.slice?_eq, toInt_saturatingAdd, fun n first last hle => ?_,
    fun files path fresh port server h => ?_⟩
  · obtain ⟨c, hc, hqc⟩ := Hub.queue?_eq_some_iff.mp hq
    have huntold := Server.untold_run config.targetName config.wsBuffer network actions n c hc q
    exact (huntold (List.mem_of_getElem? hqc)).1
  · exact ⟨Column.windowEnd_le hle last, Column.windowEnd_exact n first last⟩
  · obtain ⟨config, before, hload, rfl⟩ := Launch.run_of_prepare h
    obtain ⟨entries, hentries⟩ := Config.entries_of_load hload
    exact ⟨entries, config, before, hload, hentries, rfl⟩

/-- A server for the first table, with the settings of a text that sets the buffer only. -/
def buffered (config : Config) : Server :=
  (Server.start config.targetName config.wsBuffer .loopback).run [.host (.register "" primes)]

theorem longest_buffer_holds : ∃ config : Config,
    Config.ofEntries? [("ws_buffer", .integer 2305843009213693951)] = some config ∧
    (buffered config).Takes (.connect "primes") ∧
    ¬ (buffered config).Breaks (.connect "primes") := by
  have hconfig : Config.ofEntries? ([] ++ [("ws_buffer", .integer 2305843009213693951)]) = _ :=
    Config.ofEntries?_append rfl rfl (by decide)
  obtain ⟨hiff, _⟩ := partial_operations_in_range hconfig .loopback [.host (.register "" primes)]
    (.connect "primes")
  refine ⟨_, hconfig, ⟨by decide, 0, rfl⟩, fun hbreaks => ?_⟩
  obtain ⟨hlt, _⟩ := hiff.mp hbreaks
  have hbuffer : (2305843009213693951 : Int64).toInt.toNat = Queue.maxCapacity := by decide
  exact Nat.lt_irrefl _ (hbuffer ▸ hlt)

/-- A buffer that is longer by one is accepted, and the first viewer asks for a queue that cannot be
made: `Server.join` says what comes of that. -/
theorem too_long_buffer_breaks : ∃ config : Config,
    Config.ofEntries? [("ws_buffer", .integer 2305843009213693952)] = some config ∧
    (buffered config).Breaks (.connect "primes") := by
  have hload : Config.ofEntries? ([] ++ [("ws_buffer", .integer 2305843009213693952)]) = _ :=
    Config.ofEntries?_append rfl rfl (by decide)
  refine ⟨_, hload, (Server.breaks_iff rfl _).mpr ⟨?_, by decide, 0, rfl⟩⟩
  have hbuffer : (2305843009213693952 : Int64).toInt.toNat = Queue.maxCapacity + 1 := by decide
  exact Nat.lt_of_lt_of_eq (Nat.lt_succ_self _) hbuffer.symm

end PagedTables
