import PagedTables.Launch
import PagedTables.Proofs.LoadedRows
import PagedTables.Proofs.QueueContents

namespace PagedTables.Launch

/-- The registrations of the datasets, one by one. A dataset without an id takes the first of the
fresh ones that is left. -/
def registrations : List Dataset → List String → List Event
  | [], _ => []
  | d :: ds, fresh =>
    .register (fresh.headD "") d :: registrations ds (if d.id = "" then fresh.tail else fresh)

/-- The server that has made these registrations. -/
def opened (s : Server) (ds : List Dataset) (fresh : List String) : Server :=
  s.run ((registrations ds fresh).map .host)

/-- Why nothing is served. -/
inductive Refuses (files : Files) (path : String) : LaunchError → Prop
  | config {e : ConfigError} : Config.load files path = .error e → Refuses files path (.config e)
  | noDatasets {config : Config} : Config.load files path = .ok config → config.datasets = [] →
      Refuses files path .noDatasets
  | load {config : Config} {before after : List Source} {source : Source} {e : LoadError} :
      Config.load files path = .ok config → config.datasets = before ++ source :: after →
      (∀ other ∈ before, ∃ d, other.load files = .ok d) → source.load files = .error e →
      Refuses files path (.load e)

/-- The event registers a dataset for the source, and the line tells what is registered then: where
it comes from, its id unless that is a fresh one, its title and its size. -/
inductive Announces (s : Server) (source : Source) : Event → String → Prop
  | registered {fresh id shown line : String} {d : Dataset} {h : Host Hub} {e : Entry} :
      s.host.step (.register fresh d) = (h, .registered id) → h.registered? id = some e →
      (d.id = "" → id = fresh ∧ shown = "<generated>") → (d.id ≠ "" → id = d.id ∧ shown = d.id) →
      line = source.path ++ "\t" ++ shown ++ "\t" ++ e.dataset.title ++ "\t" ++
        toString e.dataset.rowCount ++ " rows\t" ++ toString e.dataset.columns.length ++ " columns" →
      Announces s source (.register fresh d) line

variable {files : Files} {path : String} {s : Server} {loaded : List (Source × Dataset)}

/-- The sources that load, up to the first that does not. -/
theorem loading_cases (files : Files) (sources : List Source) :
    ∃ (loaded : List (Source × Dataset)) (rest : List Source),
      sources = loaded.map Prod.fst ++ rest ∧ (∀ p ∈ loaded, p.1.load files = .ok p.2) ∧
      ∀ source after, rest = source :: after → ∃ e, source.load files = .error e := by
  induction sources with
  | nil => exact ⟨[], [], rfl, (fun _ hp => nomatch hp), (fun _ _ h => nomatch h)⟩
  | cons source sources ih =>
    cases hload : source.load files with
    | error e =>
      refine ⟨[], source :: sources, rfl, fun _ hp => (nomatch hp), fun other after h => ?_⟩
      cases h
      exact ⟨e, hload⟩
    | ok d =>
      obtain ⟨loaded, rest, rfl, hloaded, hrest⟩ := ih
      refine ⟨(source, d) :: loaded, rest, rfl, fun p hp => ?_, hrest⟩
      rcases List.mem_cons.mp hp with rfl | hp
      · exact hload
      · exact hloaded p hp

theorem reportEach_loaded (h : ∀ p ∈ loaded, p.1.load files = .ok p.2) (rest : List Source) :
    reportEach files (loaded.map Prod.fst ++ rest) =
      (loaded.map (fun p => reportLine p.1 p.2) ++ (reportEach files rest).1,
        (reportEach files rest).2) := by
  induction loaded with
  | nil => rfl
  | cons p loaded ih =>
    have hload := h p List.mem_cons_self
    have hrest := ih (fun p hp => h p (List.mem_cons_of_mem _ hp))
    simp only [List.map_cons, List.cons_append, reportEach, hload, hrest]

/-- A registration over the hub never fails. -/
theorem step_register {service : Service} (hs : s.host.service = some service) (fresh : String)
    (d : Dataset) : ∃ h service',
      s.host.step (.register fresh d) = (h, .registered (d.named fresh).id) ∧
      s.step (.register fresh d) = ({ s with host := h }, .registered (d.named fresh).id) ∧
      h.service = some service' := by
  obtain ⟨w, _, hstep, _⟩ := step_register_hub hs fresh d
  refine ⟨_, _, hstep, ?_, rfl⟩
  simp only [Server.step, hstep]

section registering

variable {s' : Server} {d : Dataset} {ds : List Dataset} {fresh : List String} {id : String}

theorem opened_cons (hstep : s.step (.register (fresh.headD "") d) = (s', .registered id)) :
    opened s (d :: ds) fresh = opened s' ds (if d.id = "" then fresh.tail else fresh) := by
  simp only [opened, registrations, List.map_cons, Server.run, List.foldl_cons, Server.act, hstep]

theorem registerEach_cons {source : Source} {sources : List Source}
    (hload : source.load files = .ok d)
    (hstep : s.step (.register (fresh.headD "") d) = (s', .registered id)) :
    registerEach files (source :: sources) fresh s =
      registerEach files sources (if d.id = "" then fresh.tail else fresh) s' := by
  have hok : (source.load files).mapError .load = Except.ok (ε := LaunchError) d := by
    rw [hload]
    rfl
  rw [registerEach, hok]
  change Except.bind (.ok d) _ = _
  simp only [Except.bind, hstep]

end registering

theorem registerEach_loaded (h : ∀ p ∈ loaded, p.1.load files = .ok p.2) {service : Service}
    (hs : s.host.service = some service) (fresh : List String) (rest : List Source) :
    ∃ left, registerEach files (loaded.map Prod.fst ++ rest) fresh s =
      registerEach files rest left (opened s (loaded.map Prod.snd) fresh) := by
  induction loaded generalizing s service fresh with
  | nil => exact ⟨fresh, rfl⟩
  | cons p loaded ih =>
    have hload := h p List.mem_cons_self
    obtain ⟨h', service', _, hstep, hs'⟩ := step_register hs (fresh.headD "") p.2
    obtain ⟨left, hrest⟩ := ih (fun p hp => h p (List.mem_cons_of_mem _ hp))
      (s := { s with host := h' }) hs' (if p.2.id = "" then fresh.tail else fresh)
    refine ⟨left, ?_⟩
    rw [List.map_cons, List.map_cons, List.cons_append, registerEach_cons hload hstep,
      opened_cons hstep]
    exact hrest

theorem announces_register {service : Service} (hs : s.host.service = some service)
    (source : Source) (fresh : String) (d : Dataset) :
    Announces s source (.register fresh d) (reportLine source d) := by
  obtain ⟨h, _, hstep, _⟩ := step_register hs fresh d
  obtain ⟨_, channel, hentry⟩ := registered?_of_register hstep
  have hregistered := (hentry (d.named fresh).id).trans (if_pos rfl)
  by_cases hd : d.id = ""
  · refine .registered hstep hregistered (fun _ => ⟨by simp [Dataset.named, hd], rfl⟩)
      (fun hne => (hne hd).elim) ?_
    simp only [reportLine, if_pos hd, Dataset.named_title, Dataset.named_rowCount,
      Dataset.named_columns]
    rfl
  · refine .registered hstep hregistered (fun heq => (hd heq).elim)
      (fun _ => ⟨by simp [Dataset.named, hd], rfl⟩) ?_
    simp only [reportLine, if_neg hd, Dataset.named_title, Dataset.named_rowCount,
      Dataset.named_columns]
    rfl

/-- Each line tells what is registered for its source. -/
theorem announces_loaded {service : Service} (hs : s.host.service = some service)
    (fresh : List String) {k : Nat} {source : Source} {d : Dataset}
    (hk : loaded[k]? = some (source, d)) :
    ∃ id, (registrations (loaded.map Prod.snd) fresh)[k]? = some (.register id d) ∧
      Announces (s.run (((registrations (loaded.map Prod.snd) fresh).take k).map .host)) source
        (.register id d) (reportLine source d) := by
  induction loaded generalizing s service fresh k with
  | nil => simp at hk
  | cons p loaded ih =>
    obtain ⟨h, service', _, hstep, hs'⟩ := step_register hs (fresh.headD "") p.2
    cases k with
    | zero =>
      cases Option.some.inj hk
      exact ⟨_, rfl, announces_register hs source _ d⟩
    | succ k =>
      obtain ⟨id, hevent, hannounces⟩ := ih (s := { s with host := h }) hs'
        (if p.2.id = "" then fresh.tail else fresh) hk
      refine ⟨id, hevent, ?_⟩
      simp only [List.map_cons, registrations, List.take_succ_cons, Server.run, List.foldl_cons,
        Server.act, hstep]
      exact hannounces

theorem length_registrations (ds : List Dataset) (fresh : List String) :
    (registrations ds fresh).length = ds.length := by
  induction ds generalizing fresh with
  | nil => rfl
  | cons d ds ih => simp [registrations, ih]

theorem loaded_of_load {sources : List Source}
    (h : ∀ source ∈ sources, ∃ d, source.load files = .ok d) :
    ∃ loaded : List (Source × Dataset), sources = loaded.map Prod.fst ∧
      ∀ p ∈ loaded, p.1.load files = .ok p.2 := by
  obtain ⟨loaded, rest, rfl, hloaded, hrest⟩ := loading_cases files sources
  cases rest with
  | nil => exact ⟨loaded, List.append_nil _, hloaded⟩
  | cons source after =>
    obtain ⟨e, he⟩ := hrest source after rfl
    obtain ⟨d, hd⟩ := h source (List.mem_append_right _ List.mem_cons_self)
    cases he.symm.trans hd

section settings

variable {config : Config}

theorem settings_of_error {e : ConfigError} (h : Config.load files path = .error e) :
    settings files path = .error (.config e) := by
  unfold settings
  rw [h]
  rfl

theorem settings_of_empty (h : Config.load files path = .ok config) (hd : config.datasets = []) :
    settings files path = .error .noDatasets := by
  unfold settings
  rw [h]
  change (if config.datasets.isEmpty = true then _ else _) = _
  rw [if_pos (List.isEmpty_iff.mpr hd)]
  rfl

theorem settings_of_datasets (h : Config.load files path = .ok config) (hd : config.datasets ≠ []) :
    settings files path = .ok config := by
  unfold settings
  rw [h]
  change (if config.datasets.isEmpty = true then _ else _) = _
  rw [if_neg (fun hempty => hd (List.isEmpty_iff.mp hempty))]
  rfl

end settings

theorem refuses_load {config : Config} {source : Source} {after : List Source} {e : LoadError}
    (hload : Config.load files path = .ok config)
    (hsources : config.datasets = loaded.map Prod.fst ++ source :: after)
    (hloaded : ∀ p ∈ loaded, p.1.load files = .ok p.2) (he : source.load files = .error e) :
    Refuses files path (.load e) := by
  refine .load hload hsources (fun other hmem => ?_) he
  obtain ⟨p, hp, rfl⟩ := List.mem_map.mp hmem
  exact ⟨p.2, hloaded p hp⟩

/-- Either there is a reason to serve nothing, or all datasets load. -/
theorem refuses_or_loads (files : Files) (path : String) : (∃ e, Refuses files path e) ∨
    ∃ (config : Config) (loaded : List (Source × Dataset)), Config.load files path = .ok config ∧
      config.datasets ≠ [] ∧ config.datasets = loaded.map Prod.fst ∧
      ∀ p ∈ loaded, p.1.load files = .ok p.2 := by
  cases hload : Config.load files path with
  | error e => exact .inl ⟨_, .config hload⟩
  | ok config =>
    by_cases hd : config.datasets = []
    · exact .inl ⟨_, .noDatasets hload hd⟩
    · obtain ⟨loaded, rest, hsources, hloaded, hrest⟩ := loading_cases files config.datasets
      cases rest with
      | nil => exact .inr ⟨config, loaded, rfl, hd, hsources.trans (List.append_nil _), hloaded⟩
      | cons source after =>
        obtain ⟨e, he⟩ := hrest source after rfl
        exact .inl ⟨_, refuses_load hload hsources hloaded he⟩

theorem check_of_loads {config : Config} {rest : List Source}
    (hload : Config.load files path = .ok config)
    (hsources : config.datasets = loaded.map Prod.fst ++ rest)
    (hloaded : ∀ p ∈ loaded, p.1.load files = .ok p.2) :
    (check files path).1 = loaded.map (fun p => reportLine p.1 p.2) ++ (reportEach files rest).1 ∧
      (config.datasets ≠ [] → (check files path).2 = (reportEach files rest).2.map .load) := by
  by_cases hd : config.datasets = []
  · obtain ⟨hnone, rfl⟩ := List.append_eq_nil_iff.mp (hsources.symm.trans hd)
    rw [List.map_eq_nil_iff] at hnone
    subst hnone
    simp only [check, settings_of_empty hload hd]
    exact ⟨rfl, fun hne => (hne hd).elim⟩
  · have hreport := reportEach_loaded hloaded rest
    rw [← hsources] at hreport
    simp only [check, settings_of_datasets hload hd, hreport]
    exact ⟨trivial, fun _ => trivial⟩

theorem check_refuses {e : LaunchError} (h : Refuses files path e) :
    (check files path).2 = some e := by
  cases h with
  | config hload => simp only [check, settings_of_error hload]
  | noDatasets hload hd => simp only [check, settings_of_empty hload hd]
  | @load config before after source e hload hsources hbefore he =>
    obtain ⟨loaded, rfl, hloaded⟩ := loaded_of_load hbefore
    obtain ⟨_, hfailed⟩ := check_of_loads hload hsources hloaded
    rw [hfailed (by simp [hsources])]
    simp only [reportEach, he, Option.map_some]

theorem check_error_iff {e : LaunchError} :
    (check files path).2 = some e ↔ Refuses files path e := by
  refine ⟨fun h => ?_, check_refuses⟩
  rcases refuses_or_loads files path with ⟨e', he'⟩ | ⟨config, loaded, hload, hd, hsources, hloaded⟩
  · cases (check_refuses he').symm.trans h
    exact he'
  · have hnone := (check_of_loads hload (hsources.trans (List.append_nil _).symm) hloaded).2 hd
    cases hnone.symm.trans h

section prepare

variable {fresh : List String} {network : Network}

theorem prepare_of_settings {config : Config} (h : settings files path = .ok config) :
    prepare files path fresh network =
      (registerEach files config.datasets fresh
        (Server.start config.targetName config.wsBuffer network)).map
          (fun server => (config.apiPort, server)) := by
  unfold prepare
  rw [h]
  change (registerEach files config.datasets fresh _ >>= _) = _
  cases registerEach files config.datasets fresh
    (Server.start config.targetName config.wsBuffer network) <;> rfl

theorem prepare_refuses {e : LaunchError} (h : Refuses files path e) :
    prepare files path fresh network = .error e := by
  cases h with
  | config hload =>
    unfold prepare
    rw [settings_of_error hload]
    rfl
  | noDatasets hload hd =>
    unfold prepare
    rw [settings_of_empty hload hd]
    rfl
  | @load config before after source e hload hsources hbefore he =>
    obtain ⟨loaded, rfl, hloaded⟩ := loaded_of_load hbefore
    have hd : config.datasets ≠ [] := by simp [hsources]
    obtain ⟨left, hregister⟩ := registerEach_loaded (s := Server.start config.targetName
      config.wsBuffer network) hloaded rfl fresh (source :: after)
    rw [prepare_of_settings (settings_of_datasets hload hd), hsources, hregister, registerEach, he]
    rfl

theorem prepare_of_loads {config : Config} (hload : Config.load files path = .ok config)
    (hd : config.datasets ≠ []) (hsources : config.datasets = loaded.map Prod.fst)
    (hloaded : ∀ p ∈ loaded, p.1.load files = .ok p.2) :
    prepare files path fresh network = .ok (config.apiPort, opened
      (Server.start config.targetName config.wsBuffer network) (loaded.map Prod.snd) fresh) := by
  obtain ⟨left, hregister⟩ := registerEach_loaded (s := Server.start config.targetName
    config.wsBuffer network) hloaded rfl fresh []
  rw [List.append_nil] at hregister
  rw [prepare_of_settings (settings_of_datasets hload hd), hsources, hregister]
  rfl

theorem prepare_error_iff {e : LaunchError} :
    prepare files path fresh network = .error e ↔ Refuses files path e := by
  refine ⟨fun h => ?_, prepare_refuses⟩
  rcases refuses_or_loads files path with ⟨e', he'⟩ | ⟨config, loaded, hload, hd, hsources, hloaded⟩
  · cases (prepare_refuses he').symm.trans h
    exact he'
  · cases (prepare_of_loads hload hd hsources hloaded).symm.trans h

theorem check_none_iff : (check files path).2 = none ↔
    ∃ port server, prepare files path fresh network = .ok (port, server) := by
  cases hcheck : (check files path).2 with
  | some e =>
    have hprepare : prepare files path fresh network = .error e :=
      prepare_refuses (check_error_iff.mp hcheck)
    simp [hprepare]
  | none =>
    cases hprepare : prepare files path fresh network with
    | error e => cases hcheck.symm.trans (check_refuses (prepare_error_iff.mp hprepare))
    | ok made => exact ⟨fun _ => ⟨made.1, made.2, rfl⟩, fun _ => rfl⟩

theorem serve_of_error {refusal? : Nat → Option BindError} {e : LaunchError}
    (h : prepare files path fresh network = .error e) :
    serve files path fresh network refusal? = .error e := by
  unfold serve
  rw [h]
  rfl

theorem serve_of_ok {refusal? : Nat → Option BindError} {port : Nat} {server : Server}
    (h : prepare files path fresh network = .ok (port, server)) :
    serve files path fresh network refusal? =
      (refusal? port).elim (.ok server) (fun e => .error (.bind port e)) := by
  unfold serve
  rw [h]
  change Except.bind (.ok (port, server)) _ = _
  simp only [Except.bind]
  cases refusal? port <;> rfl

end prepare

section stopping

variable {config : Config} {rest : List Source}

/-- There are no lines from the first source on that does not load. -/
theorem reportEach_stopped
    (hrest : ∀ source after, rest = source :: after → ∃ e, source.load files = .error e) :
    (reportEach files rest).1 = [] := by
  cases rest with
  | nil => rfl
  | cons source after =>
    obtain ⟨e, he⟩ := hrest source after rfl
    simp only [reportEach, he]

theorem check_none_loads (hload : Config.load files path = .ok config)
    (hsources : config.datasets = loaded.map Prod.fst ++ rest)
    (hloaded : ∀ p ∈ loaded, p.1.load files = .ok p.2)
    (hrest : ∀ source after, rest = source :: after → ∃ e, source.load files = .error e)
    (h : (check files path).2 = none) : config.datasets ≠ [] ∧ rest = [] := by
  constructor
  · intro hempty
    cases (check_refuses (.noDatasets hload hempty)).symm.trans h
  · cases rest with
    | nil => rfl
    | cons source after =>
      obtain ⟨e, he⟩ := hrest source after rfl
      cases (check_refuses (refuses_load hload hsources hloaded he)).symm.trans h

end stopping

/-- `check` tells what comes of `serve`: it fails when nothing will be served, and for the same
reason; otherwise every dataset is registered, and all that can still go wrong is the port. Its
lines are about the datasets that load, one by one up to the first that does not, and each tells
what is registered for its source. -/
theorem check_predicts_serve (files : Files) (path : String) (fresh : List String)
    (network : Network) (refusal? : Nat → Option BindError) :
    (∀ e, ((check files path).2 = some e ↔ Refuses files path e) ∧
      (prepare files path fresh network = .error e ↔ Refuses files path e) ∧
      (Refuses files path e → serve files path fresh network refusal? = .error e)) ∧
    ((check files path).2 = none ↔ ∃ port server,
      prepare files path fresh network = .ok (port, server) ∧
      serve files path fresh network refusal? =
        (refusal? port).elim (.ok server) (fun e => .error (.bind port e))) ∧
    (∀ e, Config.load files path = .error e → (check files path).1 = []) ∧
    ∀ config, Config.load files path = .ok config →
      ∃ (loaded : List (Source × Dataset)) (rest : List Source),
        config.datasets = loaded.map Prod.fst ++ rest ∧
        (∀ p ∈ loaded, p.1.load files = .ok p.2) ∧
        (∀ source after, rest = source :: after → ∃ e, source.load files = .error e) ∧
        let start := Server.start config.targetName config.wsBuffer network
        let events := registrations (loaded.map Prod.snd) fresh
        registerEach files (loaded.map Prod.fst) fresh start = .ok (start.run (events.map .host)) ∧
        ((check files path).2 = none → rest = [] ∧ prepare files path fresh network =
          .ok (config.apiPort, start.run (events.map .host))) ∧
        (check files path).1.length = loaded.length ∧ events.length = loaded.length ∧
        ∀ (k : Nat) (source : Source) (d : Dataset), loaded[k]? = some (source, d) →
          ∃ id line, events[k]? = some (.register id d) ∧ (check files path).1[k]? = some line ∧
            Announces (start.run ((events.take k).map .host)) source (.register id d) line := by
  refine ⟨fun e => ⟨check_error_iff, prepare_error_iff, fun h => ?_⟩,
    ⟨fun h => ?_, fun ⟨port, server, h, _⟩ => check_none_iff.mpr ⟨port, server, h⟩⟩, fun e h => ?_,
    fun config hload => ?_⟩
  · exact serve_of_error (prepare_refuses h)
  · obtain ⟨port, server, hprepare⟩ := check_none_iff.mp h
    exact ⟨port, server, hprepare, serve_of_ok hprepare⟩
  · simp only [check, settings_of_error h]
  · obtain ⟨loaded, rest, hsources, hloaded, hrest⟩ := loading_cases files config.datasets
    obtain ⟨hlines, _⟩ := check_of_loads hload hsources hloaded
    rw [reportEach_stopped hrest, List.append_nil] at hlines
    obtain ⟨left, hregister⟩ := registerEach_loaded (s := Server.start config.targetName
      config.wsBuffer network) hloaded rfl fresh []
    rw [List.append_nil] at hregister
    refine ⟨loaded, rest, hsources, hloaded, hrest, hregister, fun h => ?_, ?_, ?_,
      fun k source d hk => ?_⟩
    · obtain ⟨hd, rfl⟩ := check_none_loads hload hsources hloaded hrest h
      exact ⟨rfl, prepare_of_loads hload hd (hsources.trans (List.append_nil _)) hloaded⟩
    · rw [hlines, List.length_map]
    · rw [length_registrations, List.length_map]
    · obtain ⟨id, hevent, hannounces⟩ := announces_loaded (s := Server.start config.targetName
        config.wsBuffer network) rfl fresh hk
      exact ⟨id, _, hevent, by rw [hlines, List.getElem?_map, hk]; rfl, hannounces⟩

/-- The settings in a file "c", and a table in a file "d". -/
def oneTableFiles (settings : String) : Files where
  read path :=
    if path = "c" then .ok settings.toUTF8
    else if path = "d" then .ok "a\n1\n".toUTF8
    else .error .notFound

theorem load_oneTableFiles {settings : String} {config : Config}
    (h : (Toml.parse settings).bind Config.ofEntries? = some config) :
    Config.load (oneTableFiles settings) "c" = .ok config := by
  have htext : (oneTableFiles settings).readText "c" = .ok settings := readText_of_toUTF8 rfl
  unfold Config.load
  rw [htext]
  change Except.bind (.ok settings) _ = _
  simp only [Except.bind, h]
  rfl

def tableSource (id title : String) : Source where
  path := "d"
  id := some id
  title := some title
  format := some .csv

def oneTable (id title : String) : Dataset where
  id := id
  title := title
  columns := [⟨"a", "string", [.text "1"]⟩]
  rowCount := 1

theorem load_tableSource (settings id title : String) :
    (tableSource id title).load (oneTableFiles settings) = .ok (oneTable id title) := by
  have hread : (oneTableFiles settings).read "d" = .ok "a\n1\n".toUTF8 := rfl
  have htable : Csv.table "a\n1\n".toUTF8.toList = .ok ⟨["a"], [["1"]]⟩ := by decide +kernel
  have hload : Source.loadAs (oneTableFiles settings) "d" .csv =
      .ok (Dataset.ofColumns (Source.fileTitle "d") (oneTable id title).columns) := by
    refine bind_ok_iff.mpr ⟨_, mapError_ok_iff.mpr hread, ?_⟩
    refine bind_ok_iff.mpr ⟨_, mapError_ok_iff.mpr htable, ?_⟩
    rfl
  exact Source.load_ok_iff.mpr ⟨.csv, _, rfl, hload, rfl, rfl⟩

/-- Settings with two tables, of which only the first is there. -/
def halfThere : Files := oneTableFiles "datasets=[['d','x','t','csv'],['e','y','t','csv']]"

def missingSource : Source := { tableSource "y" "t" with path := "e" }

def halfThereConfig : Config where
  datasets := [tableSource "x" "t", missingSource]

theorem load_halfThere : Config.load halfThere "c" = .ok halfThereConfig :=
  load_oneTableFiles (by decide +kernel)

theorem first_of_two_announced :
    (check halfThere "c").2 = some (.load (.csv "e" (.read .notFound))) ∧
    prepare halfThere "c" [] .loopback = .error (.load (.csv "e" (.read .notFound))) ∧
    ∃ line, (check halfThere "c").1[0]? = some line ∧
      Announces (Server.start halfThereConfig.targetName halfThereConfig.wsBuffer .loopback)
        (tableSource "x" "t") (.register "" (oneTable "x" "t")) line := by
  have hsecond : missingSource.load halfThere = .error (.csv "e" (.read .notFound)) := rfl
  have hsources : halfThereConfig.datasets =
      [(tableSource "x" "t", oneTable "x" "t")].map Prod.fst ++ missingSource :: [] := rfl
  have hfirst : ∀ p ∈ [(tableSource "x" "t", oneTable "x" "t")], p.1.load halfThere = .ok p.2 := by
    intro p hp
    cases List.mem_singleton.mp hp
    exact load_tableSource _ _ _
  have hrefuses := refuses_load load_halfThere hsources hfirst hsecond
  obtain ⟨hfails, _, _, hlines⟩ := check_predicts_serve halfThere "c" [] .loopback (fun _ => none)
  obtain ⟨hcheck, hprepare, _⟩ := hfails (.load (.csv "e" (.read .notFound)))
  obtain ⟨loaded, rest, hdatasets, hloaded, hrest, _, _, _, _, hannounces⟩ :=
    hlines halfThereConfig load_halfThere
  refine ⟨hcheck.mpr hrefuses, hprepare.mpr hrefuses, ?_⟩
  cases loaded with
  | nil =>
    obtain ⟨e, he⟩ := hrest (tableSource "x" "t") _ hdatasets.symm
    cases he.symm.trans (load_tableSource _ _ _)
  | cons p loaded =>
    obtain ⟨source, d⟩ := p
    obtain rfl : tableSource "x" "t" = source := (List.cons.inj hdatasets).1
    have hd := hloaded _ List.mem_cons_self
    cases hd.symm.trans (load_tableSource _ _ _)
    obtain ⟨id, line, hevent, hline, hannounce⟩ := hannounces 0 _ _ rfl
    cases Option.some.inj hevent
    exact ⟨line, hline, hannounce⟩

end PagedTables.Launch
