import Teiryo.Daemon.Server

/-!
# Rejected settings

`SetConfig` validates the edit, edits the document, writes the file and only then parses it. A
rejection by the parser therefore comes after the write. It leaves the running settings alone,
but the file only if the edit did not change it.
-/

namespace Teiryo

open Toml

namespace Config

variable {Layout : Type} {toml : TomlCrates Layout} {text : String} {edit : ConfigEdit}

/-- An edit that states what the document states already: it clears an absent key, or sets one
to the value it has, written the way the editor would write it. -/
def EditInert (root : Entries Item) : ConfigEdit → Prop
  | .globalPollInterval (some secs) =>
      root.find "poll_interval_secs" = some (newValue (.integer secs.toNat))
  | .globalPollInterval none => root.find "poll_interval_secs" = none
  | .providerPollInterval provider (some secs) =>
      ∃ providers table, root.find "providers" = some (.table providers) ∧
        Entries.find providers provider = some (.table table) ∧
        Entries.find table "poll_interval_secs" = some (newValue (.integer secs.toNat))
  | .providerPollInterval provider none =>
      ∃ providers table, root.find "providers" = some (.table providers) ∧
        Entries.find providers provider = some (.table table) ∧
        Entries.find table "poll_interval_secs" = none
  | .providerEnabled provider enabled =>
      ∃ providers table, root.find "providers" = some (.table providers) ∧
        Entries.find providers provider = some (.table table) ∧
        Entries.find table "enabled" = some (newValue (.boolean enabled))

private theorem sorted_of_toValue {es : Entries Item}
    (h : (Entries.mapValues Item.toValue es).Sorted) : es.Sorted := by
  simpa [Entries.Sorted, Entries.mapValues, List.pairwise_map] using h

private theorem toValue_table_mem {es entries : Entries Item} {key : String}
    (h : es.find key = some (.table entries)) :
    (key, Value.table (Entries.mapValues Item.toValue entries)) ∈
      Entries.mapValues Item.toValue es := by
  apply Entries.mem_of_find
  rw [Entries.find_mapValues, h, Option.map_some, Item.toValue, toValues_eq_mapValues]

private theorem editableTable_of_find {es entries : Entries Item} {key : String}
    (h : es.find key = some (.table entries)) : editableTable es key = some entries := by
  simp [editableTable, h]

private theorem find_of_insert_eq {es table table' : Entries Item} {key : String}
    (hed : editableTable es key = some table) (h : es.insert key (.table table') = es) :
    es.find key = some (.table table) ∧ table' = table := by
  have hfind : es.find key = some (.table table') := by
    rw [← h]
    exact Entries.find_insert_self _ _ _
  rw [editableTable, hfind] at hed
  cases hed
  exact ⟨hfind, rfl⟩

private theorem withProviderTable_root_eq {doc doc' : Doc Layout} {provider : ProviderId}
    {change : Entries Item → Entries Item} {same : Entries Item → Prop} (hk : Keyed doc.values)
    (hchange : ∀ table, Entries.Sorted table → (change table = table ↔ same table))
    (h : withProviderTable toml doc provider change = .ok doc') :
    doc'.root = doc.root ↔
      ∃ providers table, doc.root.find "providers" = some (.table providers) ∧
        Entries.find providers provider = some (.table table) ∧ same table := by
  have hroot : doc.root.Sorted := sorted_of_toValue hk.root
  have hinner : ∀ {providers table}, doc.root.find "providers" = some (.table providers) →
      Entries.find providers provider = some (.table table) → Entries.Sorted table := by
    intro providers table hfind hfind'
    exact sorted_of_toValue (hk.provider (toValue_table_mem hfind) (toValue_table_mem hfind'))
  obtain ⟨providers, table, hproviders, htable, rfl⟩ := withProviderTable_eq_ok.mp h
  constructor
  · intro heq
    obtain ⟨hfind, heq'⟩ := find_of_insert_eq hproviders heq
    obtain ⟨hfind', hsame⟩ := find_of_insert_eq htable heq'
    exact ⟨providers, table, hfind, hfind', (hchange table (hinner hfind hfind')).mp hsame⟩
  · intro ⟨providers', table', hfind, hfind', hsame⟩
    have hp : providers' = providers := by
      have hed := editableTable_of_find hfind
      rw [hproviders] at hed
      exact (Option.some.inj hed).symm
    subst hp
    have ht : table' = table := by
      have hed := editableTable_of_find hfind'
      rw [htable] at hed
      exact (Option.some.inj hed).symm
    subst ht
    have hsorted : Entries.Sorted providers' :=
      sorted_of_toValue (hk.providers (toValue_table_mem hfind))
    have hprovider : Entries.insert providers' provider (.table (change table')) =
        providers' := by
      rw [(hchange table' (hinner hfind hfind')).mpr hsame, Entries.insert_eq_self_iff hsorted]
      exact hfind'
    change doc.root.insert "providers" (.table (Entries.insert providers' provider _)) = doc.root
    rw [hprovider, Entries.insert_eq_self_iff hroot]
    exact hfind

/-- An edit leaves the document's root alone exactly when it is inert. -/
theorem applyEdit_root_eq_iff {doc doc' : Doc Layout} (hk : Keyed doc.values)
    (h : applyEdit toml doc edit = .ok doc') : doc'.root = doc.root ↔ EditInert doc.root edit := by
  have hroot : doc.root.Sorted := sorted_of_toValue hk.root
  cases edit with
  | globalPollInterval secs =>
    cases secs with
    | none =>
      cases h
      exact Entries.erase_eq_self_iff _ _
    | some secs =>
      cases h
      exact Entries.insert_eq_self_iff hroot _ _
  | providerPollInterval provider secs =>
    cases secs with
    | none =>
      exact withProviderTable_root_eq hk (fun table _ => Entries.erase_eq_self_iff table _) h
    | some secs =>
      exact withProviderTable_root_eq hk (fun _ hs => Entries.insert_eq_self_iff hs _ _) h
  | providerEnabled provider enabled =>
    exact withProviderTable_root_eq hk (fun _ hs => Entries.insert_eq_self_iff hs _ _) h

private theorem withProviderTable_eq_of_root_eq {doc doc' : Doc Layout} {provider : ProviderId}
    {change : Entries Item → Entries Item}
    (h : withProviderTable toml doc provider change = .ok doc') (hroot : doc'.root = doc.root) :
    doc' = doc := by
  obtain ⟨providers, table, -, -, rfl⟩ := withProviderTable_eq_ok.mp h
  -- the root is unchanged, so `providers` was there already and no header was made implicit
  have hfind : doc.root.find "providers" =
      some (.table (Entries.insert providers provider (.table (change table)))) := by
    rw [← hroot]
    exact Entries.find_insert_self _ _ _
  obtain ⟨root, layout⟩ := doc
  simp only [Doc.mk.injEq] at hroot ⊢
  refine ⟨hroot, ?_⟩
  simp only at hfind
  rw [hfind]
  rfl

private theorem applyEdit_eq_of_root_eq {doc doc' : Doc Layout}
    (h : applyEdit toml doc edit = .ok doc') (hroot : doc'.root = doc.root) : doc' = doc := by
  cases edit with
  | globalPollInterval secs =>
    cases secs with
    | none =>
      cases h
      simp only at hroot
      rw [hroot]
    | some secs =>
      cases h
      simp only at hroot
      rw [hroot]
  | providerPollInterval provider secs => exact withProviderTable_eq_of_root_eq h hroot
  | providerEnabled provider enabled => exact withProviderTable_eq_of_root_eq h hroot

private theorem displayed_eq_root {doc doc' : Doc Layout}
    (h : doc.root = displayed toml doc doc' edit) : displayed toml doc doc' edit = doc'.root := by
  unfold displayed at h ⊢
  cases hhidden : hiddenProvider toml doc edit with
  | none => rfl
  | some provider =>
    obtain ⟨-, providers, table, hfind, hfind', -⟩ := hiddenProvider_eq_some hhidden
    simp only [hhidden] at h
    unfold withoutProvider at h
    simp only [hfind] at h
    split at h
    · rw [h, Entries.find_erase_self] at hfind
      cases hfind
    · rw [h, Entries.find_insert_self] at hfind
      simp only [Option.some.injEq, Item.table.injEq] at hfind
      rw [← hfind, Entries.find_erase_self] at hfind'
      cases hfind'

/-- An edited document prints as the text it was read from exactly when that text is printed
back as it stands and the edit is inert. -/
theorem documentToString_edited_iff (hlaw : Lawful toml text edit) {doc doc' : Doc Layout}
    (hdoc : toml.documentFromStr text = .ok doc) (happly : applyEdit toml doc edit = .ok doc') :
    toml.documentToString doc' = text ↔
      toml.documentToString doc = text ∧ EditInert doc.root edit := by
  have hk := hlaw.keyed hdoc
  have hinert := applyEdit_root_eq_iff hk happly
  have hsame : doc'.root = doc.root → doc' = doc := applyEdit_eq_of_root_eq happly
  constructor
  · intro hprint
    obtain ⟨doc'', hread, hroot, -⟩ := hlaw.readBack hdoc happly
    rw [hprint, hdoc] at hread
    cases hread
    rw [displayed_eq_root hroot] at hroot
    have heq := hsame hroot.symm
    rw [heq] at hprint
    exact ⟨hprint, hinert.mp hroot.symm⟩
  · intro ⟨hprint, hin⟩
    rw [hsame (hinert.mpr hin), hprint]

/-- The condition under which a rejected `SetConfig` leaves `config.toml` alone: nothing is
written, or what is written is accepted, or it is the text that was there. -/
def SafeEdit (toml : TomlCrates Layout) (file : ConfigFile) (writeFault : Option String)
    (edit : ConfigEdit) : Prop :=
  validateEdit edit ≠ .ok () ∨ writeFault ≠ none ∨
    ∀ text doc, (file = .text text ∨ file = .missing ∧ text = "") →
      toml.documentFromStr text = .ok doc → editable doc.root edit = true →
        othersOk doc.values edit = true ∨
          (file = .text text ∧ toml.documentToString doc = text ∧ EditInert doc.root edit)

private theorem safeEdit_of_error {file : ConfigFile} {writeFault : Option String}
    {e : ConfigError} (h : (writeEdit toml file writeFault edit).1 = .error e) :
    SafeEdit toml file writeFault edit := by
  by_cases hv : validateEdit edit = .ok ()
  · by_cases hfault : writeFault = none
    · refine .inr (.inr ?_)
      intro text doc hfile hdoc hed
      obtain ⟨doc', happly⟩ := (applyEdit_isOk_iff toml doc edit).mpr hed
      have hok := writeEdit_eq_ok.mpr ⟨hv, hfault, text, doc, doc', hfile, hdoc, happly, rfl⟩
      rw [h] at hok
      cases hok
    · exact .inr (.inl hfault)
  · exact .inl hv

private theorem safeEdit_iff_of_ok {file : ConfigFile} {doc doc' : Doc Layout}
    (hv : validateEdit edit = .ok ()) (hfile : file = .text text ∨ file = .missing ∧ text = "")
    (hdoc : toml.documentFromStr text = .ok doc) (happly : applyEdit toml doc edit = .ok doc') :
    SafeEdit toml file none edit ↔ othersOk doc.values edit = true ∨
      (file = .text text ∧ toml.documentToString doc = text ∧ EditInert doc.root edit) := by
  have hed := (applyEdit_isOk_iff toml doc edit).mp ⟨doc', happly⟩
  constructor
  · intro h
    rcases h with h | h | h
    · exact absurd hv h
    · exact absurd rfl h
    · exact h text doc hfile hdoc hed
  · intro h
    refine .inr (.inr ?_)
    intro text' doc₁ hfile' hdoc₁ _
    have htext : text' = text := by
      rcases hfile with rfl | ⟨rfl, rfl⟩
      · rcases hfile' with h' | ⟨h', -⟩
        · exact (ConfigFile.text.inj h').symm
        · cases h'
      · rcases hfile' with h' | ⟨-, h'⟩
        · cases h'
        · exact h'
    subst htext
    rw [hdoc] at hdoc₁
    cases hdoc₁
    exact h

end Config

namespace Daemon

variable {F Layout : Type} {toml : TomlCrates Layout}

/-- The file, the running config, every account's schedule and the view served to clients are
what they were. -/
structure LeftAlone (d d' : Daemon F) (file file' : ConfigFile) : Prop where
  file_eq : file' = file
  config_eq : d'.state.config = d.state.config
  schedules_eq : ∀ key, (d'.state.schedules.get key).map (·.value) =
    (d.state.schedules.get key).map (·.value)
  effective_eq : d'.state.configState.effective = d.state.configState.effective

private theorem leftAlone_rejectConfig {d : Daemon F} (hd : d.Synced) (error : String)
    (now : DateTime) (file file' : ConfigFile) :
    LeftAlone d (d.rejectConfig error now) file file' ↔ file' = file := by
  constructor
  · intro h
    exact h.file_eq
  · intro hfile
    obtain ⟨hconfig, -, -, -, -, heff⟩ := installConfig_state d none (some error) now
    refine ⟨hfile, hconfig, ?_, ?_⟩
    · intro key
      rw [rejectConfig, installConfig_schedules]
      cases htx : d.state.schedules.get key with
      | none => rfl
      | some tx =>
        have hvalue := hd.schedule htx
        rw [Option.map_some, Option.map_some, if_pos (hd.account htx), hvalue]
        rfl
    · rw [rejectConfig, heff, hd.effective]
      rfl

/-- A `SetConfig` that is answered with an error has left everything alone exactly when the edit
was safe: the parser's verdict comes after the write. -/
theorem setConfig_err_leftAlone_iff [F64 F] {json : SerdeJson F} {d : Daemon F}
    (hd : Reachable json d) {file : ConfigFile} {edit : ConfigEdit}
    (hlaw : ∀ text, file = .text text ∨ file = .missing ∧ text = "" →
      Config.Lawful toml text edit) (writeFault : Option String) (now : DateTime) :
    ((setConfig toml d file writeFault edit now).1.isErr = true →
      LeftAlone d (setConfig toml d file writeFault edit now).2.1 file
        (setConfig toml d file writeFault edit now).2.2) ↔
      Config.SafeEdit toml file writeFault edit := by
  have hsynced := synced_of_reachable hd
  have hfile := Config.writeEdit_file toml file writeFault edit
  unfold setConfig
  cases hw : Config.writeEdit toml file writeFault edit with
  | mk result file' =>
    rw [hw] at hfile
    cases result with
    | error e =>
      -- nothing was written
      simp only at hfile
      subst hfile
      refine iff_of_true (fun _ => ⟨rfl, rfl, fun _ => rfl, rfl⟩) ?_
      exact Config.safeEdit_of_error (by rw [hw])
    | ok out =>
      have hok : (Config.writeEdit toml file writeFault edit).1 = .ok out := by rw [hw]
      obtain ⟨hv, rfl, text, doc, doc', hsrc, hdoc, happly, rfl⟩ := Config.writeEdit_eq_ok.mp hok
      have hl := hlaw text hsrc
      have hparsed := Config.parse_edited_isOk_iff hl hv hdoc happly
      rw [Config.safeEdit_iff_of_ok hv hsrc hdoc happly]
      simp only at hfile ⊢
      cases hparse : Config.parse toml (toml.documentToString doc') with
      | ok loaded =>
        have hothers := hparsed.mp ⟨loaded, hparse⟩
        exact iff_of_true (fun h => by cases h) (.inl hothers)
      | error e =>
        have hothers : ¬ Config.othersOk doc.values edit = true := by
          intro h
          obtain ⟨new, hnew⟩ := hparsed.mpr h
          rw [hparse] at hnew
          cases hnew
        have hprint := Config.documentToString_edited_iff hl hdoc happly
        rw [leftAlone_rejectConfig hsynced, hfile]
        constructor
        · intro h
          have hsame := h rfl
          rcases hsrc with rfl | ⟨rfl, -⟩
          · exact .inr ⟨rfl, hprint.mp (ConfigFile.text.inj hsame)⟩
          · cases hsame
        · intro h _
          rcases h with h | ⟨h, hin⟩
          · exact absurd h hothers
          · rw [h, hprint.mpr hin]

/-- A daemon just started over an empty database. -/
def idle : Daemon ℚ := new .empty "config.toml" ["claude"] 0

private theorem reachable_idle : Reachable (.table [] []) idle := ⟨_, _, _, _, [], rfl⟩

/-- Valid TOML with an interval below the minimum. -/
def lowInterval : String := "poll_interval_secs = 5\n[providers.claude]\nenabled = true\n"

private theorem lowInterval_eq_render : lowInterval = render (Config.headerDoc 5 true) := by
  decide

private theorem lawful_lowInterval_enable :
    Config.Lawful (.plain [Config.headerDoc 5 true]) lowInterval
      (.providerEnabled "claude" true) := by
  rw [lowInterval_eq_render]
  apply @Config.lawful_plain _ _ _ (Config.headerDoc 5 true) (Config.headerDoc 5 true)
  · simp
  · decide
  · intro doc' h
    cases h
    exact ⟨rfl, by simp⟩

private theorem safeEdit_lowInterval_enable :
    Config.SafeEdit (.plain [Config.headerDoc 5 true]) (.text lowInterval) none
      (.providerEnabled "claude" true) := by
  refine .inr (.inr ?_)
  intro text doc hsrc hdoc _
  rcases hsrc with h | ⟨h, -⟩
  · cases h
    have hread : (TomlCrates.plain [Config.headerDoc 5 true]).documentFromStr lowInterval =
        .ok ⟨Config.headerDoc 5 true, ()⟩ := by
      rw [lowInterval_eq_render]
      simp [TomlCrates.plain, TomlCrates.printing]
    rw [hread] at hdoc
    cases hdoc
    exact .inr ⟨rfl, lowInterval_eq_render.symm, _, _, rfl, rfl, rfl⟩
  · cases h

theorem setConfig_inert_leftAlone :
    (setConfig (.plain [Config.headerDoc 5 true]) idle (.text lowInterval) none
        (.providerEnabled "claude" true) 0).1.isErr = true ∧
      LeftAlone idle
        (setConfig (.plain [Config.headerDoc 5 true]) idle (.text lowInterval) none
          (.providerEnabled "claude" true) 0).2.1
        (.text lowInterval)
        (setConfig (.plain [Config.headerDoc 5 true]) idle (.text lowInterval) none
          (.providerEnabled "claude" true) 0).2.2 := by
  have herr : (setConfig (.plain [Config.headerDoc 5 true]) idle (.text lowInterval) none
      (.providerEnabled "claude" true) 0).1.isErr = true := by decide
  refine ⟨herr, (setConfig_err_leftAlone_iff reachable_idle ?_ none 0).mpr
    safeEdit_lowInterval_enable herr⟩
  intro text hsrc
  rcases hsrc with h | ⟨h, -⟩
  · cases h
    exact lawful_lowInterval_enable
  · cases h

theorem setConfig_err_rewrites_file :
    Config.Lawful (.plain [Config.headerDoc 5 true, Config.headerDoc 5 false]) lowInterval
        (.providerEnabled "claude" false) ∧
      (setConfig (.plain [Config.headerDoc 5 true, Config.headerDoc 5 false]) idle
        (.text lowInterval) none (.providerEnabled "claude" false) 0).1 =
          .err .badRequest "`poll_interval_secs` must be at least 10 seconds, got 5" ∧
      (setConfig (.plain [Config.headerDoc 5 true, Config.headerDoc 5 false]) idle
        (.text lowInterval) none (.providerEnabled "claude" false) 0).2.2 =
          .text "poll_interval_secs = 5\n[providers.claude]\nenabled = false\n" ∧
      ¬ LeftAlone idle
        (setConfig (.plain [Config.headerDoc 5 true, Config.headerDoc 5 false]) idle
          (.text lowInterval) none (.providerEnabled "claude" false) 0).2.1
        (.text lowInterval)
        (setConfig (.plain [Config.headerDoc 5 true, Config.headerDoc 5 false]) idle
          (.text lowInterval) none (.providerEnabled "claude" false) 0).2.2 := by
  have hfile : (setConfig (.plain [Config.headerDoc 5 true, Config.headerDoc 5 false]) idle
      (.text lowInterval) none (.providerEnabled "claude" false) 0).2.2 =
      .text "poll_interval_secs = 5\n[providers.claude]\nenabled = false\n" := by
    decide
  refine ⟨?_, by decide, hfile, ?_⟩
  · rw [lowInterval_eq_render]
    exact @Config.lawful_headerDoc 5 (by decide) (by decide)
      (fun doc' h => by cases h; rfl)
  · intro h
    have hne : ConfigFile.text "poll_interval_secs = 5\n[providers.claude]\nenabled = false\n" ≠
        .text lowInterval := by decide
    exact hne (hfile.symm.trans h.file_eq)

end Daemon
end Teiryo
