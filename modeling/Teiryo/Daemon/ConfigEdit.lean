import Teiryo.Daemon.ConfigSpec

/-!
# Editing `config.toml`

An edit is made on `toml_edit`'s document and checked on `toml`'s table. Seen as a table, an edit
that goes through replaces one key and leaves the others alone, so the edited file is accepted
exactly when its other settings are, and then loads as the old configuration with that one
setting changed. The exception is the last key of a provider's dotted table: with it the whole
table goes, because an empty table without a header is not displayed.
-/

namespace Teiryo

open Toml

namespace Config

variable {Layout : Type}

/-- The provider whose table an edit leaves empty and without a header. -/
def hiddenProvider (toml : TomlCrates Layout) (doc : Doc Layout) : ConfigEdit → Option ProviderId
  | .providerPollInterval provider none =>
    match doc.root.find "providers" with
    | some (.table providers) =>
      match Entries.find providers provider with
      | some (.table table) =>
        if (Entries.erase table "poll_interval_secs").isEmpty &&
            toml.isImplicit doc.layout ["providers", provider]
        then some provider else none
      | _ => none
    | _ => none
  | _ => none

/-- The document without a provider's table, and without the `providers` table if that table too
is then empty and has no header. -/
def withoutProvider (toml : TomlCrates Layout) (doc : Doc Layout) (provider : ProviderId) :
    Entries Item :=
  match doc.root.find "providers" with
  | some (.table providers) =>
    let rest := Entries.erase providers provider
    if rest.isEmpty && toml.isImplicit doc.layout ["providers"] then doc.root.erase "providers"
    else doc.root.insert "providers" (.table rest)
  | _ => doc.root

/-- What is displayed of `doc'`, the document an edit has made of `doc`: an implicit table with
nothing in it is not. -/
def displayed (toml : TomlCrates Layout) (doc doc' : Doc Layout) (edit : ConfigEdit) :
    Entries Item :=
  match hiddenProvider toml doc edit with
  | some provider => withoutProvider toml doc provider
  | none => doc'.root

/-- What is used of the two TOML crates on one text and one edit: they read the same documents,
tables come with distinct sorted keys, and an edited document reads back as what is displayed of
it, with the settings and formatting it was given. -/
structure Lawful (toml : TomlCrates Layout) (text : String) (edit : ConfigEdit) : Prop where
  sameTable : ∀ {doc}, toml.documentFromStr text = .ok doc →
    toml.tableFromStr text = .ok doc.values
  sameErrors : ∀ {e}, toml.documentFromStr text = .error e →
    ∃ e', toml.tableFromStr text = .error e'
  keyed : ∀ {doc}, toml.documentFromStr text = .ok doc → Keyed doc.values
  readBack : ∀ {doc doc'}, toml.documentFromStr text = .ok doc →
    applyEdit toml doc edit = .ok doc' →
      ∃ doc'', toml.documentFromStr (toml.documentToString doc') = .ok doc'' ∧
        doc''.root = displayed toml doc doc' edit ∧
        toml.tableFromStr (toml.documentToString doc') = .ok doc''.values

/-- The entries of one provider's table, none when there is no such table. -/
def providerEntries (table : Entries Value) (provider : ProviderId) : Entries Value :=
  match (providersEntries table).find provider with
  | some (.table entries) => entries
  | _ => []

def withProvider (table : Entries Value) (provider : ProviderId)
    (change : Entries Value → Entries Value) : Entries Value :=
  table.insert "providers" (.table
    ((providersEntries table).insert provider (.table (change (providerEntries table provider)))))

/-- An edit as a change of the table. -/
def editTable (table : Entries Value) : ConfigEdit → Entries Value
  | .globalPollInterval (some secs) => table.insert "poll_interval_secs" (.integer secs.toNat)
  | .globalPollInterval none => table.erase "poll_interval_secs"
  | .providerPollInterval provider (some secs) =>
      withProvider table provider fun entries =>
        entries.insert "poll_interval_secs" (.integer secs.toNat)
  | .providerPollInterval provider none =>
      withProvider table provider fun entries => entries.erase "poll_interval_secs"
  | .providerEnabled provider enabled =>
      withProvider table provider fun entries => entries.insert "enabled" (.boolean enabled)

/-- What `tableAt` would return, without the message. -/
def editableTable (entries : Entries Item) (key : String) : Option (Entries Item) :=
  match entries.find key with
  | none => some []
  | some (.table table) => some table
  | some (.value _ _) => none

/-- Whether `provider_table` finds, or can create, a table to edit in place: neither `providers`
nor its entry for this provider is an inline table or any other value. -/
def hasEditableTable (root : Entries Item) (provider : ProviderId) : Bool :=
  ((editableTable root "providers").bind fun entries => editableTable entries provider).isSome

def editable (root : Entries Item) : ConfigEdit → Bool
  | .globalPollInterval _ => true
  | .providerPollInterval provider _ => hasEditableTable root provider
  | .providerEnabled provider _ => hasEditableTable root provider

private theorem tableAt_eq_ok {entries table : Entries Item} {key message : String} :
    tableAt entries key message = .ok table ↔ editableTable entries key = some table := by
  unfold tableAt editableTable
  cases entries.find key with
  | none => simp
  | some item => cases item <;> simp

private theorem editableTable_toValue {entries table : Entries Item} {key : String}
    (h : editableTable entries key = some table) :
    (match (Entries.mapValues Item.toValue entries).find key with
      | some (.table table) => table
      | _ => []) = Entries.mapValues Item.toValue table := by
  rw [Entries.find_mapValues]
  unfold editableTable at h
  split at h
  · rename_i hfind
    cases h
    rw [hfind]
    rfl
  · rename_i hfind
    cases h
    rw [hfind, Option.map_some, Item.toValue, toValues_eq_mapValues]
  · cases h

theorem withProviderTable_eq_ok {toml : TomlCrates Layout} {doc doc' : Doc Layout}
    {provider : ProviderId} {change : Entries Item → Entries Item} :
    withProviderTable toml doc provider change = .ok doc' ↔
      ∃ providers table, editableTable doc.root "providers" = some providers ∧
        editableTable providers provider = some table ∧
        doc' = {
          root := doc.root.insert "providers"
            (.table (Entries.insert providers provider (.table (change table))))
          layout := if (doc.root.find "providers").isNone
            then toml.setImplicit doc.layout "providers" else doc.layout } := by
  unfold withProviderTable
  simp only [bind_eq_ok, tableAt_eq_ok, pure, Except.pure, Except.ok.injEq]
  constructor
  · rintro ⟨providers, hproviders, table, htable, rfl⟩
    exact ⟨providers, table, hproviders, htable, rfl⟩
  · rintro ⟨providers, table, hproviders, htable, rfl⟩
    exact ⟨providers, hproviders, table, htable, rfl⟩

private theorem withProviderTable_isOk_iff (toml : TomlCrates Layout) (doc : Doc Layout)
    (provider : ProviderId) (change : Entries Item → Entries Item) :
    (∃ doc', withProviderTable toml doc provider change = .ok doc') ↔
      hasEditableTable doc.root provider = true := by
  simp only [withProviderTable_eq_ok, hasEditableTable, Option.isSome_iff_exists,
    Option.bind_eq_some_iff]
  constructor
  · rintro ⟨-, providers, table, hproviders, htable, -⟩
    exact ⟨table, providers, hproviders, htable⟩
  · rintro ⟨table, providers, hproviders, htable⟩
    exact ⟨_, providers, table, hproviders, htable, rfl⟩

private theorem withProviderTable_values {toml : TomlCrates Layout} {doc doc' : Doc Layout}
    {provider : ProviderId} {change : Entries Item → Entries Item}
    {change' : Entries Value → Entries Value}
    (hchange : ∀ entries, Entries.mapValues Item.toValue (change entries) =
      change' (Entries.mapValues Item.toValue entries))
    (h : withProviderTable toml doc provider change = .ok doc') :
    doc'.values = withProvider doc.values provider change' := by
  obtain ⟨providers, table, hproviders, htable, rfl⟩ := withProviderTable_eq_ok.mp h
  have hvals : providersEntries doc.values = Entries.mapValues Item.toValue providers :=
    editableTable_toValue hproviders
  have hentries : providerEntries doc.values provider = Entries.mapValues Item.toValue table := by
    rw [providerEntries, hvals]
    exact editableTable_toValue htable
  rw [withProvider, hvals, hentries, ← hchange]
  rw [Doc.values, Entries.mapValues_insert, Item.toValue, toValues_eq_mapValues,
    Entries.mapValues_insert, Item.toValue, toValues_eq_mapValues]
  rfl

/-- `applyEdit` succeeds exactly on an editable document. -/
theorem applyEdit_isOk_iff (toml : TomlCrates Layout) (doc : Doc Layout) (edit : ConfigEdit) :
    (∃ doc', applyEdit toml doc edit = .ok doc') ↔ editable doc.root edit = true := by
  cases edit with
  | globalPollInterval secs =>
    cases secs with
    | none => exact iff_of_true ⟨_, rfl⟩ rfl
    | some secs => exact iff_of_true ⟨_, rfl⟩ rfl
  | providerPollInterval provider secs => exact withProviderTable_isOk_iff toml doc provider _
  | providerEnabled provider enabled => exact withProviderTable_isOk_iff toml doc provider _

private theorem applyEdit_values {toml : TomlCrates Layout} {doc doc' : Doc Layout}
    {edit : ConfigEdit}
    (h : applyEdit toml doc edit = .ok doc') : doc'.values = editTable doc.values edit := by
  cases edit with
  | globalPollInterval secs =>
    cases secs with
    | none =>
      cases h
      exact Entries.mapValues_erase _ _ _
    | some secs =>
      cases h
      exact Entries.mapValues_insert _ _ _ _
  | providerPollInterval provider secs =>
    cases secs with
    | none =>
      apply withProviderTable_values ?_ h
      intro entries
      exact Entries.mapValues_erase _ entries _
    | some secs =>
      rw [editTable]
      apply withProviderTable_values ?_ h
      intro entries
      exact Entries.mapValues_insert _ entries _ _
  | providerEnabled provider enabled =>
    rw [editTable]
    apply withProviderTable_values ?_ h
    intro entries
    exact Entries.mapValues_insert _ entries _ _

/-! ## The other settings of the file -/

def providerOthersOk (table : Entries Value) (provider : ProviderId) (key : String) : Bool :=
  (table.erase "providers").all topLevelKeyOk &&
    ((providersEntries table).erase provider).all (fun e => providerOk e.2) &&
    ((providerEntries table provider).erase key).all providerKeyOk

/-- Whether every known setting other than the one an edit names has its shape. -/
def othersOk (table : Entries Value) : ConfigEdit → Bool
  | .globalPollInterval _ => (table.erase "poll_interval_secs").all topLevelKeyOk
  | .providerPollInterval provider _ => providerOthersOk table provider "poll_interval_secs"
  | .providerEnabled provider _ => providerOthersOk table provider "enabled"

theorem Keyed.providersEntries_sorted {table : Entries Value} (hk : Keyed table) :
    (providersEntries table).Sorted := by
  unfold providersEntries
  split
  · rename_i hfind
    exact hk.providers (Entries.mem_of_find hfind)
  · exact List.Pairwise.nil

private theorem Keyed.providerEntries_sorted {table : Entries Value} (hk : Keyed table)
    (provider : ProviderId) : (providerEntries table provider).Sorted := by
  unfold providerEntries
  split
  · rename_i entries hfind
    have hmem := Entries.mem_of_find hfind
    unfold providersEntries at hmem
    split at hmem
    · rename_i hroot
      exact hk.provider (Entries.mem_of_find hroot) hmem
    · cases hmem
  · exact List.Pairwise.nil

private theorem Keyed.mem_providersEntries {table : Entries Value} (hk : Keyed table)
    {id : String} {entries : Entries Value}
    (h : (id, Value.table entries) ∈ providersEntries table) : entries.Sorted := by
  unfold providersEntries at h
  split at h
  · rename_i hroot
    exact hk.provider (Entries.mem_of_find hroot) h
  · cases h

private theorem keyed_erase {table : Entries Value} (hk : Keyed table) (key : String) :
    Keyed (table.erase key) where
  root := Entries.sorted_erase hk.root key
  providers h := hk.providers (List.mem_of_mem_filter h)
  provider h := hk.provider (List.mem_of_mem_filter h)

private theorem keyed_insert_integer {table : Entries Value} (hk : Keyed table) (key : String)
    (i : Int) : Keyed (table.insert key (.integer i)) where
  root := Entries.sorted_insert hk.root key _
  providers h := by
    rcases Entries.mem_insert h with heq | hmem
    · cases heq
    · exact hk.providers hmem
  provider h := by
    rcases Entries.mem_insert h with heq | hmem
    · cases heq
    · exact hk.provider hmem

private theorem keyed_withProvider {table : Entries Value} (hk : Keyed table)
    (provider : ProviderId) {change : Entries Value → Entries Value}
    (hchange : ∀ entries, Entries.Sorted entries → (change entries).Sorted) :
    Keyed (withProvider table provider change) where
  root := Entries.sorted_insert hk.root _ _
  providers h := by
    rcases Entries.mem_insert h with heq | hmem
    · cases heq
      exact Entries.sorted_insert hk.providersEntries_sorted _ _
    · exact hk.providers hmem
  provider h h' := by
    rcases Entries.mem_insert h with heq | hmem
    · cases heq
      rcases Entries.mem_insert h' with heq' | hmem'
      · cases heq'
        exact hchange _ (hk.providerEntries_sorted provider)
      · exact hk.mem_providersEntries hmem'
    · exact hk.provider hmem h'

private theorem keyed_editTable {table : Entries Value} (hk : Keyed table) (edit : ConfigEdit) :
    Keyed (editTable table edit) := by
  cases edit with
  | globalPollInterval secs =>
    cases secs with
    | none => exact keyed_erase hk _
    | some secs => exact keyed_insert_integer hk _ _
  | providerPollInterval provider secs =>
    cases secs with
    | none => exact keyed_withProvider hk provider fun _ h => Entries.sorted_erase h _
    | some secs => exact keyed_withProvider hk provider fun _ h => Entries.sorted_insert h _ _
  | providerEnabled provider enabled =>
    exact keyed_withProvider hk provider fun _ h => Entries.sorted_insert h _ _

private theorem intervalValue_of_validate {secs : UInt32} {path : String}
    (h : (interval (.integer secs.toNat) path).map (fun _ => ()) = .ok ()) :
    intervalValue (.integer secs.toNat) = some secs.toNat := by
  cases hi : interval (.integer secs.toNat) path with
  | error e => rw [hi] at h; cases h
  | ok n =>
    have hn := interval_eq_ok.mp hi
    rw [hn]
    simp only [intervalValue] at hn
    split at hn
    · exact hn.symm.trans (by simp)
    · cases hn

private theorem withProvider_all {table : Entries Value} (hk : Keyed table)
    (provider : ProviderId) (change : Entries Value → Entries Value) :
    (withProvider table provider change).all topLevelKeyOk =
      ((table.erase "providers").all topLevelKeyOk &&
        ((providersEntries table).erase provider).all (fun e => providerOk e.2) &&
        (change (providerEntries table provider)).all providerKeyOk) := by
  have hne : ¬ "providers" = "poll_interval_secs" := by decide
  rw [withProvider, Entries.all_insert hk.root, topLevelKeyOk, if_neg hne, if_pos rfl]
  change (List.all (Entries.insert _ _ _) _ && _) = _
  rw [Entries.all_insert hk.providersEntries_sorted, providerOk]
  generalize (change (providerEntries table provider)).all providerKeyOk = a
  generalize ((providersEntries table).erase provider).all (fun e => providerOk e.2) = b
  generalize (table.erase "providers").all topLevelKeyOk = c
  cases a <;> cases b <;> cases c <;> rfl

private theorem editTable_all {table : Entries Value} (hk : Keyed table) {edit : ConfigEdit}
    (hv : validateEdit edit = .ok ()) :
    (editTable table edit).all topLevelKeyOk = othersOk table edit := by
  have hne : ¬ "poll_interval_secs" = "enabled" := by decide
  cases edit with
  | globalPollInterval secs =>
    cases secs with
    | none => rfl
    | some secs =>
      have hval := intervalValue_of_validate hv
      rw [editTable, othersOk, Entries.all_insert hk.root, topLevelKeyOk, if_pos rfl, hval,
        Option.isSome_some, Bool.true_and]
  | providerPollInterval provider secs =>
    have hsorted := hk.providerEntries_sorted provider
    cases secs with
    | none => rw [editTable, withProvider_all hk, othersOk, providerOthersOk]
    | some secs =>
      have hval := intervalValue_of_validate hv
      rw [editTable, withProvider_all hk, Entries.all_insert hsorted, providerKeyOk, if_neg hne,
        if_pos rfl, hval, Option.isSome_some, Bool.true_and, othersOk, providerOthersOk]
  | providerEnabled provider enabled =>
    have hsorted := hk.providerEntries_sorted provider
    rw [editTable, withProvider_all hk, Entries.all_insert hsorted, providerKeyOk, if_pos rfl,
      boolValue, Option.isSome_some, Bool.true_and, othersOk, providerOthersOk]

end Config

/-- The old configuration with exactly the named setting changed. -/
def LoadedConfig.edited (l : LoadedConfig) : ConfigEdit → LoadedConfig
  | .globalPollInterval secs =>
      { l with config := { l.config with pollIntervalSecs := secs.map (·.toNat) } }
  | .providerPollInterval provider secs =>
      { l with config := { l.config with
          providers := l.config.providers.insert provider
            { (l.config.providers.lookup provider).getD {} with
              pollIntervalSecs := secs.map (·.toNat) } } }
  | .providerEnabled provider enabled =>
      { l with config := { l.config with
          providers := l.config.providers.insert provider
            { (l.config.providers.lookup provider).getD {} with enabled } } }

namespace Config

private theorem providersEntries_insert_ne (table : Entries Value) {key : String} (value : Value)
    (h : "providers" ≠ key) :
    providersEntries (table.insert key value) = providersEntries table := by
  rw [providersEntries, providersEntries, Entries.find_insert_ne _ _ h]

private theorem providersEntries_erase_ne (table : Entries Value) {key : String}
    (h : "providers" ≠ key) : providersEntries (table.erase key) = providersEntries table := by
  rw [providersEntries, providersEntries, Entries.find_erase_ne _ h]

private theorem providersEntries_withProvider (table : Entries Value) (provider : ProviderId)
    (change : Entries Value → Entries Value) :
    providersEntries (withProvider table provider change) =
      (providersEntries table).insert provider
        (.table (change (providerEntries table provider))) := by
  rw [providersEntries, withProvider, Entries.find_insert_self]

private theorem topLevelKeyWarnings_providers (table : Entries Value) :
    ((table.find "providers").map fun v => topLevelKeyWarnings ("providers", v)).getD [] =
      (providersEntries table).flatMap providerWarnings := by
  have hne : ¬ "providers" = "poll_interval_secs" := by decide
  unfold providersEntries
  cases hfind : table.find "providers" with
  | none => rfl
  | some v =>
    rw [Option.map_some, Option.getD_some]
    cases v <;> exact (if_neg hne).trans (if_pos rfl)

private theorem providerWarnings_entries (table : Entries Value) (provider : ProviderId) :
    (((providersEntries table).find provider).map fun v => providerWarnings (provider, v)).getD [] =
      (providerEntries table provider).flatMap (providerKeyWarnings provider) := by
  unfold providerEntries
  cases hfind : (providersEntries table).find provider with
  | none => rfl
  | some v => cases v <;> rfl

private theorem lookup_providers (table : Entries Value) (hk : Keyed table)
    (provider : ProviderId) :
    ((insertProviders ∅ (providersEntries table)).lookup provider).getD {} =
      providerSettings {} (providerEntries table provider) := by
  rw [lookup_insertProviders hk.providersEntries_sorted, Finmap.lookup_empty, Option.or_none]
  unfold providerEntries
  cases hfind : (providersEntries table).find provider with
  | none => rfl
  | some v => cases v <;> rfl

private theorem settings_withProvider {table : Entries Value} (hk : Keyed table)
    (provider : ProviderId) (change : Entries Value → Entries Value)
    (hwarn : (change (providerEntries table provider)).flatMap (providerKeyWarnings provider) =
      (providerEntries table provider).flatMap (providerKeyWarnings provider)) :
    settings {} (withProvider table provider change) = {
      config := {
        pollIntervalSecs := (settings {} table).config.pollIntervalSecs
        providers := (settings {} table).config.providers.insert provider
          (providerSettings {} (change (providerEntries table provider))) }
      warnings := (settings {} table).warnings } := by
  have hne : "poll_interval_secs" ≠ "providers" := by decide
  have hsorted := hk.providersEntries_sorted
  have hglobal : (withProvider table provider change).find "poll_interval_secs" =
      table.find "poll_interval_secs" := Entries.find_insert_ne _ _ hne
  have hproviders : insertProviders ∅ (providersEntries (withProvider table provider change)) =
      (insertProviders ∅ (providersEntries table)).insert provider
        (providerSettings {} (change (providerEntries table provider))) := by
    rw [providersEntries_withProvider]
    apply Finmap.ext_lookup
    intro id
    rw [lookup_insertProviders (Entries.sorted_insert hsorted _ _)]
    by_cases hid : id = provider
    · subst hid
      rw [Entries.find_insert_self, Finmap.lookup_insert]
      rfl
    · rw [Entries.find_insert_ne _ _ hid, Finmap.lookup_insert_of_ne _ hid,
        lookup_insertProviders hsorted]
  have hinner : ((providersEntries table).insert provider
      (.table (change (providerEntries table provider)))).flatMap providerWarnings =
      (providersEntries table).flatMap providerWarnings := by
    apply Entries.flatMap_insert hsorted
    rw [providerWarnings_entries]
    exact hwarn
  have hwarnings : (withProvider table provider change).flatMap topLevelKeyWarnings =
      table.flatMap topLevelKeyWarnings := by
    apply Entries.flatMap_insert hk.root
    rw [topLevelKeyWarnings_providers, topLevelKeyWarnings, if_neg hne.symm, if_pos rfl]
    exact hinner
  rw [settings, hglobal, hproviders, hwarnings]
  rfl

private theorem flatMap_keyWarnings_insert {entries : Entries Value} (hs : entries.Sorted)
    (provider : ProviderId) {key : String} (value : Value)
    (hkey : ∀ v, providerKeyWarnings provider (key, v) = []) :
    (entries.insert key value).flatMap (providerKeyWarnings provider) =
      entries.flatMap (providerKeyWarnings provider) := by
  apply Entries.flatMap_insert hs
  rw [hkey]
  cases entries.find key with
  | none => rfl
  | some v => rw [Option.map_some, Option.getD_some, hkey]

private theorem providerKeyWarnings_enabled (provider : ProviderId) (v : Value) :
    providerKeyWarnings provider ("enabled", v) = [] := by
  rw [providerKeyWarnings, if_pos rfl]

private theorem providerKeyWarnings_interval (provider : ProviderId) (v : Value) :
    providerKeyWarnings provider ("poll_interval_secs", v) = [] := by
  have hne : ¬ "poll_interval_secs" = "enabled" := by decide
  rw [providerKeyWarnings, if_neg hne, if_pos rfl]

private theorem topLevelKeyWarnings_interval (v : Value) :
    topLevelKeyWarnings ("poll_interval_secs", v) = [] := by
  rw [topLevelKeyWarnings, if_pos rfl]

private theorem providerSettings_erase_interval (entries : Entries Value) :
    providerSettings {} (entries.erase "poll_interval_secs") =
      { providerSettings {} entries with pollIntervalSecs := none } := by
  have hne : "enabled" ≠ "poll_interval_secs" := by decide
  rw [providerSettings, Entries.find_erase_self, Entries.find_erase_ne _ hne]
  rfl

private theorem providerSettings_insert_interval (entries : Entries Value) {secs : UInt32}
    (hval : intervalValue (.integer secs.toNat) = some secs.toNat) :
    providerSettings {} (entries.insert "poll_interval_secs" (.integer secs.toNat)) =
      { providerSettings {} entries with pollIntervalSecs := some secs.toNat } := by
  have hne : "enabled" ≠ "poll_interval_secs" := by decide
  rw [providerSettings, Entries.find_insert_self, Entries.find_insert_ne _ _ hne,
    Option.bind_some, hval]
  rfl

private theorem providerSettings_insert_enabled (entries : Entries Value) (enabled : Bool) :
    providerSettings {} (entries.insert "enabled" (.boolean enabled)) =
      { providerSettings {} entries with enabled } := by
  have hne : "poll_interval_secs" ≠ "enabled" := by decide
  rw [providerSettings, Entries.find_insert_self, Entries.find_insert_ne _ _ hne]
  rfl

private theorem settings_erase_interval (table : Entries Value) :
    settings {} (table.erase "poll_interval_secs") =
      (settings {} table).edited (.globalPollInterval none) := by
  have hne : "providers" ≠ "poll_interval_secs" := by decide
  have hwarnings : (table.erase "poll_interval_secs").flatMap topLevelKeyWarnings =
      table.flatMap topLevelKeyWarnings := by
    apply Entries.flatMap_erase
    intro v _
    exact topLevelKeyWarnings_interval v
  rw [settings, Entries.find_erase_self, providersEntries_erase_ne _ hne, hwarnings]
  rfl

private theorem settings_insert_interval {table : Entries Value} (hk : Keyed table)
    {secs : UInt32} (hval : intervalValue (.integer secs.toNat) = some secs.toNat) :
    settings {} (table.insert "poll_interval_secs" (.integer secs.toNat)) =
      (settings {} table).edited (.globalPollInterval (some secs)) := by
  have hne : "providers" ≠ "poll_interval_secs" := by decide
  have hwarnings : (table.insert "poll_interval_secs" (.integer secs.toNat)).flatMap
      topLevelKeyWarnings = table.flatMap topLevelKeyWarnings := by
    apply Entries.flatMap_insert hk.root
    rw [topLevelKeyWarnings_interval]
    cases table.find "poll_interval_secs" with
    | none => rfl
    | some v => rw [Option.map_some, Option.getD_some, topLevelKeyWarnings_interval]
  rw [settings, Entries.find_insert_self, providersEntries_insert_ne _ _ hne, hwarnings,
    Option.bind_some, hval]
  rfl

private theorem settings_editTable {table : Entries Value} (hk : Keyed table) {edit : ConfigEdit}
    (hv : validateEdit edit = .ok ()) :
    settings {} (editTable table edit) = (settings {} table).edited edit := by
  cases edit with
  | globalPollInterval secs =>
    cases secs with
    | none => exact settings_erase_interval table
    | some secs => exact settings_insert_interval hk (intervalValue_of_validate hv)
  | providerPollInterval provider secs =>
    have hsorted := hk.providerEntries_sorted provider
    have hlookup := lookup_providers table hk provider
    cases secs with
    | none =>
      rw [editTable, settings_withProvider hk provider
        (fun entries => entries.erase "poll_interval_secs") (Entries.flatMap_erase _ _
        fun v _ => providerKeyWarnings_interval provider v), providerSettings_erase_interval,
        ← hlookup]
      rfl
    | some secs =>
      have hval := intervalValue_of_validate hv
      rw [editTable, settings_withProvider hk provider _ (flatMap_keyWarnings_insert hsorted
        provider _ (providerKeyWarnings_interval provider)),
        providerSettings_insert_interval _ hval, ← hlookup]
      rfl
  | providerEnabled provider enabled =>
    have hsorted := hk.providerEntries_sorted provider
    have hlookup := lookup_providers table hk provider
    rw [editTable, settings_withProvider hk provider _ (flatMap_keyWarnings_insert hsorted
      provider _ (providerKeyWarnings_enabled provider)), providerSettings_insert_enabled,
      ← hlookup]
    rfl

/-! ## A table that is not displayed -/

/-- A hidden table held the interval the edit clears, and nothing else. -/
theorem hiddenProvider_eq_some {toml : TomlCrates Layout} {doc : Doc Layout} {edit : ConfigEdit}
    {provider : ProviderId} (h : hiddenProvider toml doc edit = some provider) :
    edit = .providerPollInterval provider none ∧
      ∃ providers table, doc.root.find "providers" = some (.table providers) ∧
        Entries.find providers provider = some (.table table) ∧
        Entries.erase table "poll_interval_secs" = [] := by
  unfold hiddenProvider at h
  split at h
  · split at h
    · rename_i hfind
      split at h
      · rename_i hfind'
        split at h
        · rename_i hempty
          cases h
          simp only [Bool.and_eq_true, List.isEmpty_iff] at hempty
          exact ⟨rfl, _, _, hfind, hfind', hempty.1⟩
        · cases h
      · cases h
    · cases h
  · cases h

private theorem toValue_table (entries : Entries Item) :
    Item.toValue (.table entries) = .table (Entries.mapValues Item.toValue entries) := by
  rw [Item.toValue, toValues_eq_mapValues]

section Hidden

variable {toml : TomlCrates Layout} {doc : Doc Layout} {provider : ProviderId}
  {providers : Entries Item}

private theorem providersEntries_values
    (hfind : doc.root.find "providers" = some (.table providers)) :
    providersEntries doc.values = Entries.mapValues Item.toValue providers := by
  rw [providersEntries, Doc.values, Entries.find_mapValues, hfind, Option.map_some, toValue_table]

private theorem withoutProvider_values
    (hfind : doc.root.find "providers" = some (.table providers)) :
    Entries.mapValues Item.toValue (withoutProvider toml doc provider) =
        doc.values.erase "providers" ∧ (providersEntries doc.values).erase provider = [] ∨
      Entries.mapValues Item.toValue (withoutProvider toml doc provider) =
        doc.values.insert "providers"
          (.table ((providersEntries doc.values).erase provider)) := by
  rw [providersEntries_values hfind, ← Entries.mapValues_erase]
  unfold withoutProvider
  rw [hfind]
  simp only
  split
  · rename_i hempty
    simp only [Bool.and_eq_true, List.isEmpty_iff] at hempty
    rw [hempty.1]
    exact .inl ⟨Entries.mapValues_erase _ _ _, rfl⟩
  · rw [Entries.mapValues_insert, toValue_table]
    exact .inr rfl

private theorem keyed_withoutProvider (hk : Keyed doc.values)
    (hfind : doc.root.find "providers" = some (.table providers)) :
    Keyed (Entries.mapValues Item.toValue (withoutProvider toml doc provider)) := by
  rcases @withoutProvider_values _ toml doc provider _ hfind with ⟨heq, -⟩ | heq
  · rw [heq]
    exact keyed_erase hk _
  · rw [heq]
    refine ⟨Entries.sorted_insert hk.root _ _, ?_, ?_⟩
    · intro entries h
      rcases Entries.mem_insert h with heq | hmem
      · cases heq
        exact Entries.sorted_erase hk.providersEntries_sorted _
      · exact hk.providers hmem
    · intro entries id entries' h h'
      rcases Entries.mem_insert h with heq | hmem
      · cases heq
        exact hk.mem_providersEntries (List.mem_of_mem_filter h')
      · exact hk.provider hmem h'

private theorem providersEntries_withoutProvider
    (hfind : doc.root.find "providers" = some (.table providers)) :
    providersEntries (Entries.mapValues Item.toValue (withoutProvider toml doc provider)) =
      (providersEntries doc.values).erase provider := by
  rcases @withoutProvider_values _ toml doc provider _ hfind with ⟨heq, hnil⟩ | heq
  · rw [heq, hnil, providersEntries, Entries.find_erase_self]
  · rw [heq, providersEntries, Entries.find_insert_self]

private theorem withoutProvider_all (hk : Keyed doc.values)
    (hfind : doc.root.find "providers" = some (.table providers)) :
    List.all (Entries.mapValues Item.toValue (withoutProvider toml doc provider))
        topLevelKeyOk =
      ((doc.values.erase "providers").all topLevelKeyOk &&
        ((providersEntries doc.values).erase provider).all (fun e => providerOk e.2)) := by
  have hne : ¬ "providers" = "poll_interval_secs" := by decide
  rcases @withoutProvider_values _ toml doc provider _ hfind with ⟨heq, hnil⟩ | heq
  · rw [heq, hnil, List.all_nil, Bool.and_true]
  · rw [heq, Entries.all_insert hk.root, topLevelKeyOk, if_neg hne, if_pos rfl, Bool.and_comm]

end Hidden

/-! ## Writing an edit -/

variable {toml : TomlCrates Layout} {text : String} {edit : ConfigEdit}

/-- Whether an edit can be made in place on the document a text is read as, and hides no table
of it. -/
def realisable (toml : TomlCrates Layout) (text : String) (edit : ConfigEdit) : Bool :=
  match toml.documentFromStr text with
  | .ok doc => editable doc.root edit && (hiddenProvider toml doc edit).isNone
  | .error _ => false

/-- The text `write_edit` starts from, and the file it leaves, when it gets as far as writing. -/
theorem writeEdit_eq_ok {file : ConfigFile} {writeFault : Option String} {out : String} :
    (writeEdit toml file writeFault edit).1 = .ok out ↔
      validateEdit edit = .ok () ∧ writeFault = none ∧
      ∃ text doc doc', (file = .text text ∨ file = .missing ∧ text = "") ∧
        toml.documentFromStr text = .ok doc ∧ applyEdit toml doc edit = .ok doc' ∧
        out = toml.documentToString doc' := by
  unfold writeEdit
  cases hv : validateEdit edit with
  | error e => simp [bind, Except.bind]
  | ok u =>
    cases file with
    | unreadable e => simp [bind, Except.bind]
    | missing =>
      cases hdoc : toml.documentFromStr "" with
      | error e => simp [bind, Except.bind, hdoc]
      | ok doc =>
        cases happly : applyEdit toml doc edit with
        | error e => simp [bind, Except.bind, hdoc, happly]
        | ok doc' => cases writeFault <;> simp [bind, Except.bind, hdoc, happly, eq_comm]
    | text text =>
      cases hdoc : toml.documentFromStr text with
      | error e => simp [bind, Except.bind, hdoc]
      | ok doc =>
        cases happly : applyEdit toml doc edit with
        | error e => simp [bind, Except.bind, hdoc, happly]
        | ok doc' => cases writeFault <;> simp [bind, Except.bind, hdoc, happly, eq_comm]

/-- The file holds what a successful write returned, and is untouched by a failed one. -/
theorem writeEdit_file (toml : TomlCrates Layout) (file : ConfigFile)
    (writeFault : Option String) (edit : ConfigEdit) :
    (writeEdit toml file writeFault edit).2 =
      match (writeEdit toml file writeFault edit).1 with
      | .ok out => .text out
      | .error _ => file := by
  unfold writeEdit
  simp only
  split <;> rfl

private theorem parse_edited (hlaw : Lawful toml text edit) (hv : validateEdit edit = .ok ())
    {doc doc' : Doc Layout} (hdoc : toml.documentFromStr text = .ok doc)
    (happly : applyEdit toml doc edit = .ok doc') (hshown : hiddenProvider toml doc edit = none)
    {new : LoadedConfig} :
    parse toml (toml.documentToString doc') = .ok new ↔
      othersOk doc.values edit = true ∧ new = (settings {} doc.values).edited edit := by
  have hk := hlaw.keyed hdoc
  obtain ⟨doc'', -, hroot, htable⟩ := hlaw.readBack hdoc happly
  have hvalues : doc''.values = editTable doc.values edit := by
    rw [← applyEdit_values happly, Doc.values, hroot, displayed, hshown, Doc.values]
  rw [parse, htable]
  change parseTable doc''.values = _ ↔ _
  rw [hvalues, parseTable_eq_ok (keyed_editTable hk edit), editTable_all hk hv,
    settings_editTable hk hv]

private theorem parse_hidden (hlaw : Lawful toml text edit) {doc doc' : Doc Layout}
    (hdoc : toml.documentFromStr text = .ok doc) (happly : applyEdit toml doc edit = .ok doc')
    {provider : ProviderId} (hhidden : hiddenProvider toml doc edit = some provider)
    {new : LoadedConfig} :
    parse toml (toml.documentToString doc') = .ok new ↔
      othersOk doc.values edit = true ∧
        new = settings {} (Entries.mapValues Item.toValue (withoutProvider toml doc provider)) := by
  have hk := hlaw.keyed hdoc
  obtain ⟨rfl, providers, table, hfind, hfind', hempty⟩ := hiddenProvider_eq_some hhidden
  obtain ⟨doc'', -, hroot, htable⟩ := hlaw.readBack hdoc happly
  have hvalues : doc''.values =
      Entries.mapValues Item.toValue (withoutProvider toml doc provider) := by
    rw [Doc.values, hroot, displayed, hhidden]
  -- the interval was all the table held, so no key of it is left to be checked
  have hentries : (providerEntries doc.values provider).erase "poll_interval_secs" = [] := by
    rw [providerEntries, providersEntries_values hfind, Entries.find_mapValues, hfind',
      Option.map_some, toValue_table]
    simp only
    rw [← Entries.mapValues_erase, hempty]
    rfl
  rw [parse, htable]
  change parseTable doc''.values = _ ↔ _
  rw [hvalues, parseTable_eq_ok (keyed_withoutProvider hk hfind), withoutProvider_all hk hfind,
    othersOk, providerOthersOk, hentries, List.all_nil, Bool.and_true]

/-- An edited file is accepted exactly when its other settings are. -/
theorem parse_edited_isOk_iff (hlaw : Lawful toml text edit) (hv : validateEdit edit = .ok ())
    {doc doc' : Doc Layout} (hdoc : toml.documentFromStr text = .ok doc)
    (happly : applyEdit toml doc edit = .ok doc') :
    (∃ new, parse toml (toml.documentToString doc') = .ok new) ↔
      othersOk doc.values edit = true := by
  cases hhidden : hiddenProvider toml doc edit with
  | none => simp [parse_edited hlaw hv hdoc happly hhidden]
  | some provider => simp [parse_hidden hlaw hdoc happly hhidden]

private theorem parse_eq_ok (hlaw : Lawful toml text edit) {loaded : LoadedConfig} :
    parse toml text = .ok loaded ↔
      ∃ doc, toml.documentFromStr text = .ok doc ∧
        doc.values.all topLevelKeyOk = true ∧ loaded = settings {} doc.values := by
  cases hdoc : toml.documentFromStr text with
  | error e =>
    obtain ⟨e', he'⟩ := hlaw.sameErrors hdoc
    rw [parse, he']
    simp
  | ok doc =>
    rw [parse, hlaw.sameTable hdoc]
    change parseTable doc.values = _ ↔ _
    rw [parseTable_eq_ok (hlaw.keyed hdoc)]
    simp

private theorem all_erase {es : Entries Value} {p : String × Value → Bool} (h : es.all p = true)
    (key : String) : (es.erase key).all p = true := by
  rw [List.all_eq_true] at h ⊢
  intro e he
  exact h e (List.mem_of_mem_filter he)

private theorem all_providersEntries {table : Entries Value}
    (h : table.all topLevelKeyOk = true) :
    (providersEntries table).all (fun e => providerOk e.2) = true := by
  have hne : ¬ "providers" = "poll_interval_secs" := by decide
  unfold providersEntries
  split
  · rename_i entries hfind
    have hok := List.all_eq_true.mp h _ (Entries.mem_of_find hfind)
    rw [topLevelKeyOk, if_neg hne, if_pos rfl] at hok
    exact hok
  · rfl

private theorem all_providerEntries {table : Entries Value} (provider : ProviderId)
    (h : table.all topLevelKeyOk = true) :
    (providerEntries table provider).all providerKeyOk = true := by
  unfold providerEntries
  split
  · rename_i entries hfind
    exact List.all_eq_true.mp (all_providersEntries h) _ (Entries.mem_of_find hfind)
  · rfl

private theorem othersOk_of_all {table : Entries Value} (h : table.all topLevelKeyOk = true)
    (edit : ConfigEdit) : othersOk table edit = true := by
  have hprovider : ∀ provider key, providerOthersOk table provider key = true := by
    intro provider key
    have hroot := all_erase h "providers"
    have hproviders := all_erase (all_providersEntries h) provider
    have hentry := all_erase (all_providerEntries provider h) key
    rw [providerOthersOk, hroot, hproviders, hentry]
    rfl
  cases edit with
  | globalPollInterval secs => exact all_erase h _
  | providerPollInterval provider secs => exact hprovider provider _
  | providerEnabled provider enabled => exact hprovider provider _

end Config

/-- The provider an edit is about. -/
def ConfigEdit.provider? : ConfigEdit → Option ProviderId
  | .globalPollInterval _ => none
  | .providerPollInterval provider _ => some provider
  | .providerEnabled provider _ => some provider

namespace Config

variable {Layout : Type} {toml : TomlCrates Layout} {text : String} {edit : ConfigEdit}

private theorem edited_other (loaded : LoadedConfig) {provider other : ProviderId}
    (hp : edit.provider? = some provider) (hne : other ≠ provider) :
    (loaded.edited edit).config.providerEnabled other = loaded.config.providerEnabled other ∧
      (loaded.edited edit).config.pollInterval other = loaded.config.pollInterval other := by
  cases edit with
  | globalPollInterval secs => cases hp
  | providerPollInterval id secs =>
    cases hp
    simp [LoadedConfig.edited, providerEnabled, pollInterval, Finmap.lookup_insert_of_ne _ hne]
  | providerEnabled id enabled =>
    cases hp
    simp [LoadedConfig.edited, providerEnabled, pollInterval, Finmap.lookup_insert_of_ne _ hne]

/-- The edit is written to the file, and the file then loads as the old configuration with
exactly the named setting changed. -/
def Realised (toml : TomlCrates Layout) (text : String) (edit : ConfigEdit)
    (loaded : LoadedConfig) : Prop :=
  ∃ out new, writeEdit toml (.text text) none edit = (.ok out, .text out) ∧
    parse toml out = .ok new ∧ new = loaded.edited edit ∧ new.warnings = loaded.warnings ∧
    ∀ provider other, edit.provider? = some provider → other ≠ provider →
      new.config.providerEnabled other = loaded.config.providerEnabled other ∧
        new.config.pollInterval other = loaded.config.pollInterval other

private theorem lookup_withoutProvider {doc : Doc Layout} {provider : ProviderId}
    {providers : Entries Item} (hk : Keyed doc.values)
    (hfind : doc.root.find "providers" = some (.table providers)) :
    (settings {} (Entries.mapValues Item.toValue
      (withoutProvider toml doc provider))).config.providers.lookup provider = none := by
  rw [settings, providersEntries_withoutProvider hfind,
    lookup_insertProviders (Entries.sorted_erase hk.providersEntries_sorted _),
    Entries.find_erase_self, Finmap.lookup_empty]
  rfl

private theorem realisable_of_realised (hlaw : Lawful toml text edit) {loaded : LoadedConfig}
    (h : Realised toml text edit loaded) : realisable toml text edit = true := by
  obtain ⟨out, new, hwrite, hparse, rfl, -, -⟩ := h
  have hok : (writeEdit toml (.text text) none edit).1 = .ok out := by rw [hwrite]
  obtain ⟨-, -, text', doc, doc', hfile, hdoc, happly, rfl⟩ := writeEdit_eq_ok.mp hok
  rcases hfile with hfile | ⟨hfile, -⟩
  · cases hfile
    have hed := (applyEdit_isOk_iff toml doc edit).mp ⟨doc', happly⟩
    rw [realisable, hdoc]
    simp only
    rw [hed, Bool.true_and, Option.isNone_iff_eq_none]
    cases hhidden : hiddenProvider toml doc edit with
    | none => rfl
    | some provider =>
      -- the edited configuration has an entry for the provider, the file has none
      have hnew := ((parse_hidden hlaw hdoc happly hhidden).mp hparse).2
      obtain ⟨rfl, providers, table, hfind, -, -⟩ := hiddenProvider_eq_some hhidden
      have hnone := @lookup_withoutProvider _ toml doc provider _ (hlaw.keyed hdoc) hfind
      rw [← hnew, LoadedConfig.edited, Finmap.lookup_insert] at hnone
      cases hnone
  · cases hfile

/-- On an accepted file an accepted edit is realised exactly when the tables it goes through are
standard tables, since an inline table cannot be edited in place, and the edit does not clear
the last key of a table without a header, since the table would go with it. -/
theorem writeEdit_realised_iff (hlaw : Lawful toml text edit) {loaded : LoadedConfig}
    (hparse : parse toml text = .ok loaded) (hv : validateEdit edit = .ok ()) :
    Realised toml text edit loaded ↔ realisable toml text edit = true := by
  obtain ⟨doc, hdoc, hall, rfl⟩ := (parse_eq_ok hlaw).mp hparse
  constructor
  · exact realisable_of_realised hlaw
  · intro hre
    rw [realisable, hdoc] at hre
    simp only [Bool.and_eq_true, Option.isNone_iff_eq_none] at hre
    obtain ⟨hed, hshown⟩ := hre
    obtain ⟨doc', happly⟩ := (applyEdit_isOk_iff toml doc edit).mpr hed
    have hok : (writeEdit toml (.text text) none edit).1 = .ok (toml.documentToString doc') :=
      writeEdit_eq_ok.mpr ⟨hv, rfl, text, doc, doc', .inl rfl, hdoc, happly, rfl⟩
    have hfile := writeEdit_file toml (.text text) none edit
    rw [hok] at hfile
    have hnew := (parse_edited hlaw hv hdoc happly hshown).mpr ⟨othersOk_of_all hall edit, rfl⟩
    refine ⟨_, _, Prod.ext hok hfile, hnew, rfl, ?_, ?_⟩
    · cases edit <;> rfl
    · intro provider other hp hne
      exact edited_other _ hp hne

private theorem lawful_printing {print : Entries Item → String} {implicit : Bool}
    {docs : List (Entries Item)} {root root' : Entries Item}
    (hread : docs.find? (fun r => print r = text) = some root)
    (hk : Keyed (Entries.mapValues Item.toValue root))
    (hback : ∀ doc', applyEdit (.printing print implicit docs) ⟨root, ()⟩ edit = .ok doc' →
      docs.find? (fun r => print r = print doc'.root) = some root' ∧
        displayed (.printing print implicit docs) ⟨root, ()⟩ doc' edit = root') :
    Lawful (.printing print implicit docs) text edit := by
  have hdoc : (TomlCrates.printing print implicit docs).documentFromStr text =
      .ok ⟨root, ()⟩ := by
    simp [TomlCrates.printing, hread]
  refine ⟨?_, ?_, ?_, ?_⟩
  · intro doc h
    simp only [TomlCrates.printing] at h ⊢
    rw [h]
    rfl
  · intro e h
    rw [hdoc] at h
    cases h
  · intro doc h
    rw [hdoc] at h
    cases h
    exact hk
  · intro doc doc' h happly
    rw [hdoc] at h
    cases h
    obtain ⟨hfind, hroot⟩ := hback doc' happly
    refine ⟨⟨root', ()⟩, ?_, hroot.symm, ?_⟩
    · simp [TomlCrates.printing, hfind]
    · simp [TomlCrates.printing, hfind, Except.map]

private theorem hiddenProvider_plain (docs : List (Entries Item)) (doc : Doc Unit) :
    hiddenProvider (.plain docs) doc edit = none := by
  cases h : hiddenProvider (.plain docs) doc edit with
  | none => rfl
  | some provider =>
    unfold hiddenProvider at h
    simp only [TomlCrates.plain, TomlCrates.printing, Bool.and_false] at h
    split at h
    · split at h
      · split at h <;> cases h
      · cases h
    · cases h

theorem lawful_plain {docs : List (Entries Item)} {root root' : Entries Item}
    (hread : docs.find? (fun r => render r = text) = some root)
    (hk : Keyed (Entries.mapValues Item.toValue root))
    (hback : ∀ doc', applyEdit (.plain docs) ⟨root, ()⟩ edit = .ok doc' → doc'.root = root' ∧
      docs.find? (fun r => render r = render root') = some root') :
    Lawful (.plain docs) text edit := by
  apply @lawful_printing _ _ _ _ _ root root' hread hk
  intro doc' happly
  obtain ⟨rfl, hfind⟩ := hback doc' happly
  have hshown := @hiddenProvider_plain edit docs ⟨root, ()⟩
  refine ⟨hfind, ?_⟩
  change displayed (.plain docs) _ _ _ = _
  rw [displayed, hshown]

/-- A `[providers.claude]` table under a global interval. -/
def headerDoc (secs : Int) (enabled : Bool) : Entries Item :=
  [("poll_interval_secs", newValue (.integer secs)),
    ("providers", .table [("claude", .table [("enabled", newValue (.boolean enabled))])])]

/-- A provider written as an inline table. -/
def inlineDoc : Entries Item :=
  [("providers", .value (.table [("claude", .table [("enabled", .boolean true)])])
    (some "\x7b claude = \x7b enabled = true \x7d \x7d"))]

/-- A provider written in dotted keys, with nothing but an interval. -/
def dottedDoc : Entries Item :=
  [("providers", .table [("openai", .table [("poll_interval_secs", newValue (.integer 30))])])]

/-- Lawfulness on the header document, for any interval it can be read back with. -/
theorem lawful_headerDoc {secs : Int}
    (hk : Keyed (Entries.mapValues Item.toValue (headerDoc secs true)))
    (hne : render (headerDoc secs true) ≠ render (headerDoc secs false))
    (happly : ∀ doc', applyEdit (.plain [headerDoc secs true, headerDoc secs false])
      ⟨headerDoc secs true, ()⟩ (.providerEnabled "claude" false) = .ok doc' →
        doc'.root = headerDoc secs false) :
    Lawful (.plain [headerDoc secs true, headerDoc secs false]) (render (headerDoc secs true))
      (.providerEnabled "claude" false) := by
  apply @lawful_plain _ _ _ (headerDoc secs true) (headerDoc secs false)
  · simp
  · exact hk
  · intro doc' h
    refine ⟨happly doc' h, ?_⟩
    simp [hne]

theorem writeEdit_realised_headerDoc :
    Realised (.plain [headerDoc 60 true, headerDoc 60 false])
      "poll_interval_secs = 60\n[providers.claude]\nenabled = true\n"
      (.providerEnabled "claude" false)
      { config := { pollIntervalSecs := some 60, providers := .singleton "claude" {} } } := by
  have htext : "poll_interval_secs = 60\n[providers.claude]\nenabled = true\n" =
      render (headerDoc 60 true) := by decide
  rw [htext]
  have hlaw := @lawful_headerDoc 60 (by decide) (by decide)
    (fun doc' h => by cases h; rfl)
  refine (writeEdit_realised_iff hlaw ?_ ?_).mpr ?_
  · decide
  · decide
  · decide

theorem writeEdit_inlineDoc_not_realised :
    Lawful (.plain [inlineDoc]) "providers = \x7b claude = \x7b enabled = true \x7d \x7d\n"
        (.providerEnabled "claude" false) ∧
      parse (.plain [inlineDoc]) "providers = \x7b claude = \x7b enabled = true \x7d \x7d\n" =
        .ok { config := { providers := .singleton "claude" {} } } ∧
      validateEdit (.providerEnabled "claude" false) = .ok () ∧
      ¬ Realised (.plain [inlineDoc])
        "providers = \x7b claude = \x7b enabled = true \x7d \x7d\n"
        (.providerEnabled "claude" false)
        { config := { providers := .singleton "claude" {} } } := by
  have htext : "providers = \x7b claude = \x7b enabled = true \x7d \x7d\n" =
      render inlineDoc := by decide
  rw [htext]
  have hlaw : Lawful (.plain [inlineDoc]) (render inlineDoc) (.providerEnabled "claude" false) := by
    apply @lawful_plain _ _ _ inlineDoc inlineDoc
    · simp
    · decide
    · intro doc' h
      cases h
  have hparse : parse (.plain [inlineDoc]) (render inlineDoc) =
      .ok { config := { providers := .singleton "claude" {} } } := by decide
  have hno : realisable (.plain [inlineDoc]) (render inlineDoc)
      (.providerEnabled "claude" false) = false := by decide
  refine ⟨hlaw, hparse, rfl, ?_⟩
  intro h
  rw [realisable_of_realised hlaw h] at hno
  cases hno

/-- Clearing the one key of a dotted table takes the provider out of the file. -/
theorem writeEdit_dottedDoc_not_realised :
    Lawful (.dotted [dottedDoc, []]) "providers.openai.poll_interval_secs = 30\n"
        (.providerPollInterval "openai" none) ∧
      parse (.dotted [dottedDoc, []]) "providers.openai.poll_interval_secs = 30\n" =
        .ok { config := { providers := .singleton "openai" { pollIntervalSecs := some 30 } } } ∧
      validateEdit (.providerPollInterval "openai" none) = .ok () ∧
      writeEdit (.dotted [dottedDoc, []])
          (.text "providers.openai.poll_interval_secs = 30\n") none
          (.providerPollInterval "openai" none) = (.ok "", .text "") ∧
      ¬ Realised (.dotted [dottedDoc, []]) "providers.openai.poll_interval_secs = 30\n"
        (.providerPollInterval "openai" none)
        { config := { providers := .singleton "openai" { pollIntervalSecs := some 30 } } } := by
  have htext : "providers.openai.poll_interval_secs = 30\n" = renderDotted dottedDoc := by decide
  rw [htext]
  have hlaw : Lawful (.dotted [dottedDoc, []]) (renderDotted dottedDoc)
      (.providerPollInterval "openai" none) := by
    apply @lawful_printing _ _ _ _ _ dottedDoc []
    · simp
    · decide
    · intro doc' h
      cases h
      exact ⟨by rfl, by rfl⟩
  have hno : realisable (.dotted [dottedDoc, []]) (renderDotted dottedDoc)
      (.providerPollInterval "openai" none) = false := by decide
  refine ⟨hlaw, by decide, rfl, by decide, ?_⟩
  intro h
  rw [realisable_of_realised hlaw h] at hno
  cases hno

end Config
end Teiryo
