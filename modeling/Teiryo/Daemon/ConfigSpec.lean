import Teiryo.Daemon.Config

/-!
# What parsing accepts and what it yields

`Config.parseTable` folds over the keys of a table and stops at the first bad value. On a
key-sorted table that fold has a closed form: it succeeds exactly when every known key has its
shape, and each field of the result is read off one key.
-/

namespace Teiryo.Config

open Toml

/-- The seconds of an accepted interval. -/
def intervalValue : Value → Option Nat
  | .integer raw =>
    if 0 ≤ raw ∧ minSecs ≤ raw.toNat ∧ raw.toNat ≤ maxSecs then some raw.toNat else none
  | _ => none

def boolValue : Value → Option Bool
  | .boolean b => some b
  | _ => none

theorem interval_eq_ok {value : Value} {path : String} {secs : Nat} :
    interval value path = .ok secs ↔ intervalValue value = some secs := by
  cases value with
  | integer raw =>
    simp only [interval, intervalValue]
    split
    · rename_i hneg
      simp [hneg]
    · rename_i hnonneg
      split
      · rename_i hlow
        have : ¬ minSecs ≤ raw.toNat := by omega
        simp [this]
      · rename_i hlow
        split
        · rename_i hhigh
          have : ¬ raw.toNat ≤ maxSecs := by omega
          simp [this]
        · rename_i hhigh
          rw [if_pos ⟨by omega, by omega, by omega⟩]
          simp
  | string _ => simp [interval, intervalValue]
  | float _ => simp [interval, intervalValue]
  | boolean _ => simp [interval, intervalValue]
  | datetime _ => simp [interval, intervalValue]
  | array _ => simp [interval, intervalValue]
  | table _ => simp [interval, intervalValue]

/-- Whether one key of a provider's table has its shape. Unknown keys have none to miss. -/
def providerKeyOk (entry : String × Value) : Bool :=
  if entry.1 = "enabled" then (boolValue entry.2).isSome
  else if entry.1 = "poll_interval_secs" then (intervalValue entry.2).isSome
  else true

def providerOk : Value → Bool
  | .table entries => entries.all providerKeyOk
  | _ => false

/-- The settings of a provider's table, over the settings `base`. -/
def providerSettings (base : ProviderConfig) (entries : Entries Value) : ProviderConfig where
  enabled := ((entries.find "enabled").bind boolValue).getD base.enabled
  pollIntervalSecs :=
    ((entries.find "poll_interval_secs").bind intervalValue).or base.pollIntervalSecs

def providerOf : Value → ProviderConfig
  | .table entries => providerSettings {} entries
  | _ => {}

/-- The warnings one key of a provider's table gives. -/
def providerKeyWarnings (id : String) (entry : String × Value) : List String :=
  if entry.1 = "enabled" then []
  else if entry.1 = "poll_interval_secs" then []
  else [unknown ("providers." ++ id ++ "." ++ entry.1)]

def providerWarnings (entry : String × Value) : List String :=
  match entry.2 with
  | .table entries => entries.flatMap (providerKeyWarnings entry.1)
  | _ => []

private theorem providerKey_of_ok {id : String} {acc : ProviderConfig × List String}
    {entry : String × Value} (h : providerKeyOk entry = true) :
    providerKey id acc entry =
      .ok (providerSettings acc.1 [entry], acc.2 ++ providerKeyWarnings id entry) := by
  obtain ⟨key, value⟩ := entry
  by_cases hen : key = "enabled"
  · subst hen
    cases value with
    | boolean b =>
      have hne : "enabled" ≠ "poll_interval_secs" := by decide
      have hfind : Entries.find [("enabled", Value.boolean b)] "enabled" = some (.boolean b) := by
        rw [Entries.find_cons, if_pos rfl]
      have hfind' : Entries.find [("enabled", Value.boolean b)] "poll_interval_secs" = none := by
        rw [Entries.find_cons, if_neg hne, Entries.find_nil]
      rw [providerKey, if_pos rfl, providerSettings, hfind, hfind', providerKeyWarnings,
        if_pos rfl, List.append_nil]
      rfl
    | _ => cases h
  · by_cases hpi : key = "poll_interval_secs"
    · subst hpi
      rw [providerKeyOk, if_neg hen, if_pos rfl] at h
      obtain ⟨secs, hsecs⟩ := Option.isSome_iff_exists.mp h
      have hint : interval value ("providers." ++ id ++ "." ++ "poll_interval_secs") = .ok secs :=
        interval_eq_ok.mpr hsecs
      have hfind : Entries.find [("poll_interval_secs", value)] "enabled" = none := by
        rw [Entries.find_cons, if_neg hen, Entries.find_nil]
      have hfind' : Entries.find [("poll_interval_secs", value)] "poll_interval_secs" =
          some value := by
        rw [Entries.find_cons, if_pos rfl]
      rw [providerKey, if_neg hen, if_pos rfl, hint, providerSettings, hfind, hfind',
        Option.bind_some, hsecs, providerKeyWarnings, if_neg hen, if_pos rfl, List.append_nil]
      rfl
    · simp [providerKey, providerSettings, providerKeyWarnings, hen, hpi]

private theorem providerKeyOk_of_ok {id : String} {acc acc' : ProviderConfig × List String}
    {entry : String × Value} (h : providerKey id acc entry = .ok acc') :
    providerKeyOk entry = true := by
  obtain ⟨key, value⟩ := entry
  by_cases hen : key = "enabled"
  · subst hen
    cases value with
    | boolean b => rfl
    | _ => simp [providerKey] at h
  · by_cases hpi : key = "poll_interval_secs"
    · subst hpi
      simp only [providerKey, if_neg hen, if_true] at h
      obtain ⟨secs, hsecs, -⟩ := bind_eq_ok.mp h
      rw [providerKeyOk, if_neg hen, if_pos rfl, interval_eq_ok.mp hsecs]
      rfl
    · simp [providerKeyOk, hen, hpi]

private theorem providerKey_eq_ok {id : String} {acc acc' : ProviderConfig × List String}
    {entry : String × Value} :
    providerKey id acc entry = .ok acc' ↔
      providerKeyOk entry = true ∧
        acc' = (providerSettings acc.1 [entry], acc.2 ++ providerKeyWarnings id entry) := by
  constructor
  · intro h
    have hok := providerKeyOk_of_ok h
    rw [providerKey_of_ok hok] at h
    exact ⟨hok, (Except.ok.inj h).symm⟩
  · rintro ⟨hok, rfl⟩
    exact providerKey_of_ok hok

private theorem providerSettings_cons {e : String × Value} {es : Entries Value}
    (hs : Entries.Sorted (e :: es)) (base : ProviderConfig) :
    providerSettings (providerSettings base [e]) es = providerSettings base (e :: es) := by
  have hnone : ∀ k, e.1 = k → Entries.find es k = none :=
    fun k => Entries.find_tail_of_sorted hs
  simp only [providerSettings, Entries.find_cons, Entries.find_nil]
  congr 1
  · split
    · rename_i he
      simp [hnone _ he]
    · simp
  · split
    · rename_i he
      simp [hnone _ he]
    · simp

private theorem providerKeys_eq_ok {id : String} {entries : Entries Value}
    (hs : entries.Sorted) {acc acc' : ProviderConfig × List String} :
    entries.foldlM (providerKey id) acc = .ok acc' ↔
      entries.all providerKeyOk = true ∧
        acc' = (providerSettings acc.1 entries,
          acc.2 ++ entries.flatMap (providerKeyWarnings id)) := by
  induction entries generalizing acc with
  | nil => simp [providerSettings, pure, Except.pure, eq_comm]
  | cons e es ih =>
    have htail := (List.pairwise_cons.mp hs).2
    rw [foldlM_cons_eq_ok]
    constructor
    · rintro ⟨mid, hstep, hrest⟩
      obtain ⟨hok, rfl⟩ := providerKey_eq_ok.mp hstep
      obtain ⟨hall, rfl⟩ := (ih htail).mp hrest
      refine ⟨by simp [hok, hall], ?_⟩
      rw [providerSettings_cons hs, List.flatMap_cons, List.append_assoc]
    · rintro ⟨hall, rfl⟩
      simp only [List.all_cons, Bool.and_eq_true] at hall
      refine ⟨_, providerKey_eq_ok.mpr ⟨hall.1, rfl⟩, (ih htail).mpr ⟨hall.2, ?_⟩⟩
      rw [providerSettings_cons hs, List.flatMap_cons, List.append_assoc]

/-- Keys sorted in every table the daemon reads, as `toml` builds them. -/
structure Keyed (table : Entries Value) : Prop where
  root : table.Sorted
  providers : ∀ {entries}, ("providers", Value.table entries) ∈ table → Entries.Sorted entries
  provider : ∀ {entries id entries'}, ("providers", Value.table entries) ∈ table →
    (id, Value.table entries') ∈ entries → Entries.Sorted entries'

/-- Whether the tables among a value's entries have sorted keys, two levels down. -/
def keyedProviders : Value → Bool
  | .table entries => decide (Entries.Sorted entries) && entries.all fun e =>
      match e.2 with
      | .table entries' => decide (Entries.Sorted entries')
      | _ => true
  | _ => true

private theorem keyed_iff (table : Entries Value) :
    Keyed table ↔
      table.Sorted ∧ ∀ e ∈ table, e.1 = "providers" → keyedProviders e.2 = true := by
  constructor
  · intro hk
    refine ⟨hk.root, ?_⟩
    intro e he hkey
    obtain ⟨key, value⟩ := e
    subst hkey
    cases value with
    | table entries =>
      have hsorted := hk.providers he
      simp only [keyedProviders, hsorted, decide_true, Bool.true_and, List.all_eq_true]
      intro e' he'
      split
      · rename_i entries' hentry
        have hmem : (e'.1, Value.table entries') ∈ entries := by rw [← hentry]; exact he'
        exact decide_eq_true (hk.provider he hmem)
      · rfl
    | _ => rfl
  · intro h
    have htable : ∀ {entries}, ("providers", Value.table entries) ∈ table →
        keyedProviders (.table entries) = true := fun hmem => h.2 _ hmem rfl
    refine ⟨h.1, ?_, ?_⟩
    · intro entries hmem
      have hkeyed := htable hmem
      simp only [keyedProviders, Bool.and_eq_true, decide_eq_true_eq] at hkeyed
      exact hkeyed.1
    · intro entries id entries' hmem hmem'
      have hkeyed := htable hmem
      simp only [keyedProviders, Bool.and_eq_true, List.all_eq_true] at hkeyed
      exact of_decide_eq_true (hkeyed.2 _ hmem')

instance (table : Entries Value) : Decidable (Keyed table) :=
  decidable_of_iff' _ (keyed_iff table)

private theorem provider_eq_ok {value : Value} {id : String} {ws : List String}
    {r : ProviderConfig × List String}
    (hs : ∀ {entries}, value = .table entries → Entries.Sorted entries) :
    provider value id ws = .ok r ↔
      providerOk value = true ∧ r = (providerOf value, ws ++ providerWarnings (id, value)) := by
  cases value with
  | table entries =>
    rw [provider, providerKeys_eq_ok (hs rfl)]
    rfl
  | _ => simp [provider, providerOk]

/-- The per-provider settings of a table of providers, over `base`. -/
def insertProviders (base : Finmap fun _ : String => ProviderConfig) (entries : Entries Value) :
    Finmap fun _ : String => ProviderConfig :=
  entries.foldl (fun m e => m.insert e.1 (providerOf e.2)) base

private theorem providerEntry_eq_ok {loaded loaded' : LoadedConfig} {entry : String × Value}
    (hs : ∀ {entries}, entry.2 = .table entries → Entries.Sorted entries) :
    providerEntry loaded entry = .ok loaded' ↔
      providerOk entry.2 = true ∧ loaded' = {
        config := { loaded.config with
          providers := loaded.config.providers.insert entry.1 (providerOf entry.2) }
        warnings := loaded.warnings ++ providerWarnings entry } := by
  unfold providerEntry
  rw [bind_eq_ok]
  constructor
  · rintro ⟨r, hr, hrest⟩
    obtain ⟨hok, rfl⟩ := (provider_eq_ok hs).mp hr
    exact ⟨hok, (Except.ok.inj hrest).symm⟩
  · rintro ⟨hok, rfl⟩
    exact ⟨_, (provider_eq_ok hs).mpr ⟨hok, rfl⟩, rfl⟩

private theorem providerEntries_eq_ok {entries : Entries Value}
    (hs : ∀ {id entries'}, (id, Value.table entries') ∈ entries → Entries.Sorted entries')
    {loaded loaded' : LoadedConfig} :
    entries.foldlM providerEntry loaded = .ok loaded' ↔
      entries.all (fun e => providerOk e.2) = true ∧ loaded' = {
        config := { loaded.config with
          providers := insertProviders loaded.config.providers entries }
        warnings := loaded.warnings ++ entries.flatMap providerWarnings } := by
  induction entries generalizing loaded with
  | nil => simp [insertProviders, pure, Except.pure, eq_comm]
  | cons e es ih =>
    have hhead : ∀ {entries}, e.2 = .table entries → Entries.Sorted entries := by
      intro entries he
      exact @hs e.1 entries (by simp [← he])
    have htail : ∀ {id entries'}, (id, Value.table entries') ∈ es → Entries.Sorted entries' :=
      fun h => hs (List.mem_cons_of_mem _ h)
    rw [foldlM_cons_eq_ok]
    constructor
    · rintro ⟨mid, hstep, hrest⟩
      obtain ⟨hok, rfl⟩ := (providerEntry_eq_ok hhead).mp hstep
      obtain ⟨hall, rfl⟩ := (ih htail).mp hrest
      refine ⟨by simp only [List.all_cons, hok, hall, Bool.and_self], ?_⟩
      simp [insertProviders, List.flatMap_cons, List.append_assoc]
    · rintro ⟨hall, rfl⟩
      simp only [List.all_cons, Bool.and_eq_true] at hall
      refine ⟨_, (providerEntry_eq_ok hhead).mpr ⟨hall.1, rfl⟩, (ih htail).mpr ⟨hall.2, ?_⟩⟩
      simp [insertProviders, List.flatMap_cons, List.append_assoc]

private theorem lookup_insertProviders_of_notMem {entries : Entries Value} {id : String}
    (h : Entries.find entries id = none) (base : Finmap fun _ : String => ProviderConfig) :
    (insertProviders base entries).lookup id = base.lookup id := by
  induction entries generalizing base with
  | nil => rfl
  | cons e es ih =>
    rw [Entries.find_cons] at h
    split at h
    · cases h
    · rename_i hne
      change (insertProviders (base.insert e.1 (providerOf e.2)) es).lookup id = _
      rw [ih h, Finmap.lookup_insert_of_ne _ (Ne.symm hne)]

theorem lookup_insertProviders {entries : Entries Value} (hs : entries.Sorted)
    (base : Finmap fun _ : String => ProviderConfig) (id : String) :
    (insertProviders base entries).lookup id =
      ((entries.find id).map providerOf).or (base.lookup id) := by
  induction entries generalizing base with
  | nil => rfl
  | cons e es ih =>
    have hp := List.pairwise_cons.mp hs
    change (insertProviders (base.insert e.1 (providerOf e.2)) es).lookup id = _
    rw [Entries.find_cons]
    split
    · rename_i he
      subst he
      have hnone : Entries.find es e.1 = none := Entries.find_tail_of_sorted hs rfl
      rw [lookup_insertProviders_of_notMem hnone, Finmap.lookup_insert]
      rfl
    · rename_i hne
      rw [ih hp.2, Finmap.lookup_insert_of_ne _ (Ne.symm hne)]

/-- Whether one top-level key has its shape. -/
def topLevelKeyOk (entry : String × Value) : Bool :=
  if entry.1 = "poll_interval_secs" then (intervalValue entry.2).isSome
  else if entry.1 = "providers" then
    match entry.2 with
    | .table entries => entries.all fun e => providerOk e.2
    | _ => false
  else true

/-- The entries of the `providers` table, none when there is no such table. -/
def providersEntries (table : Entries Value) : Entries Value :=
  match table.find "providers" with
  | some (.table entries) => entries
  | _ => []

def topLevelKeyWarnings (entry : String × Value) : List String :=
  if entry.1 = "poll_interval_secs" then []
  else if entry.1 = "providers" then
    match entry.2 with
    | .table entries => entries.flatMap providerWarnings
    | _ => []
  else [unknown entry.1]

/-- What an accepted table loads as, over `base`. -/
def settings (base : LoadedConfig) (table : Entries Value) : LoadedConfig where
  config := {
    pollIntervalSecs :=
      ((table.find "poll_interval_secs").bind intervalValue).or base.config.pollIntervalSecs
    providers := insertProviders base.config.providers (providersEntries table) }
  warnings := base.warnings ++ table.flatMap topLevelKeyWarnings

private theorem topLevelKey_of_ok {loaded : LoadedConfig} {entry : String × Value}
    (hs : ∀ {entries id entries'}, entry = ("providers", Value.table entries) →
      (id, Value.table entries') ∈ entries → Entries.Sorted entries')
    (h : topLevelKeyOk entry = true) :
    topLevelKey loaded entry = .ok (settings loaded [entry]) := by
  obtain ⟨key, value⟩ := entry
  by_cases hpi : key = "poll_interval_secs"
  · subst hpi
    rw [topLevelKeyOk, if_pos rfl] at h
    obtain ⟨secs, hsecs⟩ := Option.isSome_iff_exists.mp h
    have hint : interval value "poll_interval_secs" = .ok secs := interval_eq_ok.mpr hsecs
    have hfind : Entries.find [("poll_interval_secs", value)] "poll_interval_secs" =
        some value := by
      rw [Entries.find_cons, if_pos rfl]
    have hne : "poll_interval_secs" ≠ "providers" := by decide
    have hproviders : providersEntries [("poll_interval_secs", value)] = [] := by
      rw [providersEntries, Entries.find_cons, if_neg hne, Entries.find_nil]
    rw [topLevelKey, if_pos rfl, hint, settings, hfind, hproviders, Option.bind_some, hsecs,
      List.flatMap_singleton, topLevelKeyWarnings, if_pos rfl, List.append_nil]
    rfl
  · have hglobal : Entries.find [(key, value)] "poll_interval_secs" = none := by
      rw [Entries.find_cons, if_neg hpi, Entries.find_nil]
    by_cases hpr : key = "providers"
    · subst hpr
      rw [topLevelKeyOk, if_neg hpi, if_pos rfl] at h
      cases value with
      | table entries =>
        have hproviders : providersEntries [("providers", .table entries)] = entries := by
          rw [providersEntries, Entries.find_cons, if_pos rfl]
        rw [topLevelKey, if_neg hpi, if_pos rfl]
        change entries.foldlM providerEntry loaded = _
        rw [(providerEntries_eq_ok (fun hmem => hs rfl hmem)).mpr ⟨h, rfl⟩]
        rw [settings, hglobal, hproviders, List.flatMap_singleton, topLevelKeyWarnings,
          if_neg hpi, if_pos rfl]
        rfl
      | _ => cases h
    · have hproviders : providersEntries [(key, value)] = [] := by
        rw [providersEntries, Entries.find_cons, if_neg hpr, Entries.find_nil]
      rw [topLevelKey, if_neg hpi, if_neg hpr, settings, hglobal, hproviders,
        List.flatMap_singleton, topLevelKeyWarnings, if_neg hpi, if_neg hpr]
      rfl

private theorem topLevelKeyOk_of_ok {loaded loaded' : LoadedConfig} {entry : String × Value}
    (hs : ∀ {entries id entries'}, entry = ("providers", Value.table entries) →
      (id, Value.table entries') ∈ entries → Entries.Sorted entries')
    (h : topLevelKey loaded entry = .ok loaded') : topLevelKeyOk entry = true := by
  obtain ⟨key, value⟩ := entry
  by_cases hpi : key = "poll_interval_secs"
  · subst hpi
    rw [topLevelKey, if_pos rfl] at h
    obtain ⟨secs, hsecs, -⟩ := bind_eq_ok.mp h
    rw [topLevelKeyOk, if_pos rfl, interval_eq_ok.mp hsecs]
    rfl
  · by_cases hpr : key = "providers"
    · subst hpr
      rw [topLevelKey, if_neg hpi, if_pos rfl] at h
      rw [topLevelKeyOk, if_neg hpi, if_pos rfl]
      cases value with
      | table entries =>
        exact ((providerEntries_eq_ok (fun hmem => hs rfl hmem)).mp h).1
      | _ => cases h
    · rw [topLevelKeyOk, if_neg hpi, if_neg hpr]

private theorem settings_cons {e : String × Value} {es : Entries Value}
    (hs : Entries.Sorted (e :: es)) (base : LoadedConfig) :
    settings (settings base [e]) es = settings base (e :: es) := by
  have hnone : ∀ k, e.1 = k → Entries.find es k = none :=
    fun k => Entries.find_tail_of_sorted hs
  have hglobal : ((Entries.find es "poll_interval_secs").bind intervalValue).or
      (settings base [e]).config.pollIntervalSecs =
      ((Entries.find (e :: es) "poll_interval_secs").bind intervalValue).or
        base.config.pollIntervalSecs := by
    simp only [settings, Entries.find_cons, Entries.find_nil]
    split
    · rename_i he
      simp [hnone _ he]
    · simp
  have hproviders : insertProviders (settings base [e]).config.providers (providersEntries es) =
      insertProviders base.config.providers (providersEntries (e :: es)) := by
    simp only [settings, providersEntries, Entries.find_cons, Entries.find_nil]
    by_cases he : e.1 = "providers"
    · simp only [if_pos he, hnone _ he]
      rfl
    · simp only [if_neg he]
      rfl
  rw [settings, hglobal, hproviders]
  simp only [settings, List.flatMap_cons, List.flatMap_nil, List.append_nil, List.append_assoc]

private theorem topLevelKeys_eq_ok {table : Entries Value} (hs : table.Sorted)
    (hp : ∀ {entries id entries'}, ("providers", Value.table entries) ∈ table →
      (id, Value.table entries') ∈ entries → Entries.Sorted entries')
    {loaded loaded' : LoadedConfig} :
    table.foldlM topLevelKey loaded = .ok loaded' ↔
      table.all topLevelKeyOk = true ∧ loaded' = settings loaded table := by
  induction table generalizing loaded with
  | nil =>
    simp [settings, providersEntries, insertProviders, pure, Except.pure, eq_comm]
  | cons e es ih =>
    have htail := (List.pairwise_cons.mp hs).2
    have hhead : ∀ {entries id entries'}, e = ("providers", Value.table entries) →
        (id, Value.table entries') ∈ entries → Entries.Sorted entries' :=
      fun he => hp (by rw [he]; exact List.mem_cons_self)
    have hrest : ∀ {entries id entries'}, ("providers", Value.table entries) ∈ es →
        (id, Value.table entries') ∈ entries → Entries.Sorted entries' :=
      fun h => hp (List.mem_cons_of_mem _ h)
    rw [foldlM_cons_eq_ok]
    constructor
    · rintro ⟨mid, hstep, hfold⟩
      have hok := topLevelKeyOk_of_ok hhead hstep
      rw [topLevelKey_of_ok hhead hok] at hstep
      cases hstep
      obtain ⟨hall, rfl⟩ := (ih htail hrest).mp hfold
      exact ⟨by simp only [List.all_cons, hok, hall, Bool.and_self], settings_cons hs loaded⟩
    · rintro ⟨hall, rfl⟩
      simp only [List.all_cons, Bool.and_eq_true] at hall
      refine ⟨_, topLevelKey_of_ok hhead hall.1, (ih htail hrest).mpr ⟨hall.2, ?_⟩⟩
      exact (settings_cons hs loaded).symm

/-- Parsing a table succeeds exactly when every known key has its shape, and then yields the
settings those keys state. -/
theorem parseTable_eq_ok {table : Entries Value} (hk : Keyed table) {loaded : LoadedConfig} :
    parseTable table = .ok loaded ↔
      table.all topLevelKeyOk = true ∧ loaded = settings {} table :=
  topLevelKeys_eq_ok hk.root hk.provider

end Teiryo.Config
