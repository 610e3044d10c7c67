import Teiryo.Daemon.ConfigEdit

/-!
# What a config says

A config file is read for its known keys. These have to have their shapes; every other key is
worth a warning and nothing else. What the keys say is what clients see.
-/

namespace Teiryo.Config

open Toml

/-! ## Shapes -/

/-- An integer number of seconds in the accepted range. -/
def IsInterval (value : Value) : Prop := ∃ n : Int, value = .integer n ∧ 10 ≤ n ∧ n ≤ 2 ^ 32 - 1

/-- Every known key of a provider's table has its shape. -/
structure ProviderShaped (entries : Entries Value) : Prop where
  enabled : ∀ value, ("enabled", value) ∈ entries → ∃ b, value = .boolean b
  interval : ∀ value, ("poll_interval_secs", value) ∈ entries → IsInterval value

/-- Every known key of a document has its shape. -/
structure Shaped (table : Entries Value) : Prop where
  interval : ∀ value, ("poll_interval_secs", value) ∈ table → IsInterval value
  providers : ∀ value, ("providers", value) ∈ table → ∃ entries, value = .table entries ∧
    ∀ id entry, (id, entry) ∈ entries → ∃ entries', entry = .table entries' ∧
      ProviderShaped entries'

private theorem intervalValue_eq_some {value : Value} {n : Nat} :
    intervalValue value = some n ↔ value = .integer n ∧ 10 ≤ n ∧ n ≤ 2 ^ 32 - 1 := by
  have hmin : minSecs = 10 := rfl
  have hmax : maxSecs = 2 ^ 32 - 1 := rfl
  cases value with
  | integer raw =>
    simp only [intervalValue, Value.integer.injEq, hmin, hmax]
    constructor
    · intro h
      split at h
      · cases h
        omega
      · cases h
    · rintro ⟨rfl, hlow, hhigh⟩
      rw [if_pos (by omega), Int.toNat_natCast]
  | _ => simp [intervalValue]

private theorem isInterval_iff (value : Value) :
    (intervalValue value).isSome = true ↔ IsInterval value := by
  rw [Option.isSome_iff_exists]
  constructor
  · rintro ⟨n, hn⟩
    obtain ⟨rfl, hlow, hhigh⟩ := intervalValue_eq_some.mp hn
    exact ⟨n, rfl, by omega, by omega⟩
  · rintro ⟨n, rfl, hlow, hhigh⟩
    obtain ⟨m, rfl⟩ := Int.eq_ofNat_of_zero_le (by omega : 0 ≤ n)
    exact ⟨m, intervalValue_eq_some.mpr ⟨rfl, by omega, by omega⟩⟩

private theorem isBoolean_iff (value : Value) :
    (boolValue value).isSome = true ↔ ∃ b, value = .boolean b := by
  cases value <;> simp [boolValue]

private theorem providerShaped_iff (entries : Entries Value) :
    entries.all providerKeyOk = true ↔ ProviderShaped entries := by
  rw [List.all_eq_true]
  constructor
  · intro h
    refine ⟨fun value hmem => ?_, fun value hmem => ?_⟩
    · have hok := h _ hmem
      rw [providerKeyOk, if_pos rfl] at hok
      exact (isBoolean_iff value).mp hok
    · have hok := h _ hmem
      rw [providerKeyOk, if_neg (by simp), if_pos rfl] at hok
      exact (isInterval_iff value).mp hok
  · rintro h ⟨key, value⟩ hmem
    unfold providerKeyOk
    split
    · rename_i hkey
      exact (isBoolean_iff value).mpr (h.enabled value (hkey ▸ hmem))
    · split
      · rename_i hkey
        exact (isInterval_iff value).mpr (h.interval value (hkey ▸ hmem))
      · rfl

private theorem providerOk_iff (value : Value) :
    providerOk value = true ↔ ∃ entries, value = .table entries ∧ ProviderShaped entries := by
  cases value with
  | table entries =>
    rw [providerOk, providerShaped_iff]
    simp
  | _ => simp [providerOk]

private theorem shaped_iff (table : Entries Value) :
    table.all topLevelKeyOk = true ↔ Shaped table := by
  rw [List.all_eq_true]
  constructor
  · intro h
    refine ⟨fun value hmem => ?_, fun value hmem => ?_⟩
    · have hok := h _ hmem
      rw [topLevelKeyOk, if_pos rfl] at hok
      exact (isInterval_iff value).mp hok
    · have hok := h _ hmem
      rw [topLevelKeyOk, if_neg (by simp), if_pos rfl] at hok
      cases value with
      | table entries =>
        exact ⟨entries, rfl, fun id entry hentry =>
          (providerOk_iff entry).mp (List.all_eq_true.mp hok _ hentry)⟩
      | _ => cases hok
  · rintro h ⟨key, value⟩ hmem
    unfold topLevelKeyOk
    split
    · rename_i hkey
      exact (isInterval_iff value).mpr (h.interval value (hkey ▸ hmem))
    · split
      · rename_i hkey
        obtain ⟨entries, rfl, hentries⟩ := h.providers value (hkey ▸ hmem)
        exact List.all_eq_true.mpr fun e he => (providerOk_iff e.2).mpr (hentries e.1 e.2 he)
      · rfl

/-! ## Unknown keys -/

/-- A key of a document that means nothing to the daemon, by its place. -/
inductive UnknownKey where
  | root (key : String)
  | provider (id key : String)
  deriving DecidableEq, Repr

namespace UnknownKey

def path : UnknownKey → String
  | root key => key
  | provider id key => "providers." ++ id ++ "." ++ key

/-- The key of the document it is under. -/
def top : UnknownKey → String
  | root key => key
  | provider _ _ => "providers"

/-- The provider it is under. -/
def owner : UnknownKey → String
  | root _ => ""
  | provider id _ => id

end UnknownKey

def knownProviderKey (key : String) : Bool := key = "enabled" || key = "poll_interval_secs"

def knownRootKey (key : String) : Bool := key = "poll_interval_secs" || key = "providers"

/-- A document has an unknown key at a place. -/
def HasUnknown (table : Entries Value) : UnknownKey → Prop
  | .root key => knownRootKey key = false ∧ ∃ value, (key, value) ∈ table
  | .provider id key => knownProviderKey key = false ∧ ∃ entries entries' value,
      ("providers", .table entries) ∈ table ∧ (id, .table entries') ∈ entries ∧
        (key, value) ∈ entries'

/-- The unknown keys of one provider. -/
def providerUnknown (entry : String × Value) : List UnknownKey :=
  match entry.2 with
  | .table entries =>
    (entries.filter fun e => !knownProviderKey e.1).map fun e => .provider entry.1 e.1
  | _ => []

/-- The unknown keys in and under one top-level key. -/
def rootUnknown (entry : String × Value) : List UnknownKey :=
  if entry.1 = "poll_interval_secs" then []
  else if entry.1 = "providers" then
    match entry.2 with
    | .table entries => entries.flatMap providerUnknown
    | _ => []
  else [.root entry.1]

/-- A provider's entry without its unknown keys. -/
def knownOfProvider : Value → Value
  | .table entries => .table (entries.filter fun e => knownProviderKey e.1)
  | value => value

def knownOfProviders : Value → Value
  | .table entries => .table (Entries.mapValues knownOfProvider entries)
  | value => value

/-- The document without its unknown keys. -/
def withoutUnknown (table : Entries Value) : Entries Value :=
  Entries.modify (table.filter fun e => knownRootKey e.1) "providers" knownOfProviders

/-! Every warning is about one of them. -/

private theorem providerWarnings_eq (entry : String × Value) :
    providerWarnings entry = (providerUnknown entry).map fun key => unknown key.path := by
  obtain ⟨id, value⟩ := entry
  cases value with
  | table entries =>
    simp only [providerWarnings, providerUnknown, List.map_map]
    induction entries with
    | nil => rfl
    | cons e es ih =>
      rw [List.flatMap_cons, ih, List.filter_cons, providerKeyWarnings]
      by_cases henabled : e.1 = "enabled"
      · simp [knownProviderKey, henabled]
      · by_cases hinterval : e.1 = "poll_interval_secs"
        · simp [knownProviderKey, hinterval]
        · simp [knownProviderKey, henabled, hinterval, UnknownKey.path]
  | _ => rfl

private theorem topLevelKeyWarnings_eq (entry : String × Value) :
    topLevelKeyWarnings entry = (rootUnknown entry).map fun key => unknown key.path := by
  obtain ⟨key, value⟩ := entry
  simp only [topLevelKeyWarnings, rootUnknown]
  split
  · rfl
  · split
    · cases value with
      | table entries =>
        show entries.flatMap providerWarnings = _
        rw [List.map_flatMap]
        congr 1
        funext e
        exact providerWarnings_eq e
      | _ => rfl
    · rfl

private theorem warnings_eq (table : Entries Value) :
    table.flatMap topLevelKeyWarnings =
      (table.flatMap rootUnknown).map fun key => unknown key.path := by
  rw [List.map_flatMap]
  congr 1
  funext e
  exact topLevelKeyWarnings_eq e

private theorem nodup_flatMap_of_key {α β : Type} {l : List α} {f : α → List β} {key : β → String}
    {place : α → String} (hkey : ∀ a, ∀ b ∈ f a, key b = place a)
    (hplaces : l.Pairwise fun a b => place a ≠ place b) (hparts : ∀ a ∈ l, (f a).Nodup) :
    (l.flatMap f).Nodup := by
  rw [List.nodup_flatMap]
  refine ⟨hparts, hplaces.imp ?_⟩
  intro a b hab x hxa hxb
  exact hab ((hkey a x hxa).symm.trans (hkey b x hxb))

private theorem owner_providerUnknown (entry : String × Value) :
    ∀ key ∈ providerUnknown entry, key.owner = entry.1 ∧ key.top = "providers" := by
  obtain ⟨id, value⟩ := entry
  cases value with
  | table entries =>
    intro key hkey
    obtain ⟨e, -, rfl⟩ := List.mem_map.mp hkey
    exact ⟨rfl, rfl⟩
  | _ => simp [providerUnknown]

private theorem top_rootUnknown (entry : String × Value) :
    ∀ key ∈ rootUnknown entry, key.top = entry.1 := by
  obtain ⟨key, value⟩ := entry
  unfold rootUnknown
  split
  · simp
  · split
    · rename_i hkey
      cases value with
      | table entries =>
        intro k hk
        obtain ⟨e, -, hmem⟩ := List.mem_flatMap.mp hk
        exact (owner_providerUnknown e k hmem).2.trans hkey.symm
      | _ => simp
    · simp [UnknownKey.top]

private theorem nodup_providerUnknown {entry : String × Value}
    (hs : ∀ {entries}, entry.2 = .table entries → Entries.Sorted entries) :
    (providerUnknown entry).Nodup := by
  obtain ⟨id, value⟩ := entry
  cases value with
  | table entries =>
    refine List.pairwise_map.mpr (((hs rfl).filter _).imp ?_)
    intro a b hab heq
    exact hab.ne (UnknownKey.provider.inj heq).2
  | _ => exact List.nodup_nil

private theorem nodup_unknown {table : Entries Value} (hk : Keyed table) :
    (table.flatMap rootUnknown).Nodup := by
  apply nodup_flatMap_of_key top_rootUnknown (hk.root.imp fun hab => hab.ne)
  rintro ⟨key, value⟩ hmem
  unfold rootUnknown
  split
  · exact List.nodup_nil
  · split
    · rename_i hkey
      cases value with
      | table entries =>
        have hproviders : ("providers", Value.table entries) ∈ table := hkey ▸ hmem
        apply nodup_flatMap_of_key (fun e k hk => (owner_providerUnknown e k hk).1)
          ((hk.providers hproviders).imp fun hab => hab.ne)
        rintro ⟨id, value⟩ he
        apply nodup_providerUnknown
        rintro entries' rfl
        exact hk.provider hproviders he
      | _ => exact List.nodup_nil
    · exact List.nodup_singleton _

private theorem mem_unknown_iff (table : Entries Value) (key : UnknownKey) :
    key ∈ table.flatMap rootUnknown ↔ HasUnknown table key := by
  rw [List.mem_flatMap]
  constructor
  · rintro ⟨⟨place, value⟩, hmem, hkey⟩
    unfold rootUnknown at hkey
    split at hkey
    · cases hkey
    · rename_i hinterval
      split at hkey
      · rename_i hproviders
        cases value with
        | table entries =>
          obtain ⟨⟨id, entry⟩, hentry, hkey⟩ := List.mem_flatMap.mp hkey
          cases entry with
          | table entries' =>
            obtain ⟨⟨k, v⟩, hk, rfl⟩ := List.mem_map.mp hkey
            obtain ⟨hk, hunknown⟩ := List.mem_filter.mp hk
            exact ⟨by simpa using hunknown, entries, entries', v, hproviders ▸ hmem, hentry, hk⟩
          | _ => cases hkey
        | _ => cases hkey
      · rename_i hproviders
        obtain rfl := List.mem_singleton.mp hkey
        exact ⟨by simp [knownRootKey, hinterval, hproviders], value, hmem⟩
  · cases key with
    | root k =>
      rintro ⟨hunknown, v, hmem⟩
      simp only [knownRootKey, Bool.or_eq_false_iff, decide_eq_false_iff_not] at hunknown
      refine ⟨(k, v), hmem, ?_⟩
      rw [rootUnknown, if_neg hunknown.1, if_neg hunknown.2]
      exact List.mem_singleton_self _
    | provider id k =>
      rintro ⟨hunknown, entries, entries', v, hproviders, hentry, hk⟩
      refine ⟨_, hproviders, ?_⟩
      show UnknownKey.provider id k ∈ entries.flatMap providerUnknown
      refine List.mem_flatMap.mpr ⟨_, hentry, List.mem_map.mpr ⟨(k, v), ?_, rfl⟩⟩
      exact List.mem_filter.mpr ⟨hk, by simp [hunknown]⟩

/-! ## The document without them -/

private theorem knownOfProvider_eq_table {value : Value} {entries : Entries Value}
    (h : knownOfProvider value = .table entries) :
    ∃ all, value = .table all ∧ entries = all.filter fun e => knownProviderKey e.1 := by
  cases value with
  | table all => exact ⟨all, rfl, (Value.table.inj h).symm⟩
  | _ => cases h

private theorem knownOfProviders_eq_table {value : Value} {entries : Entries Value}
    (h : knownOfProviders value = .table entries) :
    ∃ all, value = .table all ∧ entries = Entries.mapValues knownOfProvider all := by
  cases value with
  | table all => exact ⟨all, rfl, (Value.table.inj h).symm⟩
  | _ => cases h

private theorem keyed_withoutUnknown {table : Entries Value} (hk : Keyed table) :
    Keyed (withoutUnknown table) := by
  have hproviders {entries : Entries Value}
      (h : ("providers", Value.table entries) ∈ withoutUnknown table) :
      ∃ all, ("providers", Value.table all) ∈ table ∧
        entries = Entries.mapValues knownOfProvider all := by
    obtain ⟨value, hmem, heq⟩ := Entries.mem_modify_self h
    obtain ⟨all, rfl, rfl⟩ := knownOfProviders_eq_table heq.symm
    exact ⟨all, List.mem_of_mem_filter hmem, rfl⟩
  constructor
  · exact Entries.sorted_modify (hk.root.filter _) _ _
  · intro entries h
    obtain ⟨all, hall, rfl⟩ := hproviders h
    exact Entries.sorted_mapValues (hk.providers hall) _
  · intro entries id entries' h h'
    obtain ⟨all, hall, rfl⟩ := hproviders h
    obtain ⟨⟨key, value⟩, hmem, heq⟩ := List.mem_map.mp h'
    obtain ⟨all', rfl, rfl⟩ := knownOfProvider_eq_table (Prod.mk.inj heq).2
    exact List.Pairwise.filter _ (hk.provider hall hmem)

private theorem providerOk_knownOfProvider (value : Value) :
    providerOk (knownOfProvider value) = providerOk value := by
  cases value with
  | table entries =>
    simp only [knownOfProvider, providerOk, List.all_filter]
    congr 1
    funext e
    by_cases hknown : knownProviderKey e.1 = true
    · simp [hknown]
    · rw [knownProviderKey, Bool.or_eq_true, decide_eq_true_iff, decide_eq_true_iff] at hknown
      simp [providerKeyOk, not_or.mp hknown]
  | _ => rfl

private theorem all_withoutUnknown (table : Entries Value) :
    (withoutUnknown table).all topLevelKeyOk = table.all topLevelKeyOk := by
  simp only [withoutUnknown, Entries.modify, List.all_map, List.all_filter]
  congr 1
  funext ⟨key, value⟩
  by_cases hproviders : key = "providers"
  · subst hproviders
    cases value with
    | table entries =>
      have hentries : ((fun e : String × Value => providerOk e.2) ∘
          fun e : String × Value => (e.1, knownOfProvider e.2)) = fun e => providerOk e.2 :=
        funext fun e => providerOk_knownOfProvider e.2
      simp [knownRootKey, topLevelKeyOk, knownOfProviders, Entries.mapValues, hentries]
    | _ => rfl
  · by_cases hinterval : key = "poll_interval_secs"
    · simp [knownRootKey, hinterval]
    · simp [knownRootKey, topLevelKeyOk, hproviders, hinterval]

private theorem find_withoutUnknown (table : Entries Value) :
    (withoutUnknown table).find "poll_interval_secs" = table.find "poll_interval_secs" ∧
      (withoutUnknown table).find "providers" = (table.find "providers").map knownOfProviders := by
  unfold withoutUnknown
  rw [Entries.find_modify_ne _ _ (by decide), Entries.find_modify_self,
    Entries.find_filter table knownRootKey (by decide),
    Entries.find_filter table knownRootKey (by decide)]
  exact ⟨rfl, rfl⟩

private theorem providerOf_knownOfProvider (value : Value) :
    providerOf (knownOfProvider value) = providerOf value := by
  cases value with
  | table entries =>
    simp only [knownOfProvider, providerOf, providerSettings]
    rw [Entries.find_filter entries knownProviderKey (by decide),
      Entries.find_filter entries knownProviderKey (by decide)]
  | _ => rfl

private theorem insertProviders_mapValues (base : Finmap fun _ : String => ProviderConfig)
    (entries : Entries Value) :
    insertProviders base (entries.mapValues knownOfProvider) = insertProviders base entries := by
  unfold insertProviders Entries.mapValues
  rw [List.foldl_map]
  simp only [providerOf_knownOfProvider]

private theorem providerUnknown_knownOfProvider (id : String) (value : Value) :
    providerUnknown (id, knownOfProvider value) = [] := by
  cases value with
  | table entries => simp [providerUnknown, knownOfProvider, List.filter_filter]
  | _ => rfl

private theorem rootUnknown_withoutUnknown (table : Entries Value) :
    (withoutUnknown table).flatMap rootUnknown = [] := by
  rw [List.flatMap_eq_nil_iff]
  intro e he
  obtain ⟨⟨key, value⟩, hmem, rfl⟩ := List.mem_map.mp he
  have hknown := (List.mem_filter.mp hmem).2
  simp only [knownRootKey, Bool.or_eq_true, decide_eq_true_iff] at hknown
  rcases hknown with rfl | rfl
  · rfl
  · cases value with
    | table entries =>
      show (Entries.mapValues knownOfProvider entries).flatMap providerUnknown = []
      rw [List.flatMap_eq_nil_iff]
      intro e he
      obtain ⟨e', -, rfl⟩ := List.mem_map.mp he
      exact providerUnknown_knownOfProvider e'.1 e'.2
    | _ => rfl

private theorem settings_withoutUnknown (table : Entries Value) :
    settings {} (withoutUnknown table) = { config := (settings {} table).config } := by
  obtain ⟨hinterval, hproviders⟩ := find_withoutUnknown table
  have hentries : providersEntries (withoutUnknown table) =
      (providersEntries table).mapValues knownOfProvider := by
    unfold providersEntries
    rw [hproviders]
    cases table.find "providers" with
    | none => rfl
    | some value => cases value <;> rfl
  have hwarnings : (withoutUnknown table).flatMap topLevelKeyWarnings = [] := by
    rw [warnings_eq, rootUnknown_withoutUnknown]
    rfl
  simp only [settings, hinterval, hentries, hwarnings, insertProviders_mapValues, List.append_nil]

/-! ## What it says -/

/-- The interval a document gives every provider. -/
def StatesGlobal (table : Entries Value) (secs : Nat) : Prop :=
  ("poll_interval_secs", Value.integer secs) ∈ table

/-- The interval a document gives one provider. -/
def StatesOverride (table : Entries Value) (id : ProviderId) (secs : Nat) : Prop :=
  ∃ entries entries', ("providers", Value.table entries) ∈ table ∧
    (id, Value.table entries') ∈ entries ∧
    ("poll_interval_secs", Value.integer secs) ∈ entries'

/-- A document has an entry for a provider. -/
def Names (table : Entries Value) (id : ProviderId) : Prop :=
  ∃ entries entry, ("providers", Value.table entries) ∈ table ∧ (id, entry) ∈ entries

private theorem find_interval_iff {entries : Entries Value} (hs : entries.Sorted)
    (hinterval : ∀ value, ("poll_interval_secs", value) ∈ entries → IsInterval value) (secs : Nat) :
    (entries.find "poll_interval_secs").bind intervalValue = some secs ↔
      ("poll_interval_secs", Value.integer secs) ∈ entries := by
  rw [Option.bind_eq_some_iff]
  constructor
  · rintro ⟨value, hfind, hvalue⟩
    obtain ⟨rfl, -⟩ := intervalValue_eq_some.mp hvalue
    exact Entries.mem_of_find hfind
  · intro hmem
    obtain ⟨n, hn, hlow, hhigh⟩ := hinterval _ hmem
    cases hn
    exact ⟨_, (Entries.find_eq_some_iff hs).mpr hmem,
      intervalValue_eq_some.mpr ⟨rfl, by omega, by omega⟩⟩

private theorem mem_providersEntries_iff {table : Entries Value} (hk : Keyed table) (id : String)
    (entry : Value) :
    (id, entry) ∈ providersEntries table ↔
      ∃ entries, ("providers", Value.table entries) ∈ table ∧ (id, entry) ∈ entries := by
  constructor
  · intro h
    unfold providersEntries at h
    split at h
    · rename_i entries hfind
      exact ⟨entries, Entries.mem_of_find hfind, h⟩
    · cases h
  · rintro ⟨entries, hmem, h⟩
    rw [providersEntries, (Entries.find_eq_some_iff hk.root).mpr hmem]
    exact h

private theorem settings_global_iff {table : Entries Value} (hk : Keyed table)
    (hshaped : Shaped table) (secs : Nat) :
    (settings {} table).config.pollIntervalSecs = some secs ↔ StatesGlobal table secs := by
  have hnone : (settings {} table).config.pollIntervalSecs =
      (table.find "poll_interval_secs").bind intervalValue := Option.or_none
  rw [hnone]
  exact find_interval_iff hk.root hshaped.interval secs

private theorem lookup_settings {table : Entries Value} (hk : Keyed table) (id : ProviderId) :
    (settings {} table).config.providers.lookup id =
      ((providersEntries table).find id).map providerOf := by
  show (insertProviders ∅ (providersEntries table)).lookup id = _
  rw [lookup_insertProviders hk.providersEntries_sorted, Finmap.lookup_empty, Option.or_none]

private theorem settings_override_iff {table : Entries Value} (hk : Keyed table)
    (hshaped : Shaped table) (id : ProviderId) (secs : Nat) :
    ((settings {} table).config.providers.lookup id).bind (·.pollIntervalSecs) = some secs ↔
      StatesOverride table id secs := by
  rw [lookup_settings hk, Option.bind_eq_some_iff]
  constructor
  · rintro ⟨config, hconfig, hsecs⟩
    obtain ⟨entry, hfind, rfl⟩ := Option.map_eq_some_iff.mp hconfig
    obtain ⟨entries, hproviders, hentry⟩ :=
      (mem_providersEntries_iff hk id entry).mp (Entries.mem_of_find hfind)
    obtain ⟨_, heq, hentries⟩ := hshaped.providers _ hproviders
    cases heq
    obtain ⟨entries', rfl, hprovider⟩ := hentries id entry hentry
    have hstated : (Entries.find entries' "poll_interval_secs").bind intervalValue = some secs := by
      simpa [providerOf, providerSettings] using hsecs
    exact ⟨entries, entries', hproviders, hentry,
      (find_interval_iff (hk.provider hproviders hentry) hprovider.interval secs).mp hstated⟩
  · rintro ⟨entries, entries', hproviders, hentry, hsecs⟩
    obtain ⟨_, heq, hentries⟩ := hshaped.providers _ hproviders
    cases heq
    obtain ⟨_, heq, hprovider⟩ := hentries id _ hentry
    cases heq
    have hfind : (providersEntries table).find id = some (.table entries') :=
      (Entries.find_eq_some_iff hk.providersEntries_sorted).mpr
        ((mem_providersEntries_iff hk id _).mpr ⟨entries, hproviders, hentry⟩)
    refine ⟨providerOf (.table entries'), by rw [hfind]; rfl, ?_⟩
    have hstated :=
      (find_interval_iff (hk.provider hproviders hentry) hprovider.interval secs).mpr hsecs
    simp [providerOf, providerSettings, hstated]

private theorem statesGlobal_bounds {table : Entries Value} (hshaped : Shaped table) {secs : Nat}
    (h : StatesGlobal table secs) : 10 ≤ secs ∧ secs ≤ 2 ^ 32 - 1 := by
  obtain ⟨n, hn, hlow, hhigh⟩ := hshaped.interval _ h
  cases hn
  omega

private theorem statesOverride_bounds {table : Entries Value} (hshaped : Shaped table)
    {id : ProviderId}
    {secs : Nat} (h : StatesOverride table id secs) : 10 ≤ secs ∧ secs ≤ 2 ^ 32 - 1 := by
  obtain ⟨entries, entries', hproviders, hentry, hsecs⟩ := h
  obtain ⟨_, heq, hentries⟩ := hshaped.providers _ hproviders
  cases heq
  obtain ⟨_, heq, hprovider⟩ := hentries id _ hentry
  cases heq
  obtain ⟨n, hn, hlow, hhigh⟩ := hprovider.interval _ hsecs
  cases hn
  omega

/-- Seconds in the accepted range are not clamped. -/
theorem secsToU32_toNat {secs : Nat} (h : secs ≤ 2 ^ 32 - 1) : (secsToU32 secs).toNat = secs := by
  have hmax : secs ≤ maxSecs := h
  unfold secsToU32
  rw [min_eq_left hmax, UInt32.toNat_ofNat_of_lt' (lt_of_le_of_lt h (by decide))]

private theorem asSecs_secs (secs : Option Nat) :
    asSecs ((secs.map fromSecs).getD (fromSecs defaultSecs)) = secs.getD 180 := by
  cases secs with
  | some secs => exact Nat.mul_div_cancel secs (by decide)
  | none => rfl

/-- What a row of the view says about a provider is what the document does. -/
structure Shows (table : Entries Value) (row : ProviderSettings) : Prop where
  secs : ∃ override global : Option Nat,
    (∀ n, override = some n ↔ StatesOverride table row.provider n) ∧
    (∀ n, global = some n ↔ StatesGlobal table n) ∧
    row.pollIntervalSecs.map (·.toNat) = override ∧
    row.effectivePollIntervalSecs.toNat = (override.or global).getD 180
  low : 10 ≤ row.effectivePollIntervalSecs.toNat
  high : row.effectivePollIntervalSecs.toNat ≤ 2 ^ 32 - 1

private theorem view_shows {table : Entries Value} (hk : Keyed table) (hshaped : Shaped table)
    (known : List ProviderId) :
    ∀ row ∈ ((settings {} table).config.view known).providers, Shows table row := by
  intro row hrow
  obtain ⟨id, -, rfl⟩ := List.mem_map.mp hrow
  have hoverride := settings_override_iff hk hshaped id
  have hglobal := settings_global_iff hk hshaped
  have hinterval : asSecs ((settings {} table).config.pollInterval id) =
      ((((settings {} table).config.providers.lookup id).bind (·.pollIntervalSecs)).or
        (settings {} table).config.pollIntervalSecs).getD 180 := by
    exact asSecs_secs _
  generalize ((settings {} table).config.providers.lookup id).bind (·.pollIntervalSecs) = override
    at hoverride hinterval ⊢
  generalize (settings {} table).config.pollIntervalSecs = global at hglobal hinterval
  have hbounds :
      10 ≤ (override.or global).getD 180 ∧ (override.or global).getD 180 ≤ 2 ^ 32 - 1 := by
    cases hoption : override with
    | some secs => exact statesOverride_bounds hshaped ((hoverride secs).mp hoption)
    | none =>
      cases hdefault : global with
      | some secs => exact statesGlobal_bounds hshaped ((hglobal secs).mp hdefault)
      | none => decide
  have hshown : (secsToU32 (asSecs ((settings {} table).config.pollInterval id))).toNat =
      (override.or global).getD 180 := by
    rw [hinterval, secsToU32_toNat hbounds.2]
  have hown : (override.map secsToU32).map (·.toNat) = override := by
    cases hoption : override with
    | some secs =>
      have hhigh := (statesOverride_bounds hshaped ((hoverride secs).mp hoption)).2
      rw [Option.map_some, Option.map_some, secsToU32_toNat hhigh]
    | none => rfl
  exact ⟨⟨override, global, hoverride, hglobal, hown, hshown⟩, hshown ▸ hbounds.1,
    hshown ▸ hbounds.2⟩

private theorem mem_view {table : Entries Value} (hk : Keyed table) (known : List ProviderId)
    {id : ProviderId} (h : id ∈ known ∨ Names table id) :
    ∃ row ∈ ((settings {} table).config.view known).providers, row.provider = id := by
  refine ⟨_, List.mem_map.mpr ⟨id, ?_, rfl⟩, rfl⟩
  rw [Finset.mem_sort, Finset.mem_union, List.mem_toFinset, Finmap.mem_keys]
  refine h.imp_right ?_
  rintro ⟨entries, entry, hproviders, hentry⟩
  have hfind : (providersEntries table).find id = some entry :=
    (Entries.find_eq_some_iff hk.providersEntries_sorted).mpr
      ((mem_providersEntries_iff hk id entry).mpr ⟨entries, hproviders, hentry⟩)
  have hlookup := lookup_settings hk id
  rw [hfind] at hlookup
  exact Finmap.mem_of_lookup_eq_some hlookup

/-- Parsing is all or nothing and blind to unknown keys: a document is accepted exactly if every
known key has its shape, and then the config is that of the document without its unknown keys,
each of which is warned about once, and the view shows what the document says. -/
theorem parse_all_or_nothing {Layout : Type} {toml : TomlCrates Layout} {text : String}
    {table : Entries Value} (htext : toml.tableFromStr text = .ok table) (hk : Keyed table) :
    ((∃ loaded, parse toml text = .ok loaded) ↔ Shaped table) ∧
      ∀ loaded, parse toml text = .ok loaded →
        (∀ stripped, toml.tableFromStr stripped = .ok (withoutUnknown table) →
          parse toml stripped = .ok { config := loaded.config }) ∧
        (∃ keys : List UnknownKey, keys.Nodup ∧ (∀ key, key ∈ keys ↔ HasUnknown table key) ∧
          loaded.warnings = keys.map fun key => unknown key.path) ∧
        ∀ known, (∀ id, id ∈ known ∨ Names table id →
            ∃ row ∈ (loaded.config.view known).providers, row.provider = id) ∧
          ∀ row ∈ (loaded.config.view known).providers, Shows table row := by
  have hparse (text : String) {table : Entries Value}
      (htext : toml.tableFromStr text = .ok table) : parse toml text = parseTable table := by
    rw [parse, htext]
  rw [hparse text htext]
  simp only [parseTable_eq_ok hk, shaped_iff]
  constructor
  · constructor
    · rintro ⟨_, h⟩
      exact h.1
    · intro h
      exact ⟨_, h, rfl⟩
  rintro _ ⟨hshaped, rfl⟩
  refine ⟨?_, ⟨table.flatMap rootUnknown, nodup_unknown hk, mem_unknown_iff table, ?_⟩, ?_⟩
  · intro stripped hstripped
    rw [hparse stripped hstripped, parseTable_eq_ok (keyed_withoutUnknown hk), all_withoutUnknown,
      shaped_iff, settings_withoutUnknown]
    exact ⟨hshaped, rfl⟩
  · exact warnings_eq table
  · intro known
    exact ⟨fun id hid => mem_view hk known hid, view_shows hk hshaped known⟩

/-- The header document with a key no one knows at each level. -/
def themedDoc : Entries Item :=
  [("poll_interval_secs", newValue (.integer 60)),
    ("providers", .table [("claude", .table [
      ("colour", newValue (.string "red")), ("enabled", newValue (.boolean true))])]),
    ("theme", newValue (.string "dark"))]

/-- It loads as the header document does, with two warnings. -/
theorem parse_all_or_nothing_themed :
    parse (.plain [themedDoc, headerDoc 60 true]) (render (headerDoc 60 true)) =
      .ok { config := { pollIntervalSecs := some 60, providers := .singleton "claude" {} } } := by
  have htext : (TomlCrates.plain [themedDoc, headerDoc 60 true]).tableFromStr (render themedDoc) =
      .ok (Entries.mapValues Item.toValue themedDoc) := by
    simp [TomlCrates.plain, TomlCrates.printing, Except.map, Doc.values]
  have hne : render themedDoc ≠ render (headerDoc 60 true) := by decide
  have hstripped : (TomlCrates.plain [themedDoc, headerDoc 60 true]).tableFromStr
      (render (headerDoc 60 true)) =
        .ok (withoutUnknown (Entries.mapValues Item.toValue themedDoc)) := by
    simp [TomlCrates.plain, TomlCrates.printing, Except.map, Doc.values, hne]
    rfl
  have hloaded : parse (.plain [themedDoc, headerDoc 60 true]) (render themedDoc) =
      .ok { config := { pollIntervalSecs := some 60, providers := .singleton "claude" {} }
            warnings := [unknown "providers.claude.colour", unknown "theme"] } := by
    decide
  exact ((parse_all_or_nothing htext (by decide)).2 _ hloaded).1 _ hstripped

end Teiryo.Config
