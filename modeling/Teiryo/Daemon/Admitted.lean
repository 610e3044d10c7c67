import Teiryo.Daemon.ConfigSpec

/-!
# Admitted intervals

Whatever the file says, the intervals of the config read from it are ones `interval` let through.
-/

namespace Teiryo.Config

open Toml

/-- A poll interval the config accepts, in seconds. -/
def Admits (secs : Nat) : Prop := minSecs ≤ secs ∧ secs ≤ maxSecs

instance (secs : Nat) : Decidable (Admits secs) := inferInstanceAs (Decidable (_ ∧ _))

/-- A config of accepted intervals. -/
structure Admitted (c : Config) : Prop where
  own : ∀ secs ∈ c.pollIntervalSecs, Admits secs
  overrides : ∀ id settings, c.providers.lookup id = some settings →
    ∀ secs ∈ settings.pollIntervalSecs, Admits secs

theorem admitted_default : Admitted {} where
  own := fun secs h => (Option.not_mem_none secs h).elim
  overrides := fun id settings h => by
    have hnone : (∅ : Finmap fun _ : String => ProviderConfig).lookup id = none :=
      Finmap.lookup_empty id
    cases hnone.symm.trans h

theorem admits_default : Admits defaultSecs := by decide

private theorem admits_of_interval {value : Value} {path : String} {secs : Nat}
    (h : interval value path = .ok secs) : Admits secs := by
  rw [interval_eq_ok] at h
  cases value with
  | integer raw =>
    simp only [intervalValue, Option.ite_none_right_eq_some, Option.some.injEq] at h
    obtain ⟨⟨-, hmin, hmax⟩, rfl⟩ := h
    exact ⟨hmin, hmax⟩
  | _ => cases h

private theorem providerKey_admits {id : String} {acc acc' : ProviderConfig × List String}
    {entry : String × Value} (h : providerKey id acc entry = .ok acc')
    (hacc : ∀ secs ∈ acc.1.pollIntervalSecs, Admits secs) :
    ∀ secs ∈ acc'.1.pollIntervalSecs, Admits secs := by
  unfold providerKey at h
  split at h
  · split at h
    · cases h
      exact hacc
    · cases h
  · split at h
    · obtain ⟨secs, hsecs, hok⟩ := bind_eq_ok.mp h
      cases hok
      intro secs' hmem
      cases hmem
      exact admits_of_interval hsecs
    · cases h
      exact hacc

private theorem provider_admits {value : Value} {id : String} {warnings ws : List String}
    {config : ProviderConfig} (h : provider value id warnings = .ok (config, ws)) :
    ∀ secs ∈ config.pollIntervalSecs, Admits secs := by
  cases value with
  | table table =>
    let inv (acc : ProviderConfig × List String) : Prop :=
      ∀ secs ∈ acc.1.pollIntervalSecs, Admits secs
    have hinit : inv ({}, warnings) := fun secs hmem => (Option.not_mem_none secs hmem).elim
    have hfold : inv (config, ws) := foldlM_invariant h hinit
      fun acc entry acc' hacc hstep => providerKey_admits hstep hacc
    exact hfold
  | _ => cases h

private theorem foldlM_admitted
    {read : LoadedConfig → String × Value → Except ConfigError LoadedConfig}
    {entries : Entries Value} {loaded loaded' : LoadedConfig}
    (h : entries.foldlM read loaded = .ok loaded') (hloaded : loaded.config.Admitted)
    (hread : ∀ l e l', l.config.Admitted → read l e = .ok l' → l'.config.Admitted) :
    loaded'.config.Admitted := by
  let inv (l : LoadedConfig) : Prop := l.config.Admitted
  have hfold : inv loaded' := foldlM_invariant h hloaded hread
  exact hfold

private theorem admitted_providerEntry {loaded loaded' : LoadedConfig} {entry : String × Value}
    (h : providerEntry loaded entry = .ok loaded') (hloaded : loaded.config.Admitted) :
    loaded'.config.Admitted := by
  obtain ⟨⟨config, warnings⟩, hprovider, hok⟩ := bind_eq_ok.mp h
  cases hok
  refine ⟨hloaded.own, ?_⟩
  intro id settings hlookup
  by_cases hid : id = entry.1
  · subst hid
    rw [Finmap.lookup_insert] at hlookup
    cases hlookup
    exact provider_admits hprovider
  · rw [Finmap.lookup_insert_of_ne _ hid] at hlookup
    exact hloaded.overrides id settings hlookup

private theorem admitted_topLevelKey {loaded loaded' : LoadedConfig} {entry : String × Value}
    (h : topLevelKey loaded entry = .ok loaded') (hloaded : loaded.config.Admitted) :
    loaded'.config.Admitted := by
  unfold topLevelKey at h
  split at h
  · obtain ⟨secs, hsecs, hok⟩ := bind_eq_ok.mp h
    cases hok
    refine ⟨?_, hloaded.overrides⟩
    intro secs' hmem
    cases hmem
    exact admits_of_interval hsecs
  · split at h
    · split at h
      · exact foldlM_admitted h hloaded fun l e l' hl hstep => admitted_providerEntry hstep hl
      · cases h
    · cases h
      exact hloaded

variable {Layout : Type} {toml : TomlCrates Layout}

theorem admitted_parse {text : String} {loaded : LoadedConfig}
    (h : parse toml text = .ok loaded) : loaded.config.Admitted := by
  unfold parse at h
  split at h
  · cases h
  · exact foldlM_admitted h admitted_default fun l e l' hl hstep => admitted_topLevelKey hstep hl

/-- A config that was read, from whatever file, has accepted intervals. -/
theorem admitted_load {file : ConfigFile} {loaded : LoadedConfig}
    (h : load toml file = .ok loaded) : loaded.config.Admitted := by
  cases file with
  | missing =>
    cases h
    exact admitted_default
  | unreadable error => cases h
  | text text => exact admitted_parse h

/-- Every provider is polled at an accepted interval. -/
theorem Admitted.pollInterval {c : Config} (h : c.Admitted) (id : ProviderId) :
    ∃ secs, Admits secs ∧ c.pollInterval id = fromSecs secs := by
  unfold Config.pollInterval
  cases hsecs : ((c.providers.lookup id).bind (·.pollIntervalSecs)).or c.pollIntervalSecs with
  | none => exact ⟨defaultSecs, admits_default, rfl⟩
  | some secs =>
    refine ⟨secs, ?_, rfl⟩
    rcases Option.or_eq_some_iff.mp hsecs with hoverride | ⟨-, hown⟩
    · obtain ⟨settings, hlookup, hown⟩ := Option.bind_eq_some_iff.mp hoverride
      exact h.overrides id settings hlookup secs hown
    · exact h.own secs hown

end Teiryo.Config
