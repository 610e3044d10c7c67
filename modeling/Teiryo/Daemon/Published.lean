import Teiryo.Daemon.Admitted
import Teiryo.Daemon.ConfigWatch

/-!
# What the daemon publishes of its config

Whatever was written to `config.toml` and by whom, the running config has accepted intervals, and
the view a client gets is the view of that config.
-/

namespace Teiryo

variable {F Layout : Type}

namespace Daemon

/-- The published settings are those of the running config, whose intervals are accepted ones. -/
structure Publishes (d : Daemon F) : Prop where
  admitted : d.state.config.Admitted
  view : d.state.configState.effective = d.state.config.view d.state.knownProviders

private theorem publishes_new (storage : Storage F) (path : String) (known : List ProviderId)
    (now : DateTime) : (new storage path known now).Publishes where
  admitted := Config.admitted_default
  view := rfl

variable {d : Daemon F}

private theorem publishes_installConfig (h : d.Publishes) {loaded : Option LoadedConfig}
    (hloaded : ∀ l ∈ loaded, l.config.Admitted) (error : Option String) (now : DateTime) :
    (d.installConfig loaded error now).Publishes := by
  obtain ⟨hconfig, -, hknown, -, -, heffective⟩ := installConfig_state d loaded error now
  refine ⟨?_, ?_⟩
  · rw [hconfig]
    cases loaded with
    | none => exact h.admitted
    | some l => exact hloaded l rfl
  · rw [heffective, hconfig, hknown]

private theorem publishes_applyConfig (h : d.Publishes) {loaded : LoadedConfig}
    (hloaded : loaded.config.Admitted) (now : DateTime) : (d.applyConfig loaded now).Publishes :=
  publishes_installConfig h (fun _ hl => Option.some.inj hl ▸ hloaded) none now

private theorem publishes_rejectConfig (h : d.Publishes) (error : String) (now : DateTime) :
    (d.rejectConfig error now).Publishes :=
  publishes_installConfig h (fun l hl => (Option.not_mem_none l hl).elim) (some error) now

private theorem publishes_setConfig (h : d.Publishes) (toml : TomlCrates Layout) (file : ConfigFile)
    (writeFault : Option String) (edit : ConfigEdit) (now : DateTime) :
    (d.setConfig toml file writeFault edit now).2.1.Publishes := by
  unfold setConfig
  split
  · exact h
  · split
    · rename_i hparse
      exact publishes_applyConfig h (Config.admitted_parse hparse) now
    · exact publishes_rejectConfig h _ now

private theorem publishes_reload (h : d.Publishes) (toml : TomlCrates Layout) (file : ConfigFile)
    (seen : String) (now : DateTime) : (d.reload toml file seen now).1.Publishes := by
  have htext (text : String) : (reload.loadText toml d seen now text).1.Publishes := by
    unfold reload.loadText
    split
    · exact h
    · split
      · rename_i hparse
        exact publishes_applyConfig h (Config.admitted_parse hparse) now
      · exact publishes_rejectConfig h _ now
  cases file with
  | unreadable e => exact publishes_rejectConfig h _ now
  | missing => exact htext ""
  | text text => exact htext text

private theorem publishes_loadInitial (h : d.Publishes) (toml : TomlCrates Layout)
    (first second : ConfigFile) (now : DateTime) :
    (d.loadInitial toml first second now).1.Publishes := by
  unfold loadInitial
  dsimp only
  split
  · rename_i hload
    exact publishes_applyConfig h (Config.admitted_load hload) now
  · exact publishes_rejectConfig h _ now

end Daemon

namespace ConfigSystem

private theorem publishes_step (toml : TomlCrates Layout) {s : ConfigSystem F}
    (h : s.daemon.Publishes) (i : ConfigInput) : (step toml s i).daemon.Publishes := by
  cases i with
  | setConfig edit writeFault now =>
    have hset := Daemon.publishes_setConfig h toml s.file writeFault edit now
    unfold step
    dsimp only
    split
    · exact hset
    · exact hset
  | external file => exact h
  | reload now => exact Daemon.publishes_reload h toml s.file s.seen now

/-- Every state of a daemon's run publishes its config. -/
theorem publishes_run (toml : TomlCrates Layout) (storage : Storage F) (path : String)
    (known : List ProviderId) (first second : ConfigFile) (now : DateTime)
    (inputs : List ConfigInput) :
    (inputs.foldl (step toml)
      (start toml (Daemon.new storage path known now) first second now)).daemon.Publishes := by
  have hstart : (start toml (Daemon.new storage path known now) first second
      now).daemon.Publishes :=
    Daemon.publishes_loadInitial (Daemon.publishes_new storage path known now) toml first second now
  let inv (s : ConfigSystem F) : Prop := s.daemon.Publishes
  have hrun : inv _ := foldl_invariant inputs hstart fun _ i h => publishes_step toml h i
  exact hrun

end ConfigSystem
end Teiryo
