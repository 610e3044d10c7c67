import Teiryo.Daemon.SetConfig

/-!
# Hot reload

The file watcher, following `teiryod/src/watch.rs`, together with the other writers of
`config.toml`: `SetConfig` and whoever else edits the file. The watcher skips a reload when the
text is the one it last read itself, which `SetConfig` does not update and an unreadable file
does not clear.
-/

namespace Teiryo

open Toml

namespace Daemon

variable {F Layout : Type}

/-- Re-read and apply the file; the new text when it had changed. -/
def reload (toml : TomlCrates Layout) (d : Daemon F) (file : ConfigFile) (seen : String)
    (now : DateTime) : Daemon F × Option String :=
  match file with
  | .unreadable e => (d.rejectConfig ("cannot read the file: " ++ e) now, none)
  | .missing => loadText ""
  | .text text => loadText text
where
  loadText (text : String) : Daemon F × Option String :=
    if text = seen then (d, none)
    else
      match Config.parse toml text with
      | .ok loaded => (d.applyConfig loaded now, some text)
      | .error e => (d.rejectConfig e.message now, some text)

/-- Read and apply the config at startup. The file is read twice, first for the watcher's
comparison and then for the settings. -/
def loadInitial (toml : TomlCrates Layout) (d : Daemon F) (first second : ConfigFile)
    (now : DateTime) : Daemon F × String :=
  let text :=
    match first with
    | .text text => text
    | _ => ""
  match Config.load toml second with
  | .ok loaded => (d.applyConfig loaded now, text)
  | .error e => (d.rejectConfig e.message now, text)

end Daemon

/-- The daemon, its config file and the watcher's last text. `pending` says that the file was
touched since the last reload. The last two fields record history: what the last load attempt
read, and the last config that was accepted. -/
structure ConfigSystem (F : Type) where
  daemon : Daemon F
  file : ConfigFile
  seen : String
  pending : Bool
  attempt : ConfigFile
  accepted : Config

inductive ConfigInput where
  | setConfig (edit : ConfigEdit) (writeFault : Option String) (now : DateTime)
  /-- Someone else writes, removes or locks the file. -/
  | external (file : ConfigFile)
  | reload (now : DateTime)

/-- The text a read of the file gives. -/
def ConfigFile.readText : ConfigFile → Option String
  | .text content => some content
  | .missing => some ""
  | .unreadable _ => none

namespace ConfigSystem

variable {F Layout : Type}

/-- The last accepted config after one more load attempt. -/
def nextAccepted (toml : TomlCrates Layout) (accepted : Config) (file : ConfigFile) : Config :=
  match Config.load toml file with
  | .ok loaded => loaded.config
  | .error _ => accepted

def start (toml : TomlCrates Layout) (d : Daemon F) (first second : ConfigFile) (now : DateTime) :
    ConfigSystem F where
  daemon := (d.loadInitial toml first second now).1
  file := second
  seen := (d.loadInitial toml first second now).2
  pending := decide (first ≠ second)
  attempt := second
  accepted := nextAccepted toml d.state.config second

def step (toml : TomlCrates Layout) (s : ConfigSystem F) : ConfigInput → ConfigSystem F
  | .setConfig edit writeFault now =>
    let result := s.daemon.setConfig toml s.file writeFault edit now
    match (Config.writeEdit toml s.file writeFault edit).1 with
    | .ok out =>
      { s with
        daemon := result.2.1, file := result.2.2, pending := true, attempt := .text out
        accepted := nextAccepted toml s.accepted (.text out) }
    | .error _ => { s with daemon := result.2.1, file := result.2.2 }
  | .external file => { s with file, pending := true }
  | .reload now =>
    let result := s.daemon.reload toml s.file s.seen now
    let skipped := decide (s.file.readText = some s.seen)
    { s with
      daemon := result.1, seen := result.2.getD s.seen, pending := false
      attempt := if skipped then s.attempt else s.file
      accepted := if skipped then s.accepted else nextAccepted toml s.accepted s.file }

/-- The running config is the file's, or the last accepted one with an error reported. -/
def Converged (toml : TomlCrates Layout) (s : ConfigSystem F) : Prop :=
  match Config.load toml s.file with
  | .ok loaded =>
    s.daemon.state.config = loaded.config ∧ s.daemon.state.configState.error = none
  | .error _ =>
    s.daemon.state.config = s.accepted ∧ s.daemon.state.configState.error ≠ none

/-- A reload that skips the file because its text is the one the watcher last read does so right
only if that text is also the one last loaded, by whomever. -/
def ReloadSeesLastLoad (s : ConfigSystem F) : ConfigInput → Prop
  | .reload _ => s.file.readText = some s.seen → s.attempt.readText = some s.seen
  | _ => True

/-- The daemon reflects the last load attempt, and the file is the one last loaded unless it was
touched since. -/
structure Inv (toml : TomlCrates Layout) (s : ConfigSystem F) : Prop where
  accepted : s.daemon.state.config = s.accepted
  loaded : ∀ {loaded}, Config.load toml s.attempt = .ok loaded →
    s.daemon.state.config = loaded.config ∧ s.daemon.state.configState.error = none
  rejected : ∀ {e}, Config.load toml s.attempt = .error e →
    s.daemon.state.configState.error ≠ none
  settled : s.pending = false → Config.load toml s.file = Config.load toml s.attempt

private theorem Inv.converged {toml : TomlCrates Layout} {s : ConfigSystem F} (h : Inv toml s)
    (hq : s.pending = false) : Converged toml s := by
  have hsettled := h.settled hq
  unfold Converged
  cases hload : Config.load toml s.file with
  | ok loaded => exact h.loaded (hsettled.symm.trans hload)
  | error e => exact ⟨h.accepted, h.rejected (hsettled.symm.trans hload)⟩

private theorem inv_of_attempt {toml : TomlCrates Layout} {d : Daemon F} {accepted : Config}
    {file : ConfigFile} (hd : d.state.config = accepted) (s : ConfigSystem F)
    (hattempt : s.attempt = file) (haccepted : s.accepted = nextAccepted toml accepted file)
    (hok : ∀ loaded, Config.load toml file = .ok loaded → ∃ now,
      s.daemon = d.applyConfig loaded now)
    (herr : ∀ e, Config.load toml file = .error e → ∃ message now,
      s.daemon = d.rejectConfig message now)
    (hsettled : s.pending = false → Config.load toml s.file = Config.load toml file) :
    Inv toml s := by
  subst hattempt
  cases hload : Config.load toml s.attempt with
  | ok loaded =>
    obtain ⟨now, hdaemon⟩ := hok loaded hload
    obtain ⟨hconfig, herror, -⟩ := Daemon.installConfig_state d (some loaded) none now
    rw [nextAccepted, hload] at haccepted
    refine ⟨?_, ?_, ?_, hsettled⟩
    · rw [hdaemon, haccepted]
      exact hconfig
    · intro loaded' h
      rw [hload] at h
      cases h
      rw [hdaemon]
      exact ⟨hconfig, herror⟩
    · intro e h
      rw [hload] at h
      cases h
  | error e =>
    obtain ⟨message, now, hdaemon⟩ := herr e hload
    obtain ⟨hconfig, herror, -⟩ := Daemon.installConfig_state d none (some message) now
    rw [nextAccepted, hload] at haccepted
    refine ⟨?_, ?_, ?_, hsettled⟩
    · rw [hdaemon, haccepted, ← hd]
      exact hconfig
    · intro loaded' h
      rw [hload] at h
      cases h
    · intro e' _ hnone
      rw [hdaemon] at hnone
      cases herror.symm.trans hnone

theorem inv_start (toml : TomlCrates Layout) (d : Daemon F) (first second : ConfigFile)
    (now : DateTime) : Inv toml (start toml d first second now) := by
  apply inv_of_attempt rfl _ rfl rfl
  · intro loaded hload
    have hsecond : Config.load toml second = .ok loaded := hload
    exact ⟨now, by simp [start, Daemon.loadInitial, hsecond]⟩
  · intro e hload
    have hsecond : Config.load toml second = .error e := hload
    exact ⟨e.message, now, by simp [start, Daemon.loadInitial, hsecond]⟩
  · intro _
    rfl

private theorem reload_of_seen (toml : TomlCrates Layout) (d : Daemon F) {file : ConfigFile}
    {seen : String} (now : DateTime) (h : file.readText = some seen) :
    d.reload toml file seen now = (d, none) := by
  cases file with
  | unreadable e => cases h
  | missing =>
    cases h
    simp [Daemon.reload, Daemon.reload.loadText]
  | text content =>
    cases h
    simp [Daemon.reload, Daemon.reload.loadText]

private theorem reload_of_ok {toml : TomlCrates Layout} (hempty : Config.parse toml "" = .ok {})
    (d : Daemon F) {file : ConfigFile} {seen : String} (now : DateTime)
    (h : file.readText ≠ some seen) {loaded : LoadedConfig}
    (hload : Config.load toml file = .ok loaded) :
    (d.reload toml file seen now).1 = d.applyConfig loaded now := by
  cases file with
  | unreadable e => cases hload
  | missing =>
    have hne : ¬ "" = seen := fun heq => h (congrArg some heq)
    cases hload
    simp [Daemon.reload, Daemon.reload.loadText, hne, hempty]
  | text content =>
    have hne : ¬ content = seen := fun heq => h (congrArg some heq)
    have hparse : Config.parse toml content = .ok loaded := hload
    simp [Daemon.reload, Daemon.reload.loadText, hne, hparse]

private theorem reload_of_error {toml : TomlCrates Layout} (d : Daemon F) {file : ConfigFile}
    {seen : String} (now : DateTime) (h : file.readText ≠ some seen) {e : ConfigError}
    (hload : Config.load toml file = .error e) :
    (d.reload toml file seen now).1 = d.rejectConfig e.message now := by
  cases file with
  | unreadable e' =>
    cases hload
    rfl
  | missing => cases hload
  | text content =>
    have hne : ¬ content = seen := fun heq => h (congrArg some heq)
    have hparse : Config.parse toml content = .error e := hload
    simp [Daemon.reload, Daemon.reload.loadText, hne, hparse]

private theorem load_eq_of_readText {toml : TomlCrates Layout}
    (hempty : Config.parse toml "" = .ok {}) {file : ConfigFile} {content : String}
    (h : file.readText = some content) : Config.load toml file = Config.parse toml content := by
  cases file with
  | unreadable e => cases h
  | missing =>
    cases h
    exact hempty.symm
  | text content' =>
    cases h
    rfl

private theorem setConfig_of_error {toml : TomlCrates Layout} {d : Daemon F} {file : ConfigFile}
    {writeFault : Option String} {edit : ConfigEdit} {now : DateTime} {e : ConfigError}
    (h : (Config.writeEdit toml file writeFault edit).1 = .error e) :
    d.setConfig toml file writeFault edit now = (.err .badRequest e.message, d, file) := by
  have hfile := Config.writeEdit_file toml file writeFault edit
  rw [h] at hfile
  have hw : Config.writeEdit toml file writeFault edit = (.error e, file) := Prod.ext h hfile
  rw [Daemon.setConfig, hw]

private theorem setConfig_of_ok {toml : TomlCrates Layout} {d : Daemon F} {file : ConfigFile}
    {writeFault : Option String} {edit : ConfigEdit} {now : DateTime} {out : String}
    (h : (Config.writeEdit toml file writeFault edit).1 = .ok out) :
    (d.setConfig toml file writeFault edit now).2.1 =
        (match Config.parse toml out with
          | .ok loaded => d.applyConfig loaded now
          | .error e => d.rejectConfig e.message now) ∧
      (d.setConfig toml file writeFault edit now).2.2 = .text out := by
  have hfile := Config.writeEdit_file toml file writeFault edit
  rw [h] at hfile
  have hw : Config.writeEdit toml file writeFault edit = (.ok out, .text out) := Prod.ext h hfile
  rw [Daemon.setConfig, hw]
  cases hparse : Config.parse toml out with
  | ok loaded => simp [hparse]
  | error e => simp [hparse]

theorem inv_step {toml : TomlCrates Layout} (hempty : Config.parse toml "" = .ok {})
    (s : ConfigSystem F) (i : ConfigInput) (hs : Inv toml s) (hok : ReloadSeesLastLoad s i) :
    Inv toml (step toml s i) := by
  cases i with
  | setConfig edit writeFault now =>
    rw [step]
    cases hw : (Config.writeEdit toml s.file writeFault edit).1 with
    | error e =>
      rw [setConfig_of_error hw]
      exact ⟨hs.accepted, hs.loaded, hs.rejected, hs.settled⟩
    | ok out =>
      obtain ⟨hdaemon, hfile⟩ := @setConfig_of_ok _ _ _ s.daemon _ _ _ now _ hw
      apply inv_of_attempt hs.accepted _ rfl rfl
      · intro loaded hload
        have hparse : Config.parse toml out = .ok loaded := hload
        rw [hparse] at hdaemon
        exact ⟨now, hdaemon⟩
      · intro e hload
        have hparse : Config.parse toml out = .error e := hload
        rw [hparse] at hdaemon
        exact ⟨e.message, now, hdaemon⟩
      · intro h
        cases h
  | external file =>
    refine ⟨hs.accepted, hs.loaded, hs.rejected, ?_⟩
    intro h
    cases h
  | reload now =>
    rw [step]
    by_cases hseen : s.file.readText = some s.seen
    · have hattempt := hok hseen
      simp only [reload_of_seen toml s.daemon now hseen, hseen, decide_true, if_true]
      refine ⟨hs.accepted, hs.loaded, hs.rejected, ?_⟩
      intro _
      rw [load_eq_of_readText hempty hseen, load_eq_of_readText hempty hattempt]
    · simp only [hseen, decide_false]
      apply inv_of_attempt hs.accepted _ rfl rfl
      · intro loaded hload
        exact ⟨now, reload_of_ok hempty s.daemon now hseen hload⟩
      · intro e hload
        exact ⟨e.message, now, reload_of_error s.daemon now hseen hload⟩
      · intro _
        rfl

/-- In every run whose skipped reloads all find the text last loaded, whenever no change of the
file is pending the running config has converged to the file. -/
theorem run_converged {toml : TomlCrates Layout} (hempty : toml.tableFromStr "" = .ok [])
    (d : Daemon F) (first second : ConfigFile) (now : DateTime) (inputs : List ConfigInput)
    (hmeets : StepsMeet (step toml) ReloadSeesLastLoad (start toml d first second now) inputs)
    (hquiet : (inputs.foldl (step toml) (start toml d first second now)).pending = false) :
    Converged toml (inputs.foldl (step toml) (start toml d first second now)) := by
  have hparse : Config.parse toml "" = .ok {} := by
    rw [Config.parse, hempty]
    rfl
  have hinv := hmeets.invariant (inv_start toml d first second now) (inv_step hparse)
  exact hinv.converged hquiet

/-- The crates on a file that enables the provider or disables it, or is empty. -/
def switchToml : TomlCrates Unit :=
  .plain [[], Config.headerDoc 60 true, Config.headerDoc 60 false]

def enabledText : String := "poll_interval_secs = 60\n[providers.claude]\nenabled = true\n"

/-- A daemon that has just read the enabling file. -/
def switchStart : ConfigSystem ℚ :=
  start switchToml Daemon.idle (.text enabledText) (.text enabledText) 0

theorem run_converged_setConfig :
    Converged switchToml
      ([.setConfig (.providerEnabled "claude" false) none 1, .reload 2].foldl (step switchToml)
        switchStart) := by
  apply run_converged
  · rfl
  · refine ⟨trivial, ?_, trivial⟩
    intro hseen
    have hne : (step switchToml switchStart (.setConfig (.providerEnabled "claude" false)
        none 1)).file.readText ≠ some (step switchToml switchStart
        (.setConfig (.providerEnabled "claude" false) none 1)).seen := by decide
    exact absurd hseen hne
  · rfl

/-- `SetConfig` disables the provider and the file is put back before the watcher looks: it reads
the text it saw at startup, and the provider stays disabled. -/
theorem reverted_file_not_converged :
    ([.setConfig (.providerEnabled "claude" false) none 1, .external (.text enabledText),
        .reload 2].foldl (step switchToml) switchStart).pending = false ∧
      ¬ Converged switchToml
        ([.setConfig (.providerEnabled "claude" false) none 1, .external (.text enabledText),
          .reload 2].foldl (step switchToml) switchStart) := by
  have hload : Config.load switchToml (.text enabledText) =
      .ok { config := { pollIntervalSecs := some 60, providers := .singleton "claude" {} } } := by
    decide
  have hrunning : ([.setConfig (.providerEnabled "claude" false) none 1,
      .external (.text enabledText), .reload 2].foldl (step switchToml)
      switchStart).daemon.state.config.providerEnabled "claude" = false := by decide
  have hwanted : Config.providerEnabled
      { pollIntervalSecs := some 60, providers := .singleton "claude" {} } "claude" = true := by
    decide
  refine ⟨rfl, ?_⟩
  intro h
  have hfile : ([.setConfig (.providerEnabled "claude" false) none 1,
      .external (.text enabledText), .reload 2].foldl (step switchToml) switchStart).file =
      .text enabledText := rfl
  rw [Converged, hfile, hload] at h
  rw [h.1, hwanted] at hrunning
  cases hrunning

end ConfigSystem
end Teiryo
