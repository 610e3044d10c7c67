import Teiryo.Client.AppInput
import Teiryo.Daemon.ConfigShape
import Teiryo.Daemon.Published
import Teiryo.Framework.Ladder

/-!
# Stepping an interval in the settings overlay

`+` and `-` move the interval under the cursor along the ladder of `step_interval` in
`teiryo/src/app.rs`. Every interval a daemon publishes is at least the bottom rung; one above the
top rung comes down to it with either key.
-/

namespace Teiryo

private theorem intervalRungs_toNat :
    intervalRungs.map UInt32.toNat = [10, 15, 30, 60, 120, 300, 600, 900, 1800, 3600] := by
  decide

private theorem intervalRungs_sorted : (intervalRungs.map UInt32.toNat).Pairwise (· < ·) := by
  decide

private theorem stepInterval_toNat (current : UInt32) (delta : Int) :
    (stepInterval current delta).toNat =
      Ladder.step (intervalRungs.map UInt32.toNat) current.toNat delta 0 := by
  have hfind : (intervalRungs.map UInt32.toNat).findIdx?
      (fun rung => decide (current.toNat ≤ rung)) =
        intervalRungs.findIdx? fun rung => decide (current ≤ rung) := by
    rw [List.findIdx?_map]
    rfl
  have hon (i : Nat) : (intervalRungs.map UInt32.toNat)[i]? = some current.toNat ↔
      intervalRungs[i]? = some current := by
    rw [List.getElem?_map, Option.map_eq_some_iff]
    constructor
    · rintro ⟨rung, hrung, heq⟩
      rw [hrung, UInt32.toNat_inj.mp heq]
    · exact fun h => ⟨current, h, rfl⟩
  unfold stepInterval Ladder.step Ladder.place
  simp only [hfind, hon, List.length_map]
  exact (List.getD_map intervalRungs 0 UInt32.toNat).symm

private theorem stepInterval_mem (current : UInt32) (delta : Int) :
    stepInterval current delta ∈ intervalRungs := by
  have hne : intervalRungs.map UInt32.toNat ≠ [] := by decide
  have hmem := Ladder.step_mem hne current.toNat delta 0
  rw [← stepInterval_toNat, List.mem_map] at hmem
  obtain ⟨rung, hrung, heq⟩ := hmem
  rw [← UInt32.toNat_inj.mp heq]
  exact hrung

/-- What `+` makes of an interval on show: one no shorter, and a longer one where there is a rung
to go to, but the top rung from above the ladder. -/
structure StepsUp (shown up : UInt32) : Prop where
  notShorter : shown ≤ 3600 → shown ≤ up
  fromAbove : 3600 < shown → up = 3600
  strict : (∃ rung ∈ intervalRungs, shown < rung) → shown < up

/-- What `-` makes of an interval on show: one no longer, and a shorter one where there is a rung to
go to. -/
structure StepsDown (shown down : UInt32) : Prop where
  notLonger : down ≤ shown
  strict : (∃ rung ∈ intervalRungs, rung < shown) → down < shown

private theorem stepsUp_stepInterval (shown : UInt32) : StepsUp shown (stepInterval shown 1) where
  notShorter := by
    intro h
    rw [UInt32.le_iff_toNat_le, stepInterval_toNat]
    exact Ladder.le_step_up intervalRungs_sorted ⟨3600, by decide, UInt32.le_iff_toNat_le.mp h⟩
  fromAbove := by
    intro h
    apply UInt32.toNat_inj.mp
    rw [stepInterval_toNat]
    refine Ladder.step_above intervalRungs_sorted ?_ rfl 1
    intro rung hrung
    have hlt : 3600 < shown.toNat := UInt32.lt_iff_toNat_lt.mp h
    have hle : ∀ rung ∈ intervalRungs.map UInt32.toNat, rung ≤ 3600 := by decide
    exact (hle rung hrung).trans_lt hlt
  strict := by
    rintro ⟨rung, hrung, hlt⟩
    rw [UInt32.lt_iff_toNat_lt, stepInterval_toNat]
    exact Ladder.lt_step_up intervalRungs_sorted
      ⟨rung.toNat, List.mem_map_of_mem hrung, UInt32.lt_iff_toNat_lt.mp hlt⟩

private theorem stepsDown_stepInterval {shown : UInt32} (h : 10 ≤ shown) :
    StepsDown shown (stepInterval shown (-1)) where
  notLonger := by
    rw [UInt32.le_iff_toNat_le, stepInterval_toNat]
    exact Ladder.step_down_le intervalRungs_sorted ⟨10, by decide, UInt32.le_iff_toNat_le.mp h⟩
  strict := by
    rintro ⟨rung, hrung, hlt⟩
    rw [UInt32.lt_iff_toNat_lt, stepInterval_toNat]
    exact Ladder.step_down_lt intervalRungs_sorted
      ⟨rung.toNat, List.mem_map_of_mem hrung, UInt32.lt_iff_toNat_lt.mp hlt⟩

/-- The interval an edit carries. -/
def ConfigEdit.interval? : ConfigEdit → Option UInt32
  | .globalPollInterval secs => secs
  | .providerPollInterval _ secs => secs
  | .providerEnabled _ _ => none

namespace Config

private theorem interval_of_admits {secs : Nat} (h : Admits secs) (path : String) :
    interval (.integer secs) path = .ok secs := by
  rw [interval_eq_ok, intervalValue, if_pos ⟨Int.natCast_nonneg secs, h⟩, Int.toNat_natCast]

private theorem validateEdit_of_admits {edit : ConfigEdit}
    (h : ∀ secs ∈ edit.interval?, Admits secs.toNat) : validateEdit edit = .ok () := by
  cases edit with
  | globalPollInterval secs =>
    cases secs with
    | none => rfl
    | some secs =>
      rw [validateEdit, interval_of_admits (h secs rfl)]
      rfl
  | providerPollInterval provider secs =>
    cases secs with
    | none => rfl
    | some secs =>
      rw [validateEdit, interval_of_admits (h secs rfl)]
      rfl
  | providerEnabled provider enabled => rfl

private theorem admits_rung {rung : UInt32} (h : rung ∈ intervalRungs) : Admits rung.toNat := by
  have hall : ∀ secs ∈ intervalRungs.map UInt32.toNat, Admits secs := by
    rw [intervalRungs_toNat]
    decide
  exact hall _ (List.mem_map_of_mem h)

private theorem admits_shown {secs : Nat} (h : Admits secs) : 10 ≤ secsToU32 secs := by
  rw [UInt32.le_iff_toNat_le, secsToU32_toNat h.2]
  exact h.1

end Config

namespace App

variable {F : Type} {app : App F} {state : ConfigState} {shown : UInt32}

/-- The interval on the row under the cursor, as the overlay shows it. -/
def shownInterval (app : App F) : Option UInt32 :=
  match app.config, app.settingsRow with
  | some config, some .globalInterval =>
    some (config.effective.pollIntervalSecs.getD config.effective.defaultPollIntervalSecs)
  | some config, some (.providerInterval i) =>
    (config.effective.providers[i]?).map (·.effectivePollIntervalSecs)
  | _, _ => none

def plusKeys : List KeyCode := [.char '+', .char '=', .char 'l', .right]

def minusKeys : List KeyCode := [.char '-', .char '_', .char 'h', .left]

private theorem handleSettingsKey_plus {key : KeyEvent} (h : key.code ∈ plusKeys) :
    app.handleSettingsKey key = (app, app.editSettings 1) := by
  simp only [plusKeys, List.mem_cons, List.not_mem_nil, or_false] at h
  rcases h with h | h | h | h <;> simp [handleSettingsKey, h]

private theorem handleSettingsKey_minus {key : KeyEvent} (h : key.code ∈ minusKeys) :
    app.handleSettingsKey key = (app, app.editSettings (-1)) := by
  simp only [minusKeys, List.mem_cons, List.not_mem_nil, or_false] at h
  rcases h with h | h | h | h <;> simp [handleSettingsKey, h]

private theorem editSettings_shown (h : app.shownInterval = some shown) (delta : Int) :
    ∃ edit, app.editSettings delta = .editConfig edit ∧
      edit.interval? = some (stepInterval shown delta) := by
  unfold shownInterval at h
  unfold editSettings
  split at h
  · rename_i config hconfig hrow
    simp only [hconfig, hrow]
    cases h
    exact ⟨_, rfl, rfl⟩
  · rename_i config i hconfig hrow
    obtain ⟨provider, hprovider, rfl⟩ := Option.map_eq_some_iff.mp h
    simp only [hconfig, hrow, hprovider]
    exact ⟨_, rfl, rfl⟩
  · cases h

private theorem editSettings_rung {delta : Int} {edit : ConfigEdit}
    (h : app.editSettings delta = .editConfig edit) :
    ∀ secs ∈ edit.interval?, secs ∈ intervalRungs := by
  unfold editSettings at h
  split at h
  · cases h
    intro secs hsecs
    cases hsecs
    exact stepInterval_mem _ _
  · split at h
    · cases h
      exact fun secs hsecs => (Option.not_mem_none secs hsecs).elim
    · cases h
  · split at h
    · cases h
      intro secs hsecs
      cases hsecs
      exact stepInterval_mem _ _
    · cases h
  · cases h

private theorem clearSetting_interval {edit : ConfigEdit}
    (h : app.clearSetting = .editConfig edit) : edit.interval? = none := by
  unfold clearSetting at h
  split at h
  · cases h
    rfl
  · split at h
    · cases h
      rfl
    · cases h
  · cases h

private theorem handleSettingsKey_edits {key : KeyEvent} {edit : ConfigEdit}
    (h : (app.handleSettingsKey key).2 = .editConfig edit) :
    (∃ delta, app.editSettings delta = .editConfig edit) ∨
      app.clearSetting = .editConfig edit := by
  unfold handleSettingsKey at h
  split at h
  -- the steps either way and the inherited value, then the toggle
  case h_8 | h_9 | h_10 | h_11 => exact .inl ⟨1, h⟩
  case h_12 | h_13 | h_14 | h_15 => exact .inl ⟨-1, h⟩
  case h_18 | h_19 => exact .inr h
  case h_16 | h_17 =>
    split at h
    · exact .inl ⟨1, h⟩
    · cases h
  all_goals cases h

private theorem validateEdit_handleSettingsKey {key : KeyEvent} {edit : ConfigEdit}
    (h : (app.handleSettingsKey key).2 = .editConfig edit) : Config.validateEdit edit = .ok () := by
  apply Config.validateEdit_of_admits
  intro secs hsecs
  rcases handleSettingsKey_edits h with ⟨delta, hedit⟩ | hclear
  · exact Config.admits_rung (editSettings_rung hedit secs hsecs)
  · rw [clearSetting_interval hclear] at hsecs
    cases hsecs

private theorem le_shownInterval {F' : Type} {d : Daemon F'} (hd : d.Publishes)
    (hconfig : app.config = some d.state.configState) (h : app.shownInterval = some shown) :
    10 ≤ shown := by
  unfold shownInterval at h
  rw [hconfig] at h
  split at h
  · rename_i config hsome hrow
    cases hsome
    cases h
    rw [hd.view]
    show 10 ≤ (d.state.config.pollIntervalSecs.map Config.secsToU32).getD
      (Config.secsToU32 Config.defaultSecs)
    cases hown : d.state.config.pollIntervalSecs with
    | none => exact Config.admits_shown Config.admits_default
    | some secs => exact Config.admits_shown (hd.admitted.own secs hown)
  · rename_i config i hsome hrow
    cases hsome
    obtain ⟨row, hprovider, rfl⟩ := Option.map_eq_some_iff.mp h
    rw [hd.view] at hprovider
    obtain ⟨id, -, rfl⟩ := List.mem_map.mp (List.mem_of_getElem? hprovider)
    obtain ⟨secs, hsecs, hinterval⟩ := hd.admitted.pollInterval id
    have heq : Config.asSecs (d.state.config.pollInterval id) = secs := by
      rw [hinterval]
      exact Nat.mul_div_cancel secs (by decide)
    show 10 ≤ Config.secsToU32 (Config.asSecs (d.state.config.pollInterval id))
    rw [heq]
    exact Config.admits_shown hsecs
  · cases h

/-- On whatever settings a daemon publishes, `+` and `-` step the interval under the cursor up and
down, and every edit the overlay proposes is one the daemon accepts. -/
theorem settings_steps {Layout F' : Type} (toml : TomlCrates Layout) (storage : Storage F')
    (path : String) (known : List ProviderId) (first second : ConfigFile) (now : DateTime)
    (inputs : List ConfigInput)
    (hconfig : app.config = some (inputs.foldl (ConfigSystem.step toml)
      (ConfigSystem.start toml (Daemon.new storage path known now) first second
        now)).daemon.state.configState) :
    (∀ key edit, (app.handleSettingsKey key).2 = .editConfig edit →
      Config.validateEdit edit = .ok ()) ∧
    ∀ shown, app.shownInterval = some shown →
      (∀ key : KeyEvent, key.code ∈ plusKeys → ∃ edit up,
        (app.handleSettingsKey key).2 = .editConfig edit ∧ edit.interval? = some up ∧
          StepsUp shown up) ∧
      ∀ key : KeyEvent, key.code ∈ minusKeys → ∃ edit down,
        (app.handleSettingsKey key).2 = .editConfig edit ∧ edit.interval? = some down ∧
          StepsDown shown down := by
  have hpublishes := ConfigSystem.publishes_run toml storage path known first second now inputs
  refine ⟨fun key edit => validateEdit_handleSettingsKey, ?_⟩
  intro shown hshown
  have hmin := le_shownInterval hpublishes hconfig hshown
  constructor
  · intro key hkey
    obtain ⟨edit, hedit, hcarries⟩ := editSettings_shown hshown 1
    rw [handleSettingsKey_plus hkey]
    exact ⟨edit, _, hedit, hcarries, stepsUp_stepInterval shown⟩
  · intro key hkey
    obtain ⟨edit, hedit, hcarries⟩ := editSettings_shown hshown (-1)
    rw [handleSettingsKey_minus hkey]
    exact ⟨edit, _, hedit, hcarries, stepsDown_stepInterval hmin⟩

/-- A daemon that has just read a file with a global interval. -/
def readInterval (secs : Int) : ConfigSystem ℚ :=
  ConfigSystem.start (.plain [Config.headerDoc secs true]) Daemon.idle
    (.text (Toml.render (Config.headerDoc secs true)))
    (.text (Toml.render (Config.headerDoc secs true))) 0

/-- The overlay on its first row. -/
def onGlobalInterval (secs : Int) : App ℚ where
  overlay := some .settings
  config := some (readInterval secs).daemon.state.configState

/-- Three quarters of a minute step up. -/
theorem settings_steps_between : ∃ edit up,
    ((onGlobalInterval 45).handleSettingsKey { code := .char '+' }).2 = .editConfig edit ∧
      edit.interval? = some up ∧ StepsUp 45 up := by
  have hshown : (onGlobalInterval 45).shownInterval = some 45 := by decide
  have hsteps := @settings_steps ℚ (onGlobalInterval 45) Unit ℚ
    (.plain [Config.headerDoc 45 true]) .empty "config.toml" ["claude"] _ _ 0 [] rfl
  exact (hsteps.2 45 hshown).1 { code := .char '+' } (by decide)

/-- From two hours `+` proposes one. -/
theorem settings_steps_above :
    (onGlobalInterval 7200).shownInterval = some 7200 ∧
      ((onGlobalInterval 7200).handleKey { code := .char '+' }).2 =
        .editConfig (.globalPollInterval (some 3600)) ∧
      ¬ (7200 : UInt32) ≤ 3600 := by
  decide

end App
end Teiryo
