import Teiryo.Providers.Models

/-!
# What an id says of its window

`isServerDerived` tells windows of rows from windows of fixed buckets by their ids. It is right
about a payload unless a row takes the id of a fixed bucket that the payload does not have.
-/

namespace Teiryo
namespace Claude

theorem weekly_append_eq {slug fixed : String} :
    "weekly_" ++ slug = "weekly_" ++ fixed ↔ slug = fixed := by
  constructor
  · intro h
    have htext := congrArg String.toList h
    rw [String.toList_append, String.toList_append] at htext
    exact String.toList_inj.mp (List.append_cancel_left htext)
  · rintro rfl
    rfl

private theorem isServerDerived_weekly (slug : String) :
    isServerDerived ⟨"weekly_" ++ slug⟩ = true ↔ slug ∉ ["opus", "sonnet"] := by
  have hsession : "session_5h" ≠ "weekly_" ++ slug := by
    intro h
    have htext := congrArg String.toList h
    rw [String.toList_append] at htext
    exact absurd (List.cons.inj htext).1 (by decide)
  have hweekly : "weekly" ≠ "weekly_" ++ slug := by
    intro h
    have hlength := congrArg String.length h
    rw [String.length_append] at hlength
    have hseven : "weekly_".length = 7 := by decide
    have hsix : "weekly".length = 6 := by decide
    omega
  have hopus : "weekly_opus" = "weekly_" ++ slug ↔ slug = "opus" := by
    have hsplit : "weekly_opus" = "weekly_" ++ "opus" := by decide
    rw [hsplit, weekly_append_eq, eq_comm]
  have hsonnet : "weekly_sonnet" = "weekly_" ++ slug ↔ slug = "sonnet" := by
    have hsplit : "weekly_sonnet" = "weekly_" ++ "sonnet" := by decide
    rw [hsplit, weekly_append_eq, eq_comm]
  simp [isServerDerived, specs, hsession, hweekly, hopus, hsonnet]

section Windows

variable {F : Type} [F64 F] {serde : Serde F} {usage : UsageResponse}

private theorem isServerDerived_fixed {entry : BucketSpec × BucketGetter} (h : entry ∈ specs) :
    isServerDerived ⟨entry.1.id⟩ = false := by
  have hany : (specs.any fun other => other.1.id == entry.1.id) = true :=
    List.any_eq_true.mpr ⟨entry, h, beq_self_eq_true _⟩
  rw [isServerDerived, hany]
  rfl

private theorem covered_fixed {fixed : String} (h : fixed ∈ ["opus", "sonnet"]) :
    covered usage fixed = true ↔ HasBucket usage fixed := by
  have hself : sameModel fixed fixed = true ∧
      ∀ other ∈ ["opus", "sonnet"], sameModel fixed other = true → other = fixed := by
    rcases List.mem_cons.mp h with rfl | h
    · exact ⟨by decide, by decide⟩
    · rw [List.mem_singleton.mp h]
      exact ⟨by decide, by decide⟩
  unfold covered
  rw [List.any_eq_true]
  constructor
  · rintro ⟨other, hmem, hsame⟩
    have hbucket := mem_presentModels.mp hmem
    rw [← hself.2 other hbucket.mem hsame]
    exact hbucket
  · intro hbucket
    exact ⟨fixed, mem_presentModels.mpr hbucket, hself.1⟩

/-- A window is built from a row when a row is its source. -/
def FromLimits (s : Source × QuotaWindow F) : Prop := ∃ i, s.1 = .row i

/-- Whether every window of a payload has an id that says what it was built from. -/
def IdsTell (serde : Serde F) (usage : UsageResponse) : Prop :=
  ∀ s ∈ sourced serde usage, isServerDerived s.2.id = true ↔ FromLimits s

/-- Whether a readable row of the payload has this very slug. -/
def HasRow (serde : Serde F) (usage : UsageResponse) (slug : String) : Prop :=
  ∃ value ∈ limitRows usage.limits, ∃ entry model used,
    scopedRow value = some (entry, model) ∧ model.slug = slug ∧
      readable (f64Value serde) entry.percent = some used

theorem mem_sourced_cases {s : Source × QuotaWindow F} (h : s ∈ sourced serde usage) :
    s ∈ fixedSourced serde usage ∨ s ∈ rowsSourced serde usage := by
  rcases List.mem_append.mp h with h | h
  · exact .inl h
  · exact .inr ((Firsts.firsts_sublist _ _).subset h)

private theorem isServerDerived_of_fixed {s : Source × QuotaWindow F}
    (h : s ∈ fixedSourced serde usage) : isServerDerived s.2.id = false ∧ ¬ FromLimits s := by
  obtain ⟨i, entry, hentry, hreading, hsource⟩ := mem_fixedSourced.mp h
  obtain ⟨bucket, used, -, -, hw⟩ := bucketReading_eq_some hreading
  refine ⟨?_, ?_⟩
  · rw [hw]
    exact isServerDerived_fixed (List.mem_of_getElem? hentry)
  · rintro ⟨j, hrow⟩
    rw [hsource] at hrow
    cases hrow

/-- The id of the window of a row. -/
theorem rowsSourced_spec {s : Source × QuotaWindow F} (h : s ∈ rowsSourced serde usage) :
    FromLimits s ∧ ∃ value ∈ limitRows usage.limits, ∃ entry model used,
      scopedRow value = some (entry, model) ∧ covered usage model.slug = false ∧
        readable (f64Value serde) entry.percent = some used ∧
        s.2 = limitWindow serde entry model used := by
  obtain ⟨i, value, hvalue, hreading, hsource⟩ := mem_rowsSourced.mp h
  obtain ⟨entry, model, used, hrow, hcovered, hused, hw⟩ := rowReading_eq_some hreading
  exact ⟨⟨i, hsource⟩, value, List.mem_of_getElem? hvalue, entry, model, used, hrow, hcovered,
    hused, hw⟩

private theorem hasBucket_of_id {entry : BucketSpec × BucketGetter} {fixed : String}
    (h : entry ∈ specs)
    (hpresent : (entry.2 usage).isSome = true) (hfixed : fixed ∈ ["opus", "sonnet"])
    (hid : entry.1.id = "weekly_" ++ fixed) : HasBucket usage fixed := by
  simp only [specs, List.mem_cons, List.not_mem_nil, or_false] at h hfixed
  rcases hfixed with rfl | rfl
  · rcases h with rfl | rfl | rfl | rfl
    · exact absurd hid (by decide)
    · exact absurd hid (by decide)
    · exact .inl ⟨rfl, hpresent⟩
    · exact absurd hid (by decide)
  · rcases h with rfl | rfl | rfl | rfl
    · exact absurd hid (by decide)
    · exact absurd hid (by decide)
    · exact absurd hid (by decide)
    · exact .inr ⟨rfl, hpresent⟩

/-- No fixed bucket of the payload has the id of a row it does not cover. -/
theorem rowsSourced_free {s : Source × QuotaWindow F} (h : s ∈ rowsSourced serde usage) :
    sourcedId s ∉ (fixedSourced serde usage).map sourcedId := by
  obtain ⟨-, value, -, entry, model, used, -, hcovered, -, hw⟩ := rowsSourced_spec h
  intro htaken
  obtain ⟨t, ht, hid⟩ := List.mem_map.mp htaken
  obtain ⟨j, other, hother, hread, -⟩ := mem_fixedSourced.mp ht
  obtain ⟨bucket, used', hpresent, -, hw'⟩ := bucketReading_eq_some hread
  have hmem := List.mem_of_getElem? hother
  have hotherId : other.1.id = "weekly_" ++ model.slug := by
    have hval := congrArg WindowId.val hid
    rw [sourcedId, sourcedId, hw, hw'] at hval
    exact hval
  have hfixed : model.slug ∈ ["opus", "sonnet"] := by
    by_contra hnot
    have hderived := (isServerDerived_weekly model.slug).mpr hnot
    rw [← hotherId, isServerDerived_fixed hmem] at hderived
    cases hderived
  have hbucket := hasBucket_of_id hmem (Option.isSome_iff_exists.mpr ⟨bucket, hpresent⟩) hfixed
    hotherId
  rw [(covered_fixed hfixed).mpr hbucket] at hcovered
  cases hcovered

theorem sourced_eq : sourced serde usage =
    fixedSourced serde usage ++ Firsts.firsts sourcedId [] (rowsSourced serde usage) := by
  have hfirsts : Firsts.firsts sourcedId ((fixedSourced serde usage).map sourcedId)
      (rowsSourced serde usage) = Firsts.firsts sourcedId [] (rowsSourced serde usage) := by
    apply Firsts.firsts_congr
    intro s hs
    exact iff_of_false (rowsSourced_free hs) List.not_mem_nil
  rw [sourced, hfirsts]

private theorem exists_row_of_hasRow {fixed : String} (hfixed : fixed ∈ ["opus", "sonnet"])
    (hbucket : ¬ HasBucket usage fixed) (h : HasRow serde usage fixed) :
    ∃ s ∈ sourced serde usage, FromLimits s ∧ s.2.id = ⟨"weekly_" ++ fixed⟩ := by
  obtain ⟨value, hvalue, entry, model, used, hrow, hslug, hused⟩ := h
  have hcovered : covered usage model.slug = false := by
    rw [hslug]
    exact Bool.eq_false_iff.mpr fun hc => hbucket ((covered_fixed hfixed).mp hc)
  obtain ⟨i, hi⟩ := List.mem_iff_getElem?.mp hvalue
  have hmem : (Source.row i, limitWindow serde entry model used) ∈ rowsSourced serde usage :=
    mem_rowsSourced.mpr ⟨i, value, hi, rowReading_of hrow hcovered hused, rfl⟩
  have hid : (⟨"weekly_" ++ fixed⟩ : WindowId) ∈ (rowsSourced serde usage).map sourcedId :=
    List.mem_map.mpr ⟨_, hmem, by rw [← hslug]; rfl⟩
  have hfree : (⟨"weekly_" ++ fixed⟩ : WindowId) ∉ (fixedSourced serde usage).map sourcedId := by
    have h := rowsSourced_free hmem
    rw [← hslug]
    exact h
  obtain ⟨s, hs, hsid⟩ := List.mem_map.mp (Firsts.key_mem_firsts.mpr ⟨hfree, hid⟩)
  exact ⟨s, List.mem_append_right _ hs,
    (rowsSourced_spec ((Firsts.firsts_sublist _ _).subset hs)).1, hsid⟩

private theorem idsTell_iff :
    IdsTell serde usage ↔
      ∀ fixed ∈ ["opus", "sonnet"], HasBucket usage fixed ∨ ¬ HasRow serde usage fixed := by
  constructor
  · intro h fixed hfixed
    by_contra hnot
    obtain ⟨hbucket, hrow⟩ := not_or.mp hnot
    obtain ⟨s, hs, hlimits, hid⟩ := exists_row_of_hasRow hfixed hbucket (not_not.mp hrow)
    have hderived := (h s hs).mpr hlimits
    rw [hid] at hderived
    exact (isServerDerived_weekly fixed).mp hderived hfixed
  · intro h s hs
    rcases mem_sourced_cases hs with hs | hs
    · obtain ⟨hfalse, hnot⟩ := isServerDerived_of_fixed hs
      rw [hfalse]
      exact iff_of_false (by simp) hnot
    · obtain ⟨hlimits, value, hvalue, entry, model, used, hrow, hcovered, hused, hw⟩ :=
        rowsSourced_spec hs
      refine iff_of_true ?_ hlimits
      rw [hw]
      apply (isServerDerived_weekly model.slug).mpr
      intro hfixed
      rcases h model.slug hfixed with hbucket | hnone
      · rw [(covered_fixed hfixed).mpr hbucket] at hcovered
        cases hcovered
      · exact hnone ⟨value, hvalue, entry, model, used, hrow, rfl, hused⟩

/-- The ids of a parsed payload tell rows from fixed buckets exactly when no readable row has the
very name of a fixed model whose bucket is missing. -/
theorem server_derived_exact_iff {raw : RawResponse} {windows : List (QuotaWindow F)}
    (h : parse serde raw = .ok windows) :
    ∃ value usage, serde.fromSlice raw.body = .ok value ∧
      UsageResponse.deserialize value = some usage ∧
      windows = (sourced serde usage).map Prod.snd ∧
      ((∀ s ∈ sourced serde usage, isServerDerived s.2.id = true ↔ FromLimits s) ↔
        ∀ fixed ∈ ["opus", "sonnet"], HasBucket usage fixed ∨ ¬ HasRow serde usage fixed) := by
  obtain ⟨value, usage, -, hvalue, husage, hwindows⟩ := parse_ok_sourced h
  exact ⟨value, usage, hvalue, husage, hwindows, idsTell_iff⟩

end Windows

def weeklyBucket : Json := .object [("utilization", .number "27")]

def opusRow : Json :=
  .object [("kind", .string "weekly_scoped"), ("percent", .number "48"),
    ("scope", .object [("model", .object [("display_name", .string "Opus")])])]

/-- The account-wide week, and the cap of a model that has no bucket. -/
def opusPayload : Json := .object [("seven_day", weeklyBucket), ("limits", .array [opusRow])]

def opusText : String :=
  "\x7b\"seven_day\":\x7b\"utilization\":27\x7d,\"limits\":[\x7b\"kind\":\"weekly_scoped\"" ++
    ",\"percent\":48,\"scope\":\x7b\"model\":\x7b\"display_name\":\"Opus\"\x7d\x7d\x7d]\x7d"

def opusModel : LimitModel where
  id := none
  displayName := some "Opus"

def opusEntry : LimitEntry where
  kind := some "weekly_scoped"
  percent := some (.number "48")
  resetsAt := none
  scope := some { model := some opusModel }

def opusUsage : UsageResponse where
  fiveHour := none
  sevenDay := some { utilization := some (.number "27"), resetsAt := none }
  sevenDayOpus := none
  sevenDaySonnet := none
  limits := some (.array [opusRow])

private theorem parse_opusPayload {body : List UInt8}
    (hbody : (knownTexts opusText opusPayload).fromSlice body = .ok opusPayload) :
    ∃ windows, parse (knownTexts opusText opusPayload) { status := 200, body } = .ok windows := by
  unfold parse
  rw [if_neg (not_not_intro rfl), hbody]
  exact ⟨_, rfl⟩

theorem server_derived_exact_iff_opusPayload :
    ∃ windows value usage,
      parse (knownTexts opusText opusPayload)
        { status := 200, body := opusText.toUTF8.toList } = .ok windows ∧
      UsageResponse.deserialize value = some usage ∧
      ((∀ s ∈ sourced (knownTexts opusText opusPayload) usage,
          isServerDerived s.2.id = true ↔ FromLimits s) ↔
        ∀ fixed ∈ ["opus", "sonnet"],
          HasBucket usage fixed ∨ ¬ HasRow (knownTexts opusText opusPayload) usage fixed) := by
  obtain ⟨windows, h⟩ := parse_opusPayload (if_pos rfl)
  obtain ⟨value, usage, -, husage, -, hiff⟩ := server_derived_exact_iff h
  exact ⟨windows, value, usage, h, husage, hiff⟩

/-- The window of the row has the id of the missing bucket, so it passes for a fixed one. -/
theorem derived_opus_passes_for_fixed :
    ¬ ∀ (serde : Serde ℚ) (raw : RawResponse) (windows : List (QuotaWindow ℚ)) (value : Json)
      (usage : UsageResponse), parse serde raw = .ok windows →
      serde.fromSlice raw.body = .ok value → UsageResponse.deserialize value = some usage →
      ∀ s ∈ sourced serde usage, isServerDerived s.2.id = true ↔ FromLimits s := by
  intro h
  obtain ⟨windows, hparse⟩ := parse_opusPayload (if_pos rfl)
  have hexact := h (knownTexts opusText opusPayload) _ windows opusPayload opusUsage hparse
    (if_pos rfl) rfl
  have hrow : HasRow (knownTexts opusText opusPayload) opusUsage "opus" :=
    ⟨opusRow, List.mem_singleton.mpr rfl, opusEntry, opusModel, 48, rfl, by decide, rfl⟩
  rcases idsTell_iff.mp hexact "opus" List.mem_cons_self with hbucket | hnone
  · rcases hbucket with ⟨-, hsome⟩ | ⟨hne, -⟩
    · cases hsome
    · exact absurd hne (by decide)
  · exact hnone hrow

end Claude
end Teiryo
