import Teiryo.Framework.JsonErase
import Teiryo.Providers.Sources

/-!
# What readings cannot move

The ids and labels of a payload, and which rows its fixed buckets suppress, are functions of the
payload without its readings. A reading decides whether a window is reported, and never under
which id.
-/

namespace Teiryo
namespace Claude

/-- The fields whose contents say what is used and when it starts over. -/
def readingFields : List String := ["utilization", "percent", "resets_at"]

/-- A fixed bucket without its readings. -/
def bucketErased : Json → Json :=
  Json.eraseFields readingFields ["utilization", "resets_at"] fun _ => Json.erase readingFields

/-- A row of `limits[]` without its readings. -/
def rowErased : Json → Json :=
  Json.eraseFields readingFields ["kind", "percent", "resets_at", "scope"] fun _ =>
    Json.erase readingFields

def limitsErased : Json → Json
  | .array rows => .array (rows.map rowErased)
  | value => Json.erase readingFields value

/-- What is left of one member of a payload. -/
def memberErased (name : String) : Json → Json :=
  if name = "limits" then limitsErased
  else if name ∈ ["five_hour", "seven_day", "seven_day_opus", "seven_day_sonnet"] then bucketErased
  else Json.erase readingFields

/-- A payload without its readings, its buckets and rows read as objects or as arrays. -/
def payloadErased : Json → Json :=
  Json.eraseFields readingFields
    ["five_hour", "seven_day", "seven_day_opus", "seven_day_sonnet", "limits"] memberErased

private theorem limitModel_erase (value : Json) :
    LimitModel.deserialize (Json.erase readingFields value) = LimitModel.deserialize value := by
  have hns : ∀ n ∈ ["id", "display_name"], n ∉ readingFields := by decide
  rw [Json.erase_eq_eraseFields hns]
  rcases Json.fieldsLeft readingFields ["id", "display_name"]
      (fun _ => Json.erase readingFields) value with
    ⟨hnone, hleft⟩ | ⟨fs, ls, hfs, hls, hflen, hllen, hget⟩
  · rw [LimitModel.deserialize, LimitModel.deserialize, hnone, hleft]
  · match fs, ls, hflen, hllen with
    | [id, name], [id', name'], _, _ =>
      have hid := hget 0 "id" rfl (by decide)
      have hname := hget 1 "display_name" rfl (by decide)
      simp only [List.getElem?_cons_zero, List.getElem?_cons_succ, Option.map_some,
        Option.some.injEq] at hid hname
      rw [LimitModel.deserialize, LimitModel.deserialize, hfs, hls, hid, hname]
      simp only [Json.optional_same (fun _ => Json.erase_eq_null)
        (Json.asString_erase readingFields)]

private theorem limitScope_erase (value : Json) :
    LimitScope.deserialize (Json.erase readingFields value) = LimitScope.deserialize value := by
  have hns : ∀ n ∈ ["model"], n ∉ readingFields := by decide
  rw [Json.erase_eq_eraseFields hns]
  rcases Json.fieldsLeft readingFields ["model"] (fun _ => Json.erase readingFields) value with
    ⟨hnone, hleft⟩ | ⟨fs, ls, hfs, hls, hflen, hllen, hget⟩
  · rw [LimitScope.deserialize, LimitScope.deserialize, hnone, hleft]
  · match fs, ls, hflen, hllen with
    | [model], [model'], _, _ =>
      have hmodel := hget 0 "model" rfl (by decide)
      simp only [List.getElem?_cons_zero, Option.map_some, Option.some.injEq] at hmodel
      rw [LimitScope.deserialize, LimitScope.deserialize, hfs, hls, hmodel]
      simp only [Json.optional_same (fun _ => Json.erase_eq_null) limitModel_erase]

private theorem limitEntry_erased (value : Json) :
    (LimitEntry.deserialize (rowErased value)).map (fun entry => (entry.kind, entry.scope)) =
      (LimitEntry.deserialize value).map fun entry => (entry.kind, entry.scope) := by
  unfold rowErased
  rcases Json.fieldsLeft readingFields ["kind", "percent", "resets_at", "scope"]
      (fun _ => Json.erase readingFields) value with
    ⟨hnone, hleft⟩ | ⟨fs, ls, hfs, hls, hflen, hllen, hget⟩
  · rw [LimitEntry.deserialize, LimitEntry.deserialize, hnone, hleft]
  · match fs, ls, hflen, hllen with
    | [kind, percent, resetsAt, scope], [kind', percent', resetsAt', scope'], _, _ =>
      have hkind := hget 0 "kind" rfl (by decide)
      have hscope := hget 3 "scope" rfl (by decide)
      simp only [List.getElem?_cons_zero, List.getElem?_cons_succ, Option.map_some,
        Option.some.injEq] at hkind hscope
      rw [LimitEntry.deserialize, LimitEntry.deserialize, hfs, hls, hkind, hscope]
      simp only [Json.optional_same (fun _ => Json.erase_eq_null)
          (Json.asString_erase readingFields),
        Json.optional_same (fun _ => Json.erase_eq_null) limitScope_erase]
      cases Json.optional Json.asString kind with
      | none => rfl
      | some kind =>
        cases Json.optional LimitScope.deserialize scope with
        | none => rfl
        | some scope => rfl

private theorem usageBucket_erased (value : Json) :
    (UsageBucket.deserialize (bucketErased value)).map (fun _ => ()) =
      (UsageBucket.deserialize value).map fun _ => () := by
  unfold bucketErased
  rcases Json.fieldsLeft readingFields ["utilization", "resets_at"]
      (fun _ => Json.erase readingFields) value with
    ⟨hnone, hleft⟩ | ⟨fs, ls, hfs, hls, hflen, hllen, -⟩
  · rw [UsageBucket.deserialize, UsageBucket.deserialize, hnone, hleft]
  · match fs, ls, hflen, hllen with
    | [utilization, resetsAt], [utilization', resetsAt'], _, _ =>
      rw [UsageBucket.deserialize, UsageBucket.deserialize, hfs, hls]
      rfl

private theorem limitRows_erased (limits : Option Json) :
    limitRows (Json.raw (limits.map limitsErased)) =
      (limitRows (Json.raw limits)).map rowErased := by
  cases limits with
  | none => rfl
  | some value => cases value <;> rfl

private theorem optional_bucket {field : Option Json} {bucket : Option UsageBucket}
    (h : Json.optional UsageBucket.deserialize field = some bucket) :
    ∃ left, Json.optional UsageBucket.deserialize (field.map bucketErased) = some left ∧
      left.isSome = bucket.isSome := by
  have hmap := Json.optional_map (fun _ => Json.eraseFields_eq_null) usageBucket_erased field
  change (Json.optional UsageBucket.deserialize (field.map bucketErased)).map _ = _ at hmap
  rw [h] at hmap
  obtain ⟨left, hleft, heq⟩ := Option.map_eq_some_iff.mp hmap
  refine ⟨left, hleft, ?_⟩
  simpa using congrArg Option.isSome heq

private theorem usageResponse_erased {value : Json} {usage : UsageResponse}
    (h : UsageResponse.deserialize value = some usage) :
    ∃ left, UsageResponse.deserialize (payloadErased value) = some left ∧
      (∀ entry ∈ specs, (entry.2 left).isSome = (entry.2 usage).isSome) ∧
      limitRows left.limits = (limitRows usage.limits).map rowErased := by
  unfold payloadErased
  rcases Json.fieldsLeft readingFields
      ["five_hour", "seven_day", "seven_day_opus", "seven_day_sonnet", "limits"]
      memberErased value with
    ⟨hnone, -⟩ | ⟨fs, ls, hfs, hls, hflen, hllen, hget⟩
  · rw [UsageResponse.deserialize, hnone] at h
    cases h
  · match fs, ls, hflen, hllen with
    | [five, seven, opus, sonnet, limits], [five', seven', opus', sonnet', limits'], _, _ =>
      have hfive := hget 0 "five_hour" rfl (by decide)
      have hseven := hget 1 "seven_day" rfl (by decide)
      have hopus := hget 2 "seven_day_opus" rfl (by decide)
      have hsonnet := hget 3 "seven_day_sonnet" rfl (by decide)
      have hlimits := hget 4 "limits" rfl (by decide)
      simp only [List.getElem?_cons_zero, List.getElem?_cons_succ, Option.map_some,
        Option.some.injEq] at hfive hseven hopus hsonnet hlimits
      rw [UsageResponse.deserialize, hfs] at h
      simp only [Option.bind_eq_bind, Option.bind_eq_some_iff, Option.pure_def,
        Option.some.injEq] at h
      obtain ⟨b₁, h₁, b₂, h₂, b₃, h₃, b₄, h₄, rfl⟩ := h
      obtain ⟨l₁, hl₁, hs₁⟩ := optional_bucket h₁
      obtain ⟨l₂, hl₂, hs₂⟩ := optional_bucket h₂
      obtain ⟨l₃, hl₃, hs₃⟩ := optional_bucket h₃
      obtain ⟨l₄, hl₄, hs₄⟩ := optional_bucket h₄
      refine ⟨⟨l₁, l₂, l₃, l₄, Json.raw limits'⟩, ?_, ?_, ?_⟩
      · rw [UsageResponse.deserialize, hls, hfive, hseven, hopus, hsonnet]
        change (do
          let fiveHour ← Json.optional UsageBucket.deserialize (five.map bucketErased)
          let sevenDay ← Json.optional UsageBucket.deserialize (seven.map bucketErased)
          let sevenDayOpus ← Json.optional UsageBucket.deserialize (opus.map bucketErased)
          let sevenDaySonnet ← Json.optional UsageBucket.deserialize (sonnet.map bucketErased)
          return (⟨fiveHour, sevenDay, sevenDayOpus, sevenDaySonnet, Json.raw limits'⟩ :
            UsageResponse)) = _
        rw [hl₁, hl₂, hl₃, hl₄]
        rfl
      · simp [specs, hs₁, hs₂, hs₃, hs₄]
      · rw [hlimits]
        exact limitRows_erased limits

private theorem scopedRow_erased (value : Json) :
    (scopedRow (rowErased value)).map Prod.snd = (scopedRow value).map Prod.snd := by
  have h := limitEntry_erased value
  unfold scopedRow
  cases hleft : LimitEntry.deserialize (rowErased value) with
  | none =>
    cases hentry : LimitEntry.deserialize value with
    | none => rfl
    | some entry => simp [hleft, hentry] at h
  | some left =>
    cases hentry : LimitEntry.deserialize value with
    | none => simp [hleft, hentry] at h
    | some entry =>
      simp only [hleft, hentry, Option.map_some, Option.some.injEq, Prod.mk.injEq] at h
      simp only [h.1, h.2]
      by_cases hkind : entry.kind ≠ some weeklyScopedKind
      · rw [if_pos hkind, if_pos hkind]
      · rw [if_neg hkind, if_neg hkind]
        cases entry.scope.bind LimitScope.model with
        | none => rfl
        | some model =>
          by_cases hslug : model.slug = ""
          · simp [hslug]
          · simp [hslug]

/-- Where the label of a window comes from. -/
inductive LabelSource where
  | compiledIn (label : String)
  | named (name : String)
  | slugged (slug : String)
  deriving DecidableEq, Repr

def LabelSource.text : LabelSource → String
  | .compiledIn label => label
  | .named name => "Weekly — " ++ name
  | .slugged slug => "Weekly — " ++ slug

def rowLabel (model : LimitModel) : LabelSource :=
  if model.displayName.getD "" = "" then .slugged model.slug
  else .named (model.displayName.getD "")

/-- What a bucket or row of a payload would be reported as, and whether a fixed bucket of its
model stands in for it. -/
structure Mapping where
  id : WindowId
  label : LabelSource
  suppressed : Bool
  deriving DecidableEq, Repr

def rowMapping (usage : UsageResponse) (model : LimitModel) : Mapping where
  id := rowId model
  label := rowLabel model
  suppressed := covered usage model.slug

/-- What a present fixed bucket or a `weekly_scoped` row is mapped to. -/
def mapping (usage : UsageResponse) : Source → Option Mapping
  | .bucket i => specs[i]?.bind fun entry =>
    if (entry.2 usage).isSome then
      some { id := ⟨entry.1.id⟩, label := .compiledIn entry.1.label, suppressed := false }
    else none
  | .row i => (limitRows usage.limits)[i]?.bind fun value =>
    ((scopedRow value).map Prod.snd).map (rowMapping usage)

private theorem bucketModel_eq (usage : UsageResponse) (entry : BucketSpec × BucketGetter) :
    bucketModel usage entry =
      if (entry.2 usage).isSome then
        match entry.1.scope with
        | .model name => some name
        | .accountWide => none
      else none := by
  unfold bucketModel
  cases entry.2 usage with
  | none => rfl
  | some bucket => cases entry.1.scope <;> rfl

private theorem covered_congr {usage usage' : UsageResponse}
    (h : ∀ entry ∈ specs, (entry.2 usage).isSome = (entry.2 usage').isSome) :
    covered usage = covered usage' := by
  have hpresent : presentModels usage = presentModels usage' := by
    unfold presentModels
    apply List.filterMap_congr
    intro entry hentry
    rw [bucketModel_eq, bucketModel_eq, h entry hentry]
  funext slug
  rw [covered, covered, hpresent]

private theorem mapping_erased {value : Json} {usage : UsageResponse}
    (h : UsageResponse.deserialize value = some usage) :
    ∃ left, UsageResponse.deserialize (payloadErased value) = some left ∧
      mapping left = mapping usage := by
  obtain ⟨left, hleft, hbuckets, hrows⟩ := usageResponse_erased h
  refine ⟨left, hleft, ?_⟩
  funext source
  cases source with
  | bucket i =>
    show specs[i]?.bind _ = specs[i]?.bind _
    cases hentry : specs[i]? with
    | none => rfl
    | some entry =>
      have hsome := hbuckets entry (List.mem_of_getElem? hentry)
      simp only [Option.bind_some, hsome]
  | row i =>
    have hmapping : rowMapping left = rowMapping usage := by
      funext model
      rw [rowMapping, rowMapping, covered_congr hbuckets]
    show (limitRows left.limits)[i]?.bind _ = (limitRows usage.limits)[i]?.bind _
    rw [hrows, List.getElem?_map, hmapping]
    cases (limitRows usage.limits)[i]? with
    | none => rfl
    | some row =>
      simp only [Option.map_some, Option.bind_some]
      rw [scopedRow_erased]

section Emitted

variable {F : Type} [F64 F] {serde : Serde F} {usage : UsageResponse}

omit [F64 F] in
/-- Whether the reading of a source can be read. -/
def HasReading (serde : Serde F) (usage : UsageResponse) : Source → Prop
  | .bucket i => ∃ entry bucket used, specs[i]? = some entry ∧ entry.2 usage = some bucket ∧
      readable (f64Value serde) bucket.utilization = some used
  | .row i => ∃ value entry model used, (limitRows usage.limits)[i]? = some value ∧
      scopedRow value = some (entry, model) ∧
      readable (f64Value serde) entry.percent = some used

/-- A payload `parse` decodes. -/
structure Decodes (serde : Serde F) (raw : RawResponse) (value : Json) (usage : UsageResponse) :
    Prop where
  status : raw.status = 200
  document : serde.fromSlice raw.body = .ok value
  usage : UsageResponse.deserialize value = some usage

/-- The ids a payload is reported under. -/
def emitted (serde : Serde F) (raw : RawResponse) : List WindowId :=
  match parse serde raw with
  | .ok windows => windows.map QuotaWindow.id
  | .error _ => []

private theorem emitted_eq {raw : RawResponse} {value : Json} (h : Decodes serde raw value usage) :
    emitted serde raw = (sourced serde usage).map sourcedId := by
  rw [emitted, parse_decoded h.status h.document h.usage]
  by_cases hnil : sourced serde usage = []
  · rw [if_pos hnil, hnil]
    rfl
  · rw [if_neg hnil]
    exact List.map_map

private theorem fixedSourced_mapping {s : Source × QuotaWindow F}
    (h : s ∈ fixedSourced serde usage) :
    ∃ m, mapping usage s.1 = some m ∧ m.suppressed = false ∧ s.2.id = m.id ∧
      s.2.label = m.label.text ∧ HasReading serde usage s.1 := by
  obtain ⟨i, entry, hentry, hreading, hsource⟩ := mem_fixedSourced.mp h
  obtain ⟨bucket, used, hbucket, hused, hw⟩ := bucketReading_eq_some hreading
  rw [hsource, hw]
  refine ⟨⟨⟨entry.1.id⟩, .compiledIn entry.1.label, false⟩, ?_, rfl, rfl, rfl, ?_⟩
  · simp [mapping, hentry, hbucket]
  · exact ⟨entry, bucket, used, hentry, hbucket, hused⟩

private theorem rowsSourced_mapping {s : Source × QuotaWindow F} (h : s ∈ rowsSourced serde usage) :
    ∃ m, mapping usage s.1 = some m ∧ m.suppressed = false ∧ s.2.id = m.id ∧
      s.2.label = m.label.text ∧ HasReading serde usage s.1 := by
  obtain ⟨i, value, hvalue, hreading, hsource⟩ := mem_rowsSourced.mp h
  obtain ⟨entry, model, used, hrow, hcovered, hused, hw⟩ := rowReading_eq_some hreading
  rw [hsource, hw]
  refine ⟨rowMapping usage model, ?_, hcovered, rfl, ?_, ?_⟩
  · simp [mapping, hvalue, hrow]
  · show (if model.displayName.getD "" = "" then _ else _) = (rowLabel model).text
    unfold rowLabel
    split
    · rfl
    · rfl
  · exact ⟨value, entry, model, used, hvalue, hrow, hused⟩

private theorem id_mem_of_mapping {source : Source} {m : Mapping}
    (hm : mapping usage source = some m)
    (hfree : m.suppressed = false) (hreading : HasReading serde usage source) :
    m.id ∈ (sourced serde usage).map sourcedId := by
  rw [id_mem_sourced]
  cases source with
  | bucket i =>
    left
    obtain ⟨entry, bucket, used, hentry, hbucket, hused⟩ := hreading
    have hid : m.id = ⟨entry.1.id⟩ := by
      simp [mapping, hentry, hbucket] at hm
      rw [← hm]
    refine List.mem_map.mpr ⟨(.bucket i, bucketWindow serde entry.1 bucket used), ?_, hid.symm⟩
    exact mem_fixedSourced.mpr ⟨i, entry, hentry, bucketReading_of hbucket hused, rfl⟩
  | row i =>
    right
    obtain ⟨value, entry, model, used, hvalue, hrow, hused⟩ := hreading
    have hmodel : rowMapping usage model = m := by
      simpa [mapping, hvalue, hrow] using hm
    rw [← hmodel] at hfree ⊢
    have hcovered : covered usage model.slug = false := hfree
    refine List.mem_map.mpr ⟨(.row i, limitWindow serde entry model used), ?_, rfl⟩
    exact mem_rowsSourced.mpr ⟨i, value, hvalue, rowReading_of hrow hcovered hused, rfl⟩

/-- The ids of a payload: those of the sources with a reading that nothing suppresses. -/
theorem mem_sourcedIds_iff {id : WindowId} :
    id ∈ (sourced serde usage).map sourcedId ↔
      ∃ source m, mapping usage source = some m ∧ m.suppressed = false ∧ m.id = id ∧
        HasReading serde usage source := by
  constructor
  · intro h
    rcases id_mem_sourced.mp h with h | h
    · obtain ⟨s, hs, hid⟩ := List.mem_map.mp h
      obtain ⟨m, hm, hfree, hsame, -, hreading⟩ := fixedSourced_mapping hs
      exact ⟨s.1, m, hm, hfree, hsame.symm.trans hid, hreading⟩
    · obtain ⟨s, hs, hid⟩ := List.mem_map.mp h
      obtain ⟨m, hm, hfree, hsame, -, hreading⟩ := rowsSourced_mapping hs
      exact ⟨s.1, m, hm, hfree, hsame.symm.trans hid, hreading⟩
  · rintro ⟨source, m, hm, hfree, hid, hreading⟩
    rw [← hid]
    exact id_mem_of_mapping hm hfree hreading

/-- Payloads that differ in their readings alone map their buckets and rows alike. What one
reports are the ids of its readings, and a reading lost takes no other id with it. -/
theorem readings_move_nothing {raw raw' : RawResponse} {value value' : Json}
    {usage' : UsageResponse} (h : Decodes serde raw value usage)
    (h' : Decodes serde raw' value' usage') (hsame : payloadErased value = payloadErased value') :
    (∀ source, mapping usage source = mapping usage' source) ∧
    (∀ windows, parse serde raw = .ok windows → ∀ w ∈ windows, ∃ source m,
      mapping usage source = some m ∧ m.suppressed = false ∧ w.id = m.id ∧
        w.label = m.label.text) ∧
    (∀ id, id ∈ emitted serde raw ↔ ∃ source m, mapping usage source = some m ∧
      m.suppressed = false ∧ m.id = id ∧ HasReading serde usage source) ∧
    ∀ source, ¬ HasReading serde usage' source →
      (∀ other, other ≠ source → (HasReading serde usage other ↔ HasReading serde usage' other)) →
      (∀ id ∈ emitted serde raw', id ∈ emitted serde raw) ∧
      ∀ id ∈ emitted serde raw, id ∈ emitted serde raw' ∨
        ∃ m, mapping usage source = some m ∧ m.id = id := by
  obtain ⟨left, hleft, hmap⟩ := mapping_erased h.usage
  obtain ⟨left', hleft', hmap'⟩ := mapping_erased h'.usage
  have hmapping : mapping usage = mapping usage' := by
    rw [hsame, hleft'] at hleft
    cases hleft
    rw [← hmap, hmap']
  refine ⟨congrFun hmapping, ?_, ?_, ?_⟩
  · intro windows hwindows w hw
    obtain ⟨value₀, usage₀, -, hvalue, husage, heq⟩ := parse_ok_sourced hwindows
    rw [h.document] at hvalue
    cases hvalue
    rw [h.usage] at husage
    cases husage
    rw [heq] at hw
    obtain ⟨s, hs, rfl⟩ := List.mem_map.mp hw
    rcases List.mem_append.mp hs with hs | hs
    · obtain ⟨m, hm, hfree, hid, hlabel, -⟩ := fixedSourced_mapping hs
      exact ⟨s.1, m, hm, hfree, hid, hlabel⟩
    · obtain ⟨m, hm, hfree, hid, hlabel, -⟩ :=
        rowsSourced_mapping ((Firsts.firsts_sublist _ _).subset hs)
      exact ⟨s.1, m, hm, hfree, hid, hlabel⟩
  · intro id
    rw [emitted_eq h]
    exact mem_sourcedIds_iff
  · intro source hlost hothers
    rw [emitted_eq h, emitted_eq h']
    constructor
    · intro id hid
      obtain ⟨other, m, hm, hfree, hmid, hreading⟩ := mem_sourcedIds_iff.mp hid
      have hne : other ≠ source := by
        rintro rfl
        exact hlost hreading
      rw [← hmapping] at hm
      exact mem_sourcedIds_iff.mpr ⟨other, m, hm, hfree, hmid, (hothers other hne).mpr hreading⟩
    · intro id hid
      obtain ⟨other, m, hm, hfree, hmid, hreading⟩ := mem_sourcedIds_iff.mp hid
      by_cases hsource : other = source
      · right
        rw [← hsource]
        exact ⟨m, hm, hmid⟩
      · left
        have hm' := hm
        rw [hmapping] at hm'
        exact mem_sourcedIds_iff.mpr
          ⟨other, m, hm', hfree, hmid, (hothers other hsource).mp hreading⟩

end Emitted

/-- A session, and a model whose fixed bucket and row are both there. -/
def opusPoll (opus : Json) : Json :=
  .object [("five_hour", .object [("utilization", .number "27")]), ("seven_day_opus", opus),
    ("limits", .array [.object [("kind", .string "weekly_scoped"), ("percent", .number "30"),
      ("scope", .object [("model", .object [("display_name", .string "Claude Opus 4.5")])])]])]

def opusPollHead : String :=
  "\x7b\"five_hour\":\x7b\"utilization\":27\x7d,\"seven_day_opus\":"

def opusPollTail : String :=
  ",\"limits\":[\x7b\"kind\":\"weekly_scoped\",\"percent\":30,\"scope\":\x7b" ++
    "\"model\":\x7b\"display_name\":\"Claude Opus 4.5\"\x7d\x7d\x7d]\x7d"

def asciiBytes (text : String) : List UInt8 := text.toList.map fun c => c.toNat.toUInt8

/-- Texts with different middles are different. -/
theorem asciiBytes_ne (head tail : String) {middle middle' : String}
    (h : asciiBytes middle ≠ asciiBytes middle') :
    asciiBytes (head ++ middle ++ tail) ≠ asciiBytes (head ++ middle' ++ tail) := by
  have happend : ∀ a b : String, asciiBytes (a ++ b) = asciiBytes a ++ asciiBytes b := by
    intro a b
    simp [asciiBytes]
  intro heq
  rw [happend, happend, happend, happend] at heq
  exact h (List.append_cancel_left (List.append_cancel_right heq))

def opusRead : RawResponse where
  status := 200
  body := asciiBytes (opusPollHead ++ "\x7b\"utilization\":30\x7d" ++ opusPollTail)

/-- The same poll without the reading. -/
def opusUnread : RawResponse where
  status := 200
  body := asciiBytes (opusPollHead ++ "\x7b\"resets_at\":null\x7d" ++ opusPollTail)

def opusReadJson : Json := opusPoll (.object [("utilization", .number "30")])

def opusUnreadJson : Json := opusPoll (.object [("resets_at", .null)])

/-- A decoder that knows the two polls. -/
def opusPolls : Serde ℚ where
  fromSlice body :=
    if body = opusRead.body then .ok opusReadJson
    else if body = opusUnread.body then .ok opusUnreadJson
    else .error "unexpected body"
  unexpected _ := "unexpected document"
  f64 text := [("27", 27), ("30", 30)].lookup text
  dateTime _ := none

/-- What a poll decodes to, by the reading of the fixed bucket. -/
def opusPollUsage (utilization : Option Json) : UsageResponse where
  fiveHour := some { utilization := some (.number "27"), resetsAt := none }
  sevenDay := none
  sevenDayOpus := some { utilization, resetsAt := none }
  sevenDaySonnet := none
  limits := some (.array [.object [("kind", .string "weekly_scoped"), ("percent", .number "30"),
    ("scope", .object [("model", .object [("display_name", .string "Claude Opus 4.5")])])]])

private theorem fromSlice_opusPolls (body : List UInt8) :
    opusPolls.fromSlice body =
      if body = opusRead.body then .ok opusReadJson
      else if body = opusUnread.body then .ok opusUnreadJson
      else .error "unexpected body" := rfl

private theorem opusPoll_erased {opus opus' : Json} (h : bucketErased opus = bucketErased opus') :
    payloadErased (opusPoll opus) = payloadErased (opusPoll opus') := by
  simp [payloadErased, opusPoll, Json.eraseFields, Json.eraseMember, readingFields, memberErased, h]

theorem readings_move_nothing_opus :
    (∀ source, mapping (opusPollUsage (some (.number "30"))) source =
      mapping (opusPollUsage none) source) ∧
    ∀ id, id ∈ emitted opusPolls opusRead ↔
      ∃ source m, mapping (opusPollUsage (some (.number "30"))) source = some m ∧
        m.suppressed = false ∧ m.id = id ∧
        HasReading opusPolls (opusPollUsage (some (.number "30"))) source := by
  have hread : Decodes opusPolls opusRead opusReadJson (opusPollUsage (some (.number "30"))) :=
    ⟨rfl, by rw [fromSlice_opusPolls, if_pos rfl], rfl⟩
  have hreading : asciiBytes "\x7b\"resets_at\":null\x7d" ≠
      asciiBytes "\x7b\"utilization\":30\x7d" := by decide
  have hne : opusUnread.body ≠ opusRead.body := by
    dsimp only [opusUnread, opusRead]
    exact asciiBytes_ne opusPollHead opusPollTail hreading
  have hunread : Decodes opusPolls opusUnread opusUnreadJson (opusPollUsage none) :=
    ⟨rfl, by rw [fromSlice_opusPolls, if_neg hne, if_pos rfl], rfl⟩
  have h := readings_move_nothing hread hunread (opusPoll_erased rfl)
  exact ⟨h.1, h.2.2.1⟩

end Claude
end Teiryo
