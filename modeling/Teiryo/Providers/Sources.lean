import Mathlib.Data.List.Basic
import Teiryo.Framework.Firsts
import Teiryo.Providers.ParserSpec

/-!
# Where a parsed window comes from

A payload's windows source by source. A fixed bucket or a row of `limits[]` is read by itself, a
row also under the models whose fixed buckets are there, and what the payload gives is the first
window of each id among the readings.
-/

namespace Teiryo
namespace Claude

/-- A fixed bucket by its place among the specs, or a row by its place in `limits[]`. -/
inductive Source where
  | bucket (i : Nat)
  | row (i : Nat)
  deriving DecidableEq, Repr

/-- The model that a fixed bucket of the payload accounts for. -/
def bucketModel (usage : UsageResponse) (entry : BucketSpec × BucketGetter) : Option String :=
  match entry.2 usage, entry.1.scope with
  | some _, .model name => some name
  | _, _ => none

/-- The models that have a fixed bucket in the payload, readable or not. -/
def presentModels (usage : UsageResponse) : List String := specs.filterMap (bucketModel usage)

/-- Whether a fixed bucket of the payload is about the model of this slug. -/
def covered (usage : UsageResponse) (slug : String) : Bool :=
  (presentModels usage).any fun fixed => sameModel slug fixed

/-- A `weekly_scoped` row whose model has a slug. -/
def scopedRow (value : Json) : Option (LimitEntry × LimitModel) :=
  match LimitEntry.deserialize value with
  | none => none
  | some entry =>
    if entry.kind ≠ some weeklyScopedKind then none
    else match entry.scope.bind LimitScope.model with
      | none => none
      | some model => if model.slug = "" then none else some (entry, model)

def rowId (model : LimitModel) : WindowId := ⟨"weekly_" ++ model.slug⟩

section Readings

variable {F : Type} [F64 F] (serde : Serde F) (usage : UsageResponse)

/-- The window of a fixed bucket, by itself. -/
def bucketReading (entry : BucketSpec × BucketGetter) : Option (QuotaWindow F) :=
  match entry.2 usage with
  | none => none
  | some bucket =>
    (readable (f64Value serde) bucket.utilization).map (bucketWindow serde entry.1 bucket)

/-- The window of a row no fixed bucket of the payload covers, by itself. -/
def rowReading (value : Json) : Option (QuotaWindow F) :=
  match scopedRow value with
  | none => none
  | some (entry, model) =>
    if covered usage model.slug then none
    else (readable (f64Value serde) entry.percent).map (limitWindow serde entry model)

/-- The windows of the fixed buckets. -/
def fixedSourced : List (Source × QuotaWindow F) :=
  specs.zipIdx.filterMap fun entry =>
    (bucketReading serde usage entry.1).map fun w => (.bucket entry.2, w)

/-- The windows the rows give one by one. -/
def rowsSourced : List (Source × QuotaWindow F) :=
  (limitRows usage.limits).zipIdx.filterMap fun row =>
    (rowReading serde usage row.1).map fun w => (.row row.2, w)

omit [F64 F] in
def sourcedId (s : Source × QuotaWindow F) : WindowId := s.2.id

/-- The windows of a payload, each with what it was built from. -/
def sourced : List (Source × QuotaWindow F) :=
  fixedSourced serde usage ++
    Firsts.firsts sourcedId ((fixedSourced serde usage).map sourcedId) (rowsSourced serde usage)

end Readings

section ClosedForm

variable {F : Type} [F64 F] {serde : Serde F} {usage : UsageResponse}

theorem foldl_pushBucket_eq (entries : List (BucketSpec × BucketGetter)) (acc : FixedBuckets F) :
    entries.foldl (pushBucket serde usage) acc = {
      windows := acc.windows ++ entries.filterMap (bucketReading serde usage)
      fixedModels := acc.fixedModels ++ entries.filterMap (bucketModel usage) } := by
  induction entries generalizing acc with
  | nil => simp
  | cons entry entries ih =>
    rw [List.foldl_cons, ih]
    cases hbucket : entry.2 usage with
    | none => simp [pushBucket, bucketReading, bucketModel, hbucket]
    | some bucket =>
      cases hscope : entry.1.scope with
      | accountWide =>
        cases hread : readable (f64Value serde) bucket.utilization <;>
          simp [pushBucket, bucketReading, bucketModel, hbucket, hscope, hread]
      | model name =>
        cases hread : readable (f64Value serde) bucket.utilization <;>
          simp [pushBucket, bucketReading, bucketModel, hbucket, hscope, hread]

/-- A row adds its window if no other has the id. -/
theorem pushLimit_eq (windows : List (QuotaWindow F)) (value : Json) :
    pushLimit serde (presentModels usage) windows value =
      match rowReading serde usage value with
      | none => windows
      | some w => Firsts.add QuotaWindow.id windows w := by
  unfold pushLimit rowReading scopedRow covered
  cases LimitEntry.deserialize value with
  | none => rfl
  | some entry =>
    simp only
    by_cases hkind : entry.kind ≠ some weeklyScopedKind
    · rw [if_pos hkind, if_pos hkind]
    · rw [if_neg hkind, if_neg hkind]
      cases entry.scope.bind LimitScope.model with
      | none => rfl
      | some model =>
        simp only
        by_cases hslug : model.slug = ""
        · rw [if_pos hslug, if_pos hslug]
        · rw [if_neg hslug, if_neg hslug]
          simp only
          by_cases hcovered :
              ((presentModels usage).any fun fixed => sameModel model.slug fixed) = true
          · rw [if_pos hcovered]
            split <;> rfl
          · rw [if_neg hcovered, if_neg hcovered]
            cases readable (f64Value serde) entry.percent with
            | none =>
              split <;> rfl
            | some used => rfl

private theorem foldl_pushLimit_eq (windows : List (QuotaWindow F)) (rows : List Json) :
    rows.foldl (pushLimit serde (presentModels usage)) windows =
      (rows.filterMap (rowReading serde usage)).foldl (Firsts.add QuotaWindow.id) windows := by
  induction rows generalizing windows with
  | nil => rfl
  | cons value rows ih =>
    rw [List.foldl_cons, pushLimit_eq, ih]
    cases h : rowReading serde usage value with
    | none => rw [List.filterMap_cons_none h]
    | some w => rw [List.filterMap_cons_some h, List.foldl_cons]

private theorem filterMap_zipIdx {α β γ : Type} (f : α → Option β) (g : Nat → β → γ) (l : List α)
    (n : Nat) {h : γ → β} (hg : ∀ i b, h (g i b) = b) :
    ((l.zipIdx n).filterMap fun a => (f a.1).map (g a.2)).map h = l.filterMap f := by
  induction l generalizing n with
  | nil => rfl
  | cons a l ih =>
    rw [List.zipIdx_cons]
    cases hf : f a with
    | none =>
      rw [List.filterMap_cons_none (by simp [hf]), List.filterMap_cons_none hf]
      exact ih (n + 1)
    | some b =>
      rw [List.filterMap_cons_some (by simp [hf]; rfl), List.filterMap_cons_some hf,
        List.map_cons, hg, ih (n + 1)]

private theorem fixedSourced_windows :
    (fixedSourced serde usage).map Prod.snd = specs.filterMap (bucketReading serde usage) :=
  filterMap_zipIdx _ (fun i w => (Source.bucket i, w)) specs 0 fun _ _ => rfl

private theorem rowsSourced_windows :
    (rowsSourced serde usage).map Prod.snd =
      (limitRows usage.limits).filterMap (rowReading serde usage) :=
  filterMap_zipIdx _ (fun i w => (Source.row i, w)) (limitRows usage.limits) 0 fun _ _ => rfl

private theorem parsed_eq_sourced :
    (limitRows usage.limits).foldl
        (pushLimit serde (specs.foldl (pushBucket serde usage) {}).fixedModels)
        (specs.foldl (pushBucket serde usage) {}).windows =
      (sourced serde usage).map Prod.snd := by
  rw [foldl_pushBucket_eq]
  change (limitRows usage.limits).foldl (pushLimit serde (presentModels usage))
    (specs.filterMap (bucketReading serde usage)) = _
  rw [foldl_pushLimit_eq, Firsts.foldl_add, sourced, List.map_append, fixedSourced_windows,
    ← rowsSourced_windows, Firsts.firsts_map, ← fixedSourced_windows, List.map_map]
  rfl

/-- A payload that decodes gives its windows, unless it has none. -/
theorem parse_decoded {raw : RawResponse} {value : Json} (hstatus : raw.status = 200)
    (hvalue : serde.fromSlice raw.body = .ok value)
    (husage : UsageResponse.deserialize value = some usage) :
    parse serde raw =
      if sourced serde usage = [] then .error (.schemaDrift
        ("no recognized usage windows in payload; assumed schema: " ++ assumedSchema))
      else .ok ((sourced serde usage).map Prod.snd) := by
  unfold parse
  rw [if_neg (not_not_intro hstatus), hvalue]
  simp only [husage, parsed_eq_sourced, List.map_eq_nil_iff]

theorem parse_ok_sourced {raw : RawResponse} {windows : List (QuotaWindow F)}
    (h : parse serde raw = .ok windows) :
    ∃ value usage, raw.status = 200 ∧ serde.fromSlice raw.body = .ok value ∧
      UsageResponse.deserialize value = some usage ∧
      windows = (sourced serde usage).map Prod.snd := by
  obtain ⟨value, usage, hstatus, hvalue, husage, -, heq⟩ := parse_ok h
  exact ⟨value, usage, hstatus, hvalue, husage, heq.trans parsed_eq_sourced⟩

theorem scopedRow_slug {value : Json} {entry : LimitEntry} {model : LimitModel}
    (h : scopedRow value = some (entry, model)) : model.slug ≠ "" := by
  unfold scopedRow at h
  split at h
  · cases h
  · split at h
    · cases h
    · split at h
      · cases h
      · split at h
        · cases h
        · rename_i hslug
          cases h
          exact hslug

theorem rowReading_eq_some {value : Json} {w : QuotaWindow F}
    (h : rowReading serde usage value = some w) :
    ∃ entry model used, scopedRow value = some (entry, model) ∧
      covered usage model.slug = false ∧ readable (f64Value serde) entry.percent = some used ∧
      w = limitWindow serde entry model used := by
  unfold rowReading at h
  split at h
  · cases h
  · rename_i entry model hrow
    split at h
    · cases h
    · rename_i hcovered
      obtain ⟨used, hused, rfl⟩ := Option.map_eq_some_iff.mp h
      exact ⟨entry, model, used, hrow, Bool.eq_false_iff.mpr hcovered, hused, rfl⟩

theorem bucketReading_eq_some {entry : BucketSpec × BucketGetter} {w : QuotaWindow F}
    (h : bucketReading serde usage entry = some w) :
    ∃ bucket used, entry.2 usage = some bucket ∧
      readable (f64Value serde) bucket.utilization = some used ∧
      w = bucketWindow serde entry.1 bucket used := by
  unfold bucketReading at h
  split at h
  · cases h
  · rename_i bucket hbucket
    obtain ⟨used, hused, rfl⟩ := Option.map_eq_some_iff.mp h
    exact ⟨bucket, used, hbucket, hused, rfl⟩

theorem rowReading_of {value : Json} {entry : LimitEntry} {model : LimitModel} {used : F}
    (hrow : scopedRow value = some (entry, model)) (hcovered : covered usage model.slug = false)
    (hused : readable (f64Value serde) entry.percent = some used) :
    rowReading serde usage value = some (limitWindow serde entry model used) := by
  simp [rowReading, hrow, hcovered, hused]

theorem bucketReading_of {entry : BucketSpec × BucketGetter} {bucket : UsageBucket} {used : F}
    (hbucket : entry.2 usage = some bucket)
    (hused : readable (f64Value serde) bucket.utilization = some used) :
    bucketReading serde usage entry = some (bucketWindow serde entry.1 bucket used) := by
  simp [bucketReading, hbucket, hused]

theorem mem_fixedSourced {s : Source × QuotaWindow F} :
    s ∈ fixedSourced serde usage ↔
      ∃ i entry, specs[i]? = some entry ∧ bucketReading serde usage entry = some s.2 ∧
        s.1 = .bucket i := by
  unfold fixedSourced
  rw [List.mem_filterMap]
  constructor
  · rintro ⟨⟨entry, i⟩, hmem, hs⟩
    obtain ⟨w, hw, rfl⟩ := Option.map_eq_some_iff.mp hs
    exact ⟨i, entry, List.mem_zipIdx_iff_getElem?.mp hmem, hw, rfl⟩
  · rintro ⟨i, entry, hentry, hw, hs⟩
    refine ⟨(entry, i), List.mem_zipIdx_iff_getElem?.mpr hentry, ?_⟩
    rw [hw, ← hs]
    rfl

theorem mem_rowsSourced {s : Source × QuotaWindow F} :
    s ∈ rowsSourced serde usage ↔
      ∃ i value, (limitRows usage.limits)[i]? = some value ∧
        rowReading serde usage value = some s.2 ∧ s.1 = .row i := by
  unfold rowsSourced
  rw [List.mem_filterMap]
  constructor
  · rintro ⟨⟨value, i⟩, hmem, hs⟩
    obtain ⟨w, hw, rfl⟩ := Option.map_eq_some_iff.mp hs
    exact ⟨i, value, List.mem_zipIdx_iff_getElem?.mp hmem, hw, rfl⟩
  · rintro ⟨i, value, hvalue, hw, hs⟩
    refine ⟨(value, i), List.mem_zipIdx_iff_getElem?.mpr hvalue, ?_⟩
    rw [hw, ← hs]
    rfl

/-- The ids of a payload's windows are those of its readings. -/
theorem id_mem_sourced {id : WindowId} :
    id ∈ (sourced serde usage).map sourcedId ↔
      id ∈ (fixedSourced serde usage).map sourcedId ∨
        id ∈ (rowsSourced serde usage).map sourcedId := by
  unfold sourced
  rw [List.map_append, List.mem_append, Firsts.key_mem_firsts]
  constructor
  · rintro (h | ⟨-, h⟩)
    · exact .inl h
    · exact .inr h
  · rintro (h | h)
    · exact .inl h
    · by_cases hfixed : id ∈ (fixedSourced serde usage).map sourcedId
      · exact .inl hfixed
      · exact .inr ⟨hfixed, h⟩

end ClosedForm
end Claude
end Teiryo
