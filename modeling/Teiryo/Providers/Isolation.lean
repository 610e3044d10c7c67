import Teiryo.Providers.Provenance
import Teiryo.Providers.Shapes
import Teiryo.Providers.Stability

/-!
# What an unreadable value costs

A payload with one of its values replaced: a fixed bucket, the limits or one of their rows. Its
own window may cost the rows that have the window's id or model. Two things cost more than that.
The outer decode fails on a fixed bucket of another shape, and on a known name given twice, and
then reports nothing at all. And a fixed bucket that is there without a reading still stands for
the rows of its model.
-/

namespace Teiryo
namespace Claude

/-- The value that is replaced. -/
inductive Target where
  | bucket (i : Nat)
  | limits
  | row (i : Nat)
  deriving DecidableEq, Repr

/-- The member of a payload that has the value. -/
def Target.name : Target → Option String
  | .bucket i => bucketNames[i]?
  | .limits | .row _ => some "limits"

/-- Whether a window of this source comes from the value. -/
def Target.Owns : Target → Source → Prop
  | .bucket i, .bucket j => j = i
  | .limits, .row _ => True
  | .row i, .row j => j = i
  | _, _ => False

/-- What may become of the member: anything, or the same rows but one. -/
def Target.Replaces : Target → Json → Json → Prop
  | .row i, value, value' => ∃ before row row' after, before.length = i ∧
      value = .array (before ++ row :: after) ∧ value' = .array (before ++ row' :: after)
  | _, _, _ => True

/-- Two payloads that differ in the value alone. -/
def Replaced (t : Target) (members members' : List (String × Json)) : Prop :=
  ∃ before name value value' after, t.name = some name ∧ t.Replaces value value' ∧
    members = before ++ (name, value) :: after ∧ members' = before ++ (name, value') :: after

/-- Whether a fixed bucket is there, readable or not, and is about the model of this slug. -/
def Accounts (members : List (String × Json)) (i : Nat) (slug : String) : Prop :=
  ∃ name entry fixed, bucketNames[i]? = some name ∧ specs[i]? = some entry ∧
    entry.1.scope = .model fixed ∧ bucketsOf members name ≠ [] ∧ sameModel slug fixed = true

section Payloads

variable {F : Type} [F64 F]

/-- The windows of a payload with their sources. One that does not decode has none. -/
def reported (serde : Serde F) (members : List (String × Json)) : List (Source × QuotaWindow F) :=
  match UsageResponse.deserialize (.object members) with
  | some usage => sourced serde usage
  | none => []

omit [F64 F] in
/-- Whether a fixed bucket has a utilization that can be read. -/
def BucketReads (serde : Serde F) (members : List (String × Json)) (i : Nat) : Prop :=
  ∃ name bucket used, bucketNames[i]? = some name ∧ bucket ∈ bucketsOf members name ∧
    readable (f64Value serde) bucket.utilization = some used

omit [F64 F] in
/-- Whether a `weekly_scoped` row of this slug can be read. -/
def RowReads (serde : Serde F) (members : List (String × Json)) (slug : String) : Prop :=
  ∃ value ∈ rowsOf members, ∃ entry model used, scopedRow value = some (entry, model) ∧
    readable (f64Value serde) entry.percent = some used ∧ model.slug = slug

omit [F64 F] in
/-- Whether a fixed bucket or a `weekly_scoped` row of a payload can be read. -/
def Readable (serde : Serde F) (members : List (String × Json)) : Prop :=
  (∃ i, BucketReads serde members i) ∨ ∃ slug, RowReads serde members slug

/-- Whether a window of a row has an id or a model that the value's own window has. A row has its
id alone. -/
def Takes (t : Target) (serde : Serde F) (members : List (String × Json)) (w : QuotaWindow F) :
    Prop :=
  ∃ s ∈ reported serde members, t.Owns s.1 ∧ (s.2.id = w.id ∨ ∃ i fixed slug, t = .bucket i ∧
    s.2.scope = .model fixed ∧ w.scope = .model slug ∧ sameModel slug fixed = true)

/-- A window that does not come from the value, and whose row has no id or model that the value's
own window takes in either payload. -/
def Untouched (t : Target) (serde : Serde F) (members members' : List (String × Json))
    (s : Source × QuotaWindow F) : Prop :=
  ¬ t.Owns s.1 ∧
    ∀ i, s.1 = .row i → ¬ Takes t serde members s.2 ∧ ¬ Takes t serde members' s.2

open Classical in
/-- The windows that the value has nothing to do with. -/
noncomputable def untouched (t : Target) (serde : Serde F)
    (members members' : List (String × Json)) (windows : List (Source × QuotaWindow F)) :
    List (Source × QuotaWindow F) :=
  windows.filter fun s => decide (Untouched t serde members members' s)

/-- A replaced value leaves the windows it has nothing to do with as they were, and neither
payload fails while something in it can be read. -/
structure Isolates (t : Target) (serde : Serde F) (raw raw' : RawResponse)
    (members members' : List (String × Json)) : Prop where
  rest : untouched t serde members members' (reported serde members) =
    untouched t serde members members' (reported serde members')
  floor : ∀ e, parse serde raw = .error e → ¬ Readable serde members
  floor' : ∀ e, parse serde raw' = .error e → ¬ Readable serde members'

omit [F64 F] in
/-- A payload that decodes and has a fixed bucket that can be read, or such a row that no present
bucket accounts for. -/
structure Reportable (serde : Serde F) (members : List (String × Json)) : Prop where
  shaped : WellShaped members
  reads : (∃ i, BucketReads serde members i) ∨
    ∃ slug, RowReads serde members slug ∧ ∀ i, ¬ Accounts members i slug

omit [F64 F] in
/-- Whether the value becomes a bucket without a reading, and so hides the rows of a model that it
did not account for. -/
def Shadows (t : Target) (serde : Serde F) (members members' : List (String × Json)) : Prop :=
  ∃ i slug, t = .bucket i ∧ RowReads serde members slug ∧ ¬ Accounts members i slug ∧
    Accounts members' i slug ∧ ¬ BucketReads serde members' i

variable {serde : Serde F} {members members' : List (String × Json)} {usage usage' : UsageResponse}

/-! ## A payload by itself -/

private theorem reported_eq (h : UsageResponse.deserialize (.object members) = some usage) :
    reported serde members = sourced serde usage := by
  rw [reported, h]

private theorem reported_of_not_wellShaped (h : ¬ WellShaped members) :
    reported serde members = [] := by
  cases hd : UsageResponse.deserialize (.object members) with
  | none => rw [reported, hd]
  | some usage => exact absurd (wellShaped_iff.mp ⟨usage, hd⟩) h

private theorem parse_object {raw : RawResponse} (hstatus : raw.status = 200)
    (hdocument : serde.fromSlice raw.body = .ok (.object members)) :
    (∀ windows, parse serde raw = .ok windows →
      windows = (reported serde members).map Prod.snd) ∧
    ((∃ e, parse serde raw = .error e) ↔ reported serde members = []) := by
  cases hd : UsageResponse.deserialize (.object members) with
  | none =>
    have herror : ∃ e, parse serde raw = .error e := by
      unfold parse
      rw [if_neg (not_not_intro hstatus), hdocument]
      simp only [hd]
      exact ⟨_, rfl⟩
    obtain ⟨e, he⟩ := herror
    rw [he, reported, hd]
    exact ⟨fun windows h => (nomatch h), by simp⟩
  | some usage =>
    rw [parse_decoded hstatus hdocument hd, reported_eq hd]
    by_cases hnil : sourced serde usage = []
    · rw [if_pos hnil]
      exact ⟨fun windows h => (nomatch h), by simp [hnil]⟩
    · rw [if_neg hnil]
      refine ⟨fun windows h => (Except.ok.inj h).symm, ?_⟩
      simp [hnil]

private theorem mem_presentModels_iff {fixed : String} :
    fixed ∈ presentModels usage ↔ ∃ entry ∈ specs, entry.1.scope = .model fixed ∧
      (entry.2 usage).isSome = true := by
  unfold presentModels
  rw [List.mem_filterMap]
  constructor
  · rintro ⟨entry, hentry, hmodel⟩
    unfold bucketModel at hmodel
    split at hmodel
    · rename_i bucket name hbucket hscope
      cases hmodel
      exact ⟨entry, hentry, hscope, Option.isSome_iff_exists.mpr ⟨bucket, hbucket⟩⟩
    · cases hmodel
  · rintro ⟨entry, hentry, hscope, hsome⟩
    obtain ⟨bucket, hbucket⟩ := Option.isSome_iff_exists.mp hsome
    exact ⟨entry, hentry, by rw [bucketModel, hbucket, hscope]⟩

private theorem exists_same_place {α β : Type} {l : List α} {l' : List β}
    (hlength : l.length = l'.length)
    {i : Nat} {a : α} (h : l[i]? = some a) : ∃ b, l'[i]? = some b := by
  have hlt : i < l.length := (List.getElem?_eq_some_iff.mp h).1
  rw [hlength] at hlt
  exact ⟨_, List.getElem?_eq_getElem hlt⟩

private theorem bucketNames_of_spec {i : Nat} {entry : BucketSpec × BucketGetter}
    (h : specs[i]? = some entry) : ∃ name, bucketNames[i]? = some name :=
  exists_same_place (by decide) h

private theorem spec_of_bucketNames {i : Nat} {name : String} (h : bucketNames[i]? = some name) :
    ∃ entry, specs[i]? = some entry :=
  exists_same_place (by decide) h

private theorem covered_iff_accounts (h : UsageResponse.deserialize (.object members) = some usage)
    {slug : String} : covered usage slug = true ↔ ∃ i, Accounts members i slug := by
  unfold covered
  rw [List.any_eq_true]
  constructor
  · rintro ⟨fixed, hmem, hsame⟩
    obtain ⟨entry, hentry, hscope, hsome⟩ := mem_presentModels_iff.mp hmem
    obtain ⟨i, hi⟩ := List.mem_iff_getElem?.mp hentry
    obtain ⟨name, hname⟩ := bucketNames_of_spec hi
    refine ⟨i, name, entry, fixed, hname, hi, hscope, ?_, hsame⟩
    rw [bucketsOf_eq h hname hi]
    cases hbucket : entry.2 usage with
    | none => simp [hbucket] at hsome
    | some bucket => simp
  · rintro ⟨i, name, entry, fixed, hname, hi, hscope, hne, hsame⟩
    refine ⟨fixed, mem_presentModels_iff.mpr ⟨entry, List.mem_of_getElem? hi, hscope, ?_⟩, hsame⟩
    rw [bucketsOf_eq h hname hi] at hne
    cases hbucket : entry.2 usage with
    | none => simp [hbucket] at hne
    | some bucket => rfl

omit [F64 F] in
/-- A bucket that can be read is there. -/
theorem bucketReads_iff (h : UsageResponse.deserialize (.object members) = some usage) {i : Nat} :
    BucketReads serde members i ↔
      ∃ entry bucket used, specs[i]? = some entry ∧ entry.2 usage = some bucket ∧
        readable (f64Value serde) bucket.utilization = some used := by
  constructor
  · rintro ⟨name, bucket, used, hname, hbucket, hused⟩
    obtain ⟨entry, hentry⟩ := spec_of_bucketNames hname
    rw [bucketsOf_eq h hname hentry] at hbucket
    exact ⟨entry, bucket, used, hentry, by simpa using hbucket, hused⟩
  · rintro ⟨entry, bucket, used, hentry, hpresent, hused⟩
    obtain ⟨name, hname⟩ := bucketNames_of_spec hentry
    refine ⟨name, bucket, used, hname, ?_, hused⟩
    rw [bucketsOf_eq h hname hentry, hpresent]
    exact List.mem_singleton.mpr rfl

private theorem rowReads_of_reading (h : UsageResponse.deserialize (.object members) = some usage)
    {s : Source × QuotaWindow F} (hs : s ∈ rowsSourced serde usage) :
    ∃ slug, RowReads serde members slug ∧ s.2.scope = .model slug ∧
      s.2.id = ⟨"weekly_" ++ slug⟩ ∧ covered usage slug = false := by
  obtain ⟨-, value, hvalue, entry, model, used, hrow, hcovered, hused, hw⟩ := rowsSourced_spec hs
  rw [← rowsOf_eq h] at hvalue
  exact ⟨model.slug, ⟨value, hvalue, entry, model, used, hrow, hused, rfl⟩, by rw [hw]; rfl,
    by rw [hw]; rfl, hcovered⟩

/-- A row that can be read has its window reported, or another row's of its id, unless a bucket
covers it. -/
theorem exists_reported_row (h : UsageResponse.deserialize (.object members) = some usage)
    {slug : String} (hrow : RowReads serde members slug) (hcovered : covered usage slug = false) :
    ∃ s ∈ rowsSourced serde usage, s ∈ sourced serde usage ∧
      s.2.id = ⟨"weekly_" ++ slug⟩ := by
  obtain ⟨value, hvalue, entry, model, used, hscoped, hused, rfl⟩ := hrow
  rw [rowsOf_eq h] at hvalue
  obtain ⟨i, hi⟩ := List.mem_iff_getElem?.mp hvalue
  have hmem : (Source.row i, limitWindow serde entry model used) ∈ rowsSourced serde usage :=
    mem_rowsSourced.mpr ⟨i, value, hi, rowReading_of hscoped hcovered hused, rfl⟩
  have hid : (⟨"weekly_" ++ model.slug⟩ : WindowId) ∈
      (Firsts.firsts sourcedId [] (rowsSourced serde usage)).map sourcedId :=
    Firsts.key_mem_firsts.mpr ⟨List.not_mem_nil, List.mem_map.mpr ⟨_, hmem, rfl⟩⟩
  obtain ⟨s, hs, hsid⟩ := List.mem_map.mp hid
  refine ⟨s, (Firsts.firsts_sublist _ _).subset hs, ?_, hsid⟩
  rw [sourced_eq]
  exact List.mem_append_right _ hs

/-- A payload that decodes reports something just when it has something to report. -/
theorem reports_iff (h : UsageResponse.deserialize (.object members) = some usage) :
    Reportable serde members ↔ sourced serde usage ≠ [] := by
  constructor
  · intro hreports
    rcases hreports.reads with ⟨i, hi⟩ | ⟨slug, hrow, hfree⟩
    · obtain ⟨entry, bucket, used, hentry, hpresent, hused⟩ := (bucketReads_iff h).mp hi
      have hmem : (Source.bucket i, bucketWindow serde entry.1 bucket used) ∈
          fixedSourced serde usage :=
        mem_fixedSourced.mpr ⟨i, entry, hentry, bucketReading_of hpresent hused, rfl⟩
      exact List.ne_nil_of_mem (List.mem_append_left _ hmem)
    · have hcovered : covered usage slug = false := by
        apply Bool.eq_false_iff.mpr
        intro hc
        obtain ⟨j, hj⟩ := (covered_iff_accounts h).mp hc
        exact hfree j hj
      obtain ⟨s, -, hs, -⟩ := exists_reported_row h hrow hcovered
      exact List.ne_nil_of_mem hs
  · intro hne
    obtain ⟨s, hs⟩ := List.exists_mem_of_ne_nil _ hne
    refine ⟨wellShaped_iff.mp ⟨usage, h⟩, ?_⟩
    rcases mem_sourced_cases hs with hs | hs
    · obtain ⟨i, entry, hentry, hreading, -⟩ := mem_fixedSourced.mp hs
      obtain ⟨bucket, used, hpresent, hused, -⟩ := bucketReading_eq_some hreading
      exact .inl ⟨i, (bucketReads_iff h).mpr ⟨entry, bucket, used, hentry, hpresent, hused⟩⟩
    · obtain ⟨slug, hrow, -, -, hcovered⟩ := rowReads_of_reading h hs
      refine .inr ⟨slug, hrow, ?_⟩
      intro j hj
      rw [(covered_iff_accounts h).mpr ⟨j, hj⟩] at hcovered
      cases hcovered

/-- When a payload does not fail in spite of something that can be read. -/
theorem floor_iff {raw : RawResponse} (hstatus : raw.status = 200)
    (hdocument : serde.fromSlice raw.body = .ok (.object members)) :
    (∀ e, parse serde raw = .error e → ¬ Readable serde members) ↔
      Reportable serde members ∨ ¬ Readable serde members := by
  have hparse := (parse_object hstatus hdocument).2
  constructor
  · intro h
    by_cases hreports : Reportable serde members
    · exact .inl hreports
    · right
      have hnil : reported serde members = [] := by
        cases husage : UsageResponse.deserialize (.object members) with
        | none => rw [reported, husage]
        | some usage =>
          rw [reported_eq husage]
          exact not_ne_iff.mp fun hne => hreports ((reports_iff husage).mpr hne)
      obtain ⟨e, he⟩ := hparse.mpr hnil
      exact h e he
  · rintro (hreports | hnone) e he
    · obtain ⟨usage, husage⟩ := wellShaped_iff.mpr hreports.shaped
      have hnil := hparse.mp ⟨e, he⟩
      rw [reported_eq husage] at hnil
      exact absurd hnil ((reports_iff husage).mp hreports)
    · exact hnone

/-! ## Two payloads -/

private theorem valuesOf_of_ne {before after : List (String × Json)} {name other : String}
    {value : Json} (h : name ≠ other) :
    valuesOf (before ++ (name, value) :: after) other = valuesOf (before ++ after) other := by
  unfold valuesOf
  simp [h]

private theorem length_valuesOf {before after : List (String × Json)} {name : String}
    (value value' : Json) (other : String) :
    (valuesOf (before ++ (name, value) :: after) other).length =
      (valuesOf (before ++ (name, value') :: after) other).length := by
  unfold valuesOf
  by_cases h : name = other
  · simp [h]
  · simp [h]

private theorem bucketNames_inj {i j : Nat} {name : String} (hi : bucketNames[i]? = some name)
    (hj : bucketNames[j]? = some name) : i = j := by
  have hlt : i < bucketNames.length := (List.getElem?_eq_some_iff.mp hi).1
  have hnodup : bucketNames.Nodup := by decide
  exact (List.getElem?_inj hlt hnodup).mp (hi.trans hj.symm)

private theorem bucketsOf_replaced {t : Target} (h : Replaced t members members') {j : Nat}
    {other : String} (hother : bucketNames[j]? = some other) (hj : t ≠ .bucket j) :
    valuesOf members other = valuesOf members' other := by
  obtain ⟨before, name, value, value', after, hname, -, rfl, rfl⟩ := h
  have hne : name ≠ other := by
    rintro rfl
    cases t with
    | bucket i => exact hj (congrArg _ (bucketNames_inj hname hother))
    | limits =>
      cases hname
      exact absurd (List.mem_of_getElem? hother) (by decide)
    | row i =>
      cases hname
      exact absurd (List.mem_of_getElem? hother) (by decide)
  rw [valuesOf_of_ne hne, valuesOf_of_ne hne]

private theorem accounts_replaced {t : Target} (h : Replaced t members members') {j : Nat}
    {slug : String} (hj : t ≠ .bucket j) :
    Accounts members j slug ↔ Accounts members' j slug := by
  unfold Accounts bucketsOf
  constructor
  · rintro ⟨name, entry, fixed, hname, hentry, hscope, hne, hsame⟩
    rw [bucketsOf_replaced h hname hj] at hne
    exact ⟨name, entry, fixed, hname, hentry, hscope, hne, hsame⟩
  · rintro ⟨name, entry, fixed, hname, hentry, hscope, hne, hsame⟩
    rw [← bucketsOf_replaced h hname hj] at hne
    exact ⟨name, entry, fixed, hname, hentry, hscope, hne, hsame⟩

private theorem accounts_unique {i k : Nat} {slug : String} (hi : Accounts members i slug)
    (hk : Accounts members' k slug) : i = k := by
  obtain ⟨-, entry, fixed, -, hentry, hscope, -, hsame⟩ := hi
  obtain ⟨-, entry', fixed', -, hentry', hscope', -, hsame'⟩ := hk
  have hfixed : fixed = fixed' := (beq_iff_eq.mp hsame).symm.trans (beq_iff_eq.mp hsame')
  have hdistinct : ∀ a ∈ specs.zipIdx, ∀ b ∈ specs.zipIdx, a.1.1.scope = b.1.1.scope →
      a.1.1.scope ≠ .accountWide → a.2 = b.2 := by
    simp [specs]
  refine hdistinct (entry, i) (List.mem_zipIdx_iff_getElem?.mpr hentry) (entry', k)
    (List.mem_zipIdx_iff_getElem?.mpr hentry') ?_ ?_
  · rw [hscope, hscope', hfixed]
  · rw [hscope]
    exact WindowScope.noConfusion

private theorem accounts_new {i k : Nat} {slug : String} (h : Replaced (.bucket i) members members')
    (husage : UsageResponse.deserialize (.object members) = some usage)
    (hcovered : covered usage slug = false) (hk : Accounts members' k slug) : k = i := by
  by_contra hik
  have hne : Target.bucket i ≠ .bucket k := fun heq => hik (Target.bucket.inj heq).symm
  rw [(covered_iff_accounts husage).mpr ⟨k, (accounts_replaced h hne).mpr hk⟩] at hcovered
  cases hcovered

private theorem rowsOf_replaced {i : Nat} (h : Replaced (.bucket i) members members') :
    rowsOf members = rowsOf members' := by
  obtain ⟨before, name, value, value', after, hname, -, rfl, rfl⟩ := h
  have hne : name ≠ "limits" := by
    rintro rfl
    exact absurd (List.mem_of_getElem? hname) (by decide)
  rw [rowsOf, rowsOf, valuesOf_of_ne hne, valuesOf_of_ne hne]

omit [F64 F] in
private theorem rowReads_replaced {i : Nat} (h : Replaced (.bucket i) members members')
    {slug : String} : RowReads serde members slug ↔ RowReads serde members' slug := by
  rw [RowReads, RowReads, rowsOf_replaced h]

private theorem bucket_replaced {t : Target} (h : Replaced t members members')
    (husage : UsageResponse.deserialize (.object members) = some usage)
    (husage' : UsageResponse.deserialize (.object members') = some usage') {j : Nat}
    {entry : BucketSpec × BucketGetter} (hentry : specs[j]? = some entry) (hj : t ≠ .bucket j) :
    entry.2 usage = entry.2 usage' := by
  obtain ⟨name, hname⟩ := bucketNames_of_spec hentry
  have hlists : (entry.2 usage).toList = (entry.2 usage').toList := by
    rw [← bucketsOf_eq husage hname hentry, ← bucketsOf_eq husage' hname hentry, bucketsOf,
      bucketsOf, bucketsOf_replaced h hname hj]
  cases hb : entry.2 usage with
  | none =>
    cases hb' : entry.2 usage' with
    | none => rfl
    | some bucket => simp [hb, hb'] at hlists
  | some bucket =>
    cases hb' : entry.2 usage' with
    | none => simp [hb, hb'] at hlists
    | some bucket' => simpa [hb, hb'] using hlists

private theorem wellShaped_replaced {t : Target} (h : Replaced t members members')
    (ht : t.name = some "limits") (hshaped : WellShaped members) : WellShaped members' := by
  have hbuckets : ∀ name ∈ bucketNames, valuesOf members name = valuesOf members' name := by
    intro name hname
    obtain ⟨j, hj⟩ := List.mem_iff_getElem?.mp hname
    apply bucketsOf_replaced h hj
    rintro rfl
    exact absurd (List.mem_of_getElem? ht) (by decide)
  obtain ⟨before, name, value, value', after, -, -, rfl, rfl⟩ := h
  constructor
  · intro other hother
    rw [← length_valuesOf value value' other]
    exact hshaped.once other hother
  · intro other hother
    rw [← hbuckets other hother]
    exact hshaped.buckets other hother

/-! ## What a replaced value leaves alone -/

private theorem takes_row {i : Nat} {w : QuotaWindow F} :
    Takes (.row i) serde members w ↔
      ∃ s ∈ reported serde members, s.1 = .row i ∧ s.2.id = w.id := by
  unfold Takes
  constructor
  · rintro ⟨⟨source, w'⟩, hs, hown, hid | ⟨j, -, -, ht, -⟩⟩
    · cases source with
      | bucket j => exact hown.elim
      | row j => exact ⟨_, hs, congrArg _ hown, hid⟩
    · cases ht
  · rintro ⟨s, hs, hsource, hid⟩
    refine ⟨s, hs, ?_, .inl hid⟩
    rw [hsource]
    rfl

private theorem own_bucket {i : Nat}
    (husage : UsageResponse.deserialize (.object members) = some usage)
    {s : Source × QuotaWindow F} (hs : s ∈ reported serde members)
    (hown : (Target.bucket i).Owns s.1) :
    s ∈ fixedSourced serde usage ∧ ∃ entry bucket, specs[i]? = some entry ∧
      entry.2 usage = some bucket ∧ BucketReads serde members i ∧ s.2.scope = entry.1.scope := by
  rw [reported_eq husage] at hs
  rcases mem_sourced_cases hs with hfixed | hrow
  · obtain ⟨j, entry, hentry, hreading, hsource⟩ := mem_fixedSourced.mp hfixed
    obtain ⟨bucket, used, hpresent, hused, hw⟩ := bucketReading_eq_some hreading
    rw [hsource] at hown
    cases (show j = i from hown)
    refine ⟨hfixed, entry, bucket, hentry, hpresent, ?_, ?_⟩
    · exact (bucketReads_iff husage).mpr ⟨entry, bucket, used, hentry, hpresent, hused⟩
    · rw [hw]
      rfl
  · obtain ⟨j, hj⟩ := (rowsSourced_spec hrow).1
    rw [hj] at hown
    exact hown.elim

private theorem takes_of_reads {i : Nat} {slug : String} {w : QuotaWindow F}
    (husage : UsageResponse.deserialize (.object members) = some usage)
    (hreads : BucketReads serde members i) (haccounts : Accounts members i slug)
    (hw : w.scope = .model slug) : Takes (.bucket i) serde members w := by
  obtain ⟨entry, bucket, used, hentry, hpresent, hused⟩ := (bucketReads_iff husage).mp hreads
  obtain ⟨-, entry', fixed, -, hentry', hscope, -, hsame⟩ := haccounts
  cases Option.some.inj (hentry.symm.trans hentry')
  refine ⟨(.bucket i, bucketWindow serde entry.1 bucket used), ?_, rfl,
    .inr ⟨i, fixed, slug, rfl, hscope, hw, hsame⟩⟩
  rw [reported_eq husage]
  exact List.mem_append_left _ (mem_fixedSourced.mpr
    ⟨i, entry, hentry, bucketReading_of hpresent hused, rfl⟩)

private theorem fixed_untouched {t : Target} (p : Source × QuotaWindow F → Bool)
    (hp : ∀ j w, t = .bucket j → p (.bucket j, w) = false)
    (h : ∀ j entry, specs[j]? = some entry → t ≠ .bucket j → entry.2 usage = entry.2 usage') :
    (fixedSourced serde usage).filter p = (fixedSourced serde usage').filter p := by
  unfold fixedSourced
  rw [List.filter_filterMap, List.filter_filterMap]
  apply List.filterMap_congr
  rintro ⟨entry, j⟩ hmem
  have hentry : specs[j]? = some entry := List.mem_zipIdx_iff_getElem?.mp hmem
  by_cases hj : t = .bucket j
  · have hnone : ∀ w : Option (QuotaWindow F),
        (w.map fun w => (Source.bucket j, w)).filter p = none := by
      intro w
      cases w with
      | none => rfl
      | some w => simp [hp j w hj]
    rw [hnone, hnone]
  · have hsame : bucketReading serde usage entry = bucketReading serde usage' entry := by
      rw [bucketReading, bucketReading, h j entry hentry hj]
    simp only [hsame]

/-- Rows that the own window of a replaced bucket does not take are read alike, unless the bucket
comes to hide them. -/
theorem rowReading_untouched {i : Nat} (h : Replaced (.bucket i) members members')
    (husage : UsageResponse.deserialize (.object members) = some usage)
    (husage' : UsageResponse.deserialize (.object members') = some usage')
    (hshadows : ¬ Shadows (.bucket i) serde members members') {value : Json} {w : QuotaWindow F}
    (hvalue : value ∈ limitRows usage.limits) (hw : rowReading serde usage value = some w)
    (hfree : ¬ Takes (.bucket i) serde members' w) : rowReading serde usage' value = some w := by
  obtain ⟨entry, model, used, hrow, hcovered, hused, rfl⟩ := rowReading_eq_some hw
  have hcovered' : covered usage' model.slug = false := by
    apply Bool.eq_false_iff.mpr
    intro hc
    obtain ⟨j, hj⟩ := (covered_iff_accounts husage').mp hc
    rw [accounts_new h husage hcovered hj] at hj
    have hbefore : ¬ Accounts members i model.slug := by
      intro hi
      rw [(covered_iff_accounts husage).mpr ⟨i, hi⟩] at hcovered
      cases hcovered
    have hreads : ¬ BucketReads serde members' i := fun hr =>
      hfree (takes_of_reads husage' hr hj rfl)
    rw [← rowsOf_eq husage] at hvalue
    exact hshadows ⟨i, model.slug, rfl, ⟨value, hvalue, entry, model, used, hrow, hused, rfl⟩,
      hbefore, hj, hreads⟩
  exact rowReading_of hrow hcovered' hused

private theorem rows_untouched_bucket {i : Nat} (h : Replaced (.bucket i) members members')
    (husage : UsageResponse.deserialize (.object members) = some usage)
    (husage' : UsageResponse.deserialize (.object members') = some usage')
    (hshadows : ¬ Shadows (.bucket i) serde members members')
    (hshadows' : ¬ Shadows (.bucket i) serde members' members)
    {p : Source × QuotaWindow F → Bool}
    (hp : ∀ j w, p (.row j, w) = true ↔
      ¬ Takes (.bucket i) serde members w ∧ ¬ Takes (.bucket i) serde members' w) :
    (Firsts.firsts sourcedId [] (rowsSourced serde usage)).filter p =
      (Firsts.firsts sourcedId [] (rowsSourced serde usage')).filter p := by
  have hcongr : ∀ usage : UsageResponse, ∀ s ∈ rowsSourced serde usage,
      ∀ s' ∈ rowsSourced serde usage, sourcedId s = sourcedId s' → p s = p s' := by
    intro usage s hs s' hs' hid
    obtain ⟨⟨j, hj⟩, _, -, entry, model, used, -, -, -, hw⟩ := rowsSourced_spec hs
    obtain ⟨⟨j', hj'⟩, _, -, entry', model', used', -, -, -, hw'⟩ := rowsSourced_spec hs'
    have hslug : model.slug = model'.slug := by
      rw [sourcedId, sourcedId, hw, hw'] at hid
      exact weekly_append_eq.mp (congrArg WindowId.val hid)
    have hscope : s.2.scope = s'.2.scope := by
      rw [hw, hw']
      exact congrArg WindowScope.model hslug
    have hsid : s.2.id = s'.2.id := hid
    have htakes : ∀ members, Takes (.bucket i) serde members s.2 ↔
        Takes (.bucket i) serde members s'.2 := by
      intro members
      rw [Takes, Takes, hscope, hsid]
    have hs₁ : s = (.row j, s.2) := by rw [← hj]
    have hs₂ : s' = (.row j', s'.2) := by rw [← hj']
    rw [Bool.eq_iff_iff, hs₁, hs₂, hp, hp]
    exact and_congr (not_congr (htakes members)) (not_congr (htakes members'))
  rw [Firsts.firsts_filter (hcongr usage), Firsts.firsts_filter (hcongr usage')]
  have hrows : limitRows usage.limits = limitRows usage'.limits := by
    rw [← rowsOf_eq husage, ← rowsOf_eq husage', rowsOf_replaced h]
  have hsame : (rowsSourced serde usage).filter p = (rowsSourced serde usage').filter p := by
    unfold rowsSourced
    rw [List.filter_filterMap, List.filter_filterMap, hrows]
    apply List.filterMap_congr
    rintro ⟨value, j⟩ hmem
    have hvalue : value ∈ limitRows usage'.limits :=
      List.mem_of_getElem? (List.mem_zipIdx_iff_getElem?.mp hmem)
    apply Option.ext
    rintro ⟨source, w⟩
    simp only [Option.filter_eq_some_iff, Option.map_eq_some_iff, Prod.mk.injEq]
    constructor
    · rintro ⟨⟨w', hw', rfl, rfl⟩, hpass⟩
      rw [← hrows] at hvalue
      exact ⟨⟨w', rowReading_untouched h husage husage' hshadows hvalue hw'
        ((hp j w').mp hpass).2, rfl, rfl⟩, hpass⟩
    · rintro ⟨⟨w', hw', rfl, rfl⟩, hpass⟩
      have hback : Replaced (.bucket i) members' members := by
        obtain ⟨before, name, value, value', after, hname, -, h₁, h₂⟩ := h
        exact ⟨before, name, value', value, after, hname, trivial, h₂, h₁⟩
      exact ⟨⟨w', rowReading_untouched hback husage' husage hshadows' hvalue hw'
        ((hp j w').mp hpass).1, rfl, rfl⟩, hpass⟩
  rw [hsame]

/-- The windows of the rows of a list, from a place on. -/
def rowsFrom (serde : Serde F) (usage : UsageResponse) (rows : List Json) (n : Nat) :
    List (Source × QuotaWindow F) :=
  (rows.zipIdx n).filterMap fun row =>
    (rowReading serde usage row.1).map fun w => (.row row.2, w)

private theorem rowsFrom_append (before after : List Json) (row : Json) :
    rowsFrom serde usage (before ++ row :: after) 0 =
      rowsFrom serde usage before 0 ++
        (((rowReading serde usage row).map fun w => (Source.row before.length, w)).toList ++
          rowsFrom serde usage after (before.length + 1)) := by
  unfold rowsFrom
  rw [List.zipIdx_append, List.filterMap_append, List.zipIdx_cons, Nat.zero_add]
  cases h : rowReading serde usage row with
  | none => simp [h]
  | some w => simp [h]

private theorem rowsFrom_source {rows : List Json} {n : Nat} {s : Source × QuotaWindow F}
    (h : s ∈ rowsFrom serde usage rows n) : ∃ j, s.1 = .row j := by
  obtain ⟨⟨value, j⟩, -, hs⟩ := List.mem_filterMap.mp h
  obtain ⟨w, -, rfl⟩ := Option.map_eq_some_iff.mp hs
  exact ⟨j, rfl⟩

omit [F64 F] in
private theorem filter_rows {i : Nat} {p : Source × QuotaWindow F → Bool} {q : WindowId → Bool}
    (hp : ∀ j w, p (.row j, w) = true ↔ j ≠ i ∧ q w.id = true)
    {windows : List (Source × QuotaWindow F)} (h : ∀ s ∈ windows, ∃ j, s.1 = .row j) :
    (Firsts.firsts sourcedId [] windows).filter p =
      ((Firsts.firsts sourcedId [] windows).filter fun s => q (sourcedId s)).filter fun s =>
        decide (s.1 ≠ .row i) := by
  rw [List.filter_filter]
  apply List.filter_congr
  intro s hs
  obtain ⟨j, hj⟩ := h s ((Firsts.firsts_sublist _ _).subset hs)
  have hpair : s = (.row j, s.2) := by rw [← hj]
  rw [Bool.eq_iff_iff, hpair, hp]
  simp [sourcedId]

private theorem rows_without {i : Nat} {before after : List Json} {row : Json}
    (hi : before.length = i) (husage : UsageResponse.deserialize (.object members) = some usage)
    (hrows : limitRows usage.limits = before ++ row :: after)
    {p : Source × QuotaWindow F → Bool} {q : WindowId → Bool}
    (hp : ∀ j w, p (.row j, w) = true ↔ j ≠ i ∧ q w.id = true)
    (hq : ∀ w, Takes (.row i) serde members w → q w.id = false) :
    (Firsts.firsts sourcedId [] (rowsSourced serde usage)).filter p =
      (Firsts.firsts sourcedId [] (rowsFrom serde usage before 0 ++
        rowsFrom serde usage after (i + 1))).filter p := by
  have hsplit : rowsSourced serde usage = rowsFrom serde usage before 0 ++
      (((rowReading serde usage row).map fun w => (Source.row i, w)).toList ++
        rowsFrom serde usage after (i + 1)) := by
    rw [← hi, ← rowsFrom_append before after row, ← hrows]
    rfl
  cases hreading : rowReading serde usage row with
  | none =>
    rw [hsplit, hreading]
    rfl
  | some w =>
    have hwith : rowsSourced serde usage = rowsFrom serde usage before 0 ++
        (Source.row i, w) :: rowsFrom serde usage after (i + 1) := by
      rw [hsplit, hreading]
      rfl
    have hall : ∀ s ∈ rowsSourced serde usage, ∃ j, s.1 = .row j :=
      fun s hs => rowsFrom_source hs
    have hothers : ∀ s ∈ rowsFrom serde usage before 0 ++ rowsFrom serde usage after (i + 1),
        ∃ j, s.1 = .row j := by
      intro s hs
      rcases List.mem_append.mp hs with hs | hs
      · exact rowsFrom_source hs
      · exact rowsFrom_source hs
    rw [filter_rows hp hall, filter_rows hp hothers, hwith]
    congr 1
    apply Firsts.firsts_drop
    · intro s s' hid
      exact congrArg q hid
    · by_cases htaken : sourcedId (Source.row i, w) ∈
          (rowsFrom serde usage before 0).map sourcedId
      · exact .inr (.inl htaken)
      · -- the row's window is reported, so that its id is taken
        refine .inr (.inr (hq w (takes_row.mpr ⟨(.row i, w), ?_, rfl, rfl⟩)))
        rw [reported_eq husage, sourced_eq, hwith]
        exact List.mem_append_right _ (Firsts.mem_firsts_of_free List.not_mem_nil htaken)

private theorem rowReading_congr (h : covered usage = covered usage') :
    rowReading serde usage = rowReading serde usage' := by
  funext value
  rw [rowReading, rowReading, h]

private theorem limitRows_of_member {before after : List (String × Json)} {value : Json}
    (h : UsageResponse.deserialize (.object (before ++ ("limits", value) :: after)) =
      some usage) : limitRows usage.limits = limitRows (some value) := by
  obtain ⟨-, -, -, -, hlimits⟩ := deserialize_object_iff.mp h
  have hmem : value ∈ valuesOf (before ++ ("limits", value) :: after) "limits" := by
    simp [valuesOf]
  rw [← rowsOf_eq h, rowsOf]
  rcases lookup_cases (before ++ ("limits", value) :: after) "limits" with
    ⟨hv, -⟩ | ⟨other, hv, -⟩ | ⟨-, hl⟩
  · rw [hv] at hmem
    cases hmem
  · rw [hv] at hmem ⊢
    rw [List.mem_singleton.mp hmem]
    simp
  · rw [hl] at hlimits
    cases hlimits

private theorem covered_replaced {t : Target} (h : Replaced t members members')
    (ht : ∀ i, t ≠ .bucket i)
    (husage : UsageResponse.deserialize (.object members) = some usage)
    (husage' : UsageResponse.deserialize (.object members') = some usage') :
    covered usage = covered usage' := by
  funext slug
  rw [Bool.eq_iff_iff, covered_iff_accounts husage, covered_iff_accounts husage']
  exact exists_congr fun i => accounts_replaced h (ht i)

private theorem rows_untouched_row {i : Nat} (h : Replaced (.row i) members members')
    (husage : UsageResponse.deserialize (.object members) = some usage)
    (husage' : UsageResponse.deserialize (.object members') = some usage')
    {p : Source × QuotaWindow F → Bool} {q : WindowId → Bool}
    (hp : ∀ j w, p (.row j, w) = true ↔ j ≠ i ∧ q w.id = true)
    (hq : ∀ w, Takes (.row i) serde members w ∨ Takes (.row i) serde members' w →
      q w.id = false) :
    (Firsts.firsts sourcedId [] (rowsSourced serde usage)).filter p =
      (Firsts.firsts sourcedId [] (rowsSourced serde usage')).filter p := by
  have hreading : rowReading serde usage = rowReading serde usage' :=
    rowReading_congr (covered_replaced h (fun _ => nofun) husage husage')
  obtain ⟨before, name, value, value', after, hname, hrep, rfl, rfl⟩ := h
  obtain ⟨rows, row, row', rows', hlength, rfl, rfl⟩ := hrep
  cases hname
  have hrows := limitRows_of_member husage
  have hrows' := limitRows_of_member husage'
  rw [rows_without hlength husage hrows hp fun w hw => hq w (.inl hw),
    rows_without hlength husage' hrows' hp fun w hw => hq w (.inr hw)]
  have hfrom : ∀ rows n, rowsFrom serde usage rows n = rowsFrom serde usage' rows n := by
    intro rows n
    rw [rowsFrom, rowsFrom, hreading]
  rw [hfrom, hfrom]

open Classical in
private theorem rest_of_decoded {t : Target} (h : Replaced t members members')
    (husage : UsageResponse.deserialize (.object members) = some usage)
    (husage' : UsageResponse.deserialize (.object members') = some usage')
    (hshadows : ¬ Shadows t serde members members')
    (hshadows' : ¬ Shadows t serde members' members) :
    untouched t serde members members' (reported serde members) =
      untouched t serde members members' (reported serde members') := by
  rw [reported_eq husage, reported_eq husage', sourced_eq, sourced_eq]
  unfold untouched
  rw [List.filter_append, List.filter_append]
  have hfixed : (fixedSourced serde usage).filter
        (fun s => decide (Untouched t serde members members' s)) =
      (fixedSourced serde usage').filter
        fun s => decide (Untouched t serde members members' s) := by
    apply fixed_untouched (t := t)
    · rintro j w rfl
      simp [Untouched, Target.Owns]
    · intro j entry hentry hj
      exact bucket_replaced h husage husage' hentry hj
  rw [hfixed]
  congr 1
  cases t with
  | bucket i =>
    apply rows_untouched_bucket h husage husage' hshadows hshadows'
    intro j w
    simp [Untouched, Target.Owns]
  | limits =>
    have hnone : ∀ usage : UsageResponse,
        (Firsts.firsts sourcedId [] (rowsSourced serde usage)).filter
          (fun s => decide (Untouched .limits serde members members' s)) = [] := by
      intro usage
      apply List.filter_eq_nil_iff.mpr
      intro s hs
      obtain ⟨j, hj⟩ := (rowsSourced_spec ((Firsts.firsts_sublist _ _).subset hs)).1
      simp [Untouched, Target.Owns, hj]
    rw [hnone, hnone]
  | row i =>
    apply rows_untouched_row h husage husage'
      (q := fun id => decide (¬ ((∃ s ∈ reported serde members, s.1 = .row i ∧ s.2.id = id) ∨
        ∃ s ∈ reported serde members', s.1 = .row i ∧ s.2.id = id)))
    · intro j w
      rw [decide_eq_true_iff, decide_eq_true_iff, Untouched, takes_row, takes_row, not_or]
      simp [Target.Owns]
    · intro w hw
      rw [takes_row, takes_row] at hw
      exact decide_eq_false (not_not_intro hw)

private theorem readable_of_others {t : Target} (h : Replaced t members members')
    (husage : UsageResponse.deserialize (.object members) = some usage)
    (hshaped' : ¬ WellShaped members') {s : Source × QuotaWindow F}
    (hs : s ∈ reported serde members) (hown : ¬ t.Owns s.1) : Readable serde members' := by
  rw [reported_eq husage] at hs
  cases t with
  | limits => exact absurd (wellShaped_replaced h rfl (wellShaped_iff.mp ⟨usage, husage⟩)) hshaped'
  | row i => exact absurd (wellShaped_replaced h rfl (wellShaped_iff.mp ⟨usage, husage⟩)) hshaped'
  | bucket i =>
    rcases mem_sourced_cases hs with hs | hs
    · left
      obtain ⟨j, entry, hentry, hreading, hsource⟩ := mem_fixedSourced.mp hs
      obtain ⟨bucket, used, hpresent, hused, -⟩ := bucketReading_eq_some hreading
      obtain ⟨name, hname⟩ := bucketNames_of_spec hentry
      have hj : Target.bucket i ≠ .bucket j := by
        intro heq
        apply hown
        rw [hsource]
        exact (Target.bucket.inj heq).symm
      refine ⟨j, name, bucket, used, hname, ?_, hused⟩
      rw [bucketsOf, ← bucketsOf_replaced h hname hj, ← bucketsOf, bucketsOf_eq husage hname hentry,
        hpresent]
      exact List.mem_singleton.mpr rfl
    · right
      obtain ⟨slug, hrow, -⟩ := rowReads_of_reading husage hs
      exact ⟨slug, (rowReads_replaced h).mp hrow⟩

private theorem untouched_nil {t : Target} (h : Replaced t members members')
    (hshaped : WellShaped members) (hshaped' : ¬ WellShaped members')
    (hnone : ¬ Readable serde members') :
    untouched t serde members members' (reported serde members) = [] := by
  obtain ⟨usage, husage⟩ := wellShaped_iff.mpr hshaped
  unfold untouched
  apply List.filter_eq_nil_iff.mpr
  intro s hs hpass
  have hfree : Untouched t serde members members' s := by simpa using hpass
  exact hnone (readable_of_others h husage hshaped' hs hfree.1)

theorem Replaced.symm {t : Target} (h : Replaced t members members') :
    Replaced t members' members := by
  obtain ⟨before, name, value, value', after, hname, hrep, h₁, h₂⟩ := h
  refine ⟨before, name, value', value, after, hname, ?_, h₂, h₁⟩
  cases t with
  | bucket i => trivial
  | limits => trivial
  | row i =>
    obtain ⟨rows, row, row', rows', hlength, hv, hv'⟩ := hrep
    exact ⟨rows, row', row, rows', hlength, hv', hv⟩

private theorem untouched_comm (t : Target) (windows : List (Source × QuotaWindow F)) :
    untouched t serde members members' windows = untouched t serde members' members windows := by
  unfold untouched
  apply List.filter_congr
  intro s _
  have hiff : Untouched t serde members members' s ↔ Untouched t serde members' members s := by
    unfold Untouched
    exact and_congr_right fun _ => forall_congr' fun i => imp_congr_right fun _ => and_comm
  exact decide_eq_decide.mpr hiff

/-- The rest is reported alike when each payload decodes or has nothing to be read, and no bucket
without a reading comes or goes where rows have its model. -/
theorem rest_of_condition {t : Target} (h : Replaced t members members')
    (hd : Reportable serde members ∨ ¬ Readable serde members)
    (hd' : Reportable serde members' ∨ ¬ Readable serde members')
    (hshadows : ¬ Shadows t serde members members')
    (hshadows' : ¬ Shadows t serde members' members) :
    untouched t serde members members' (reported serde members) =
      untouched t serde members members' (reported serde members') := by
  by_cases hshaped : WellShaped members
  · by_cases hshaped' : WellShaped members'
    · obtain ⟨usage, husage⟩ := wellShaped_iff.mpr hshaped
      obtain ⟨usage', husage'⟩ := wellShaped_iff.mpr hshaped'
      exact rest_of_decoded h husage husage' hshadows hshadows'
    · have hnone := hd'.resolve_left fun hreports => hshaped' hreports.shaped
      rw [untouched_nil h hshaped hshaped' hnone, reported_of_not_wellShaped hshaped']
      rfl
  · by_cases hshaped' : WellShaped members'
    · have hnone := hd.resolve_left fun hreports => hshaped hreports.shaped
      rw [untouched_comm t (reported serde members'), untouched_nil h.symm hshaped' hshaped hnone,
        reported_of_not_wellShaped hshaped]
      rfl
    · rw [reported_of_not_wellShaped hshaped, reported_of_not_wellShaped hshaped']

private theorem not_shadows {t : Target} (h : Replaced t members members')
    (hd : Reportable serde members ∨ ¬ Readable serde members)
    (hd' : Reportable serde members' ∨ ¬ Readable serde members')
    (hrest : ∀ s, Untouched t serde members members' s → s ∈ reported serde members →
      s ∈ reported serde members') : ¬ Shadows t serde members members' := by
  rintro ⟨i, slug, rfl, hrow, hbefore, hafter, hunread⟩
  have hshaped := (hd.resolve_right (not_not_intro (.inr ⟨slug, hrow⟩))).shaped
  have hrow' := (rowReads_replaced h).mp hrow
  have hshaped' := (hd'.resolve_right (not_not_intro (.inr ⟨slug, hrow'⟩))).shaped
  obtain ⟨usage, husage⟩ := wellShaped_iff.mpr hshaped
  obtain ⟨usage', husage'⟩ := wellShaped_iff.mpr hshaped'
  have hcovered : covered usage slug = false := by
    apply Bool.eq_false_iff.mpr
    intro hc
    obtain ⟨k, hk⟩ := (covered_iff_accounts husage).mp hc
    rw [accounts_unique hk hafter] at hk
    exact hbefore hk
  obtain ⟨s, hs, hreported, hid⟩ := exists_reported_row husage hrow hcovered
  rw [← reported_eq husage] at hreported
  obtain ⟨j, hj⟩ := (rowsSourced_spec hs).1
  obtain ⟨slug', -, hscope, hid', -⟩ := rowReads_of_reading husage hs
  rw [hid] at hid'
  cases weekly_append_eq.mp (congrArg WindowId.val hid')
  have hfree : ¬ Takes (.bucket i) serde members s.2 := by
    rintro ⟨own, hown, howns, htaken⟩
    obtain ⟨hfixed, entry, bucket, hentry, hpresent, -, hownScope⟩ := own_bucket husage hown howns
    rcases htaken with hsame | ⟨-, fixed, slug', -, hfixedScope, hmodel, hsame⟩
    · exact rowsSourced_free hs (List.mem_map.mpr ⟨own, hfixed, hsame⟩)
    · rw [hscope] at hmodel
      cases hmodel
      obtain ⟨name, hname⟩ := bucketNames_of_spec hentry
      refine hbefore ⟨name, entry, fixed, hname, hentry, hownScope ▸ hfixedScope, ?_, hsame⟩
      rw [bucketsOf_eq husage hname hentry, hpresent]
      exact List.cons_ne_nil _ _
  have hfree' : ¬ Takes (.bucket i) serde members' s.2 := by
    rintro ⟨own, hown, howns, -⟩
    obtain ⟨-, -, -, -, -, hreads, -⟩ := own_bucket husage' hown howns
    exact hunread hreads
  have hs' := hrest s ⟨by rw [hj]; exact not_false, fun k _ => ⟨hfree, hfree'⟩⟩ hreported
  -- reported there too, the row is one that no present bucket accounts for
  rw [reported_eq husage'] at hs'
  rcases mem_sourced_cases hs' with hfixed | hrows
  · obtain ⟨k, -, -, -, hsource⟩ := mem_fixedSourced.mp hfixed
    rw [hj] at hsource
    cases hsource
  · obtain ⟨slug', -, hscope', -, hcovered'⟩ := rowReads_of_reading husage' hrows
    rw [hscope] at hscope'
    cases hscope'
    rw [(covered_iff_accounts husage').mpr ⟨i, hafter⟩] at hcovered'
    cases hcovered'

open Classical in
private theorem mem_of_rest {t : Target} {windows windows' : List (Source × QuotaWindow F)}
    (h : untouched t serde members members' windows = untouched t serde members members' windows')
    {s : Source × QuotaWindow F} (hs : Untouched t serde members members' s) (hmem : s ∈ windows) :
    s ∈ windows' := by
  unfold untouched at h
  have hkept : s ∈ windows.filter fun s => decide (Untouched t serde members members' s) :=
    List.mem_filter.mpr ⟨hmem, decide_eq_true hs⟩
  rw [h] at hkept
  exact (List.mem_filter.mp hkept).1

/-- What `parse` gives are the windows reported, and it fails when there are none. -/
structure Reports (serde : Serde F) (raw : RawResponse) (members : List (String × Json)) :
    Prop where
  ok : ∀ windows, parse serde raw = .ok windows → windows = (reported serde members).map Prod.snd
  error : (∃ e, parse serde raw = .error e) ↔ reported serde members = []

/-- A replaced value costs at most what it describes exactly when each payload decodes to something
or has nothing that can be read, and no bucket without a reading takes the place of none, or none
the place of it, where a row of its model can be read. -/
theorem isolation_iff (serde : Serde F) (t : Target) {raw raw' : RawResponse}
    (hstatus : raw.status = 200) (hstatus' : raw'.status = 200)
    (hdocument : serde.fromSlice raw.body = .ok (.object members))
    (hdocument' : serde.fromSlice raw'.body = .ok (.object members'))
    (h : Replaced t members members') :
    Reports serde raw members ∧ Reports serde raw' members' ∧
      (Isolates t serde raw raw' members members' ↔
        (Reportable serde members ∨ ¬ Readable serde members) ∧
        (Reportable serde members' ∨ ¬ Readable serde members') ∧
        ¬ Shadows t serde members members' ∧ ¬ Shadows t serde members' members) := by
  have hreports := parse_object hstatus hdocument
  have hreports' := parse_object hstatus' hdocument'
  refine ⟨⟨hreports.1, hreports.2⟩, ⟨hreports'.1, hreports'.2⟩, ?_⟩
  constructor
  · intro hisolates
    have hd := (floor_iff hstatus hdocument).mp hisolates.floor
    have hd' := (floor_iff hstatus' hdocument').mp hisolates.floor'
    refine ⟨hd, hd', not_shadows h hd hd' fun s => mem_of_rest hisolates.rest,
      not_shadows h.symm hd' hd ?_⟩
    have hback := hisolates.rest.symm
    rw [untouched_comm, untouched_comm t (reported serde members)] at hback
    exact fun s => mem_of_rest hback
  · rintro ⟨hd, hd', hshadows, hshadows'⟩
    exact ⟨rest_of_condition h hd hd' hshadows hshadows', (floor_iff hstatus hdocument).mpr hd,
      (floor_iff hstatus' hdocument').mpr hd'⟩

end Payloads

/-! ## A session beside the week -/

/-- The two account-wide buckets, the week readable. -/
def sessionMembers (session : Json) : List (String × Json) :=
  [("five_hour", session), ("seven_day", .object [("utilization", .number "48")])]

def sessionHead : String := "\x7b\"five_hour\":"

def sessionTail : String := ",\"seven_day\":\x7b\"utilization\":48\x7d\x7d"

def sessionPoll (session : String) : RawResponse where
  status := 200
  body := asciiBytes (sessionHead ++ session ++ sessionTail)

def sessionRead : String := "\x7b\"utilization\":27\x7d"

def sessionReadJson : Json := .object [("utilization", .number "27")]

/-- A decoder that knows the poll with the session read, and with another value in its place. -/
def sessionPolls (session : String) (value : Json) : Serde ℚ where
  fromSlice body :=
    if body = (sessionPoll sessionRead).body then .ok (.object (sessionMembers sessionReadJson))
    else if body = (sessionPoll session).body then .ok (.object (sessionMembers value))
    else .error "unexpected body"
  unexpected _ := "unexpected document"
  f64 text := [("27", 27), ("48", 48)].lookup text
  dateTime _ := none

private theorem fromSlice_sessionPolls (session : String) (value : Json) (body : List UInt8) :
    (sessionPolls session value).fromSlice body =
      if body = (sessionPoll sessionRead).body then .ok (.object (sessionMembers sessionReadJson))
      else if body = (sessionPoll session).body then .ok (.object (sessionMembers value))
      else .error "unexpected body" := rfl

private theorem session_replaced (value : Json) :
    Replaced (.bucket 0) (sessionMembers sessionReadJson) (sessionMembers value) :=
  ⟨[], "five_hour", sessionReadJson, value, _, rfl, trivial, rfl, rfl⟩

private theorem wellShaped_session {value : Json} (h : BucketShape value) :
    WellShaped (sessionMembers value) := by
  have hweek : BucketShape (.object [("utilization", .number "48")]) := by
    simp [BucketShape, valuesOf]
  constructor
  · simp [bucketNames, valuesOf, sessionMembers]
  · simp [bucketNames, valuesOf, sessionMembers, h, hweek]

private theorem reportable_session {value : Json} (h : BucketShape value) {session : String}
    {spoiled : Json} : Reportable (sessionPolls session spoiled) (sessionMembers value) :=
  ⟨wellShaped_session h, .inl ⟨1, "seven_day", ⟨some (.number "48"), none⟩, 48, rfl,
    List.mem_singleton.mpr rfl, rfl⟩⟩

private theorem not_shadows_session {serde : Serde ℚ} {value value' : Json} :
    ¬ Shadows (.bucket 0) serde (sessionMembers value) (sessionMembers value') := by
  rintro ⟨i, slug, -, ⟨row, hrow, -⟩, -⟩
  cases hrow

/-- A session that is not sent costs the session alone. -/
theorem isolation_iff_session : Isolates (.bucket 0) (sessionPolls "null" .null)
    (sessionPoll sessionRead) (sessionPoll "null") (sessionMembers sessionReadJson)
    (sessionMembers .null) := by
  have hsession : asciiBytes "null" ≠ asciiBytes sessionRead := by decide
  have hne : (sessionPoll "null").body ≠ (sessionPoll sessionRead).body := by
    dsimp only [sessionPoll]
    exact asciiBytes_ne sessionHead sessionTail hsession
  refine (isolation_iff (sessionPolls "null" .null) (.bucket 0) rfl rfl ?_ ?_
    (session_replaced .null)).2.2.mpr
    ⟨.inl ?_, .inl ?_, not_shadows_session, not_shadows_session⟩
  · rw [fromSlice_sessionPolls, if_pos rfl]
  · rw [fromSlice_sessionPolls, if_neg hne, if_pos rfl]
  · apply reportable_session
    simp [sessionReadJson, BucketShape, valuesOf]
  · exact @reportable_session .null trivial _ _

/-- A session that is a number costs the week. -/
theorem session_number_costs_week :
    ¬ ∀ (serde : Serde ℚ) (t : Target) (raw raw' : RawResponse)
      (members members' : List (String × Json)), raw.status = 200 → raw'.status = 200 →
      serde.fromSlice raw.body = .ok (.object members) →
      serde.fromSlice raw'.body = .ok (.object members') → Replaced t members members' →
      Isolates t serde raw raw' members members' := by
  intro h
  have hsession : asciiBytes "5" ≠ asciiBytes sessionRead := by decide
  have hne : (sessionPoll "5").body ≠ (sessionPoll sessionRead).body := by
    dsimp only [sessionPoll]
    exact asciiBytes_ne sessionHead sessionTail hsession
  have hread : (sessionPolls "5" (.number "5")).fromSlice (sessionPoll sessionRead).body =
      .ok (.object (sessionMembers sessionReadJson)) := by
    rw [fromSlice_sessionPolls, if_pos rfl]
  have hspoiled : (sessionPolls "5" (.number "5")).fromSlice (sessionPoll "5").body =
      .ok (.object (sessionMembers (.number "5"))) := by
    rw [fromSlice_sessionPolls, if_neg hne, if_pos rfl]
  have hisolates := h _ (.bucket 0) _ _ _ _ rfl rfl hread hspoiled (session_replaced _)
  have herror : ∃ e, parse (sessionPolls "5" (.number "5")) (sessionPoll "5") = .error e := by
    apply (parse_object rfl hspoiled).2.mpr
    rfl
  obtain ⟨e, he⟩ := herror
  apply hisolates.floor' e he
  exact .inl ⟨1, "seven_day", ⟨some (.number "48"), none⟩, 48, rfl, List.mem_singleton.mpr rfl,
    rfl⟩

/-! ## A bucket without a reading -/

/-- A row for Opus under the bucket of Opus. -/
def opusMembers (bucket : Json) : List (String × Json) :=
  [("seven_day_opus", bucket), ("limits", .array [.object [("kind", .string "weekly_scoped"),
    ("percent", .number "48"),
    ("scope", .object [("model", .object [("display_name", .string "Opus")])])]])]

/-- A bucket that comes without a reading costs the row of its model, and here the whole poll. -/
theorem opus_without_reading_costs_row {serde : Serde ℚ} {used : ℚ} {raw raw' : RawResponse}
    (hused : serde.f64 "48" = some used) (hstatus : raw.status = 200)
    (hstatus' : raw'.status = 200)
    (hdocument : serde.fromSlice raw.body = .ok (.object (opusMembers .null)))
    (hdocument' : serde.fromSlice raw'.body = .ok (.object (opusMembers (.object [])))) :
    ¬ Isolates (.bucket 2) serde raw raw' (opusMembers .null) (opusMembers (.object [])) := by
  intro hisolates
  have hreplaced : Replaced (.bucket 2) (opusMembers .null) (opusMembers (.object [])) :=
    ⟨[], "seven_day_opus", .null, .object [], _, rfl, trivial, rfl, rfl⟩
  refine not_shadows hreplaced ((floor_iff hstatus hdocument).mp hisolates.floor)
    ((floor_iff hstatus' hdocument').mp hisolates.floor') (fun s => mem_of_rest hisolates.rest) ?_
  refine ⟨2, "opus", rfl, ⟨_, List.mem_singleton.mpr rfl, _, _, used, rfl, hused, by decide⟩,
    ?_, ?_, ?_⟩
  · rintro ⟨name, entry, fixed, hname, -, -, hne, -⟩
    cases hname
    exact hne rfl
  · exact ⟨"seven_day_opus", _, "opus", rfl, rfl, rfl, List.cons_ne_nil _ _, by decide⟩
  · rintro ⟨name, bucket, used, hname, hbucket, hread⟩
    cases hname
    cases List.mem_singleton.mp hbucket
    cases hread

end Claude
end Teiryo
