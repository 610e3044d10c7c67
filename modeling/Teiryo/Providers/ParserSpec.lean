import Teiryo.Providers.Parser
import Teiryo.Core.Storage

/-!
# What the parser's windows are keyed by

Ids of parsed windows: what a slug is made of, in which order windows come, and that no two of a
payload share an id.
-/

namespace Teiryo
namespace Claude

def slugChar (c : Char) : Bool := c.isLower || c.isDigit

/-- Runs of lower-case letters and digits, joined by single underscores. -/
def SlugText (text : List Char) : Prop :=
  ∃ runs : List (List Char), runs ≠ [] ∧
    (∀ run ∈ runs, run ≠ [] ∧ ∀ c ∈ run, slugChar c = true) ∧ text = ['_'].intercalate runs

private theorem slugChar_toLower {c : Char} (h : c.isAlphanum = true) :
    slugChar c.toLower = true := by
  unfold slugChar Char.toLower
  split
  · rename_i hupper
    have hlo : 65 ≤ c.val.toNat := hupper.1
    have hhi : c.val.toNat ≤ 90 := hupper.2
    rw [Bool.or_eq_true]
    left
    change (decide (97 ≤ c.val + 32) && decide (c.val + 32 ≤ 122)) = true
    simp only [Bool.and_eq_true, decide_eq_true_eq, UInt32.le_iff_toNat_le, UInt32.toNat_add]
    constructor
    · change 97 ≤ (c.val.toNat + 32) % 4294967296
      omega
    · change (c.val.toNat + 32) % 4294967296 ≤ 122
      omega
  · rename_i hupper
    have hnot : c.isUpper = false := by
      rw [Bool.eq_false_iff]
      exact fun h => hupper (of_decide_eq_true h)
    change (c.isUpper || c.isLower || c.isDigit) = true at h
    rwa [hnot, Bool.false_or] at h

theorem slugChar_ne_underscore {c : Char} (h : slugChar c = true) : c ≠ '_' := by
  rintro rfl
  exact absurd h (by decide)

private theorem intercalate_concat {α : Type} {sep : List α} {runs : List (List α)} (h : runs ≠ [])
    (run : List α) : sep.intercalate (runs ++ [run]) = sep.intercalate runs ++ sep ++ run := by
  induction runs with
  | nil => exact absurd rfl h
  | cons first rest ih =>
    cases rest with
    | nil => simp [List.intercalate_cons_cons]
    | cons second rest =>
      have hrest := ih (by simp)
      simp only [List.cons_append, List.intercalate_cons_cons] at hrest ⊢
      rw [hrest]
      simp only [List.append_assoc]

private theorem intercalate_append {α : Type} {sep : List α} (runs : List (List α))
    (run tail : List α) :
    sep.intercalate (runs ++ [run]) ++ tail = sep.intercalate (runs ++ [run ++ tail]) := by
  by_cases h : runs = []
  · subst h
    simp only [List.nil_append, List.intercalate_singleton]
  · rw [intercalate_concat h, intercalate_concat h, List.append_assoc _ run tail]

private theorem slugText_singleton {c : Char} (h : slugChar c = true) : SlugText [c] := by
  refine ⟨[[c]], by simp, ?_, by simp⟩
  intro run hrun
  rw [List.mem_singleton] at hrun
  subst hrun
  exact ⟨by simp, by simpa using h⟩

/-- A slug ends in the last character of its last run. -/
theorem SlugText.last {text : List Char} (h : SlugText text) :
    ∃ start c, text = start ++ [c] ∧ slugChar c = true := by
  obtain ⟨runs, hne, hruns, rfl⟩ := h
  obtain ⟨init, run, rfl⟩ := (List.eq_nil_or_concat' runs).resolve_left hne
  obtain ⟨hrun, hchars⟩ := hruns run (by simp)
  obtain ⟨start, c, rfl⟩ := (List.eq_nil_or_concat' run).resolve_left hrun
  exact ⟨['_'].intercalate (init ++ [start]), c, (intercalate_append _ _ _).symm,
    hchars c (by simp)⟩

/-- The last run of a slug takes another character. -/
theorem SlugText.push {text : List Char} (h : SlugText text) {c : Char}
    (hc : slugChar c = true) : SlugText (text ++ [c]) := by
  obtain ⟨runs, hne, hruns, rfl⟩ := h
  obtain ⟨init, run, rfl⟩ := (List.eq_nil_or_concat' runs).resolve_left hne
  refine ⟨init ++ [run ++ [c]], by simp, ?_, intercalate_append _ _ _⟩
  intro run' hrun'
  rcases List.mem_append.mp hrun' with hinit | hlast
  · exact hruns run' (List.mem_append_left _ hinit)
  · rw [List.mem_singleton] at hlast
    subst hlast
    refine ⟨by simp, ?_⟩
    intro c' hc'
    rcases List.mem_append.mp hc' with hold | hnew
    · exact (hruns run (by simp)).2 c' hold
    · rw [List.mem_singleton] at hnew
      rw [hnew]
      exact hc

private theorem SlugText.pushRun {text : List Char} (h : SlugText text) {c : Char}
    (hc : slugChar c = true) : SlugText (text ++ ['_'] ++ [c]) := by
  obtain ⟨runs, hne, hruns, rfl⟩ := h
  refine ⟨runs ++ [[c]], by simp, ?_, (intercalate_concat hne [c]).symm⟩
  intro run hrun
  rcases List.mem_append.mp hrun with hold | hnew
  · exact hruns run hold
  · rw [List.mem_singleton] at hnew
    subst hnew
    exact ⟨by simp, by simpa using hc⟩

/-- What `modelSlug` has pushed so far: nothing, a slug, or a slug and an underscore. -/
def SlugSoFar (text : List Char) : Prop :=
  text = [] ∨ SlugText text ∨ ∃ slug, SlugText slug ∧ text = slug ++ ['_']

private theorem slugStep_soFar {text : List Char} (h : SlugSoFar text) (c : Char) :
    SlugSoFar (slugStep text c) := by
  unfold slugStep
  split
  · rename_i hc
    have hlower := slugChar_toLower hc
    rcases h with rfl | h | ⟨slug, h, rfl⟩
    · exact .inr (.inl (slugText_singleton hlower))
    · exact .inr (.inl (h.push hlower))
    · exact .inr (.inl (h.pushRun hlower))
  · split
    · rename_i hend
      rcases h with rfl | h | ⟨slug, h, rfl⟩
      · exact absurd rfl hend.1
      · exact .inr (.inr ⟨text, h, rfl⟩)
      · exact absurd (by simp) hend.2
    · exact h

private theorem slugFold_soFar (name : List Char) {text : List Char} (h : SlugSoFar text) :
    SlugSoFar (name.foldl slugStep text) := by
  induction name generalizing text with
  | nil => exact h
  | cons c name ih => exact ih (slugStep_soFar h c)

/-- The slug of a name is empty, or a slug. -/
theorem modelSlug_text (name : String) :
    modelSlug name = "" ∨ SlugText (modelSlug name).toList := by
  unfold modelSlug
  rw [String.toList_ofList]
  have hkept : ∀ {slug : List Char}, SlugText slug →
      (slug.rdropWhile fun c => c == '_') = slug := by
    intro slug hslug
    obtain ⟨start, c, rfl, hc⟩ := hslug.last
    apply List.rdropWhile_concat_neg
    simpa using slugChar_ne_underscore hc
  rcases slugFold_soFar name.toList (.inl rfl) with h | h | ⟨slug, h, heq⟩
  · left
    rw [h]
    rfl
  · right
    rw [hkept h]
    exact h
  · right
    rw [heq, List.rdropWhile_concat_pos _ _ _ (by simp), hkept h]
    exact h

theorem LimitModel.slug_text {model : LimitModel} (h : model.slug ≠ "") :
    SlugText model.slug.toList := by
  have hname := modelSlug_text (model.displayName.getD "")
  unfold LimitModel.slug at h ⊢
  dsimp only at h ⊢
  cases hid : model.id.map modelSlug with
  | none =>
    simp only [hid] at h ⊢
    exact hname.resolve_left h
  | some id =>
    simp only [hid] at h ⊢
    obtain ⟨text, -, rfl⟩ := Option.map_eq_some_iff.mp hid
    split
    · rename_i hne
      exact (modelSlug_text text).resolve_left hne
    · rename_i hempty
      rw [if_neg hempty] at h
      exact hname.resolve_left h

section Windows

variable {F : Type} [F64 F] {serde : Serde F}

/-- The window of a fixed bucket that is there and has a reading. -/
def FromBucket (serde : Serde F) (usage : UsageResponse) (entry : BucketSpec × BucketGetter)
    (w : QuotaWindow F) : Prop :=
  ∃ bucket used, entry.2 usage = some bucket ∧
    readable (f64Value serde) bucket.utilization = some used ∧
    w = bucketWindow serde entry.1 bucket used

/-- The window of a `weekly_scoped` row that names its model and has a reading. -/
def FromRow (serde : Serde F) (value : Json) (w : QuotaWindow F) : Prop :=
  ∃ entry model used, LimitEntry.deserialize value = some entry ∧
    entry.kind = some weeklyScopedKind ∧ entry.scope.bind LimitScope.model = some model ∧
    model.slug ≠ "" ∧ readable (f64Value serde) entry.percent = some used ∧
    w = limitWindow serde entry model used

private theorem foldl_pushBucket (serde : Serde F) (usage : UsageResponse)
    (entries : List (BucketSpec × BucketGetter)) (acc : FixedBuckets F) :
    ∃ used fixed, used.Sublist entries ∧ List.Forall₂ (FromBucket serde usage) used fixed ∧
      (entries.foldl (pushBucket serde usage) acc).windows = acc.windows ++ fixed := by
  induction entries generalizing acc with
  | nil => exact ⟨[], [], List.Sublist.refl _, .nil, by simp⟩
  | cons entry entries ih =>
    obtain ⟨used, fixed, hused, hfixed, heq⟩ := ih (pushBucket serde usage acc entry)
    rw [List.foldl_cons, heq]
    cases hbucket : entry.2 usage with
    | none =>
      refine ⟨used, fixed, hused.cons _, hfixed, ?_⟩
      simp only [pushBucket, hbucket]
    | some bucket =>
      cases hread : readable (f64Value serde) bucket.utilization with
      | none =>
        refine ⟨used, fixed, hused.cons _, hfixed, ?_⟩
        simp only [pushBucket, hbucket, hread]
      | some reading =>
        refine ⟨entry :: used, bucketWindow serde entry.1 bucket reading :: fixed,
          hused.cons_cons _, .cons ⟨bucket, reading, hbucket, hread, rfl⟩ hfixed, ?_⟩
        simp only [pushBucket, hbucket, hread, List.append_assoc, List.singleton_append]

/-- What a row adds: nothing, or its window, whose id is new. -/
theorem pushLimit_cases (serde : Serde F) (fixedModels : List String)
    (windows : List (QuotaWindow F)) (value : Json) :
    pushLimit serde fixedModels windows value = windows ∨
      ∃ w, FromRow serde value w ∧ (∀ w' ∈ windows, w'.id ≠ w.id) ∧
        pushLimit serde fixedModels windows value = windows ++ [w] := by
  unfold pushLimit
  split
  · exact .inl rfl
  · rename_i entry hentry
    split
    · exact .inl rfl
    · rename_i hkind
      split
      · exact .inl rfl
      · rename_i model hmodel
        split
        · exact .inl rfl
        · rename_i hslug
          split
          · exact .inl rfl
          · rename_i hfresh
            split
            · exact .inl rfl
            · split
              · exact .inl rfl
              · rename_i used hused
                refine .inr ⟨limitWindow serde entry model used,
                  ⟨entry, model, used, hentry, not_not.mp hkind, hmodel, hslug, hused, rfl⟩,
                  ?_, rfl⟩
                intro w' hw' hid
                apply hfresh
                rw [List.any_eq_true]
                exact ⟨w', hw', by rw [hid]; exact beq_self_eq_true _⟩

private theorem foldl_pushLimit (fixedModels : List String) (rows : List Json)
    (windows : List (QuotaWindow F)) (hnodup : (windows.map QuotaWindow.id).Nodup) :
    ∃ used derived, used.Sublist rows ∧ List.Forall₂ (FromRow serde) used derived ∧
      rows.foldl (pushLimit serde fixedModels) windows = windows ++ derived ∧
      ((windows ++ derived).map QuotaWindow.id).Nodup := by
  induction rows generalizing windows with
  | nil => exact ⟨[], [], List.Sublist.refl _, .nil, by simp, by simpa using hnodup⟩
  | cons row rows ih =>
    rw [List.foldl_cons]
    rcases pushLimit_cases serde fixedModels windows row with
      hsame | ⟨w, hw, hnew, hpush⟩
    · rw [hsame]
      obtain ⟨used, derived, hused, hderived, heq, hids⟩ := ih windows hnodup
      exact ⟨used, derived, hused.cons _, hderived, heq, hids⟩
    · rw [hpush]
      have hnodup' : ((windows ++ [w]).map QuotaWindow.id).Nodup := by
        rw [List.map_append, List.nodup_append]
        refine ⟨hnodup, by simp, ?_⟩
        intro id hid id' hid'
        obtain ⟨w', hw', rfl⟩ := List.mem_map.mp hid
        simp only [List.map_cons, List.map_nil, List.mem_singleton] at hid'
        rw [hid']
        exact hnew w' hw'
      obtain ⟨used, derived, hused, hderived, heq, hids⟩ := ih _ hnodup'
      refine ⟨row :: used, w :: derived, hused.cons_cons _, .cons hw hderived, ?_, ?_⟩
      · rw [heq, List.append_assoc, List.singleton_append]
      · rwa [List.append_assoc, List.singleton_append] at hids

private theorem fromBucket_ids {usage : UsageResponse} {entries : List (BucketSpec × BucketGetter)}
    {fixed : List (QuotaWindow F)} (h : List.Forall₂ (FromBucket serde usage) entries fixed) :
    fixed.map QuotaWindow.id = entries.map fun entry => ⟨entry.1.id⟩ := by
  induction h with
  | nil => rfl
  | cons hfirst _ ih =>
    obtain ⟨bucket, used, -, -, rfl⟩ := hfirst
    rw [List.map_cons, List.map_cons, ih]
    rfl

private theorem specs_nodup : (specs.map fun entry => (⟨entry.1.id⟩ : WindowId)).Nodup := by decide

private theorem fixed_nodup {usage : UsageResponse} {entries : List (BucketSpec × BucketGetter)}
    {fixed : List (QuotaWindow F)} (hsub : entries.Sublist specs)
    (h : List.Forall₂ (FromBucket serde usage) entries fixed) :
    (fixed.map QuotaWindow.id).Nodup := by
  rw [fromBucket_ids h]
  exact specs_nodup.sublist (hsub.map _)

private theorem fromRow_ids {rows : List Json} {derived : List (QuotaWindow F)}
    (h : List.Forall₂ (FromRow serde) rows derived) :
    ∀ w ∈ derived, ∃ slug : String, w.id.val = "weekly_" ++ slug ∧ SlugText slug.toList := by
  induction h with
  | nil => simp
  | cons hfirst _ ih =>
    intro w hw
    rcases List.mem_cons.mp hw with rfl | hrest
    · obtain ⟨entry, model, used, -, -, -, hslug, -, rfl⟩ := hfirst
      exact ⟨model.slug, rfl, LimitModel.slug_text hslug⟩
    · exact ih w hrest

/-- A parsed payload is decoded from a body with status 200. -/
theorem parse_ok {raw : RawResponse} {windows : List (QuotaWindow F)}
    (h : parse serde raw = .ok windows) :
    ∃ value usage, raw.status = 200 ∧ serde.fromSlice raw.body = .ok value ∧
      UsageResponse.deserialize value = some usage ∧ windows ≠ [] ∧
      windows = (limitRows usage.limits).foldl
        (pushLimit serde (specs.foldl (pushBucket serde usage) {}).fixedModels)
        (specs.foldl (pushBucket serde usage) {}).windows := by
  unfold parse at h
  split at h
  · cases h
  · rename_i hstatus
    split at h
    · cases h
    · rename_i value hvalue
      split at h
      · cases h
      · rename_i usage husage
        dsimp only at h
        split at h
        · cases h
        · rename_i hne
          cases h
          exact ⟨value, usage, not_not.mp hstatus, hvalue, husage, hne, rfl⟩

private theorem insertQuotaSnapshot_rows {poll : PollId} {w : QuotaWindow F} {st st' : Storage F}
    (h : Storage.insertQuotaSnapshot poll w st = .ok st') :
    ∀ r ∈ st'.quotaSnapshot, r ∈ st.quotaSnapshot ∨ r.windowId = w.id := by
  unfold Storage.insertQuotaSnapshot at h
  split at h
  · cases h
  · split at h
    · cases h
    · split at h
      · cases h
        intro r hr
        rcases List.mem_append.mp hr with hold | hnew
        · exact .inl hold
        · rw [List.mem_singleton] at hnew
          exact .inr (by rw [hnew])
      · cases h

private theorem insertQuotaSnapshot_unique {poll : PollId} {w : QuotaWindow F} {st : Storage F}
    (hfree : ∀ r ∈ st.quotaSnapshot, r.pollId = poll → r.windowId ≠ w.id) :
    Storage.insertQuotaSnapshot poll w st ≠ .error (.sqlite "UNIQUE constraint failed") := by
  unfold Storage.insertQuotaSnapshot
  have hnull : Storage.constraint "NOT NULL" ≠ .sqlite "UNIQUE constraint failed" := by decide
  have hforeign : Storage.constraint "FOREIGN KEY" ≠ .sqlite "UNIQUE constraint failed" := by
    decide
  split
  · intro h
    exact hnull (Except.error.inj h)
  · split
    · rename_i htaken
      obtain ⟨r, hr, hkey⟩ := List.any_eq_true.mp htaken
      simp only [Bool.and_eq_true, beq_iff_eq] at hkey
      exact absurd hkey.2 (hfree r hr hkey.1)
    · split
      · exact nofun
      · intro h
        exact hforeign (Except.error.inj h)

private theorem insertQuotaSnapshots_unique {poll : PollId} {windows : List (QuotaWindow F)}
    (hids : (windows.map QuotaWindow.id).Nodup) {st : Storage F}
    (hfree : ∀ r ∈ st.quotaSnapshot, r.pollId = poll → r.windowId ∉ windows.map QuotaWindow.id) :
    (windows.map (Storage.insertQuotaSnapshot poll)).foldlM (fun st stmt => stmt st) st ≠
      .error (.sqlite "UNIQUE constraint failed") := by
  induction windows generalizing st with
  | nil => exact nofun
  | cons w windows ih =>
    rw [List.map_cons, List.nodup_cons] at hids
    intro h
    rw [List.map_cons, List.foldlM_cons] at h
    have hfirst : ∀ r ∈ st.quotaSnapshot, r.pollId = poll → r.windowId ≠ w.id := by
      intro r hr hpoll hid
      exact hfree r hr hpoll (by rw [hid]; exact List.mem_cons_self)
    cases hinsert : Storage.insertQuotaSnapshot poll w st with
    | error e =>
      rw [hinsert] at h
      have heq : e = .sqlite "UNIQUE constraint failed" := Except.error.inj h
      rw [heq] at hinsert
      exact insertQuotaSnapshot_unique hfirst hinsert
    | ok st' =>
      rw [hinsert] at h
      apply ih hids.2 ?_ h
      intro r hr hpoll hid
      rcases insertQuotaSnapshot_rows hinsert r hr with hold | hnew
      · exact hfree r hold hpoll (List.mem_cons_of_mem _ hid)
      · rw [hnew] at hid
        exact hids.1 hid

/-- The windows of a parsed payload: those of the fixed buckets in the order of the specs, then
those of the `limits[]` rows in theirs, under ids that are all different. An id of the second kind
is `weekly_` and a slug. So no two snapshots of the poll share a key. -/
theorem parse_keys (serde : Serde F) (raw : RawResponse) (windows : List (QuotaWindow F))
    (h : parse serde raw = .ok windows) :
    windows ≠ [] ∧ (windows.map QuotaWindow.id).Nodup ∧
    (∃ value usage entries fixed rows derived, serde.fromSlice raw.body = .ok value ∧
      UsageResponse.deserialize value = some usage ∧ windows = fixed ++ derived ∧
      entries.Sublist specs ∧ List.Forall₂ (FromBucket serde usage) entries fixed ∧
      rows.Sublist (limitRows usage.limits) ∧ List.Forall₂ (FromRow serde) rows derived ∧
      ∀ w ∈ derived, ∃ slug : String, w.id.val = "weekly_" ++ slug ∧ SlugText slug.toList) ∧
    ∀ (poll : PollId) (st : Storage F), (∀ r ∈ st.quotaSnapshot, r.pollId ≠ poll) →
      (windows.map (Storage.insertQuotaSnapshot poll)).foldlM (fun st stmt => stmt st) st ≠
        .error (.sqlite "UNIQUE constraint failed") := by
  obtain ⟨value, usage, -, hvalue, husage, hne, heq⟩ := parse_ok h
  obtain ⟨entries, fixed, hentries, hfixed, hwindows⟩ :=
    foldl_pushBucket serde usage specs {}
  have hwindows' : (specs.foldl (pushBucket serde usage) {}).windows = fixed := hwindows
  rw [hwindows'] at heq
  obtain ⟨rows, derived, hrows, hderived, hpushed, hids⟩ :=
    foldl_pushLimit (specs.foldl (pushBucket serde usage) {}).fixedModels
      (limitRows usage.limits) fixed (fixed_nodup hentries hfixed)
  rw [hpushed] at heq
  have hnodup : (windows.map QuotaWindow.id).Nodup := by
    rw [heq]
    exact hids
  refine ⟨hne, hnodup, ⟨value, usage, entries, fixed, rows, derived, hvalue, husage, heq,
    hentries, hfixed, hrows, hderived, ?_⟩, ?_⟩
  · exact fromRow_ids hderived
  · intro poll st hfree
    apply insertQuotaSnapshots_unique hnodup
    intro r hr hpoll
    exact absurd hpoll (hfree r hr)

/-- A session, and a model with a weekly cap of its own. -/
def sessionAndFable : Json :=
  .object [("five_hour", .object [("utilization", .number "27.0"), ("resets_at", .null)]),
    ("seven_day", .null),
    ("limits", .array [
      .object [("kind", .string "session"), ("percent", .number "27"), ("scope", .null)],
      .object [("kind", .string "weekly_scoped"), ("percent", .number "48"),
        ("scope", .object [("model",
          .object [("id", .null), ("display_name", .string "Fable 5.1")])])],
      .object [("kind", .string "weekly_scoped"), ("percent", .number "99"),
        ("scope", .object [("model", .object [("display_name", .string "fable-5-1")])])]])]

/-- Its text. -/
def sessionAndFableText : String :=
  "\x7b\"five_hour\":\x7b\"utilization\":27.0,\"resets_at\":null\x7d,\"seven_day\":null" ++
    ",\"limits\":[\x7b\"kind\":\"session\",\"percent\":27,\"scope\":null\x7d,\x7b\"kind\"" ++
    ":\"weekly_scoped\",\"percent\":48,\"scope\":\x7b\"model\":\x7b\"id\":null,\"display_" ++
    "name\":\"Fable 5.1\"\x7d\x7d\x7d,\x7b\"kind\":\"weekly_scoped\",\"percent\":99,\"sco" ++
    "pe\":\x7b\"model\":\x7b\"display_name\":\"fable-5-1\"\x7d\x7d\x7d]\x7d"

/-- A decoder that knows one document. -/
def knownTexts (text : String) (document : Json) : Serde ℚ where
  fromSlice body := if body = text.toUTF8.toList then .ok document else .error "unexpected body"
  unexpected _ := "unexpected document"
  f64 text := [("27.0", 27), ("27", 27), ("48", 48), ("99", 99)].lookup text
  dateTime _ := none

private theorem parse_sessionAndFable {body : List UInt8}
    (hbody : (knownTexts sessionAndFableText sessionAndFable).fromSlice body =
      .ok sessionAndFable) :
    ∃ windows, parse (knownTexts sessionAndFableText sessionAndFable)
        { status := 200, body } = .ok windows ∧
      windows.map QuotaWindow.id = [⟨"session_5h"⟩, ⟨"weekly_fable_5_1"⟩] := by
  unfold parse
  rw [if_neg (not_not_intro rfl), hbody]
  exact ⟨_, rfl, by decide⟩

theorem parse_keys_sessionAndFable : ∃ windows,
    parse (knownTexts sessionAndFableText sessionAndFable)
      { status := 200, body := sessionAndFableText.toUTF8.toList } = .ok windows ∧
      windows.map QuotaWindow.id = [⟨"session_5h"⟩, ⟨"weekly_fable_5_1"⟩] ∧
      (windows.map QuotaWindow.id).Nodup := by
  obtain ⟨windows, h, hids⟩ := parse_sessionAndFable (if_pos rfl)
  exact ⟨windows, h, hids, (parse_keys _ _ windows h).2.1⟩

end Windows
end Claude
end Teiryo
