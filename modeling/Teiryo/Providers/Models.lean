import Teiryo.Providers.Sources

/-!
# Which rows a fixed bucket stands for

A slug names a fixed model when it is the model's own name, after the vendor's or not, followed by
numbers alone. These slugs and no others are what a fixed bucket of that model suppresses.
-/

namespace Teiryo
namespace Claude

/-- A slug that is a model's name, or the vendor's and the model's, and then segments of an
underscore and digits. -/
def NamesModel (slug fixed : String) : Prop :=
  ∃ base ∈ [fixed, "claude_" ++ fixed], ∃ tail : List (List Char),
    (∀ digits ∈ tail, digits ≠ [] ∧ digits.all Char.isDigit = true) ∧
      slug.toList = base.toList ++ tail.flatMap ('_' :: ·)

def isNumeric (run : List Char) : Bool := run.all Char.isDigit

/-- The runs of a slug without the vendor's. -/
def dropVendor (runs : List (List Char)) : List (List Char) :=
  if runs.head? = some "claude".toList ∧ 1 < runs.length then runs.tail else runs

/-- The runs of a slug without the version behind its name. -/
def dropVersion (runs : List (List Char)) : List (List Char) :=
  if runs.head?.any fun run => !run.all Char.isDigit then (popVersion runs.reverse).reverse
  else runs

private theorem intercalate_eq_flatMap (run : List Char) (runs : List (List Char)) :
    ['_'].intercalate (run :: runs) = run ++ runs.flatMap ('_' :: ·) := by
  induction runs generalizing run with
  | nil => simp
  | cons next runs ih =>
    rw [List.intercalate_cons_cons, ih next, List.flatMap_cons, List.append_assoc]
    rfl

private theorem popVersion_eq (name : List Char) (runs : List (List Char)) :
    popVersion ((name :: runs).reverse) = (name :: runs.rdropWhile isNumeric).reverse := by
  induction runs using List.reverseRecOn with
  | nil => simp [popVersion]
  | append_singleton runs last ih =>
    have hsplit : (name :: (runs ++ [last])).reverse = last :: (name :: runs).reverse := by simp
    obtain ⟨next, rest, hrest⟩ : ∃ next rest, (name :: runs).reverse = next :: rest := by
      cases hr : (name :: runs).reverse with
      | nil => simp at hr
      | cons next rest => exact ⟨next, rest, rfl⟩
    rw [hsplit, hrest, popVersion]
    by_cases hlast : last.all Char.isDigit = true
    · rw [if_pos hlast, ← hrest, ih, List.rdropWhile_concat_pos isNumeric _ _ hlast]
    · rw [if_neg hlast, ← hrest, List.rdropWhile_concat_neg isNumeric _ _ hlast]
      exact hsplit.symm

private theorem canonicalModel_text {slug : String} {runs : List (List Char)} (hne : runs ≠ [])
    (hruns : ∀ run ∈ runs, run ≠ [] ∧ ∀ c ∈ run, slugChar c = true)
    (hslug : slug.toList = ['_'].intercalate runs) :
    canonicalModel slug = String.ofList (['_'].intercalate (dropVersion (dropVendor runs))) := by
  have hsplit : slug.toList.splitOn '_' = runs := by
    rw [hslug]
    apply List.splitOn_intercalate '_' _ hne
    intro run hrun hunderscore
    exact slugChar_ne_underscore ((hruns run hrun).2 '_' hunderscore) rfl
  have hfilter : runs.filter (fun part => !part.isEmpty) = runs := by
    apply List.filter_eq_self.mpr
    intro run hrun
    cases hempty : run with
    | nil => exact absurd hempty (hruns run hrun).1
    | cons _ _ => rfl
  unfold canonicalModel
  simp only [hsplit, hfilter]
  rfl

private theorem runs_unique {runs runs' : List (List Char)} (hne : runs ≠ []) (hne' : runs' ≠ [])
    (hruns : ∀ run ∈ runs, '_' ∉ run) (hruns' : ∀ run ∈ runs', '_' ∉ run)
    (h : ['_'].intercalate runs = ['_'].intercalate runs') : runs = runs' := by
  rw [← List.splitOn_intercalate '_' hruns hne, h, List.splitOn_intercalate '_' hruns' hne']

private theorem isDigit_ne_underscore {run : List Char} (h : run.all Char.isDigit = true) :
    '_' ∉ run := by
  intro hmem
  exact absurd (List.all_eq_true.mp h '_' hmem) (by decide)

private theorem dropVersion_cons (name : List Char) (runs : List (List Char))
    (hname : isNumeric name = false) :
    dropVersion (name :: runs) = name :: runs.rdropWhile isNumeric := by
  have hhead : (name :: runs).head?.any (fun run => !run.all Char.isDigit) = true := by
    change (!isNumeric name) = true
    rw [hname]
    rfl
  rw [dropVersion, if_pos hhead, popVersion_eq, List.reverse_reverse]

/-- Only a name and numbers reduce to the name. -/
theorem dropVersion_eq_iff {runs : List (List Char)} {name : List Char}
    (hname : isNumeric name = false) :
    dropVersion runs = [name] ↔
      ∃ tail, runs = name :: tail ∧ ∀ digits ∈ tail, isNumeric digits = true := by
  constructor
  · intro h
    cases runs with
    | nil => exact absurd h (by simp [dropVersion])
    | cons first runs =>
      cases hfirst : isNumeric first with
      | true =>
        have hhead : ¬ (first :: runs).head?.any (fun run => !run.all Char.isDigit) = true := by
          change ¬ (!isNumeric first) = true
          simp [hfirst]
        rw [dropVersion, if_neg hhead] at h
        rw [(List.cons.inj h).1, hname] at hfirst
        cases hfirst
      | false =>
        rw [dropVersion_cons first runs hfirst] at h
        obtain ⟨rfl, hnil⟩ := List.cons.inj h
        exact ⟨runs, rfl, fun digits hdigits => List.rdropWhile_eq_nil_iff.mp hnil digits hdigits⟩
  · rintro ⟨tail, rfl, htail⟩
    rw [dropVersion_cons name tail hname, List.rdropWhile_eq_nil_iff.mpr htail]

private theorem dropVersion_subset (runs : List (List Char)) : dropVersion runs ⊆ runs := by
  cases runs with
  | nil => exact fun _ h => h
  | cons first rest =>
    cases hfirst : isNumeric first with
    | true =>
      have hhead : ¬ (first :: rest).head?.any (fun run => !run.all Char.isDigit) = true := by
        change ¬ (!isNumeric first) = true
        simp [hfirst]
      rw [dropVersion, if_neg hhead]
      exact fun _ h => h
    | false =>
      rw [dropVersion_cons first rest hfirst]
      exact List.cons_subset_cons first (List.rdropWhile_prefix _ _).subset

private theorem dropVendor_subset (runs : List (List Char)) : dropVendor runs ⊆ runs := by
  unfold dropVendor
  split
  · exact (List.tail_sublist runs).subset
  · exact fun _ h => h

/-- What stays of the runs is a model's name when they are the name and numbers, after the
vendor's or not. -/
theorem dropBoth_eq_iff {runs : List (List Char)} {name : List Char}
    (hname : isNumeric name = false) (hvendor : name ≠ "claude".toList) :
    dropVersion (dropVendor runs) = [name] ↔
      ∃ tail, (runs = name :: tail ∨ runs = "claude".toList :: name :: tail) ∧
        ∀ digits ∈ tail, isNumeric digits = true := by
  rw [dropVersion_eq_iff hname]
  unfold dropVendor
  constructor
  · rintro ⟨tail, hruns, htail⟩
    split at hruns
    · rename_i hprefix
      refine ⟨tail, .inr ?_, htail⟩
      cases runs with
      | nil => cases hruns
      | cons first rest =>
        rw [Option.some.inj hprefix.1]
        exact congrArg _ hruns
    · exact ⟨tail, .inl hruns, htail⟩
  · rintro ⟨tail, rfl | rfl, htail⟩
    · refine ⟨tail, if_neg ?_, htail⟩
      rintro ⟨hhead, -⟩
      exact hvendor (Option.some.inj hhead)
    · exact ⟨tail, if_pos ⟨rfl, by simp⟩, htail⟩

/-- A text of a slug's characters that is neither a number nor the vendor's name. -/
structure FixedName (fixed : String) : Prop where
  chars : fixed.toList.all slugChar = true
  named : isNumeric fixed.toList = false
  vendor : fixed.toList ≠ "claude".toList

private theorem FixedName.no_underscore {fixed : String} (h : FixedName fixed) :
    '_' ∉ fixed.toList :=
  fun hmem => slugChar_ne_underscore (List.all_eq_true.mp h.chars '_' hmem) rfl

private theorem fixedName_of_mem {fixed : String} (h : fixed ∈ ["opus", "sonnet"]) :
    FixedName fixed := by
  rcases List.mem_cons.mp h with rfl | h
  · exact ⟨by decide, by decide, by decide⟩
  · rw [List.mem_singleton.mp h]
    exact ⟨by decide, by decide, by decide⟩

private theorem namesModel_iff {slug fixed : String} {runs : List (List Char)}
    (hfixed : FixedName fixed)
    (hne : runs ≠ []) (hruns : ∀ run ∈ runs, run ≠ [] ∧ ∀ c ∈ run, slugChar c = true)
    (hslug : slug.toList = ['_'].intercalate runs) :
    NamesModel slug fixed ↔
      ∃ tail, (runs = fixed.toList :: tail ∨ runs = "claude".toList :: fixed.toList :: tail) ∧
        ∀ digits ∈ tail, isNumeric digits = true := by
  have hno : ∀ run ∈ runs, '_' ∉ run := by
    intro run hrun hmem
    exact slugChar_ne_underscore ((hruns run hrun).2 '_' hmem) rfl
  have hvendor : ("claude_" ++ fixed).toList = "claude".toList ++ '_' :: fixed.toList := by
    rw [String.toList_append]
    rfl
  constructor
  · rintro ⟨base, hbase, tail, htail, htext⟩
    have hdigits : ∀ digits ∈ tail, '_' ∉ digits :=
      fun digits hmem => isDigit_ne_underscore (htail digits hmem).2
    refine ⟨tail, ?_, fun digits hmem => (htail digits hmem).2⟩
    rcases List.mem_cons.mp hbase with rfl | hbase
    · left
      apply runs_unique hne (List.cons_ne_nil _ _) hno
      · intro run hrun
        rcases List.mem_cons.mp hrun with rfl | hrun
        · exact hfixed.no_underscore
        · exact hdigits run hrun
      · rw [intercalate_eq_flatMap, ← htext, hslug]
    · right
      rw [List.mem_singleton.mp hbase, hvendor] at htext
      apply runs_unique hne (List.cons_ne_nil _ _) hno
      · intro run hrun
        rcases List.mem_cons.mp hrun with rfl | hrun
        · decide
        · rcases List.mem_cons.mp hrun with rfl | hrun
          · exact hfixed.no_underscore
          · exact hdigits run hrun
      · rw [intercalate_eq_flatMap, List.flatMap_cons, ← hslug, htext]
        simp
  · rintro ⟨tail, hcases, htail⟩
    have hall : ∀ digits ∈ tail, digits ∈ runs := by
      intro digits hmem
      rcases hcases with rfl | rfl
      · exact List.mem_cons_of_mem _ hmem
      · exact List.mem_cons_of_mem _ (List.mem_cons_of_mem _ hmem)
    have hdigits : ∀ digits ∈ tail, digits ≠ [] ∧ digits.all Char.isDigit = true :=
      fun digits hmem => ⟨(hruns digits (hall digits hmem)).1, htail digits hmem⟩
    rcases hcases with rfl | rfl
    · exact ⟨fixed, List.mem_cons_self, tail, hdigits, by rw [hslug, intercalate_eq_flatMap]⟩
    · refine ⟨"claude_" ++ fixed, by simp, tail, hdigits, ?_⟩
      rw [hslug, intercalate_eq_flatMap, List.flatMap_cons, hvendor]
      simp

/-- A slug names the same model as a fixed bucket exactly when it has one of these forms. -/
theorem sameModel_iff {slug fixed : String} (hfixed : FixedName fixed)
    (hslug : slug = "" ∨ SlugText slug.toList) :
    sameModel slug fixed = true ↔ NamesModel slug fixed := by
  have hne : fixed.toList ≠ [] := by
    intro hnil
    have hnamed := hfixed.named
    rw [hnil] at hnamed
    cases hnamed
  unfold sameModel
  rw [beq_iff_eq]
  rcases hslug with rfl | ⟨runs, hruns, hchars, htext⟩
  · constructor
    · intro h
      have hcanon : canonicalModel "" = "" := by decide
      rw [hcanon] at h
      exact absurd (congrArg String.toList h).symm hne
    · rintro ⟨base, hbase, tail, -, h⟩
      have hnil : base.toList = [] := (List.append_eq_nil_iff.mp h.symm).1
      rcases List.mem_cons.mp hbase with rfl | hbase
      · exact absurd hnil hne
      · rw [List.mem_singleton.mp hbase, String.toList_append] at hnil
        exact absurd (List.append_eq_nil_iff.mp hnil).2 hne
  · rw [canonicalModel_text hruns hchars htext, namesModel_iff hfixed hruns hchars htext,
      ← dropBoth_eq_iff hfixed.named hfixed.vendor]
    have hno : ∀ run ∈ dropVersion (dropVendor runs), '_' ∉ run := by
      intro run hrun hmem
      have hrun := dropVendor_subset runs (dropVersion_subset _ hrun)
      exact slugChar_ne_underscore ((hchars run hrun).2 '_' hmem) rfl
    constructor
    · intro h
      have htext : ['_'].intercalate (dropVersion (dropVendor runs)) = fixed.toList := by
        rw [← h, String.toList_ofList]
      apply runs_unique _ (List.cons_ne_nil _ _) hno
      · intro run hrun
        rw [List.mem_singleton.mp hrun]
        exact hfixed.no_underscore
      · rw [htext, List.intercalate_singleton]
      · intro hnil
        rw [hnil] at htext
        exact hne htext.symm
    · intro h
      rw [h, List.intercalate_singleton, String.ofList_toList]

/-- Whether the payload has the fixed bucket of a model. -/
def HasBucket (usage : UsageResponse) (fixed : String) : Prop :=
  fixed = "opus" ∧ usage.sevenDayOpus.isSome = true ∨
    fixed = "sonnet" ∧ usage.sevenDaySonnet.isSome = true

theorem mem_presentModels {usage : UsageResponse} {fixed : String} :
    fixed ∈ presentModels usage ↔ HasBucket usage fixed := by
  unfold presentModels HasBucket
  rw [List.mem_filterMap]
  constructor
  · rintro ⟨entry, hentry, hmodel⟩
    simp only [specs, List.mem_cons, List.not_mem_nil, or_false] at hentry
    rcases hentry with rfl | rfl | rfl | rfl
    · simp [bucketModel] at hmodel
    · simp [bucketModel] at hmodel
    · left
      cases h : usage.sevenDayOpus with
      | none => simp [bucketModel, h] at hmodel
      | some bucket => simpa [bucketModel, h, eq_comm] using hmodel
    · right
      cases h : usage.sevenDaySonnet with
      | none => simp [bucketModel, h] at hmodel
      | some bucket => simpa [bucketModel, h, eq_comm] using hmodel
  · rintro (⟨rfl, h⟩ | ⟨rfl, h⟩)
    · obtain ⟨bucket, hbucket⟩ := Option.isSome_iff_exists.mp h
      exact ⟨_, List.mem_of_getElem? (i := 2) rfl, by simp [bucketModel, hbucket]⟩
    · obtain ⟨bucket, hbucket⟩ := Option.isSome_iff_exists.mp h
      exact ⟨_, List.mem_of_getElem? (i := 3) rfl, by simp [bucketModel, hbucket]⟩

theorem HasBucket.mem {usage : UsageResponse} {fixed : String} (h : HasBucket usage fixed) :
    fixed ∈ ["opus", "sonnet"] := by
  rcases h with ⟨rfl, -⟩ | ⟨rfl, -⟩
  · exact List.mem_cons_self
  · exact List.mem_cons_of_mem _ List.mem_cons_self

private theorem covered_iff {usage : UsageResponse} {slug : String}
    (hslug : slug = "" ∨ SlugText slug.toList) :
    covered usage slug = true ↔ ∃ fixed, HasBucket usage fixed ∧ NamesModel slug fixed := by
  unfold covered
  rw [List.any_eq_true]
  constructor
  · rintro ⟨fixed, hmem, hsame⟩
    have hbucket := mem_presentModels.mp hmem
    exact ⟨fixed, hbucket, (sameModel_iff (fixedName_of_mem hbucket.mem) hslug).mp hsame⟩
  · rintro ⟨fixed, hbucket, hnames⟩
    exact ⟨fixed, mem_presentModels.mpr hbucket,
      (sameModel_iff (fixedName_of_mem hbucket.mem) hslug).mpr hnames⟩

/-- A slug names a fixed model exactly in these forms, and a row that could be reported is
suppressed exactly when its slug names a model whose fixed bucket is in the payload. -/
theorem suppression_exact {F : Type} [F64 F] (serde : Serde F) :
    (∀ name : String, ∀ fixed ∈ ["opus", "sonnet"],
      sameModel (modelSlug name) fixed = true ↔ NamesModel (modelSlug name) fixed) ∧
    ∀ (usage : UsageResponse) (windows : List (QuotaWindow F)) (value : Json)
      (entry : LimitEntry) (model : LimitModel), scopedRow value = some (entry, model) →
      rowId model ∉ windows.map QuotaWindow.id →
      let pushed := pushLimit serde (specs.foldl (pushBucket serde usage) {}).fixedModels
        windows value
      ((∃ fixed, HasBucket usage fixed ∧ NamesModel model.slug fixed) → pushed = windows) ∧
      (¬ (∃ fixed, HasBucket usage fixed ∧ NamesModel model.slug fixed) →
        pushed = windows ++ ((readable (f64Value serde) entry.percent).map
          (limitWindow serde entry model)).toList) := by
  constructor
  · intro name fixed hfixed
    exact sameModel_iff (fixedName_of_mem hfixed) (modelSlug_text name)
  · intro usage windows value entry model hrow hfree pushed
    have hslug := LimitModel.slug_text (scopedRow_slug hrow)
    have hpushed : pushed = pushLimit serde (presentModels usage) windows value := by
      rw [← List.nil_append (presentModels usage)]
      exact congrArg (fun buckets : FixedBuckets F =>
        pushLimit serde buckets.fixedModels windows value) (foldl_pushBucket_eq specs {})
    rw [← covered_iff (.inr hslug), hpushed, pushLimit_eq]
    constructor
    · intro hcovered
      rw [rowReading, hrow]
      simp only [hcovered, if_true]
    · intro hcovered
      rw [rowReading, hrow]
      simp only [if_neg hcovered]
      cases readable (f64Value serde) entry.percent with
      | none => simp
      | some used =>
        have hnew : ¬ (windows.any fun w =>
            w.id == (limitWindow serde entry model used).id) = true := by
          rw [Firsts.mem_add_any]
          exact hfree
        simp only [Option.map_some, Firsts.add, if_neg hnew, Option.toList_some]

end Claude
end Teiryo
