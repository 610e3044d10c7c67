import Teiryo.Framework.JsonErase
import Teiryo.Providers.Sources

/-!
# Which payloads decode

The shapes of its fixed buckets, and whether a known name is given twice, say whether an object is
decoded at all. The buckets and rows of one that is are what its members are by themselves.
-/

namespace Teiryo
namespace Claude

/-- The members of the fixed buckets, in the order of the specs. -/
def bucketNames : List String := ["five_hour", "seven_day", "seven_day_opus", "seven_day_sonnet"]

/-- The values given to a name. -/
def valuesOf (members : List (String × Json)) (name : String) : List Json :=
  (members.filter fun member => member.1 == name).map Prod.snd

/-- A value that decodes as a fixed bucket or as none: `null`, an object with no reading given
twice, or an array of no more than the two of them. -/
def BucketShape : Json → Prop
  | .null => True
  | .object members => ∀ name ∈ ["utilization", "resets_at"], (valuesOf members name).length ≤ 1
  | .array elems => elems.length ≤ 2
  | _ => False

/-- An object that gives no known name twice, and its fixed buckets in their shapes. -/
structure WellShaped (members : List (String × Json)) : Prop where
  once : ∀ name ∈ "limits" :: bucketNames, (valuesOf members name).length ≤ 1
  buckets : ∀ name ∈ bucketNames, ∀ value ∈ valuesOf members name, BucketShape value

/-- The fixed buckets given under a name, each by itself. -/
def bucketsOf (members : List (String × Json)) (name : String) : List UsageBucket :=
  (valuesOf members name).filterMap UsageBucket.deserialize

/-- The rows given under `limits`. -/
def rowsOf (members : List (String × Json)) : List Json :=
  (valuesOf members "limits").flatMap fun value => limitRows (some value)

theorem lookup_cases (members : List (String × Json)) (name : String) :
    (valuesOf members name = [] ∧ Json.lookup members name = some none) ∨
    (∃ value, valuesOf members name = [value] ∧ Json.lookup members name = some (some value)) ∨
    (¬ (valuesOf members name).length ≤ 1 ∧ Json.lookup members name = none) := by
  unfold valuesOf Json.lookup
  generalize members.filter (fun member => member.1 == name) = found
  match found with
  | [] => exact .inl ⟨rfl, rfl⟩
  | [member] => exact .inr (.inl ⟨member.2, rfl, rfl⟩)
  | first :: second :: rest => exact .inr (.inr ⟨by simp, rfl⟩)

private theorem usageBucket_isSome {value : Json} (hnull : value ≠ .null) :
    (UsageBucket.deserialize value).isSome = true ↔ BucketShape value := by
  cases value with
  | null => exact absurd rfl hnull
  | bool b => simp [UsageBucket.deserialize, Json.fields, BucketShape]
  | number text => simp [UsageBucket.deserialize, Json.fields, BucketShape]
  | string text => simp [UsageBucket.deserialize, Json.fields, BucketShape]
  | array elems =>
    by_cases hlen : elems.length ≤ 2
    · simp [UsageBucket.deserialize, Json.fields, BucketShape, hlen, List.range, List.range.loop]
    · simp [UsageBucket.deserialize, Json.fields, BucketShape, hlen]
  | object members =>
    rw [UsageBucket.deserialize, Json.fields_object]
    simp only [BucketShape, List.forall_mem_cons, List.mapM_cons, List.mapM_nil]
    rcases lookup_cases members "utilization" with ⟨hu, hlu⟩ | ⟨u, hu, hlu⟩ | ⟨hu, hlu⟩
    · rcases lookup_cases members "resets_at" with ⟨hr, hlr⟩ | ⟨r, hr, hlr⟩ | ⟨hr, hlr⟩
      · simp [hu, hlu, hr, hlr]
      · simp [hu, hlu, hr, hlr]
      · simp [hlu, hlr, Nat.lt_of_not_le hr]
    · rcases lookup_cases members "resets_at" with ⟨hr, hlr⟩ | ⟨r, hr, hlr⟩ | ⟨hr, hlr⟩
      · simp [hu, hlu, hr, hlr]
      · simp [hu, hlu, hr, hlr]
      · simp [hlu, hlr, Nat.lt_of_not_le hr]
    · simp [hlu, Nat.lt_of_not_le hu]

/-- A fixed bucket of an object: missing, or unreadable as one. -/
def bucketField (members : List (String × Json)) (name : String) : Option (Option UsageBucket) :=
  (Json.lookup members name).bind (Json.optional UsageBucket.deserialize)

private theorem optional_of_ne_null {α : Type} {decode : Json → Option α} {value : Json}
    (h : value ≠ .null) : Json.optional decode (some value) = (decode value).map some := by
  cases value with
  | null => exact absurd rfl h
  | _ => rfl

private theorem bucketField_cases (members : List (String × Json)) (name : String) :
    (∃ bucket, bucketField members name = some bucket ∧
      bucketsOf members name = bucket.toList ∧ (valuesOf members name).length ≤ 1 ∧
      ∀ value ∈ valuesOf members name, BucketShape value) ∨
    (bucketField members name = none ∧ ((valuesOf members name).length ≤ 1 →
      ¬ ∀ value ∈ valuesOf members name, BucketShape value)) := by
  unfold bucketField bucketsOf
  rcases lookup_cases members name with ⟨hv, hl⟩ | ⟨value, hv, hl⟩ | ⟨hv, hl⟩
  · rw [hv, hl]
    exact .inl ⟨none, rfl, rfl, by simp, by simp⟩
  · rw [hv, hl, Option.bind_some]
    by_cases hnull : value = .null
    · rw [hnull]
      exact .inl ⟨none, rfl, rfl, by simp, by simp [BucketShape]⟩
    · have hshape := usageBucket_isSome hnull
      rw [optional_of_ne_null hnull]
      cases hd : UsageBucket.deserialize value with
      | none =>
        rw [hd] at hshape
        right
        refine ⟨rfl, fun _ hall => ?_⟩
        simpa using hshape.mpr (hall value List.mem_cons_self)
      | some bucket =>
        rw [hd] at hshape
        left
        refine ⟨some bucket, rfl, by simp [hd], by simp, ?_⟩
        intro other hother
        rw [List.mem_singleton.mp hother]
        exact hshape.mp rfl
  · rw [hl]
    exact .inr ⟨rfl, fun h => absurd h hv⟩

private theorem bucketField_some {members : List (String × Json)} {name : String}
    {bucket : Option UsageBucket} (h : bucketField members name = some bucket) :
    bucketsOf members name = bucket.toList ∧ (valuesOf members name).length ≤ 1 ∧
      ∀ value ∈ valuesOf members name, BucketShape value := by
  rcases bucketField_cases members name with ⟨other, hsome, hspec⟩ | ⟨hnone, -⟩
  · rw [h] at hsome
    cases hsome
    exact hspec
  · rw [h] at hnone
    cases hnone

/-- An object decodes member by member. -/
theorem deserialize_object_iff {members : List (String × Json)} {usage : UsageResponse} :
    UsageResponse.deserialize (.object members) = some usage ↔
      bucketField members "five_hour" = some usage.fiveHour ∧
      bucketField members "seven_day" = some usage.sevenDay ∧
      bucketField members "seven_day_opus" = some usage.sevenDayOpus ∧
      bucketField members "seven_day_sonnet" = some usage.sevenDaySonnet ∧
      (Json.lookup members "limits").map Json.raw = some usage.limits := by
  rw [UsageResponse.deserialize, Json.fields_object]
  simp only [List.mapM_cons, List.mapM_nil, bucketField]
  cases Json.lookup members "five_hour" with
  | none => simp
  | some five =>
    cases Json.lookup members "seven_day" with
    | none => simp
    | some seven =>
      cases Json.lookup members "seven_day_opus" with
      | none => simp
      | some opus =>
        cases Json.lookup members "seven_day_sonnet" with
        | none => simp
        | some sonnet =>
          cases Json.lookup members "limits" with
          | none => simp
          | some limits =>
            obtain ⟨b₁, b₂, b₃, b₄, rows⟩ := usage
            simp [Option.bind_eq_some_iff]

/-- An object that decodes gives each fixed bucket once or not at all. -/
theorem bucketsOf_eq {members : List (String × Json)} {usage : UsageResponse}
    (h : UsageResponse.deserialize (.object members) = some usage) {i : Nat} {name : String}
    {entry : BucketSpec × BucketGetter} (hname : bucketNames[i]? = some name)
    (hentry : specs[i]? = some entry) : bucketsOf members name = (entry.2 usage).toList := by
  obtain ⟨h₁, h₂, h₃, h₄, -⟩ := deserialize_object_iff.mp h
  match i with
  | 0 => cases hname; cases hentry; exact (bucketField_some h₁).1
  | 1 => cases hname; cases hentry; exact (bucketField_some h₂).1
  | 2 => cases hname; cases hentry; exact (bucketField_some h₃).1
  | 3 => cases hname; cases hentry; exact (bucketField_some h₄).1
  | n + 4 => cases hname

theorem rowsOf_eq {members : List (String × Json)} {usage : UsageResponse}
    (h : UsageResponse.deserialize (.object members) = some usage) :
    rowsOf members = limitRows usage.limits := by
  obtain ⟨-, -, -, -, hlimits⟩ := deserialize_object_iff.mp h
  unfold rowsOf
  rcases lookup_cases members "limits" with ⟨hv, hl⟩ | ⟨value, hv, hl⟩ | ⟨-, hl⟩
  · rw [hl] at hlimits
    rw [hv, ← Option.some.inj hlimits]
    rfl
  · rw [hl] at hlimits
    rw [hv, ← Option.some.inj hlimits]
    cases value <;> simp [Json.raw, limitRows]
  · rw [hl] at hlimits
    cases hlimits

/-- Which objects decode. -/
theorem wellShaped_iff {members : List (String × Json)} :
    (∃ usage, UsageResponse.deserialize (.object members) = some usage) ↔ WellShaped members := by
  constructor
  · rintro ⟨usage, h⟩
    obtain ⟨h₁, h₂, h₃, h₄, hlimits⟩ := deserialize_object_iff.mp h
    have honce : (valuesOf members "limits").length ≤ 1 := by
      rcases lookup_cases members "limits" with ⟨hv, -⟩ | ⟨value, hv, -⟩ | ⟨-, hl⟩
      · simp [hv]
      · simp [hv]
      · rw [hl] at hlimits
        cases hlimits
    constructor
    · simp only [bucketNames, List.forall_mem_cons]
      exact ⟨honce, (bucketField_some h₁).2.1, (bucketField_some h₂).2.1,
        (bucketField_some h₃).2.1, (bucketField_some h₄).2.1,
        fun name hname => absurd hname List.not_mem_nil⟩
    · simp only [bucketNames, List.forall_mem_cons]
      exact ⟨(bucketField_some h₁).2.2, (bucketField_some h₂).2.2,
        (bucketField_some h₃).2.2, (bucketField_some h₄).2.2,
        fun name hname => absurd hname List.not_mem_nil⟩
  · intro h
    have hfield : ∀ name ∈ bucketNames, ∃ bucket, bucketField members name = some bucket := by
      intro name hname
      rcases bucketField_cases members name with ⟨bucket, hsome, -⟩ | ⟨-, hbad⟩
      · exact ⟨bucket, hsome⟩
      · exact absurd (h.buckets name hname) (hbad (h.once name (List.mem_cons_of_mem _ hname)))
    obtain ⟨b₁, h₁⟩ := hfield "five_hour" (by decide)
    obtain ⟨b₂, h₂⟩ := hfield "seven_day" (by decide)
    obtain ⟨b₃, h₃⟩ := hfield "seven_day_opus" (by decide)
    obtain ⟨b₄, h₄⟩ := hfield "seven_day_sonnet" (by decide)
    obtain ⟨limits, hlimits⟩ : ∃ limits, Json.lookup members "limits" = some limits := by
      rcases lookup_cases members "limits" with ⟨-, hl⟩ | ⟨value, -, hl⟩ | ⟨hv, -⟩
      · exact ⟨_, hl⟩
      · exact ⟨_, hl⟩
      · exact absurd (h.once "limits" List.mem_cons_self) hv
    exact ⟨⟨b₁, b₂, b₃, b₄, Json.raw limits⟩,
      deserialize_object_iff.mpr ⟨h₁, h₂, h₃, h₄, by rw [hlimits]; rfl⟩⟩

end Claude
end Teiryo
