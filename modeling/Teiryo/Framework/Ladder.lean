import Mathlib.Data.List.GetD
import Mathlib.Order.Lattice
import Mathlib.Tactic.Common

/-!
# Ladders

A value is moved up or down a fixed ascending list of rungs. A value that is not a rung itself moves
to the neighbouring one in the direction it is pushed, and the ends are not left.
-/

namespace Teiryo.Ladder

variable {α : Type} [LinearOrder α]

/-- The place `delta` rungs from a value, which may lie past the ends. -/
def place (rungs : List α) (x : α) (delta : Int) : Int :=
  match rungs.findIdx? fun rung => decide (x ≤ rung) with
  | some i =>
    if rungs[i]? = some x then i + delta
    else if 0 < delta then i
    else i - 1
  | none => rungs.length - 1

/-- The rung `delta` steps from a value; `bottom` is for an empty ladder. -/
def step (rungs : List α) (x : α) (delta : Int) (bottom : α) : α :=
  rungs.getD (max 0 (min (place rungs x delta) (rungs.length - 1))).toNat bottom

variable {rungs : List α} {x bottom : α} {delta : Int} {i : Nat}

theorem step_eq_getElem (hi : i < rungs.length)
    (h : max 0 (min (place rungs x delta) (rungs.length - 1)) = i) :
    step rungs x delta bottom = rungs[i] := by
  unfold step
  rw [h, Int.toNat_natCast]
  exact List.getD_eq_getElem rungs bottom hi

/-- Where a value stands: above every rung, on one or right under one. -/
theorem place_cases (hsorted : rungs.Pairwise (· < ·)) (x : α) :
    (∀ rung ∈ rungs, rung < x) ∧ (∀ delta, place rungs x delta = rungs.length - 1) ∨
      ∃ (i : Nat) (hi : i < rungs.length),
        (∀ (j : Nat) (hj : j < rungs.length), rungs[j] < x ↔ j < i) ∧
        (rungs[i] = x ∧ (∀ delta, place rungs x delta = i + delta) ∨
          x < rungs[i] ∧
            ∀ delta, place rungs x delta = if 0 < delta then (i : Int) else i - 1) := by
  unfold place
  cases hfind : rungs.findIdx? fun rung => decide (x ≤ rung) with
  | none =>
    left
    refine ⟨?_, fun _ => rfl⟩
    intro rung hrung
    have hnot := List.findIdx?_eq_none_iff.mp hfind rung hrung
    exact not_le.mp (of_decide_eq_false hnot)
  | some i =>
    obtain ⟨hi, hle, hbefore⟩ := List.findIdx?_eq_some_iff_getElem.mp hfind
    have hle : x ≤ rungs[i] := of_decide_eq_true hle
    right
    refine ⟨i, hi, ?_, ?_⟩
    · intro j hj
      constructor
      · intro hlt
        by_contra hge
        rcases Nat.lt_or_eq_of_le (not_lt.mp hge) with hij | rfl
        · have hrungs := List.pairwise_iff_getElem.mp hsorted i j hi hj hij
          exact (hle.trans_lt hrungs).not_gt hlt
        · exact hle.not_gt hlt
      · intro hji
        exact not_le.mp fun hxj => hbefore j hji (decide_eq_true hxj)
    · simp only [List.getElem?_eq_getElem hi, Option.some.injEq]
      by_cases heq : rungs[i] = x
      · exact .inl ⟨heq, fun delta => if_pos heq⟩
      · exact .inr ⟨lt_of_le_of_ne hle (Ne.symm heq), fun delta => if_neg heq⟩

theorem step_mem (hne : rungs ≠ []) (x : α) (delta : Int) (bottom : α) :
    step rungs x delta bottom ∈ rungs := by
  have hpos := List.length_pos_iff.mpr hne
  have hlt : (max 0 (min (place rungs x delta) (rungs.length - 1))).toNat < rungs.length := by
    omega
  unfold step
  rw [List.getD_eq_getElem rungs bottom hlt]
  exact List.getElem_mem hlt

/-- A step up goes to a rung above, where there is one. -/
theorem lt_step_up (hsorted : rungs.Pairwise (· < ·)) (habove : ∃ rung ∈ rungs, x < rung) :
    x < step rungs x 1 bottom := by
  obtain ⟨rung, hrung, hx⟩ := habove
  rcases place_cases hsorted x with ⟨hall, -⟩ | ⟨i, hi, hbelow, ⟨heq, hplace⟩ | ⟨hunder, hplace⟩⟩
  · exact absurd hx (hall rung hrung).not_gt
  · obtain ⟨j, hj, rfl⟩ := List.mem_iff_getElem.mp hrung
    have hij : i < j := by
      by_contra hge
      rcases Nat.lt_or_eq_of_le (not_lt.mp hge) with hji | rfl
      · exact ((hbelow j hj).mpr hji).not_gt hx
      · exact heq.not_gt hx
    have hnext : i + 1 < rungs.length := by omega
    rw [step_eq_getElem hnext (by rw [hplace]; omega)]
    calc x = rungs[i] := heq.symm
      _ < rungs[i + 1] := List.pairwise_iff_getElem.mp hsorted i (i + 1) hi hnext (by omega)
  · rw [step_eq_getElem hi (by rw [hplace, if_pos (by decide)]; omega)]
    exact hunder

/-- A value that is not above the ladder does not come down by a step up. -/
theorem le_step_up (hsorted : rungs.Pairwise (· < ·)) (hin : ∃ rung ∈ rungs, x ≤ rung) :
    x ≤ step rungs x 1 bottom := by
  by_cases habove : ∃ rung ∈ rungs, x < rung
  · exact (lt_step_up hsorted habove).le
  · -- the value is the top rung
    obtain ⟨rung, hrung, hx⟩ := hin
    rcases place_cases hsorted x with ⟨hall, -⟩ | ⟨i, hi, hbelow, ⟨heq, hplace⟩ | ⟨hunder, -⟩⟩
    · exact absurd hx (hall rung hrung).not_ge
    · have hlast : ¬ i + 1 < rungs.length := by
        intro hnext
        apply habove
        refine ⟨rungs[i + 1], List.getElem_mem hnext, ?_⟩
        rw [← heq]
        exact List.pairwise_iff_getElem.mp hsorted i (i + 1) hi hnext (by omega)
      rw [step_eq_getElem hi (by rw [hplace]; omega)]
      exact heq.ge
    · exact absurd ⟨_, List.getElem_mem hi, hunder⟩ habove

/-- A step down goes to a rung below, where there is one. -/
theorem step_down_lt (hsorted : rungs.Pairwise (· < ·)) (hbelow : ∃ rung ∈ rungs, rung < x) :
    step rungs x (-1) bottom < x := by
  obtain ⟨rung, hrung, hx⟩ := hbelow
  obtain ⟨j, hj, rfl⟩ := List.mem_iff_getElem.mp hrung
  rcases place_cases hsorted x with ⟨hall, hplace⟩ | ⟨i, hi, hbefore, hat⟩
  · have hlast : rungs.length - 1 < rungs.length := by omega
    rw [step_eq_getElem hlast (by rw [hplace]; omega)]
    exact hall _ (List.getElem_mem hlast)
  · have hji : j < i := (hbefore j hj).mp hx
    have hprev : i - 1 < rungs.length := by omega
    have hplace : place rungs x (-1) = i - 1 := by
      rcases hat with ⟨-, hplace⟩ | ⟨-, hplace⟩
      · exact hplace (-1)
      · exact (hplace (-1)).trans (if_neg (by decide))
    rw [step_eq_getElem hprev (by rw [hplace]; omega)]
    exact (hbefore (i - 1) hprev).mpr (by omega)

/-- A value that is not under the ladder does not go up by a step down. -/
theorem step_down_le (hsorted : rungs.Pairwise (· < ·)) (hin : ∃ rung ∈ rungs, rung ≤ x) :
    step rungs x (-1) bottom ≤ x := by
  by_cases hbelow : ∃ rung ∈ rungs, rung < x
  · exact (step_down_lt hsorted hbelow).le
  · -- the value is the bottom rung
    obtain ⟨rung, hrung, hx⟩ := hin
    have heq : rung = x := hx.eq_of_not_lt fun hlt => hbelow ⟨rung, hrung, hlt⟩
    obtain ⟨j, hj, hrung⟩ := List.mem_iff_getElem.mp hrung
    rcases place_cases hsorted x with ⟨hall, -⟩ | ⟨i, hi, hbefore, hat⟩
    · exact absurd ((hall _ (List.getElem_mem hj)).trans_eq (hrung.trans heq).symm) (lt_irrefl _)
    · have hfirst : i = 0 := by
        by_contra hne
        exact hbelow ⟨rungs[0], List.getElem_mem (by omega),
          (hbefore 0 (by omega)).mpr (by omega)⟩
      subst hfirst
      rcases hat with ⟨hx0, hplace⟩ | ⟨hunder, -⟩
      · rw [step_eq_getElem hi (by rw [hplace]; omega)]
        exact hx0.le
      · have hij : ¬ j < 0 := Nat.not_lt_zero j
        have hle : rungs[0] ≤ rungs[j] := by
          rcases Nat.eq_zero_or_pos j with rfl | hpos
          · exact le_rfl
          · exact (List.pairwise_iff_getElem.mp hsorted 0 j hi hj hpos).le
        exact absurd (hunder.trans_le hle) (hrung.trans heq).not_gt

/-- From above the ladder every step comes to its top. -/
theorem step_above (hsorted : rungs.Pairwise (· < ·)) (habove : ∀ rung ∈ rungs, rung < x)
    {top : α} (htop : rungs.getLast? = some top) (delta : Int) :
    step rungs x delta bottom = top := by
  have hpos : 0 < rungs.length := by
    cases rungs with
    | nil => cases htop
    | cons rung rungs => exact Nat.succ_pos _
  have hlast : rungs.length - 1 < rungs.length := by omega
  rcases place_cases hsorted x with ⟨-, hplace⟩ | ⟨i, hi, -, ⟨heq, -⟩ | ⟨hunder, -⟩⟩
  · rw [step_eq_getElem hlast (by rw [hplace]; omega)]
    rw [List.getLast?_eq_getElem?, List.getElem?_eq_getElem hlast, Option.some.injEq] at htop
    exact htop
  · exact absurd heq (habove _ (List.getElem_mem hi)).ne
  · exact absurd hunder (habove _ (List.getElem_mem hi)).not_gt

end Teiryo.Ladder
