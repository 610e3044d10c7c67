import Mathlib.Algebra.BigOperators.Group.List.Basic
import Mathlib.Algebra.Order.Ring.Nat
import Teiryo.Framework.Greedy

/-!
# Text in a column of cells

`cells`, `truncate` and `pad_to_cells` of `teiryo/src/ui/format.rs`. How a text falls into graphemes
and how wide one of them is drawn come from the `unicode-segmentation` and `unicode-width` crates,
which are parameters here; a text is the list of its chars.
-/

namespace Teiryo

/-- `char::is_control`, the general category Cc. -/
def isControl (c : Char) : Bool :=
  decide (c.toNat < 0x20) || (decide (0x7f ≤ c.toNat) && decide (c.toNat < 0xa0))

/-- What the two crates say of a text and of one of its graphemes. -/
structure Unicode where
  graphemes : List Char → List (List Char)
  width : List Char → Nat

/-- How many chars per cell of budget `truncate` will carry. -/
def maxCharsPerCell : Nat := 16

def usizeMax : Nat := 2 ^ 64 - 1

def ellipsis : Char := '…'

namespace Unicode

variable (u : Unicode)

/-- The cells a grapheme will be drawn at; one with a control character is discarded. -/
def drawnWidth (grapheme : List Char) : Nat :=
  if grapheme.any isControl then 0 else u.width grapheme

/-- The graphemes of a text with the width each will be drawn at. -/
def drawn (text : List Char) : List (List Char × Nat) :=
  (u.graphemes text).map fun grapheme => (grapheme, u.drawnWidth grapheme)

/-- How many cells a text is drawn in. -/
def cells (text : List Char) : Nat := ((u.drawn text).map Prod.snd).sum

/-- The loop of `truncate`, from what has been used up and pushed so far. -/
def cut (budget charCap : Nat) : Nat → Nat → List (List Char × Nat) → List Char
  | _, _, [] => []
  | used, chars, (grapheme, w) :: rest =>
    if budget < used + w ∨ charCap < chars + grapheme.length then []
    else grapheme ++ cut budget charCap (used + w) (chars + grapheme.length) rest

/-- Truncate to display cells, marking elision with an ellipsis. `usize` multiplies saturating and
adds wrapping around. -/
def truncate (text : List Char) (width : Nat) : List Char :=
  let charCap := min (maxCharsPerCell * max width 1) usizeMax
  if (text.take ((charCap + 1) % 2 ^ 64)).length ≤ charCap ∧ u.cells text ≤ width then text
  else if width = 0 then []
  else if width = 1 then [ellipsis]
  else cut (width - 1) charCap 0 0 (u.drawn text) ++ [ellipsis]

/-- Pad a text on the right to display cells. -/
def padToCells (text : List Char) (width : Nat) : List Char :=
  text ++ List.replicate (width - u.cells text) ' '

/-- The graphemes of a text make it up, and some of them from its front are found again where spaces
or an ellipsis follow. -/
structure Resegments (text : List Char) : Prop where
  whole : (u.graphemes text).flatten = text
  spaces : ∀ part, part <+: u.graphemes text → ∀ n,
    u.graphemes (part.flatten ++ List.replicate n ' ') = part ++ List.replicate n [' ']
  ellipsis : ∀ part, part <+: u.graphemes text → ∀ n,
    u.graphemes (part.flatten ++ ellipsis :: List.replicate n ' ') =
      part ++ [Teiryo.ellipsis] :: List.replicate n [' ']

/-- A text of whole graphemes from the front of another. -/
def WholePrefix (text front : List Char) : Prop :=
  ∃ part, part <+: u.graphemes text ∧ front = part.flatten

/-- The longest text of whole graphemes from the front of another within both budgets. -/
structure LongestWithin (text : List Char) (budget charCap : Nat) (kept : List Char) : Prop where
  whole : u.WholePrefix text kept
  cells : u.cells kept ≤ budget
  chars : kept.length ≤ charCap
  longest : ∀ other, u.WholePrefix text other → u.cells other ≤ budget →
    other.length ≤ charCap → other <+: kept

variable {u} {text front : List Char} {part : List (List Char)}

private theorem cells_eq (text : List Char) :
    u.cells text = ((u.graphemes text).map u.drawnWidth).sum := by
  unfold cells drawn
  rw [List.map_map]
  rfl

private theorem Resegments.graphemes_part (h : u.Resegments text)
    (hpart : part <+: u.graphemes text) : u.graphemes part.flatten = part := by
  have hnone := h.spaces part hpart 0
  simpa using hnone

private theorem Resegments.cells_part (h : u.Resegments text) (hpart : part <+: u.graphemes text) :
    u.cells part.flatten = (part.map u.drawnWidth).sum := by
  rw [cells_eq, h.graphemes_part hpart]

/-- The space and the ellipsis are one cell wide. -/
structure OneCell (u : Unicode) : Prop where
  space : u.width [' '] = 1
  ellipsis : u.width [ellipsis] = 1

private theorem OneCell.drawnWidth_space (h : u.OneCell) : u.drawnWidth [' '] = 1 := h.space

private theorem OneCell.drawnWidth_ellipsis (h : u.OneCell) : u.drawnWidth [Teiryo.ellipsis] = 1 :=
  h.ellipsis

private theorem Resegments.cells_spaces (h : u.Resegments text) (hone : u.OneCell)
    (hpart : part <+: u.graphemes text) (n : Nat) :
    u.cells (part.flatten ++ List.replicate n ' ') = u.cells part.flatten + n := by
  rw [cells_eq, h.spaces part hpart n, h.cells_part hpart]
  simp [hone.drawnWidth_space]

private theorem Resegments.cells_ellipsis (h : u.Resegments text) (hone : u.OneCell)
    (hpart : part <+: u.graphemes text) (n : Nat) :
    u.cells (part.flatten ++ Teiryo.ellipsis :: List.replicate n ' ') =
      u.cells part.flatten + 1 + n := by
  rw [cells_eq, h.ellipsis part hpart n, h.cells_part hpart]
  simp [hone.drawnWidth_space, hone.drawnWidth_ellipsis, Nat.add_assoc]

/-- What the graphemes so far cost, in cells and in chars. -/
def charge (u : Unicode) (spent : Nat × Nat) (grapheme : List Char) : Nat × Nat :=
  (spent.1 + u.drawnWidth grapheme, spent.2 + grapheme.length)

/-- Whether that is within both budgets. -/
def Affords (budget charCap : Nat) (spent : Nat × Nat) : Prop :=
  spent.1 ≤ budget ∧ spent.2 ≤ charCap

instance (budget charCap : Nat) : DecidablePred (Affords budget charCap) :=
  fun _ => inferInstanceAs (Decidable (_ ∧ _))

private theorem foldl_charge (spent : Nat × Nat) (part : List (List Char)) :
    part.foldl u.charge spent =
      (spent.1 + (part.map u.drawnWidth).sum, spent.2 + part.flatten.length) := by
  induction part generalizing spent with
  | nil => rfl
  | cons grapheme part ih =>
    rw [List.foldl_cons, ih]
    simp [charge, Nat.add_assoc]

private theorem affords_charge {budget charCap : Nat} (spent : Nat × Nat) (grapheme : List Char)
    (h : Affords budget charCap (u.charge spent grapheme)) : Affords budget charCap spent :=
  ⟨(Nat.le_add_right _ _).trans h.1, (Nat.le_add_right _ _).trans h.2⟩

private theorem cut_eq (budget charCap used chars : Nat) (graphemes : List (List Char)) :
    cut budget charCap used chars
        (graphemes.map fun grapheme => (grapheme, u.drawnWidth grapheme)) =
      (Greedy.taken u.charge (Affords budget charCap) (used, chars) graphemes).flatten := by
  induction graphemes generalizing used chars with
  | nil => rfl
  | cons grapheme rest ih =>
    rw [List.map_cons, cut, Greedy.taken]
    by_cases hover : budget < used + u.drawnWidth grapheme ∨ charCap < chars + grapheme.length
    · have hnot : ¬ Affords budget charCap (u.charge (used, chars) grapheme) := by
        simp only [Affords, charge]
        omega
      rw [if_pos hover, if_neg hnot]
      rfl
    · have hwithin : Affords budget charCap (u.charge (used, chars) grapheme) := by
        simp only [Affords, charge]
        omega
      rw [if_neg hover, if_pos hwithin, ih]
      rfl

private theorem Resegments.cut_longest (h : u.Resegments text) (budget charCap : Nat) :
    u.LongestWithin text budget charCap (cut budget charCap 0 0 (u.drawn text)) := by
  have hcut : cut budget charCap 0 0 (u.drawn text) = _ :=
    cut_eq budget charCap 0 0 (u.graphemes text)
  rw [hcut]
  generalize htaken : Greedy.taken u.charge (Affords budget charCap) (0, 0) (u.graphemes text) =
    taken
  have hprefix : taken <+: u.graphemes text := htaken ▸ Greedy.taken_prefix
  have hwithin : Affords budget charCap (taken.foldl u.charge (0, 0)) := by
    rw [← htaken]
    exact Greedy.within_taken ⟨Nat.zero_le _, Nat.zero_le _⟩
  rw [foldl_charge] at hwithin
  refine ⟨⟨taken, hprefix, rfl⟩, ?cells, ?chars, ?longest⟩
  case cells =>
    rw [h.cells_part hprefix]
    simpa using hwithin.1
  case chars => simpa using hwithin.2
  case longest =>
    rintro other ⟨part, hpart, rfl⟩ hcells hchars
    rw [h.cells_part hpart] at hcells
    have hafford : Affords budget charCap (part.foldl u.charge (0, 0)) := by
      rw [foldl_charge]
      exact ⟨by simpa using hcells, by simpa using hchars⟩
    have hkept : part <+: taken := by
      rw [← htaken]
      exact Greedy.prefix_taken affords_charge hpart hafford
    exact hkept.flatten

variable {width : Nat}

/-- Whether a text is within both budgets as it stands. -/
def Fits (u : Unicode) (text : List Char) (width : Nat) : Prop :=
  u.cells text ≤ width ∧ text.length ≤ 16 * width

private theorem length_take_succ_le {charCap : Nat} (text : List Char) :
    (text.take (charCap + 1)).length ≤ charCap ↔ text.length ≤ charCap := by
  rw [List.length_take]
  omega

/-- Below the saturation of the chars a text is cut by both budgets, and only where it does not
fit. -/
theorem truncate_of_wide (hwide : 2 ≤ width) (hcap : width < usizeMax / maxCharsPerCell)
    (text : List Char) :
    (u.Fits text width → u.truncate text width = text) ∧
      (¬ u.Fits text width → u.truncate text width =
        cut (width - 1) (16 * width) 0 0 (u.drawn text) ++ [Teiryo.ellipsis]) := by
  have hcharCap : min (maxCharsPerCell * max width 1) usizeMax = 16 * width := by
    simp only [maxCharsPerCell, usizeMax] at hcap ⊢
    omega
  have hnowrap : (16 * width + 1) % 2 ^ 64 = 16 * width + 1 := by
    simp only [maxCharsPerCell, usizeMax] at hcap
    omega
  unfold truncate
  simp only [hcharCap, hnowrap, length_take_succ_le]
  constructor
  · intro hfits
    rw [if_pos ⟨hfits.2, hfits.1⟩]
  · intro hfits
    have hone : ¬ width = 1 := by omega
    have hzero : ¬ width = 0 := by omega
    rw [if_neg fun h => hfits ⟨h.2, h.1⟩, if_neg hzero, if_neg hone]

private theorem Resegments.cells_truncate_spaces (h : u.Resegments text) (hone : u.OneCell)
    (hwide : 2 ≤ width) (hcap : width < usizeMax / maxCharsPerCell) (n : Nat) :
    u.cells (u.truncate text width ++ List.replicate n ' ') =
      u.cells (u.truncate text width) + n := by
  obtain ⟨hsame, hcut⟩ := truncate_of_wide (u := u) hwide hcap text
  by_cases hfits : u.Fits text width
  · have hspaces := h.cells_spaces hone List.prefix_rfl n
    rw [h.whole] at hspaces
    rw [hsame hfits, hspaces]
  · obtain ⟨part, hpart, hkept⟩ := (h.cut_longest (width - 1) (16 * width)).whole
    have hnone := h.cells_ellipsis hone hpart 0
    have hspaces := h.cells_ellipsis hone hpart n
    rw [List.replicate_zero, Nat.add_zero] at hnone
    rw [hcut hfits, hkept, List.append_assoc, List.singleton_append, hspaces, hnone]

private theorem Resegments.cells_truncate_le (h : u.Resegments text) (hone : u.OneCell)
    (hwide : 2 ≤ width) (hcap : width < usizeMax / maxCharsPerCell) :
    u.cells (u.truncate text width) ≤ width := by
  obtain ⟨hsame, hcut⟩ := truncate_of_wide (u := u) hwide hcap text
  by_cases hfits : u.Fits text width
  · rw [hsame hfits]
    exact hfits.1
  · have hlongest := h.cut_longest (width - 1) (16 * width)
    obtain ⟨part, hpart, hkept⟩ := hlongest.whole
    have hcells := hlongest.cells
    have hellipsis := h.cells_ellipsis hone hpart 0
    rw [List.replicate_zero, Nat.add_zero, ← hkept] at hellipsis
    rw [hcut hfits, hellipsis]
    omega

/-- A truncated text stays inside both budgets and is cut as late as possible, and padded it is as
wide as its column. -/
theorem truncate_budgets (u : Unicode) (text : List Char) (h : u.Resegments text)
    (hone : u.OneCell) (width : Nat) (hwide : 2 ≤ width)
    (hcap : width < usizeMax / maxCharsPerCell) :
    u.cells (u.truncate text width) ≤ width ∧
    (u.truncate text width).length ≤ 16 * width + 1 ∧
    (u.cells text ≤ width ∧ text.length ≤ 16 * width → u.truncate text width = text) ∧
    (¬ (u.cells text ≤ width ∧ text.length ≤ 16 * width) →
      ∃ kept, u.LongestWithin text (width - 1) (16 * width) kept ∧
        u.truncate text width = kept ++ [Teiryo.ellipsis]) ∧
    (3 ≤ width → u.cells (u.padToCells (u.truncate text (width - 1)) width) = width) := by
  obtain ⟨hsame, hcut⟩ := truncate_of_wide (u := u) hwide hcap text
  have hlongest := h.cut_longest (width - 1) (16 * width)
  refine ⟨h.cells_truncate_le hone hwide hcap, ?chars, hsame, ?late, ?padded⟩
  case chars =>
    by_cases hfits : u.Fits text width
    · rw [hsame hfits]
      exact hfits.2.trans (Nat.le_succ _)
    · have hchars := hlongest.chars
      rw [hcut hfits, List.length_append, List.length_singleton]
      omega
  case late =>
    intro hfits
    exact ⟨_, hlongest, hcut hfits⟩
  case padded =>
    intro hwider
    have hless : width - 1 < usizeMax / maxCharsPerCell := by omega
    have hcells := h.cells_truncate_le hone (by omega : 2 ≤ width - 1) hless
    rw [padToCells, h.cells_truncate_spaces hone (by omega) hless]
    omega

end Unicode

/-- Each char is a grapheme of its own; the ideographs of the label are two cells wide. -/
def plainUnicode : Unicode where
  graphemes text := text.map fun c => [c]
  width grapheme := (grapheme.map fun c => if c = '東' ∨ c = '京' then 2 else 1).sum

private theorem plainUnicode_graphemes {text : List Char} {part : List (List Char)}
    (hpart : part <+: plainUnicode.graphemes text) :
    plainUnicode.graphemes part.flatten = part := by
  show part.flatten.map (fun c => [c]) = part
  have hsingle : ∀ grapheme ∈ part, ∃ c, [c] = grapheme := by
    intro grapheme hmem
    obtain ⟨c, -, hc⟩ := List.mem_map.mp (hpart.subset hmem)
    exact ⟨c, hc⟩
  clear hpart
  induction part with
  | nil => rfl
  | cons grapheme part ih =>
    obtain ⟨c, rfl⟩ := hsingle _ List.mem_cons_self
    simp [ih fun other hmem => hsingle other (List.mem_cons_of_mem _ hmem)]

private theorem plainUnicode_resegments (text : List Char) : plainUnicode.Resegments text where
  whole := by
    show (text.map fun c => [c]).flatten = text
    rw [← List.flatMap_def, List.flatMap_singleton']
  spaces part hpart n := by
    have hmap := plainUnicode_graphemes hpart
    simp only [plainUnicode] at hmap ⊢
    rw [List.map_append, hmap, List.map_replicate]
  ellipsis part hpart n := by
    have hmap := plainUnicode_graphemes hpart
    simp only [plainUnicode] at hmap ⊢
    rw [List.map_append, hmap, List.map_cons, List.map_replicate]

theorem truncate_budgets_label :
    plainUnicode.truncate "Weekly — Opus 東京東京東京東京".toList 23 =
      "Weekly — Opus 東京東京…".toList ∧
    plainUnicode.cells (plainUnicode.padToCells
      (plainUnicode.truncate "Weekly — Opus 東京東京東京東京".toList 23) 24) = 24 := by
  refine ⟨by decide, ?_⟩
  exact (Unicode.truncate_budgets plainUnicode _ (plainUnicode_resegments _) ⟨rfl, rfl⟩ 24
    (by decide) (by decide)).2.2.2.2 (by decide)

end Teiryo
