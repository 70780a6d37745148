import LockDiscipline.Text.EditDistance
import Mathlib.Data.List.Induction
import Mathlib.Order.Bounds.Basic
import Mathlib.Order.MinMax
/-!
# The edit distance is the least number of edits

The textbook recursion compares two texts from the front, while the rows grow at the back. Both
directions agree because an edit does not say from which end it is counted: the recursion yields
the length of a shortest sequence of edits, and such a sequence, reversed text by text, is one of
the reversed texts. With the recursion stated for the last characters, a cell of a row is exactly
one step of it, which is what one row preserves, and then a whole run over the source.
-/

namespace LockDiscipline.Text

/-! ## The recursion and the edits -/

/-- The distance by recursion on both texts: delete the first character of the source, insert the
first one of the target, or match the two. -/
def levenshtein : List Char → List Char → Nat
  | [], target => target.length
  | c :: source, [] => (c :: source).length
  | c :: source, d :: target =>
      min (min (levenshtein source (d :: target) + 1) (levenshtein (c :: source) target + 1))
        (levenshtein source target + if c = d then 0 else 1)
termination_by source target => source.length + target.length

/-- One character of a text is inserted, deleted or replaced. -/
inductive Edit : List Char → List Char → Prop
  | insert (before after : List Char) (c : Char) : Edit (before ++ after) (before ++ c :: after)
  | delete (before after : List Char) (c : Char) : Edit (before ++ c :: after) (before ++ after)
  | replace (before after : List Char) (c d : Char) :
      Edit (before ++ c :: after) (before ++ d :: after)

/-- So many edits, one after the other, turn a text into another one. -/
inductive Edits : Nat → List Char → List Char → Prop
  | none (text : List Char) : Edits 0 text text
  | first {number : Nat} {source between target : List Char} (hedit : Edit source between)
      (hothers : Edits number between target) : Edits (number + 1) source target

namespace Edit

theorem cons {source target : List Char} (hedit : Edit source target) (c : Char) :
    Edit (c :: source) (c :: target) := by
  cases hedit with
  | insert before after d => exact .insert (c :: before) after d
  | delete before after d => exact .delete (c :: before) after d
  | replace before after d e => exact .replace (c :: before) after d e

theorem reverse {source target : List Char} (hedit : Edit source target) :
    Edit source.reverse target.reverse := by
  cases hedit with
  | insert before after c => simpa using Edit.insert after.reverse before.reverse c
  | delete before after c => simpa using Edit.delete after.reverse before.reverse c
  | replace before after c d => simpa using Edit.replace after.reverse before.reverse c d

/-- An edit changes the length of a text by one at most. -/
theorem length_le {source target : List Char} (hedit : Edit source target) :
    source.length ≤ target.length + 1 ∧ target.length ≤ source.length + 1 := by
  cases hedit <;> simp <;> omega

end Edit

namespace Edits

variable {number : Nat} {source target : List Char}

theorem cons (hedits : Edits number source target) (c : Char) :
    Edits number (c :: source) (c :: target) := by
  induction hedits with
  | none text => exact .none (c :: text)
  | first hedit _ hothers => exact .first (hedit.cons c) hothers

theorem reverse (hedits : Edits number source target) :
    Edits number source.reverse target.reverse := by
  induction hedits with
  | none text => exact .none text.reverse
  | first hedit _ hothers => exact .first hedit.reverse hothers

/-- So many edits change the length of a text by their number at most. -/
theorem length_le (hedits : Edits number source target) :
    source.length ≤ target.length + number ∧ target.length ≤ source.length + number := by
  induction hedits with
  | none text => simp
  | first hedit _ hothers =>
      have hone := hedit.length_le
      omega

theorem min {other : Nat} (hedits : Edits number source target)
    (hothers : Edits other source target) : Edits (min number other) source target := by
  rcases min_choice number other with hleast | hleast
  · rwa [hleast]
  · rwa [hleast]

theorem of_nil (target : List Char) : Edits target.length [] target := by
  induction target with
  | nil => exact .none []
  | cons d target hothers => exact .first (.insert [] [] d) (hothers.cons d)

theorem to_nil (source : List Char) : Edits source.length source [] := by
  induction source with
  | nil => exact .none []
  | cons c source hothers => exact .first (.delete [] source c) hothers

end Edits

/-! ## The recursion yields the least number of edits -/

@[simp] theorem levenshtein_nil_left (target : List Char) :
    levenshtein [] target = target.length := by
  simp [levenshtein]

@[simp] theorem levenshtein_nil_right (source : List Char) :
    levenshtein source [] = source.length := by
  cases source <;> simp [levenshtein]

theorem levenshtein_cons_cons (c d : Char) (source target : List Char) :
    levenshtein (c :: source) (d :: target) =
      min (min (levenshtein source (d :: target) + 1) (levenshtein (c :: source) target + 1))
        (levenshtein source target + if c = d then 0 else 1) := by
  rw [levenshtein]

theorem levenshtein_self (text : List Char) : levenshtein text text = 0 := by
  induction text with
  | nil => simp
  | cons c text ih => simp [levenshtein_cons_cons, ih]

/-- A sequence of as many edits as the recursion says. -/
theorem edits_levenshtein (source target : List Char) :
    Edits (levenshtein source target) source target := by
  fun_induction levenshtein source target with
  | case1 target => exact .of_nil target
  | case2 c source => exact .to_nil (c :: source)
  | case3 c source d target hdeleting hinserting hmatching =>
      have hdelete : Edits (levenshtein source (d :: target) + 1) (c :: source) (d :: target) :=
        .first (.delete [] source c) hdeleting
      have hinsert : Edits (levenshtein (c :: source) target + 1) (c :: source) (d :: target) :=
        .first (.insert [] (c :: source) d) (hinserting.cons d)
      have hkeep : Edits (levenshtein source target + if c = d then 0 else 1)
          (c :: source) (d :: target) := by
        split
        · next hsame => exact hsame ▸ hmatching.cons c
        · exact .first (.replace [] source c d) (hmatching.cons d)
      exact (hdelete.min hinsert).min hkeep

theorem levenshtein_le_of_delete (c : Char) (source target : List Char) :
    levenshtein (c :: source) target ≤ levenshtein source target + 1 := by
  cases target with
  | nil => simp
  | cons d target =>
      rw [levenshtein_cons_cons]
      omega

theorem levenshtein_target_cons_le (d : Char) (source target : List Char) :
    levenshtein source (d :: target) ≤ levenshtein source target + 1 := by
  cases source with
  | nil => simp
  | cons c source =>
      rw [levenshtein_cons_cons]
      omega

theorem levenshtein_le_of_insert (c : Char) (source target : List Char) :
    levenshtein source target ≤ levenshtein (c :: source) target + 1 := by
  induction target with
  | nil => simp; omega
  | cons d target ih =>
      have hlonger := levenshtein_target_cons_le d source target
      rw [levenshtein_cons_cons]
      omega

theorem levenshtein_le_of_replace (c d : Char) (source target : List Char) :
    levenshtein (c :: source) target ≤ levenshtein (d :: source) target + 1 := by
  induction target with
  | nil => simp
  | cons e target ih =>
      rw [levenshtein_cons_cons, levenshtein_cons_cons d]
      split <;> omega

/-- What an edit does to the distances to all texts holds behind one more character as well. -/
theorem levenshtein_cons_le {source between : List Char}
    (hnear : ∀ target, levenshtein source target ≤ levenshtein between target + 1) (c : Char)
    (target : List Char) :
    levenshtein (c :: source) target ≤ levenshtein (c :: between) target + 1 := by
  induction target with
  | nil => simpa using hnear []
  | cons d target ih =>
      have hdeleting := hnear (d :: target)
      have hmatching := hnear target
      rw [levenshtein_cons_cons, levenshtein_cons_cons]
      omega

/-- An edit brings a text nearer to another one by one at most. -/
theorem Edit.levenshtein_le {source between : List Char} (hedit : Edit source between)
    (target : List Char) : levenshtein source target ≤ levenshtein between target + 1 := by
  cases hedit with
  | insert before after c =>
      induction before generalizing target with
      | nil => exact levenshtein_le_of_insert c after target
      | cons b before ih => exact levenshtein_cons_le ih b target
  | delete before after c =>
      induction before generalizing target with
      | nil => exact levenshtein_le_of_delete c after target
      | cons b before ih => exact levenshtein_cons_le ih b target
  | replace before after c d =>
      induction before generalizing target with
      | nil => exact levenshtein_le_of_replace c d after target
      | cons b before ih => exact levenshtein_cons_le ih b target

theorem Edits.levenshtein_le {number : Nat} {source target : List Char}
    (hedits : Edits number source target) : levenshtein source target ≤ number := by
  induction hedits with
  | none text => exact (levenshtein_self text).le
  | first hedit _ hothers =>
      exact (hedit.levenshtein_le _).trans (Nat.succ_le_succ hothers)

theorem isLeast_levenshtein (source target : List Char) :
    IsLeast {number | Edits number source target} (levenshtein source target) :=
  ⟨edits_levenshtein source target, fun _ hedits => hedits.levenshtein_le⟩

/-! ## The recursion at the back -/

theorem levenshtein_reverse (source target : List Char) :
    levenshtein source.reverse target.reverse = levenshtein source target := by
  apply le_antisymm
  · exact (edits_levenshtein source target).reverse.levenshtein_le
  · simpa using (edits_levenshtein source.reverse target.reverse).reverse.levenshtein_le

/-- The distance of two texts from the distances without their last characters. -/
theorem levenshtein_concat (source target : List Char) (c d : Char) :
    levenshtein (source ++ [c]) (target ++ [d]) =
      EditDistance.cell (levenshtein source (target ++ [d])) (levenshtein (source ++ [c]) target)
        (levenshtein source target) (c != d) := by
  have hfront := levenshtein_cons_cons c d source.reverse target.reverse
  rw [← List.reverse_concat, ← List.reverse_concat] at hfront
  simp only [levenshtein_reverse] at hfront
  have hcost : (if c = d then 0 else 1) = (c != d).toNat := by
    by_cases hsame : c = d
    · simp [hsame]
    · simp [hsame, bne_iff_ne.mpr hsame]
  rw [hfront, EditDistance.cell, hcost]

namespace EditDistance

/-! ## The rows -/

/-- A property that each step of a counted loop hands on holds behind the loop. -/
theorem foldl_fin_invariant {State : Type} {bound : Nat} (holds : Nat → State → Prop)
    {step : State → Fin bound → State} {state : State} (hbase : holds 0 state)
    (hnext : ∀ index state, holds index.val state → holds (index.val + 1) (step state index)) :
    holds bound (Fin.foldl bound step state) := by
  induction bound with
  | zero => simpa using hbase
  | succ bound ih =>
      rw [Fin.foldl_succ_last]
      exact hnext (Fin.last bound) _ (ih fun index state => hnext index.castSucc state)

variable {target : List Char}

/-- The cells of a row up to one of them hold the distances of a source. -/
def FilledTo (target source : List Char) (last : Nat) (row : Row target.length) : Prop :=
  ∀ column (hinside : column < target.length + 1), column ≤ last →
    row[column] = levenshtein source (target.take column)

theorem FilledTo.set {source : List Char} {row : Row target.length} {last : Nat}
    (hfilled : FilledTo target source last row) (hinside : last + 1 < target.length + 1) :
    FilledTo target source (last + 1)
      (row.set (last + 1) (levenshtein source (target.take (last + 1)))) := by
  intro column hbound hupTo
  rw [Vector.getElem_set]
  split
  · next here => rw [here]
  · next helsewhere => exact hfilled column hbound (by omega)

/-- A cell is filled from three that hold distances already. -/
theorem FilledTo.fillCell {source : List Char} {c : Char} {previous current : Row target.length}
    (habove : FilledTo target source target.length previous) {column : Fin target.length}
    (hleft : FilledTo target (source ++ [c]) column.val current) :
    FilledTo target (source ++ [c]) (column.val + 1)
      (fillCell target previous c current column) := by
  have hsplit : target.take (column.val + 1) = target.take column.val ++ [target[column]] :=
    List.take_succ_eq_append_getElem column.isLt
  have hdistance := levenshtein_concat source (target.take column.val) c target[column]
  rw [← hsplit, ← habove (column.val + 1) (by omega) (by omega),
    ← habove column.val (by omega) (by omega), ← hleft column.val (by omega) le_rfl] at hdistance
  rw [EditDistance.fillCell, ← hdistance]
  exact hleft.set (by omega)

/-- A whole row, whatever stood in the row that is written over. -/
theorem filledTo_fillRow {source : List Char} {previous : Row target.length}
    (habove : FilledTo target source target.length previous) (c : Char)
    (current : Row target.length) :
    FilledTo target (source ++ [c]) target.length
      (fillRow target previous c source.length current) := by
  refine foldl_fin_invariant (FilledTo target (source ++ [c])) ?first
    fun column row hleft => habove.fillCell hleft
  case first =>
    intro column hbound hupTo
    obtain rfl : column = 0 := by omega
    simp

theorem Rows.after_concat (source target : List Char) (c : Char) :
    Rows.after (source ++ [c]) target = (Rows.after source target).next (c, source.length) := by
  simp [Rows.after, List.zipIdx_append]

/-- Behind every source the complete row holds the distances to all beginnings of the target. -/
theorem filledTo_after (source target : List Char) :
    FilledTo target source target.length (Rows.after source target).previous := by
  induction source using List.reverseRecOn with
  | nil =>
      intro column hbound hupTo
      simp only [Rows.after, Rows.start, List.zipIdx_nil, List.foldl_nil, Vector.getElem_ofFn,
        levenshtein_nil_left, List.length_take]
      omega
  | append_singleton source c ih =>
      rw [Rows.after_concat]
      exact filledTo_fillRow ih c (Rows.after source target).current

end EditDistance

theorem editDistance_eq (source target : List Char) :
    editDistance source target = levenshtein source target := by
  rw [editDistance]
  split
  · next hnothing => simp [List.isEmpty_iff.mp hnothing]
  · split
    · next hnothing => simp [List.isEmpty_iff.mp hnothing]
    · have hfilled := EditDistance.filledTo_after source target target.length (by omega) le_rfl
      rw [hfilled, List.take_length]

/-- The edit distance is what the recursion on both texts says, and so it is the length of a
shortest sequence of edits that turns the one into the other. -/
theorem editDistance_isLeast (source target : List Char) :
    editDistance source target = levenshtein source target ∧
      IsLeast {number | Edits number source target} (editDistance source target) := by
  rw [editDistance_eq]
  exact ⟨rfl, isLeast_levenshtein source target⟩

/-- The lengths of two texts differ by their distance at most. -/
theorem length_le_add_editDistance (source target : List Char) :
    source.length ≤ target.length + editDistance source target ∧
      target.length ≤ source.length + editDistance source target := by
  rw [editDistance_eq]
  exact (edits_levenshtein source target).length_le

end LockDiscipline.Text
