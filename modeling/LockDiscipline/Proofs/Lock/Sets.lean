import LockDiscipline.Lock.Held
/-!
# Sets of locks as sets

A `LockSet` lists its locks in the order in which they were found, and the first of several that are the same
stays. As a set of locks it is what `LockSet.contains` says, and that is told here for each operation.
-/

namespace LockDiscipline
namespace LockSet

theorem contains_insert (locks : LockSet) (lock other : LockExpr) :
    (locks.insert lock).contains other = (locks.contains other || other.same lock) := by
  unfold insert
  split
  case isTrue hmem =>
    obtain ⟨previous, hprevious, hsame⟩ := List.any_eq_true.mp hmem
    cases hother : other.same lock with
    | false => rw [Bool.or_false]
    | true =>
        have hthere : locks.contains other = true := by
          refine List.any_eq_true.mpr ⟨previous, hprevious, ?_⟩
          rw [LockExpr.same_iff] at hother hsame ⊢
          exact hother.trans hsame
        rw [hthere, Bool.true_or]
  case isFalse => simp [contains]

theorem contains_insertAll (locks : LockSet) (more : List LockExpr) (other : LockExpr) :
    (locks.insertAll more).contains other = (locks.contains other || more.any other.same) := by
  induction more generalizing locks with
  | nil => simp [insertAll]
  | cons lock rest ih =>
      change ((locks.insert lock).insertAll rest).contains other = _
      rw [ih, contains_insert, List.any_cons, Bool.or_assoc]

theorem contains_ofList (locks : List LockExpr) (lock : LockExpr) :
    (ofList locks).contains lock = locks.any lock.same := by
  rw [ofList, contains_insertAll]
  rfl

/-! ### The list behind a set -/

/-- No two locks of a set are the same. -/
def Distinct (locks : LockSet) : Prop :=
  locks.toList.Pairwise fun first second => first.same second = false

theorem Distinct.insert {locks : LockSet} (h : locks.Distinct) (lock : LockExpr) :
    (locks.insert lock).Distinct := by
  unfold LockSet.insert
  split
  case isTrue => exact h
  case isFalse hnew =>
    refine List.pairwise_append.mpr ⟨h, List.pairwise_singleton .., fun previous hprevious last hlast => ?_⟩
    obtain rfl := List.mem_singleton.mp hlast
    refine Bool.eq_false_iff.mpr fun hsame => hnew (List.any_eq_true.mpr ⟨previous, hprevious, ?_⟩)
    rw [LockExpr.same_iff] at hsame ⊢
    exact hsame.symm

theorem Distinct.insertAll {locks : LockSet} (h : locks.Distinct) (more : List LockExpr) :
    (locks.insertAll more).Distinct := by
  induction more generalizing locks with
  | nil => exact h
  | cons lock rest ih => exact ih (h.insert lock)

theorem distinct_ofList (locks : List LockExpr) : (ofList locks).Distinct :=
  Distinct.insertAll List.Pairwise.nil locks

theorem mem_of_mem_insertAll {locks : LockSet} {more : List LockExpr} {lock : LockExpr}
    (h : lock ∈ (locks.insertAll more).toList) : lock ∈ locks.toList ∨ lock ∈ more := by
  induction more generalizing locks with
  | nil => exact .inl h
  | cons next rest ih =>
      have hcases : lock ∈ (locks.insert next).toList ∨ lock ∈ rest := ih h
      rcases hcases with hold | hrest
      · unfold LockSet.insert at hold
        split at hold
        · exact .inl hold
        · rcases List.mem_append.mp hold with hold | hnext
          · exact .inl hold
          · exact .inr (List.mem_singleton.mp hnext ▸ List.mem_cons_self)
      · exact .inr (List.mem_cons_of_mem _ hrest)

theorem mem_of_mem_ofList {locks : List LockExpr} {lock : LockExpr} (h : lock ∈ (ofList locks).toList) :
    lock ∈ locks :=
  (mem_of_mem_insertAll h).resolve_left List.not_mem_nil

end LockSet
end LockDiscipline
