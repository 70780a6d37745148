import LockDiscipline.Text.Dotted
/-!
# Taking dotted names apart

The segments of a dotted name have no dots in them, and names without dots that are put together with dots
between them come apart again.
-/

namespace LockDiscipline.Text

/-- A name without dots, as a segment of a dotted name is. -/
def IsSegment (name : String) : Prop :=
  '.' ∉ name.toList

instance (name : String) : Decidable (IsSegment name) :=
  inferInstanceAs (Decidable ('.' ∉ name.toList))

theorem splitAt_eq_splitOn (separator : Char) (text : List Char) :
    splitAt separator text = text.splitOn separator := by
  induction text with
  | nil => rfl
  | cons c rest ih =>
      rw [splitAt, ih, List.splitOn_cons_eq_if_modifyHead]
      cases hpieces : rest.splitOn separator with
      | nil => exact absurd hpieces (List.splitOn_ne_nil separator rest)
      | cons piece pieces => simp

theorem segments_ne_nil (name : String) : segments name ≠ [] := by
  rw [segments, splitAt_eq_splitOn]
  exact fun h => List.splitOn_ne_nil '.' name.toList (List.map_eq_nil_iff.mp h)

theorem segments_of_isSegment {name : String} (h : IsSegment name) : segments name = [name] := by
  rw [segments, splitAt_eq_splitOn, List.splitOn_eq_singleton h, List.map_singleton, String.ofList_toList]

theorem segments_append {head : String} (h : IsSegment head) (rest : String) :
    segments (head ++ "." ++ rest) = head :: segments rest := by
  have htext : (head ++ "." ++ rest).toList = head.toList ++ '.' :: rest.toList := by
    simp
  rw [segments, splitAt_eq_splitOn, htext, List.splitOn_append_cons_self_of_not_mem h, List.map_cons,
    String.ofList_toList, segments, splitAt_eq_splitOn]

/-- Names without dots come apart as they were put together. -/
theorem segments_join {name : String} {names : List String}
    (h : ∀ segment ∈ name :: names, IsSegment segment) :
    segments (join "." (name :: names)) = name :: names := by
  induction names generalizing name with
  | nil => exact segments_of_isSegment (h name List.mem_cons_self)
  | cons next rest ih =>
      rw [join, segments_append (h name List.mem_cons_self)]
      · rw [ih fun segment hsegment => h segment (List.mem_cons_of_mem _ hsegment)]
      · rintro ⟨⟩

/-- Names that are put together in two steps are put together at once. -/
theorem join_join (head name : String) (rest : List String) :
    join "." ((head ++ "." ++ name) :: rest) = join "." (head :: name :: rest) := by
  cases rest with
  | nil => rfl
  | cons next rest => simp only [join, String.append_assoc]

theorem join_concat (head : String) (names : List String) (name : String) :
    join "." (head :: (names ++ [name])) = join "." (head :: names) ++ "." ++ name := by
  induction names generalizing head with
  | nil => rfl
  | cons next rest ih => rw [List.cons_append, ← join_join, ih, join_join]

private theorem not_mem_of_mem_splitOn {separator : Char} {text piece : List Char}
    (h : piece ∈ text.splitOn separator) : separator ∉ piece := by
  induction text generalizing piece with
  | nil =>
      obtain rfl := List.mem_singleton.mp h
      exact List.not_mem_nil
  | cons c rest ih =>
      rw [List.splitOn_cons_eq_if_modifyHead] at h
      split at h
      case isTrue =>
        rcases List.mem_cons.mp h with rfl | h
        · exact List.not_mem_nil
        · exact ih h
      case isFalse hne =>
        cases hpieces : rest.splitOn separator with
        | nil => exact absurd hpieces (List.splitOn_ne_nil separator rest)
        | cons first pieces =>
            rw [hpieces] at h ih
            rcases List.mem_cons.mp h with rfl | h
            · have hc : separator ≠ c := fun heq => hne (beq_iff_eq.mpr heq.symm)
              exact List.not_mem_cons_of_ne_of_not_mem hc (ih List.mem_cons_self)
            · exact ih (List.mem_cons_of_mem first h)

theorem isSegment_of_mem_segments {name segment : String} (h : segment ∈ segments name) :
    IsSegment segment := by
  obtain ⟨piece, hpiece, rfl⟩ := List.mem_map.mp h
  rw [splitAt_eq_splitOn] at hpiece
  rw [IsSegment, String.toList_ofList]
  exact not_mem_of_mem_splitOn hpiece

/-- A name with a dot has several segments. -/
theorem exists_segments_of_not_isSegment {name : String} (h : ¬IsSegment name) :
    ∃ head next rest, segments name = head :: next :: rest := by
  have hjoined : ['.'].intercalate (name.toList.splitOn '.') = name.toList := List.intercalate_splitOn '.'
  rw [segments, splitAt_eq_splitOn]
  cases hpieces : name.toList.splitOn '.' with
  | nil => exact absurd hpieces (List.splitOn_ne_nil '.' name.toList)
  | cons head pieces =>
      cases pieces with
      | cons next rest => exact ⟨_, _, _, rfl⟩
      | nil =>
          rw [hpieces, List.intercalate_singleton] at hjoined
          have hhead : '.' ∉ head := not_mem_of_mem_splitOn (hpieces ▸ List.mem_singleton_self head)
          rw [hjoined] at hhead
          exact absurd hhead h

theorem isSegment_lastSegment (name : String) : IsSegment (lastSegment name) := by
  rw [lastSegment, List.getLastD_eq_getLast?, List.getLast?_eq_some_getLast (segments_ne_nil name), Option.getD_some]
  exact isSegment_of_mem_segments (List.getLast_mem (segments_ne_nil name))

end LockDiscipline.Text
