import LockDiscipline.Report.Suggestion
import LockDiscipline.Proofs.Text.EditDistance
import Mathlib.Data.String.Basic
/-!
# The suggested name is the first of the nearest

One look at the candidates keeps the best one so far. What it keeps is the first of those at the
least distance among the candidates looked at, and so the suggestion is the first of the nearest of
them all.

Before the distance is computed, the lengths are compared. Texts at a small distance have nearly the
same number of characters, but the comparison counts bytes. So it rules out candidates that are near
enough, where a character takes several bytes; in names of characters that take one byte it rules
out nothing.
-/

namespace LockDiscipline.Suggestion

/-- A candidate is another name, and within the limit. -/
def Near (name candidate : String) : Prop :=
  candidate ≠ name ∧ distance name candidate ≤ limit name

instance (name candidate : String) : Decidable (Near name candidate) :=
  inferInstanceAs (Decidable (candidate ≠ name ∧ distance name candidate ≤ limit name))

/-- A candidate is near, and its length in bytes does not rule it out. -/
def Admitted (name candidate : String) : Prop :=
  Near name candidate ∧ lengthsWithin (limit name) name candidate

/-- The first of the candidates that are eligible and, among those, at the least distance. -/
def FirstNearest (name : String) (eligible : String → Prop) (candidates : List String)
    (meant : String) : Prop :=
  eligible meant ∧ ∃ before after, candidates = before ++ meant :: after ∧
    (∀ other ∈ before, eligible other → distance name meant < distance name other) ∧
    ∀ other ∈ after, eligible other → distance name meant ≤ distance name other

namespace FirstNearest

variable {name : String} {eligible : String → Prop} {candidates : List String} {meant : String}

theorem mem (hfirst : FirstNearest name eligible candidates meant) : meant ∈ candidates := by
  obtain ⟨-, before, after, rfl, -, -⟩ := hfirst
  simp

theorem le (hfirst : FirstNearest name eligible candidates meant) {other : String}
    (hpresent : other ∈ candidates) (hlikely : eligible other) :
    distance name meant ≤ distance name other := by
  obtain ⟨-, before, after, rfl, hnearer, hnear⟩ := hfirst
  rcases List.mem_append.mp hpresent with hearly | hlate
  · exact (hnearer other hearly hlikely).le
  · rcases List.mem_cons.mp hlate with rfl | hlate
    · exact le_rfl
    · exact hnear other hlate hlikely

theorem unique {other : String} (hfirst : FirstNearest name eligible candidates meant)
    (hsecond : FirstNearest name eligible candidates other) : meant = other := by
  -- Neither can stand before the other one, which would have to be strictly nearer.
  have hdistances := le_antisymm (hfirst.le hsecond.mem hsecond.1) (hsecond.le hfirst.mem hfirst.1)
  obtain ⟨hlikely, before, after, rfl, hnearer, -⟩ := hfirst
  obtain ⟨hotherLikely, before', after', hplaces, hnearer', -⟩ := hsecond
  rcases List.append_eq_append_iff.mp hplaces with ⟨between, rfl, hrest⟩ | ⟨between, rfl, hrest⟩
  · cases between with
    | nil => exact (List.cons.inj hrest).1
    | cons head between =>
        obtain rfl : meant = head := (List.cons.inj hrest).1
        have hstrictly := hnearer' meant (by simp) hlikely
        omega
  · cases between with
    | nil => exact (List.cons.inj hrest).1.symm
    | cons head between =>
        obtain rfl : other = head := (List.cons.inj hrest).1
        have hstrictly := hnearer other (by simp) hotherLikely
        omega

/-- One more candidate that is not nearer changes nothing. -/
theorem append (hfirst : FirstNearest name eligible candidates meant) {other : String}
    (hnear : eligible other → distance name meant ≤ distance name other) :
    FirstNearest name eligible (candidates ++ [other]) meant := by
  obtain ⟨hlikely, before, after, rfl, hnearer, hothers⟩ := hfirst
  refine ⟨hlikely, before, after ++ [other], by simp, hnearer, ?_⟩
  intro candidate hpresent
  rcases List.mem_append.mp hpresent with hearly | hlast
  · exact hothers candidate hearly
  · obtain rfl := List.mem_singleton.mp hlast
    exact hnear

/-- One more candidate that is nearer than all others comes first. -/
theorem of_last {other : String} (hlikely : eligible other)
    (hnearer : ∀ candidate ∈ candidates, eligible candidate →
      distance name other < distance name candidate) :
    FirstNearest name eligible (candidates ++ [other]) other :=
  ⟨hlikely, candidates, [], rfl, hnearer, by simp⟩

end FirstNearest

/-! ## One look at the candidates -/

/-- What is kept of the candidates looked at so far. -/
def Keeps (name : String) (candidates : List String) : Option (String × Nat) → Prop
  | none => ∀ candidate ∈ candidates, ¬Admitted name candidate
  | some (meant, apart) =>
      apart = distance name meant ∧ FirstNearest name (Admitted name) candidates meant

theorem Keeps.skip {name candidate : String} {candidates : List String}
    {best : Option (String × Nat)} (hkept : Keeps name candidates best)
    (hunlikely : ¬Admitted name candidate) : Keeps name (candidates ++ [candidate]) best := by
  cases best with
  | none =>
      intro other hpresent
      rcases List.mem_append.mp hpresent with hearly | hlast
      · exact hkept other hearly
      · exact List.mem_singleton.mp hlast ▸ hunlikely
  | some best => exact ⟨hkept.1, hkept.2.append fun hlikely => absurd hlikely hunlikely⟩

theorem Keeps.better {name candidate : String} {candidates : List String}
    {best : Option (String × Nat)} (hkept : Keeps name candidates best) :
    Keeps name (candidates ++ [candidate]) (better name best candidate) := by
  rw [Suggestion.better]
  split
  · next hruledOut =>
      apply hkept.skip
      rintro ⟨⟨hother, -⟩, hadmitted⟩
      simp [hother, hadmitted] at hruledOut
  · next hpassed =>
      simp only [Bool.or_eq_true, decide_eq_true_eq, Bool.not_eq_true', not_or,
        Bool.not_eq_false] at hpassed
      obtain ⟨hother, hlengths⟩ := hpassed
      dsimp only
      split
      · next hnearer =>
          simp only [Bool.and_eq_true, decide_eq_true_eq] at hnearer
          refine ⟨rfl, .of_last ⟨⟨hother, hnearer.1⟩, hlengths⟩ fun earlier hpresent hlikely => ?_⟩
          cases best with
          | none => exact absurd hlikely (hkept earlier hpresent)
          | some best =>
              have hstrictly : distance name candidate < best.2 := by simpa using hnearer.2
              have hleast := hkept.2.le hpresent hlikely
              rw [← hkept.1] at hleast
              omega
      · next hfarther =>
          by_cases hnear : distance name candidate ≤ limit name
          · cases best with
            | none => simp [hnear] at hfarther
            | some best =>
                refine ⟨hkept.1, hkept.2.append fun _ => ?_⟩
                rw [← hkept.1]
                simpa [hnear] using hfarther
          · exact hkept.skip fun hlikely => hnear hlikely.1.2

theorem keeps_foldl (name : String) (candidates : List String) :
    Keeps name candidates (candidates.foldl (better name) none) := by
  induction candidates using List.reverseRecOn with
  | nil => simp [Keeps]
  | append_singleton candidates candidate ih =>
      rw [List.foldl_append]
      exact ih.better

theorem firstNearest_of_closest? {name meant : String} {candidates : List String}
    (hfound : closest? name candidates = some meant) :
    FirstNearest name (Admitted name) candidates meant := by
  obtain ⟨best, hkept, rfl⟩ := Option.map_eq_some_iff.mp hfound
  have hkeeps := keeps_foldl name candidates
  rw [hkept] at hkeeps
  exact hkeeps.2

theorem closest?_eq_none_iff (name : String) (candidates : List String) :
    closest? name candidates = none ↔ ∀ candidate ∈ candidates, ¬Admitted name candidate := by
  constructor
  · intro hnothing
    have hkeeps := keeps_foldl name candidates
    rwa [Option.map_eq_none_iff.mp hnothing] at hkeeps
  · intro hunlikely
    cases hfound : closest? name candidates with
    | none => rfl
    | some meant =>
        have hfirst := firstNearest_of_closest? hfound
        exact absurd hfirst.1 (hunlikely meant hfirst.mem)

theorem closest?_eq_some_iff (name : String) (candidates : List String) (meant : String) :
    closest? name candidates = some meant ↔
      FirstNearest name (Admitted name) candidates meant := by
  constructor
  · exact firstNearest_of_closest?
  · intro hfirst
    cases hfound : closest? name candidates with
    | none => exact absurd hfirst.1 ((closest?_eq_none_iff name candidates).mp hfound meant hfirst.mem)
    | some other => rw [(firstNearest_of_closest? hfound).unique hfirst]

/-! ## What the lengths rule out -/

/-- Every character of a name takes one byte. -/
def OneByteEach (name : String) : Prop :=
  ∀ c ∈ name.toList, c.utf8Size = 1

instance (name : String) : Decidable (OneByteEach name) :=
  List.decidableBAll (fun c : Char => c.utf8Size = 1) name.toList

theorem OneByteEach.utf8ByteSize_eq {name : String} (hsmall : OneByteEach name) :
    name.utf8ByteSize = name.toList.length := by
  have hbytes (characters : List Char) (hsmall : ∀ c ∈ characters, c.utf8Size = 1) :
      String.utf8Len characters = characters.length := by
    induction characters with
    | nil => rfl
    | cons c rest ih =>
        rw [String.utf8Len_cons, ih fun d hpresent => hsmall d (by simp [hpresent]),
          hsmall c (by simp), List.length_cons]
  rw [← hbytes name.toList hsmall, ← String.utf8ByteSize_ofList, String.ofList_toList]

/-- Where every character takes one byte, the lengths rule out no candidate that is near. -/
theorem Near.admitted {name candidate : String} (hnear : Near name candidate)
    (hsmall : OneByteEach name) (hcandidateSmall : OneByteEach candidate) :
    Admitted name candidate := by
  have hlengths := Text.length_le_add_editDistance name.toList candidate.toList
  rw [← hsmall.utf8ByteSize_eq, ← hcandidateSmall.utf8ByteSize_eq] at hlengths
  have hwithin : Text.editDistance name.toList candidate.toList ≤ limit name := hnear.2
  refine ⟨hnear, ?_⟩
  simp only [lengthsWithin, Bool.and_eq_true, decide_eq_true_eq]
  omega

/-- The suggestion for a name is the first of the nearest candidates among those that the
comparison of lengths admits, and there is none only if it admits none within the limit. Where every
character takes one byte, all candidates within the limit are admitted. -/
theorem closest?_spec (name : String) (candidates : List String) :
    (∀ meant, closest? name candidates = some meant ↔
      FirstNearest name (Admitted name) candidates meant) ∧
    (closest? name candidates = none ↔ ∀ candidate ∈ candidates, ¬Admitted name candidate) ∧
    (OneByteEach name → ∀ candidate, OneByteEach candidate →
      (Admitted name candidate ↔ Near name candidate)) := by
  refine ⟨closest?_eq_some_iff name candidates, closest?_eq_none_iff name candidates, ?_⟩
  intro hsmall candidate hcandidateSmall
  exact ⟨fun hadmitted => hadmitted.1, fun hnear => hnear.admitted hsmall hcandidateSmall⟩

theorem closest?_spec_misspelled :
    OneByteEach "lokc" ∧ OneByteEach "lock" ∧ Near "lokc" "lock" ∧ Admitted "lokc" "lock" ∧
      closest? "lokc" ["mutex", "lock"] = some "lock" := by
  have hname : OneByteEach "lokc" := by decide
  have hcandidate : OneByteEach "lock" := by decide
  have hnear : Near "lokc" "lock" := by decide
  have hspec := closest?_spec "lokc" ["mutex", "lock"]
  have hadmitted := (hspec.2.2 hname "lock" hcandidate).mpr hnear
  refine ⟨hname, hcandidate, hnear, hadmitted, (hspec.1 "lock").mpr ?_⟩
  refine ⟨hadmitted, ["mutex"], [], rfl, ?_, by simp⟩
  intro other hpresent hlikely
  obtain rfl := List.mem_singleton.mp hpresent
  exact absurd hlikely.1.2 (by decide)

/-- A candidate within the limit that is not suggested: the characters that are replaced take three
bytes each, so the lengths in bytes lie too far apart. -/
theorem exists_near_not_closest? :
    Near "l日日k" "lock" ∧ closest? "l日日k" ["lock"] = none := by
  refine ⟨by decide, ?_⟩
  decide

end LockDiscipline.Suggestion
