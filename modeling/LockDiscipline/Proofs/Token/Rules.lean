import LockDiscipline.Proofs.Token.Layout
/-!
# What the rules for lexemes take

Most parts of a lexeme are counts that take as much as they can: digits, a fraction, an exponent, the
letters of a word. Such a count finds the same in what it took alone, and more text behind a text leads
to the same or to more than all of it (`Lexer.Munches`). Counts of this kind are put together to the
rules for numbers and words; symbols are found by comparison, and quoted literals end at their own
quote. So each rule but that for comments is firm (`Rule.firm`): its lexemes are lexemes by
themselves, and are found again, or longer ones, before any other text.
-/

namespace LockDiscipline
namespace Lexer

/-! ### Counts that take as much as they can -/

/-- How many characters a rule, or a part of one, takes at the head of a text. It finds the same in the
characters that it took alone, and with more text behind either the same or more than the text had. It
takes no blank. -/
structure Munches (count : List Char → Nat) : Prop where
  le_length (text : List Char) : count text ≤ text.length
  take (text : List Char) : count (text.take (count text)) = count text
  grows (text more : List Char) : count (text ++ more) = count text ∨ text.length ≤ count (text ++ more)
  not_blank (text : List Char) : ∀ c ∈ text.take (count text), ¬isBlank c

/-- What one count takes and then another one behind it. -/
def andThen (first second : List Char → Nat) (text : List Char) : Nat :=
  first text + second (text.drop (first text))

namespace Munches

variable {count first second : List Char → Nat}

/-- The characters that are not taken play no part. -/
theorem take_of_le (h : Munches count) {text : List Char} {length : Nat}
    (hlength : count text ≤ length) : count (text.take length) = count text := by
  rcases Nat.lt_or_ge length text.length with hless | hall
  · have hgrows := h.grows (text.take length) (text.drop length)
    rw [List.take_append_drop, List.length_take_of_le hless.le] at hgrows
    rcases hgrows with hsame | hmore
    · exact hsame.symm
    · rw [Nat.le_antisymm hmore hlength]
      exact h.take text
  · rw [List.take_of_length_le hall]

theorem le_append (h : Munches count) (text more : List Char) :
    count text ≤ count (text ++ more) := by
  rcases h.grows text more with hsame | hmore
  · exact hsame.ge
  · exact (h.le_length text).trans hmore

theorem andThen (hfirst : Munches first) (hsecond : Munches second) :
    Munches (Lexer.andThen first second) where
  le_length text := by
    have hle := hsecond.le_length (text.drop (first text))
    have hfirst := hfirst.le_length text
    rw [List.length_drop] at hle
    show first text + _ ≤ _
    omega
  take text := by
    have htake : first (text.take (Lexer.andThen first second text)) = first text :=
      hfirst.take_of_le (Nat.le_add_right _ _)
    rw [Lexer.andThen, htake, List.drop_take, Lexer.andThen, Nat.add_sub_cancel_left, hsecond.take]
  grows text more := by
    rcases hfirst.grows text more with hsame | hmore
    · have hle := hfirst.le_length text
      rw [Lexer.andThen, Lexer.andThen, hsame, List.drop_append_of_le_length hle]
      refine (hsecond.grows (text.drop (first text)) more).imp (fun heq => by rw [heq]) fun hless => ?_
      rw [List.length_drop] at hless
      omega
    · exact .inr (hmore.trans (Nat.le_add_right _ _))
  not_blank text := by
    rw [Lexer.andThen, List.take_add]
    intro c hc
    rcases List.mem_append.mp hc with hc | hc
    · exact hfirst.not_blank text c hc
    · exact hsecond.not_blank _ c hc

end Munches

theorem countWhile_le_length (test : Char → Bool) (text : List Char) :
    countWhile test text ≤ text.length :=
  (List.takeWhile_prefix test).length_le

theorem take_countWhile (test : Char → Bool) (text : List Char) :
    text.take (countWhile test text) = text.takeWhile test :=
  (List.prefix_iff_eq_take.mp (List.takeWhile_prefix test)).symm

/-- A count that ends before the text does is not changed by more text. -/
theorem countWhile_append (test : Char → Bool) (text more : List Char) :
    countWhile test (text ++ more) =
      if countWhile test text < text.length then countWhile test text
      else text.length + countWhile test more := by
  induction text with
  | nil => exact (Nat.zero_add _).symm
  | cons c rest ih =>
      by_cases hc : test c
      · have hcons (list : List Char) : countWhile test (c :: list) = countWhile test list + 1 := by
          rw [countWhile, List.takeWhile_cons_of_pos hc, List.length_cons, countWhile]
        rw [List.cons_append, hcons, hcons, ih, List.length_cons]
        split_ifs <;> omega
      · simp [countWhile, hc]

theorem munches_countWhile {test : Char → Bool} (htest : ∀ c, test c → ¬isBlank c) :
    Munches (countWhile test) where
  le_length := countWhile_le_length test
  take text := by
    rw [take_countWhile, countWhile, List.takeWhile_takeWhile]
    simp [countWhile]
  grows text more := by
    rw [countWhile_append]
    split
    · exact .inl rfl
    · exact .inr (Nat.le_add_right _ _)
  not_blank text c hc := by
    rw [take_countWhile] at hc
    exact htest c (List.mem_takeWhile_imp hc)

theorem munches_optionally {test : Char → Bool} (htest : ∀ c, test c → ¬isBlank c) :
    Munches (optionally test) where
  le_length text := by
    cases text with
    | nil => exact Nat.le_refl _
    | cons c rest =>
        rw [optionally, List.length_cons]
        split <;> omega
  take text := by
    cases text with
    | nil => rfl
    | cons c rest =>
        by_cases hc : test c
        · simp [optionally, hc]
        · simp [optionally, hc]
  grows text more := by
    cases text with
    | nil => exact .inr (Nat.zero_le _)
    | cons c rest => exact .inl rfl
  not_blank text := by
    cases text with
    | nil => exact nofun
    | cons c rest =>
        by_cases hc : test c
        · simpa [optionally, hc] using htest c hc
        · simp [optionally, hc]

/-! ### Numbers -/

theorem not_isBlank_of_isWordPart (c : Char) (h : isWordPart c) : ¬isBlank c := by
  intro hblank
  simp only [isBlank, Bool.or_eq_true, beq_iff_eq] at hblank
  rcases hblank with (((rfl | rfl) | rfl) | rfl) | rfl <;> exact absurd h (by decide)

theorem not_isBlank_of_isDigit (c : Char) (h : c.isDigit) : ¬isBlank c :=
  not_isBlank_of_isWordPart c (by rw [isWordPart, h, Bool.or_true])

theorem not_isBlank_of_isDigitPart (c : Char) (h : isDigitPart c) : ¬isBlank c := by
  refine not_isBlank_of_isWordPart c ?_
  rw [isDigitPart, Bool.or_eq_true] at h
  rw [isWordPart, isWordStart]
  rcases h with h | h <;> simp [h]

/-- Digits either end inside of a text or take all of it. -/
theorem digitRun_append (text more : List Char) :
    digitRun (text ++ more) = digitRun text ∨
      digitRun text = text.length ∧ text.length ≤ digitRun (text ++ more) := by
  cases text with
  | nil => exact .inr ⟨rfl, Nat.zero_le _⟩
  | cons c rest =>
      rw [List.cons_append, digitRun, digitRun]
      split
      case isFalse => exact .inl rfl
      case isTrue =>
        have hle := countWhile_le_length isDigitPart rest
        rw [countWhile_append, List.length_cons]
        split
        · exact .inl rfl
        · refine .inr ⟨?_, ?_⟩ <;> omega

theorem munches_digitRun : Munches digitRun where
  le_length text := by
    cases text with
    | nil => exact Nat.le_refl _
    | cons c rest =>
        have hle := countWhile_le_length isDigitPart rest
        rw [digitRun, List.length_cons]
        split <;> omega
  take text := by
    cases text with
    | nil => rfl
    | cons c rest =>
        by_cases hc : c.isDigit
        · have hrest := (munches_countWhile not_isBlank_of_isDigitPart).take rest
          simp only [digitRun, hc, if_true, Nat.add_comm 1, List.take_succ_cons, hrest]
        · simp [digitRun, hc]
  grows text more := (digitRun_append text more).imp_right And.right
  not_blank text := by
    cases text with
    | nil => exact nofun
    | cons c rest =>
        by_cases hc : c.isDigit
        · have hrest := (munches_countWhile not_isBlank_of_isDigitPart).not_blank rest
          simp only [digitRun, hc, if_true, Nat.add_comm 1, List.take_succ_cons]
          exact List.forall_mem_cons.mpr ⟨not_isBlank_of_isDigit c hc, hrest⟩
        · simp [digitRun, hc]

/-- What a count takes behind a character that passes a test; nothing if it takes nothing there. -/
def marked (test : Char → Bool) (count : List Char → Nat) : List Char → Nat
  | c :: rest => if test c ∧ count rest ≠ 0 then 1 + count rest else 0
  | [] => 0

/-- What one of two counts takes, as the first character says. -/
def byHead (test : Char → Bool) (first second : List Char → Nat) : List Char → Nat
  | c :: rest => if test c then first (c :: rest) else second (c :: rest)
  | [] => 0

theorem Munches.marked {test : Char → Bool} {count : List Char → Nat} (h : Munches count)
    (htest : ∀ c, test c → ¬isBlank c) : Munches (Lexer.marked test count) where
  le_length text := by
    cases text with
    | nil => exact Nat.le_refl _
    | cons c rest =>
        have hle := h.le_length rest
        rw [Lexer.marked, List.length_cons]
        split <;> omega
  take text := by
    cases text with
    | nil => rfl
    | cons c rest =>
        by_cases hc : test c ∧ count rest ≠ 0
        · have htake := h.take rest
          simp only [Lexer.marked, hc, ne_eq, not_false_eq_true, and_self, if_true, Nat.add_comm 1,
            List.take_succ_cons, htake]
        · rw [Lexer.marked, if_neg hc]
          rfl
  grows text more := by
    cases text with
    | nil => exact .inr (Nat.zero_le _)
    | cons c rest =>
        have hgrows := h.grows rest more
        have hle := h.le_append rest more
        rw [List.cons_append, Lexer.marked, Lexer.marked, List.length_cons]
        by_cases hc : test c
        · simp only [hc, true_and]
          split_ifs <;> omega
        · simp [hc]
  not_blank text := by
    cases text with
    | nil => exact nofun
    | cons c rest =>
        rw [Lexer.marked]
        split
        case isTrue hc =>
          rw [Nat.add_comm, List.take_succ_cons]
          exact List.forall_mem_cons.mpr ⟨htest c hc.1, h.not_blank rest⟩
        case isFalse => exact nofun

theorem exists_byHead_cons {test : Char → Bool} {first second : List Char → Nat}
    (hfirst : Munches first) (hsecond : Munches second) (c : Char) :
    ∃ count, Munches count ∧ ∀ rest, byHead test first second (c :: rest) = count (c :: rest) := by
  by_cases hc : test c
  · exact ⟨first, hfirst, fun rest => if_pos hc⟩
  · exact ⟨second, hsecond, fun rest => if_neg hc⟩

theorem Munches.byHead {test : Char → Bool} {first second : List Char → Nat}
    (hfirst : Munches first) (hsecond : Munches second) :
    Munches (Lexer.byHead test first second) where
  le_length text := by
    cases text with
    | nil => exact Nat.le_refl _
    | cons c rest =>
        obtain ⟨count, hcount, heq⟩ := exists_byHead_cons hfirst hsecond c
        rw [heq]
        exact hcount.le_length _
  take text := by
    cases text with
    | nil => rfl
    | cons c rest =>
        obtain ⟨count, hcount, heq⟩ := exists_byHead_cons hfirst hsecond c
        rw [heq]
        cases hlength : count (c :: rest) with
        | zero => rfl
        | succ length => rw [List.take_succ_cons, heq, ← List.take_succ_cons, ← hlength, hcount.take]
  grows text more := by
    cases text with
    | nil => exact .inr (Nat.zero_le _)
    | cons c rest =>
        obtain ⟨count, hcount, heq⟩ := exists_byHead_cons hfirst hsecond c
        rw [List.cons_append, heq, heq, ← List.cons_append]
        exact hcount.grows _ _
  not_blank text := by
    cases text with
    | nil => exact nofun
    | cons c rest =>
        obtain ⟨count, hcount, heq⟩ := exists_byHead_cons hfirst hsecond c
        rw [heq]
        exact hcount.not_blank _

/-- The sign of an exponent. -/
def isSign (c : Char) : Bool :=
  c == '+' || c == '-'

/-- The mark of an exponent. -/
def isExponentMark (c : Char) : Bool :=
  c == 'e' || c == 'E'

/-- The length of digits that may have a sign. -/
def signedDigits : List Char → Nat :=
  byHead isSign (marked isSign (countWhile Char.isDigit)) (countWhile Char.isDigit)

theorem signedDigits_eq (text : List Char) :
    signedDigits text =
      if countWhile Char.isDigit (text.drop (optionally isSign text)) = 0 then 0
      else optionally isSign text + countWhile Char.isDigit (text.drop (optionally isSign text)) := by
  cases text with
  | nil => rfl
  | cons c rest =>
      by_cases hc : isSign c
      · have hsign : optionally isSign (c :: rest) = 1 := if_pos hc
        rw [hsign, List.drop_one, List.tail_cons, signedDigits, byHead, if_pos hc, marked]
        simp only [hc, true_and]
        split_ifs <;> omega
      · have hsign : optionally isSign (c :: rest) = 0 := if_neg hc
        rw [hsign, List.drop_zero, signedDigits, byHead, if_neg hc]
        split_ifs <;> omega

theorem exponentLength_eq : exponentLength = marked isExponentMark signedDigits := by
  funext text
  cases text with
  | nil => rfl
  | cons mark rest =>
      have hexponent : exponentLength (mark :: rest) =
          if isExponentMark mark then
            if countWhile Char.isDigit (rest.drop (optionally isSign rest)) = 0 then 0
            else 1 + optionally isSign rest +
              countWhile Char.isDigit (rest.drop (optionally isSign rest))
          else 0 := rfl
      rw [hexponent, marked, signedDigits_eq]
      by_cases hmark : isExponentMark mark
      · simp only [hmark, if_true, true_and]
        split_ifs <;> omega
      · rw [if_neg hmark, if_neg fun h => hmark h.1]

theorem munches_fraction : Munches (marked (· == '.') digitRun) :=
  munches_digitRun.marked fun c hc => by
    rw [beq_iff_eq.mp hc]
    decide

theorem munches_exponentLength : Munches exponentLength := by
  have hdigits := munches_countWhile not_isBlank_of_isDigit
  have hsign (c : Char) (hc : isSign c) : ¬isBlank c := by
    rw [isSign, Bool.or_eq_true, beq_iff_eq, beq_iff_eq] at hc
    rcases hc with rfl | rfl <;> decide
  rw [exponentLength_eq]
  refine ((hdigits.marked hsign).byHead hdigits).marked fun c hc => ?_
  rw [isExponentMark, Bool.or_eq_true, beq_iff_eq, beq_iff_eq] at hc
  rcases hc with rfl | rfl <;> decide

/-- What makes digits a floating number: a fraction, an exponent and a suffix, each of which may be
missing. -/
def floatTail : List Char → Nat :=
  andThen (marked (· == '.') digitRun) (andThen exponentLength (optionally isFloatSuffix))

theorem munches_floatTail : Munches floatTail := by
  refine munches_fraction.andThen (munches_exponentLength.andThen (munches_optionally fun c hc => ?_))
  simp only [isFloatSuffix, Bool.or_eq_true, beq_iff_eq] at hc
  rcases hc with ((rfl | rfl) | rfl) | rfl <;> decide

theorem munches_longSuffix : Munches (optionally isLongSuffix) :=
  munches_optionally fun c hc => by
    rw [isLongSuffix, Bool.or_eq_true, beq_iff_eq, beq_iff_eq] at hc
    rcases hc with rfl | rfl <;> decide

/-! ### Rules that take as much as they can -/

end Lexer

open Lexer

/-- What holds of a rule whose lexemes do not depend on what follows them: a lexeme is one by itself, and
more text behind it leads to no shorter one. -/
structure Rule.Firm (length? : List Char → Option Nat) : Prop where
  le_length {text : List Char} {length : Nat} (h : length? text = some length) : length ≤ text.length
  take {text : List Char} {length : Nat} (h : length? text = some length) :
    length? (text.take length) = some length
  grows {text : List Char} (h : length? text = some text.length) (more : List Char) :
    ∃ length, length? (text ++ more) = some length ∧ text.length ≤ length

/-- A rule whose lexemes have no blanks. -/
structure Rule.Solid (length? : List Char → Option Nat) : Prop extends Rule.Firm length? where
  not_blank {text : List Char} {length : Nat} (h : length? text = some length) :
    ∀ c ∈ text.take length, ¬isBlank c

namespace Rule

/-- A rule whose lexemes are digits and what follows them. -/
theorem solid_digits {tail : List Char → Nat} (htail : Lexer.Munches tail)
    {length? : List Char → Option Nat} (least : Nat → Prop)
    (hlength : ∀ text length, length? text = some length ↔
      digitRun text ≠ 0 ∧ least (tail (text.drop (digitRun text))) ∧
        length = andThen digitRun tail text)
    (hleast : ∀ small large, least small → small ≤ large → least large) :
    Rule.Solid length? where
  le_length h := by
    rw [((hlength _ _).mp h).2.2]
    exact (munches_digitRun.andThen htail).le_length _
  take {text length} h := by
    obtain ⟨hdigits, htaken, rfl⟩ := (hlength _ _).mp h
    have htake := (munches_digitRun.andThen htail).take text
    have hrun : digitRun (text.take (andThen digitRun tail text)) = digitRun text :=
      munches_digitRun.take_of_le (Nat.le_add_right _ _)
    refine (hlength _ _).mpr ⟨by rwa [hrun], ?_, htake.symm⟩
    rw [andThen, hrun] at htake
    rwa [hrun, Nat.add_left_cancel htake]
  grows {text} h more := by
    obtain ⟨hdigits, htaken, heq⟩ := (hlength _ _).mp h
    have hmore : digitRun (text ++ more) ≠ 0 := by
      have hle := munches_digitRun.le_append text more
      omega
    refine ⟨_, (hlength _ _).mpr ⟨hmore, ?_, rfl⟩, ?_⟩
    · rcases digitRun_append text more with hsame | ⟨hall, -⟩
      · rw [hsame, List.drop_append_of_le_length (munches_digitRun.le_length text)]
        exact hleast _ _ htaken (htail.le_append _ more)
      · have hnone : tail [] = 0 := Nat.le_zero.mp (htail.le_length [])
        rw [hall, List.drop_length, hnone] at htaken
        exact hleast _ _ htaken (Nat.zero_le _)
    · exact heq.trans_le ((munches_digitRun.andThen htail).le_append text more)
  not_blank h := by
    rw [((hlength _ _).mp h).2.2]
    exact (munches_digitRun.andThen htail).not_blank _

theorem solid_floating : Rule.Solid floatLength := by
  refine solid_digits munches_floatTail (· ≠ 0) (fun text length => ?_) (by omega)
  have hfloat : floatLength text = if digitRun text = 0 then none
      else if floatTail (text.drop (digitRun text)) = 0 then none
      else some (andThen digitRun floatTail text) := by
    simp only [floatLength, floatTail, andThen, Nat.add_assoc]
    generalize text.drop (digitRun text) = after
    cases after with
    | nil => rfl
    | cons c rest =>
        by_cases hc : c = '.'
        · subst hc
          simp [marked]
        · simp [marked, hc]
  rw [hfloat]
  split_ifs with hdigits htail
  · exact ⟨nofun, fun h => absurd hdigits h.1⟩
  · exact ⟨nofun, fun h => absurd htail h.2.1⟩
  · rw [Option.some.injEq]
    exact ⟨fun h => ⟨hdigits, htail, h.symm⟩, fun h => h.2.2.symm⟩

theorem solid_decimal : Rule.Solid decimalLength := by
  refine solid_digits munches_longSuffix (fun _ => True) (fun text length => ?_)
    fun _ _ _ _ => trivial
  have hdecimal : decimalLength text = if digitRun text = 0 then none
      else some (andThen digitRun (optionally isLongSuffix) text) := rfl
  rw [hdecimal]
  split_ifs with hdigits
  · exact ⟨nofun, fun h => absurd hdigits h.1⟩
  · rw [Option.some.injEq]
    exact ⟨fun h => ⟨hdigits, trivial, h.symm⟩, fun h => h.2.2.symm⟩

theorem basedLength_eq_some_iff {lower upper : Char} {isDigit : Char → Bool} {text : List Char}
    {length : Nat} :
    basedLength lower upper isDigit text = some length ↔
      ∃ mark rest, text = '0' :: mark :: rest ∧ (mark = lower ∨ mark = upper) ∧
        countWhile isDigit rest ≠ 0 ∧
        length = andThen (countWhile isDigit) (optionally isLongSuffix) rest + 2 := by
  rw [basedLength.eq_def]
  split
  case h_1 mark rest =>
    simp only [andThen, List.cons.injEq, true_and, Bool.or_eq_true, beq_iff_eq]
    split_ifs with hmark hdigits
    · refine ⟨nofun, ?_⟩
      rintro ⟨_, _, ⟨rfl, rfl⟩, -, hne, -⟩
      exact absurd hdigits hne
    · rw [Option.some.injEq]
      constructor
      · rintro rfl
        exact ⟨mark, rest, ⟨rfl, rfl⟩, hmark, hdigits, by omega⟩
      · rintro ⟨_, _, ⟨rfl, rfl⟩, -, -, rfl⟩
        omega
    · refine ⟨nofun, ?_⟩
      rintro ⟨_, _, ⟨rfl, rfl⟩, h, -, -⟩
      exact absurd h hmark
  case h_2 hne =>
    refine ⟨nofun, ?_⟩
    rintro ⟨mark, rest, rfl, -⟩
    exact absurd rfl (hne mark rest)

theorem solid_based {lower upper : Char} {isDigit : Char → Bool} (hlower : ¬isBlank lower)
    (hupper : ¬isBlank upper) (hdigit : ∀ c, isDigit c → ¬isBlank c) :
    Rule.Solid (basedLength lower upper isDigit) := by
  have hdigits := munches_countWhile hdigit
  have hrest := hdigits.andThen munches_longSuffix
  refine ⟨⟨fun h => ?_, fun h => ?_, fun h more => ?_⟩, fun h => ?_⟩
  all_goals obtain ⟨mark, rest, rfl, hmark, hne, heq⟩ := basedLength_eq_some_iff.mp h
  · have hle := hrest.le_length rest
    rw [List.length_cons, List.length_cons]
    omega
  · subst heq
    rw [List.take_succ_cons, List.take_succ_cons]
    refine basedLength_eq_some_iff.mpr ⟨mark, _, rfl, hmark, ?_, ?_⟩
    · rwa [andThen, hdigits.take_of_le (Nat.le_add_right _ _)]
    · rw [hrest.take]
  · rw [List.length_cons, List.length_cons] at heq ⊢
    refine ⟨_, basedLength_eq_some_iff.mpr ⟨mark, rest ++ more, rfl, hmark, ?_, rfl⟩, ?_⟩
    · have hle := hdigits.le_append rest more
      omega
    · have hle := hrest.le_append rest more
      omega
  · subst heq
    rw [List.take_succ_cons, List.take_succ_cons]
    refine List.forall_mem_cons.mpr ⟨by decide, List.forall_mem_cons.mpr ⟨?_, hrest.not_blank rest⟩⟩
    rcases hmark with rfl | rfl
    · exact hlower
    · exact hupper

theorem not_isBlank_of_isHexDigit (c : Char) (h : isHexDigit c) : ¬isBlank c := by
  intro hblank
  simp only [isBlank, Bool.or_eq_true, beq_iff_eq] at hblank
  rcases hblank with (((rfl | rfl) | rfl) | rfl) | rfl <;> exact absurd h (by decide)

theorem solid_hexadecimal : Rule.Solid (Rule.length? .hexadecimal) := by
  refine solid_based (by decide) (by decide) fun c hc => ?_
  rw [Bool.or_eq_true, beq_iff_eq] at hc
  rcases hc with hc | rfl
  · exact not_isBlank_of_isHexDigit c hc
  · decide

theorem solid_binary : Rule.Solid (Rule.length? .binary) := by
  refine solid_based (by decide) (by decide) fun c hc => ?_
  simp only [Bool.or_eq_true, beq_iff_eq] at hc
  rcases hc with (rfl | rfl) | rfl <;> decide

theorem wordLength_eq_some_iff {text : List Char} {length : Nat} :
    wordLength text = some length ↔ ∃ c rest, text = c :: rest ∧ isWordStart c ∧
      length = countWhile isWordPart rest + 1 := by
  cases text with
  | nil => exact ⟨nofun, nofun⟩
  | cons c rest =>
      rw [wordLength, Option.ite_none_right_eq_some, Option.some.injEq, Nat.add_comm]
      constructor
      · rintro ⟨hc, rfl⟩
        exact ⟨c, rest, rfl, hc, rfl⟩
      · rintro ⟨_, _, heq, hc, rfl⟩
        obtain ⟨rfl, rfl⟩ := List.cons.inj heq
        exact ⟨hc, rfl⟩

theorem solid_word : Rule.Solid wordLength := by
  have hparts := munches_countWhile not_isBlank_of_isWordPart
  refine ⟨⟨fun h => ?_, fun h => ?_, fun h more => ?_⟩, fun h => ?_⟩
  all_goals obtain ⟨c, rest, rfl, hc, heq⟩ := wordLength_eq_some_iff.mp h
  · have hle := hparts.le_length rest
    rw [List.length_cons]
    omega
  · subst heq
    rw [List.take_succ_cons]
    exact wordLength_eq_some_iff.mpr ⟨c, _, rfl, hc, by rw [hparts.take]⟩
  · refine ⟨_, wordLength_eq_some_iff.mpr ⟨c, rest ++ more, rfl, hc, rfl⟩, ?_⟩
    have hle := hparts.le_append rest more
    omega
  · subst heq
    rw [List.take_succ_cons]
    refine List.forall_mem_cons.mpr ⟨?_, hparts.not_blank rest⟩
    refine not_isBlank_of_isWordPart c ?_
    rw [isWordPart, hc, Bool.true_or]

theorem isPrefixOf_append {symbol : Symbol} {text : List Char}
    (h : symbol.text.toList.isPrefixOf text) (more : List Char) :
    symbol.text.toList.isPrefixOf (text ++ more) :=
  List.isPrefixOf_iff_prefix.mpr ((List.isPrefixOf_iff_prefix.mp h).trans (List.prefix_append _ _))

theorem solid_symbol : Rule.Solid (Rule.length? .symbol) := by
  refine ⟨⟨fun h => ?_, fun h => ?_, fun h more => ?_⟩, fun h => ?_⟩
  all_goals obtain ⟨symbol, hsymbol, heq⟩ := Option.map_eq_some_iff.mp h
  all_goals have hhead := isPrefixOf_of_longestSymbol? hsymbol
  all_goals have hprefix := List.isPrefixOf_iff_prefix.mp hhead
  · exact heq ▸ hprefix.length_le
  · subst heq
    rw [← List.prefix_iff_eq_take.mp hprefix]
    have hself : symbol.text.toList.isPrefixOf symbol.text.toList :=
      List.isPrefixOf_iff_prefix.mpr (List.prefix_refl _)
    obtain ⟨best, hbest, hle⟩ := exists_longestSymbol? hself
    have hshort := (List.isPrefixOf_iff_prefix.mp (isPrefixOf_of_longestSymbol? hbest)).length_le
    rw [length?, hbest, Option.map_some, Nat.le_antisymm hshort hle]
  · obtain ⟨best, hbest, hle⟩ := exists_longestSymbol? (isPrefixOf_append hhead more)
    exact ⟨best.text.toList.length, by rw [length?, hbest, Option.map_some], heq.symm.trans_le hle⟩
  · subst heq
    rw [← List.prefix_iff_eq_take.mp hprefix]
    have hall : symbol.text.toList.all (!isBlank ·) := by cases symbol <;> decide
    simpa using hall

/-! ### Quoted literals -/

/-- A quoted literal ends at its own quote, whatever follows. -/
def Closed (length? : List Char → Option Nat) : Prop :=
  ∀ {text : List Char} {length : Nat}, length? text = some length →
    length ≤ text.length ∧ ∀ more, length? (text.take length ++ more) = some length

theorem Closed.firm {length? : List Char → Option Nat} (h : Closed length?) : Firm length? where
  le_length hlength := (h hlength).1
  take hlength := by
    have hagain := (h hlength).2 []
    rwa [List.append_nil] at hagain
  grows {text} hlength more := by
    have hagain := (h hlength).2 more
    rw [List.take_length] at hagain
    exact ⟨_, hagain, Nat.le_refl _⟩

theorem stringBodyLength_escape {c : Char} (hc : c ≠ '\n') (rest : List Char) :
    stringBodyLength ('\\' :: c :: rest) = 2 + stringBodyLength rest := by
  rw [stringBodyLength, if_neg hc]

theorem stringBodyLength_plain {c : Char} (hc : ¬(c = '"' ∨ c = '\\' ∨ c = '\n'))
    (rest : List Char) : stringBodyLength (c :: rest) = 1 + stringBodyLength rest := by
  rw [stringBodyLength.eq_def]
  split
  case h_1 heq =>
    obtain ⟨rfl, -⟩ := List.cons.inj heq
    exact absurd (.inr (.inl rfl)) hc
  case h_2 heq =>
    obtain ⟨rfl, rfl⟩ := List.cons.inj heq
    exact if_neg hc
  case h_3 heq => cases heq

theorem stringBodyLength_take (rest after more : List Char)
    (h : rest.drop (stringBodyLength rest) = '"' :: after) :
    stringBodyLength (rest.take (stringBodyLength rest) ++ '"' :: more) = stringBodyLength rest := by
  induction rest using stringBodyLength.induct with
  | case1 rest =>
      have hnone : stringBodyLength ('\\' :: '\n' :: rest) = 0 := by
        rw [stringBodyLength, if_pos rfl]
      rw [hnone] at h
      cases h
  | case2 c rest hc ih =>
      rw [stringBodyLength_escape hc, Nat.add_comm, List.drop_succ_cons, List.drop_succ_cons] at h
      rw [stringBodyLength_escape hc, Nat.add_comm 2, List.take_succ_cons, List.take_succ_cons,
        List.cons_append, List.cons_append, stringBodyLength_escape hc, ih h, Nat.add_comm]
  | case3 c rest hne hc =>
      have hnone : stringBodyLength (c :: rest) = 0 := by
        rw [stringBodyLength.eq_2 _ _ hne, if_pos hc]
      rw [hnone, List.take_zero, List.nil_append]
      rfl
  | case4 c rest hne hc ih =>
      rw [stringBodyLength_plain hc, Nat.add_comm, List.drop_succ_cons] at h
      rw [stringBodyLength_plain hc, Nat.add_comm 1, List.take_succ_cons, List.cons_append,
        stringBodyLength_plain hc, ih h, Nat.add_comm]
  | case5 => cases h

theorem closed_string : Closed stringLength := by
  intro text length h
  rw [stringLength.eq_def] at h
  split at h
  case h_1 rest =>
    dsimp only at h
    rw [Option.ite_none_right_eq_some, Option.some.injEq] at h
    obtain ⟨hquote, rfl⟩ := h
    obtain ⟨after, hdrop⟩ : ∃ after, rest.drop (stringBodyLength rest) = '"' :: after := by
      rw [List.head?_eq_some_iff] at hquote
      exact hquote
    have hlength := congrArg List.length hdrop
    rw [List.length_drop, List.length_cons] at hlength
    refine ⟨by rw [List.length_cons]; omega, fun more => ?_⟩
    have htake : ('"' :: rest).take (stringBodyLength rest + 2) ++ more =
        '"' :: (rest.take (stringBodyLength rest) ++ '"' :: more) := by
      rw [List.take_succ_cons, List.take_add, hdrop, List.cons_append, List.append_assoc]
      rfl
    have hbody : (rest.take (stringBodyLength rest)).length = stringBodyLength rest := by
      rw [List.length_take]
      omega
    rw [htake, stringLength, stringBodyLength_take rest after more hdrop, List.drop_left' hbody]
    exact if_pos rfl
  case h_2 => cases h

/-- A character escape takes its marks, its four digits and the quotes. -/
theorem charLength_escape {marks digits : List Char} (hmarks : ∀ c ∈ marks, c = 'u')
    (hlength : digits.length = 4) (hdigits : digits.all isHexDigit) (more : List Char) :
    charLength ('\'' :: '\\' :: 'u' :: (marks ++ (digits ++ '\'' :: more))) =
      some (marks.length + 8) := by
  have hcount : countWhile (· == 'u') (marks ++ (digits ++ '\'' :: more)) = marks.length := by
    have htake : marks.takeWhile (· == 'u') = marks :=
      List.takeWhile_eq_self_iff.mpr fun c hc => beq_iff_eq.mpr (hmarks c hc)
    cases digits with
    | nil => cases hlength
    | cons d digits =>
        have hd : d ≠ 'u' := by
          rintro rfl
          exact absurd (List.all_eq_true.mp hdigits 'u' List.mem_cons_self) (by decide)
        rw [countWhile_append, countWhile, htake, if_neg (Nat.lt_irrefl _), countWhile,
          List.cons_append, List.takeWhile_cons_of_neg (by simpa using hd)]
        rfl
  have hdrop : (marks ++ (digits ++ '\'' :: more)).drop (marks.length + 4) = '\'' :: more := by
    rw [← List.append_assoc]
    exact List.drop_left' (by rw [List.length_append, hlength])
  rw [charLength, hcount, List.drop_left, List.take_left' hlength, hdrop]
  exact if_pos ⟨hlength, hdigits, rfl⟩

theorem closed_char : Closed charLength := by
  intro text length h
  rw [charLength.eq_def] at h
  split at h
  case h_1 rest =>
    rw [Option.ite_none_right_eq_some, Option.some.injEq] at h
    obtain ⟨⟨hlength, hdigits, hquote⟩, rfl⟩ := h
    obtain ⟨after, hdrop⟩ := List.head?_eq_some_iff.mp hquote
    obtain ⟨marks, hmarks, hcount⟩ : ∃ marks, (∀ c ∈ marks, c = 'u') ∧
        rest.take (countWhile (· == 'u') rest) = marks ∧ countWhile (· == 'u') rest = marks.length := by
      refine ⟨_, fun c hc => ?_, take_countWhile _ rest, rfl⟩
      exact beq_iff_eq.mp (List.mem_takeWhile_imp (p := (· == 'u')) hc)
    have hrest : rest = marks ++ ((rest.drop marks.length).take 4 ++ '\'' :: after) := by
      rw [← hdrop, ← hcount.2, ← List.drop_drop, List.take_append_drop, ← hcount.1,
        List.take_append_drop]
    rw [hcount.2] at hlength hdigits ⊢
    generalize (rest.drop marks.length).take 4 = digits at hlength hdigits hrest
    subst hrest
    have htake : ('\'' :: '\\' :: 'u' :: (marks ++ (digits ++ '\'' :: after))).take
        (marks.length + 8) = '\'' :: '\\' :: 'u' :: (marks ++ (digits ++ ['\''])) := by
      rw [List.take_succ_cons, List.take_succ_cons, List.take_succ_cons, List.take_length_add_append,
        List.take_append, List.take_of_length_le (by omega), hlength]
      rfl
    refine ⟨?_, fun more => ?_⟩
    · simp only [List.length_cons, List.length_append]
      omega
    · have hescape := charLength_escape hmarks hlength hdigits more
      simpa only [htake, List.cons_append, List.append_assoc, List.nil_append] using hescape
  case h_2 c rest hne =>
    rw [Option.ite_none_left_eq_some, Option.some.injEq] at h
    obtain ⟨hc, rfl⟩ := h
    refine ⟨by simp, fun more => ?_⟩
    have hu : c ≠ 'u' := hne
    show charLength ('\'' :: '\\' :: c :: '\'' :: more) = some 4
    rw [charLength, if_neg hc]
    exact hne
  case h_3 _ c rest hne =>
    rw [Option.ite_none_left_eq_some, Option.some.injEq] at h
    obtain ⟨hc, rfl⟩ := h
    refine ⟨by simp, fun more => ?_⟩
    show charLength ('\'' :: c :: '\'' :: more) = some 3
    rw [charLength, if_neg hc]
    exact fun _ hc' _ => hc (.inr (.inl hc'))
  case h_4 => cases h

/-! ### All rules -/

theorem firm_blank : Firm (Rule.length? .blank) where
  le_length {text _} h := Option.some.inj h ▸ countWhile_le_length isBlank text
  take h := by
    obtain rfl := Option.some.inj h
    rw [length?, take_countWhile, countWhile, List.takeWhile_takeWhile]
    simp [countWhile]
  grows h more := by
    refine ⟨_, rfl, (Option.some.inj h).symm.trans_le ?_⟩
    rw [countWhile_append, Option.some.inj h, if_neg (Nat.lt_irrefl _)]
    exact Nat.le_add_right _ _

/-- What follows a comment may belong to it, but to no other lexeme that is complete. -/
theorem firm {rule : Rule} (hrule : rule ≠ .comment) : Firm rule.length? := by
  cases rule with
  | blank => exact firm_blank
  | comment => exact absurd rfl hrule
  | symbol => exact solid_symbol.toFirm
  | hexadecimal => exact solid_hexadecimal.toFirm
  | binary => exact solid_binary.toFirm
  | floating => exact solid_floating.toFirm
  | decimal => exact solid_decimal.toFirm
  | char => exact closed_char.firm
  | string => exact closed_string.firm
  | word => exact solid_word.toFirm

/-- Whether a lexeme of a rule may begin with a character. -/
def begins : Rule → Char → Bool
  | .blank, c => isBlank c
  | .comment, c => c == '/'
  | .symbol, c => Symbol.all.any fun symbol => symbol.text.toList.head? == some c
  | .hexadecimal, c | .binary, c => c == '0'
  | .floating, c | .decimal, c => c.isDigit
  | .char, c => c == '\''
  | .string, c => c == '"'
  | .word, c => isWordStart c

theorem begins_of_length? {rule : Rule} {c : Char} {rest : List Char} {length : Nat}
    (h : rule.length? (c :: rest) = some length) (hpos : 0 < length) : rule.begins c := by
  have hdigit (hrun : digitRun (c :: rest) ≠ 0) : c.isDigit := by
    by_contra hc
    exact hrun (if_neg hc)
  cases rule with
  | blank =>
      obtain rfl := Option.some.inj h
      by_contra hc
      have hnone : countWhile isBlank (c :: rest) = 0 := by
        exact congrArg List.length (List.takeWhile_cons_of_neg (p := isBlank) hc)
      omega
  | comment =>
      rw [length?, commentLength.eq_def] at h
      split at h
      case h_1 heq => rw [(List.cons.inj heq).1]; rfl
      case h_2 heq => rw [(List.cons.inj heq).1]; rfl
      case h_3 => cases h
  | symbol =>
      obtain ⟨symbol, hsymbol, -⟩ := Option.map_eq_some_iff.mp h
      have hprefix := List.isPrefixOf_iff_prefix.mp (isPrefixOf_of_longestSymbol? hsymbol)
      refine List.any_eq_true.mpr ⟨symbol, mem_all_symbols symbol, ?_⟩
      obtain ⟨d, more, htext⟩ := List.exists_cons_of_ne_nil (symbol_ne_nil symbol)
      rw [htext, List.cons_prefix_cons] at hprefix
      rw [htext, hprefix.1]
      exact beq_self_eq_true _
  | hexadecimal | binary =>
      obtain ⟨_, _, heq, -⟩ := basedLength_eq_some_iff.mp h
      rw [(List.cons.inj heq).1]
      rfl
  | floating =>
      refine hdigit fun hnone => ?_
      rw [length?, floatLength] at h
      simp [hnone] at h
  | decimal =>
      refine hdigit fun hnone => ?_
      rw [length?, decimalLength] at h
      simp [hnone] at h
  | char =>
      rw [length?, charLength.eq_def] at h
      split at h
      case h_1 heq => rw [(List.cons.inj heq).1]; rfl
      case h_2 heq => rw [(List.cons.inj heq).1]; rfl
      case h_3 heq => rw [(List.cons.inj heq).1]; rfl
      case h_4 => cases h
  | string =>
      rw [length?, stringLength.eq_def] at h
      split at h
      case h_1 heq => rw [(List.cons.inj heq).1]; rfl
      case h_2 => cases h
  | word =>
      have hword : wordLength (c :: rest) = some length := h
      obtain ⟨_, _, heq, hc, -⟩ := wordLength_eq_some_iff.mp hword
      rw [(List.cons.inj heq).1]
      exact hc

/-- Quotes begin quoted literals only. -/
theorem eq_of_begins_quote {rule : Rule} :
    (rule.begins '\'' → rule = .char) ∧ (rule.begins '"' → rule = .string) ∧
      (rule.begins '/' → rule = .symbol ∨ rule = .comment) := by
  cases rule <;> decide

/-- Only blank space begins with a blank. -/
theorem eq_blank_of_begins {rule : Rule} {c : Char} (hc : isBlank c) (h : rule.begins c) :
    rule = .blank := by
  simp only [isBlank, Bool.or_eq_true, beq_iff_eq] at hc
  rcases hc with (((rfl | rfl) | rfl) | rfl) | rfl <;> revert h <;> cases rule <;> decide

end Rule
end LockDiscipline
