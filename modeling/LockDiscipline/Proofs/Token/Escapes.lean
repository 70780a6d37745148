import Mathlib.Data.List.TakeWhile
import LockDiscipline.Proofs.Token.Numerals
/-!
# Escapes

The text between the quotes of a literal stands for its characters, with an escape for one character at each
backslash that no escape before it has taken. The escapes are those of one letter, of one or more `u` and four
hexadecimal digits, and of octal digits, of which as many are taken as there are up to three and up to 255.

What is decoded is told by these escapes, but for two differences in those of hexadecimal digits. The digits are
not counted: fewer than four are taken where the text ends behind them, and a plus sign is taken for one. And an
escape is decoded by itself, so that the two halves of a surrogate pair are no escapes, although together they
are one character.
-/

namespace LockDiscipline.Literal

/-! ### What escapes are -/

/-- The letters of escapes, each with the character that the escape stands for. -/
def escapeLetters : List (Char × Char) :=
  [('n', '\n'), ('r', '\r'), ('t', '\t'), ('b', '\x08'), ('f', '\x0c'), ('s', ' '), ('\\', '\\'), ('\'', '\''),
    ('"', '"')]

/-- A number that is half of a surrogate pair, and so no character. -/
def IsSurrogate (code : Nat) : Prop :=
  0xD800 ≤ code ∧ code < 0xE000

/-- The backslash and the marks of an escape of hexadecimal digits. -/
inductive UnicodeMarks : List Char → Prop
  | intro (more : Nat) : UnicodeMarks ('\\' :: List.replicate (more + 1) 'u')

/-- Octal digits of an escape, of which no more are taken from the text behind them. -/
structure IsOctalCode (digits rest : List Char) : Prop where
  isNumeral : IsNumeral 8 digits
  length_le : digits.length ≤ 3
  numeral_le : numeral 8 digits ≤ 255
  greedy : ∀ c ∈ rest.head?, digits.length < 3 → digitNumber c < 8 → 255 < numeral 8 (digits ++ [c])

/-- A text is an escape for a character, where another text follows it. -/
inductive Escape : List Char → List Char → Char → Prop
  | letter {rest : List Char} {letter c : Char} (hletter : (letter, c) ∈ escapeLetters) : Escape ['\\', letter] rest c
  | unicode {rest marks digits : List Char} (hmarks : UnicodeMarks marks) (hdigits : IsNumeral 16 digits)
      (hlength : digits.length = 4) (hcode : ¬IsSurrogate (numeral 16 digits)) :
      Escape (marks ++ digits) rest (Char.ofNat (numeral 16 digits))
  | octal {rest digits : List Char} (hcode : IsOctalCode digits rest) :
      Escape ('\\' :: digits) rest (Char.ofNat (numeral 8 digits))

/-- A text is read like an escape of four hexadecimal digits, although it does not have as many. -/
inductive LooseEscape : List Char → List Char → Char → Prop
  | short {marks digits : List Char} (hmarks : UnicodeMarks marks) (hdigits : IsNumeral 16 digits)
      (hlength : digits.length < 4) : LooseEscape (marks ++ digits) [] (Char.ofNat (numeral 16 digits))
  | signed {rest marks digits : List Char} (hmarks : UnicodeMarks marks) (hdigits : IsNumeral 16 digits)
      (hlength : digits.length < 4) (hrest : digits.length = 3 ∨ rest = []) :
      LooseEscape (marks ++ '+' :: digits) rest (Char.ofNat (numeral 16 digits))

/-- Two escapes are a surrogate pair, and together stand for a character. -/
inductive PairedEscape : List Char → List Char → Char → Prop
  | intro {rest marks high marks' low : List Char} (hmarks : UnicodeMarks marks) (hhigh : IsNumeral 16 high)
      (hlength : high.length = 4) (hmarks' : UnicodeMarks marks') (hlow : IsNumeral 16 low) (hlength' : low.length = 4)
      (hrange : 0xD800 ≤ numeral 16 high ∧ numeral 16 high < 0xDC00)
      (hrange' : 0xDC00 ≤ numeral 16 low ∧ numeral 16 low < 0xE000) :
      PairedEscape (marks ++ high ++ (marks' ++ low)) rest
        (Char.ofNat (0x10000 + (numeral 16 high - 0xD800) * 0x400 + (numeral 16 low - 0xDC00)))

/-- A text stands for its characters, with an escape of the given kind at each backslash. -/
inductive Decodes (escape : List Char → List Char → Char → Prop) : List Char → List Char → Prop
  | nil : Decodes escape [] []
  | plain {c : Char} {rest text : List Char} (hc : c ≠ '\\') (hrest : Decodes escape rest text) :
      Decodes escape (c :: rest) (c :: text)
  | escaped {piece rest text : List Char} {c : Char} (hpiece : escape piece rest c)
      (hrest : Decodes escape rest text) : Decodes escape (piece ++ rest) (c :: text)

/-- What is read as an escape. -/
def ReadEscape (piece rest : List Char) (c : Char) : Prop :=
  Escape piece rest c ∨ LooseEscape piece rest c

/-- What is meant to be an escape. -/
def MeantEscape (piece rest : List Char) (c : Char) : Prop :=
  Escape piece rest c ∨ PairedEscape piece rest c

/-! ### Passing over what is read -/

theorem decodeFrom?_skip (skip : Nat) (body : List Char) :
    decodeFrom? skip body = decodeFrom? 0 (body.drop skip) := by
  induction body generalizing skip with
  | nil => rw [List.drop_nil, decodeFrom?, decodeFrom?]
  | cons c rest ih =>
      cases skip with
      | zero => rfl
      | succ skip => rw [decodeFrom?, List.drop_succ_cons, ih]

theorem decodeFrom?_plain {c : Char} (hc : c ≠ '\\') (rest : List Char) :
    decodeFrom? 0 (c :: rest) = (decodeFrom? 0 rest).map (c :: ·) := by
  rw [decodeFrom?]
  exact hc

/-! ### Escapes of hexadecimal digits -/

theorem isValidChar_iff_not_isSurrogate {code : Nat} (hcode : code < 16 ^ 4) :
    code.isValidChar ↔ ¬IsSurrogate code := by
  unfold Nat.isValidChar IsSurrogate
  omega

theorem charOfCode?_numeral {digits : List Char} (hdigits : IsNumeral 16 digits) (hlength : digits.length ≤ 4)
    {c : Char} : charOfCode? (numeral 16 digits) = some c ↔
      ¬IsSurrogate (numeral 16 digits) ∧ Char.ofNat (numeral 16 digits) = c := by
  have hcode : numeral 16 digits < 16 ^ 4 :=
    (numeral_lt (by decide) hdigits.lt_base).trans_le (Nat.pow_le_pow_right (by decide) hlength)
  rw [charOfCode?, Option.ite_none_right_eq_some, isValidChar_iff_not_isSurrogate hcode, Option.some.injEq]

/-- Fewer than four digits denote no half of a surrogate pair. -/
theorem not_isSurrogate_of_length_lt {digits : List Char} (hdigits : IsNumeral 16 digits)
    (hlength : digits.length < 4) : ¬IsSurrogate (numeral 16 digits) := by
  have hcode : numeral 16 digits < 16 ^ 3 :=
    (numeral_lt (by decide) hdigits.lt_base).trans_le (Nat.pow_le_pow_right (by decide) (Nat.le_of_lt_succ hlength))
  intro hsurrogate
  exact absurd (hsurrogate.1.trans_lt hcode) (by decide)

theorem not_isNumeral_plus (digits : List Char) : ¬IsNumeral 16 ('+' :: digits) :=
  fun h => absurd (h.lt_base '+' List.mem_cons_self) (by decide)

theorem unicodeCode?_isNumeral {digits : List Char} (hdigits : IsNumeral 16 digits) :
    unicodeCode? digits = some (numeral 16 digits) := by
  rw [unicodeCode?]
  · exact (natural?_eq_some_iff (by decide)).mpr ⟨hdigits, rfl⟩
  · rintro digits rfl
    exact not_isNumeral_plus digits hdigits

theorem unicodeCode?_plus {digits : List Char} (hdigits : IsNumeral 16 digits) :
    unicodeCode? ('+' :: digits) = some (numeral 16 digits) :=
  (natural?_eq_some_iff (by decide)).mpr ⟨hdigits, rfl⟩

/-- What is taken for the digits of an escape are digits, or a plus sign and digits. -/
theorem unicodeCode?_eq_some_iff {taken : List Char} {code : Nat} : unicodeCode? taken = some code ↔
    ∃ sign digits, (sign = [] ∨ sign = ['+']) ∧ taken = sign ++ digits ∧ IsNumeral 16 digits ∧
      numeral 16 digits = code := by
  constructor
  · intro h
    unfold unicodeCode? at h
    split at h
    · exact ⟨['+'], _, .inr rfl, rfl, (natural?_eq_some_iff (by decide)).mp h⟩
    · exact ⟨[], taken, .inl rfl, rfl, (natural?_eq_some_iff (by decide)).mp h⟩
  · rintro ⟨sign, digits, rfl | rfl, rfl, hdigits, rfl⟩
    · exact unicodeCode?_isNumeral hdigits
    · exact unicodeCode?_plus hdigits

/-- Where four digits at most are read, they give their character. -/
theorem unicodeChar?_eq {taken digits : List Char} (hcode : unicodeCode? taken = some (numeral 16 digits))
    (hdigits : IsNumeral 16 digits) (hlength : digits.length ≤ 4) (hsurrogate : ¬IsSurrogate (numeral 16 digits)) :
    (unicodeCode? taken).bind charOfCode? = some (Char.ofNat (numeral 16 digits)) := by
  rw [hcode, Option.bind_some]
  exact (charOfCode?_numeral hdigits hlength).mpr ⟨hsurrogate, rfl⟩

/-- Behind the marks, four characters are taken for the digits, or all where there are not as many. -/
theorem decodeFrom?_unicode {marks taken rest : List Char} (hmarks : UnicodeMarks marks)
    (htaken : taken.head? ≠ some 'u') (hlength : taken.length = 4 ∨ taken.length < 4 ∧ rest = []) :
    decodeFrom? 0 (marks ++ (taken ++ rest)) =
      ((unicodeCode? taken).bind charOfCode?).bind fun c => (decodeFrom? 0 rest).map (c :: ·) := by
  obtain ⟨more⟩ := hmarks
  have hdrop : (List.replicate (more + 1) 'u' ++ (taken ++ rest)).dropWhile (· == 'u') = taken ++ rest := by
    rw [List.dropWhile_append_of_pos (by simp)]
    cases taken with
    | nil =>
        obtain ⟨-, rfl⟩ : _ ∧ rest = [] := hlength.resolve_left (by decide)
        rfl
    | cons c taken =>
        have hc : c ≠ 'u' := fun hc => htaken (congrArg some hc)
        rw [List.cons_append, List.dropWhile_cons_of_neg (by simpa using hc)]
  have htake : (taken ++ rest).take 4 = taken := by
    rcases hlength with hlength | ⟨hlength, rfl⟩
    · rw [← hlength, List.take_left]
    · rw [List.append_nil, List.take_of_length_le hlength.le]
  have hskip : (List.replicate (more + 1) 'u' ++ (taken ++ rest)).length - (taken ++ rest).length + taken.length =
      (List.replicate (more + 1) 'u' ++ taken).length := by
    simp only [List.length_append]
    omega
  have hleft : (List.replicate (more + 1) 'u' ++ (taken ++ rest)).drop
      (List.replicate (more + 1) 'u' ++ taken).length = rest := by
    rw [← List.append_assoc, List.drop_left]
  rw [List.replicate_succ, List.cons_append] at hdrop
  simp only [List.replicate_succ, List.cons_append] at hskip hleft
  rw [List.cons_append, List.replicate_succ, List.cons_append, decodeFrom?]
  rw [hdrop, htake, hskip, decodeFrom?_skip, hleft]
  cases (unicodeCode? taken).bind charOfCode? <;> rfl

/-! ### Octal escapes -/

theorem digitValue?_octal {c : Char} (hc : digitNumber c < 8) : digitValue? 8 c = some (digitNumber c) :=
  (digitValue?_eq_some_iff (by decide)).mpr ⟨hc, rfl⟩

theorem digitValue?_not_octal {c : Char} (hc : ¬digitNumber c < 8) : digitValue? 8 c = none := by
  rw [digitValue?_eq (by decide), if_neg hc]

theorem octal_pair (first second : Char) :
    numeral 8 [first, second] = 8 * digitNumber first + digitNumber second := by
  rw [← numeral_singleton 8 first, ← numeral_concat, List.singleton_append]

theorem octal_triple (first second third : Char) :
    numeral 8 [first, second, third] = 8 * (8 * digitNumber first + digitNumber second) + digitNumber third := by
  rw [← octal_pair, ← numeral_concat, List.cons_append, List.singleton_append]

theorem octalEscape_append {first : Char} {digits rest : List Char} (h : IsOctalCode (first :: digits) rest) :
    octalEscape (digitNumber first) (digits ++ rest) = (numeral 8 (first :: digits), digits.length) := by
  obtain ⟨⟨-, hbase⟩, hlength, hle, hgreedy⟩ := h
  have hfirst := hbase first List.mem_cons_self
  match digits with
  | [] =>
      rw [numeral_singleton, List.nil_append]
      cases rest with
      | nil => rfl
      | cons c rest =>
          have hc : ¬digitNumber c < 8 := fun hc => by
            have hlarge := hgreedy c rfl (by simp) hc
            rw [List.singleton_append, octal_pair] at hlarge
            omega
          simp [octalEscape, digitValue?_not_octal hc]
  | [second] =>
      have hsecond := hbase second (by simp)
      rw [octal_pair, List.singleton_append]
      cases rest with
      | nil => simp [octalEscape, digitValue?_octal hsecond]
      | cons c rest =>
          by_cases hc : digitNumber c < 8
          · have hlarge := hgreedy c rfl (by simp) hc
            rw [List.cons_append, List.singleton_append, octal_triple] at hlarge
            simp [octalEscape, digitValue?_octal hsecond, digitValue?_octal hc, Nat.not_le.mpr hlarge]
          · simp [octalEscape, digitValue?_octal hsecond, digitValue?_not_octal hc]
  | [second, third] =>
      have hsecond := hbase second (by simp)
      have hthird := hbase third (by simp)
      rw [octal_triple] at hle ⊢
      simp [octalEscape, digitValue?_octal hsecond, digitValue?_octal hthird, hle]

/-- As many octal digits as there are, up to three and up to 255, are the digits of an escape. -/
theorem exists_isOctalCode {first : Char} (hfirst : digitNumber first < 8) (more : List Char) :
    ∃ digits rest, more = digits ++ rest ∧ IsOctalCode (first :: digits) rest := by
  by_cases hone : ∀ c ∈ more.head?, ¬digitNumber c < 8
  · refine ⟨[], more, rfl, ⟨List.cons_ne_nil _ _, by simpa using hfirst⟩, by simp, ?_, ?_⟩
    · rw [numeral_singleton]
      omega
    · exact fun c hc _ hlt => absurd hlt (hone c hc)
  · push Not at hone
    obtain ⟨second, hhead, hsecond⟩ := hone
    obtain ⟨rest, rfl⟩ := List.head?_eq_some_iff.mp hhead
    have htwo : IsNumeral 8 [first, second] := ⟨List.cons_ne_nil _ _, by simp [hfirst, hsecond]⟩
    by_cases htwice : ∀ c ∈ rest.head?, digitNumber c < 8 → 255 < numeral 8 [first, second, c]
    · refine ⟨[second], rest, rfl, htwo, by simp, ?_, fun c hc _ => htwice c hc⟩
      rw [octal_pair]
      omega
    · push Not at htwice
      obtain ⟨third, hhead, hthird, hle⟩ := htwice
      obtain ⟨rest, rfl⟩ := List.head?_eq_some_iff.mp hhead
      exact ⟨[second, third], rest, rfl, ⟨List.cons_ne_nil _ _, by simp [hfirst, hsecond, hthird]⟩, le_rfl, hle,
        fun _ _ hlt => absurd hlt (by simp)⟩

/-! ### Escapes of every kind -/

theorem simpleEscape?_eq_some_iff {letter c : Char} : simpleEscape? letter = some c ↔ (letter, c) ∈ escapeLetters := by
  constructor
  · intro h
    unfold simpleEscape? at h
    split at h <;> first | contradiction | (cases h; decide)
  · intro h
    have hall : ∀ pair ∈ escapeLetters, simpleEscape? pair.1 = some pair.2 := by decide
    exact hall _ h

theorem decodeFrom?_marked {letter : Char} (hletter : letter ≠ 'u') (rest : List Char) :
    decodeFrom? 0 ('\\' :: letter :: rest) =
      match simpleEscape? letter with
      | some c => (decodeFrom? 0 rest).map (c :: ·)
      | none =>
          (digitValue? 8 letter).bind fun first =>
            (decodeFrom? 0 (rest.drop (octalEscape first rest).2)).map
              (Char.ofNat (octalEscape first rest).1 :: ·) := by
  have hskip (skip : Nat) : decodeFrom? (1 + skip) (letter :: rest) = decodeFrom? 0 (rest.drop skip) := by
    rw [Nat.add_comm, decodeFrom?, decodeFrom?_skip]
  rw [decodeFrom?]
  · cases simpleEscape? letter with
    | some c => rfl
    | none =>
        cases digitValue? 8 letter with
        | none => rfl
        | some first =>
            dsimp only [Option.bind_some]
            rw [hskip]
  · exact hletter

theorem decodeFrom?_letter {letter c : Char} (h : simpleEscape? letter = some c) (rest : List Char) :
    decodeFrom? 0 ('\\' :: letter :: rest) = (decodeFrom? 0 rest).map (c :: ·) := by
  have hletter : letter ≠ 'u' := by
    rintro rfl
    contradiction
  rw [decodeFrom?_marked hletter, h]

theorem simpleEscape?_octal {letter : Char} (h : digitNumber letter < 8) :
    letter ≠ 'u' ∧ simpleEscape? letter = none := by
  have hall : ∀ c ∈ digitTable, digitNumber c < 8 → c ≠ 'u' ∧ simpleEscape? c = none :=
    List.all_iff_forall_prop.mp (by decide)
  exact hall letter (mem_digitTable_of_digitNumber_lt (h.trans (by decide))) h

theorem decodeFrom?_octal {letter : Char} (h : digitNumber letter < 8) (rest : List Char) :
    decodeFrom? 0 ('\\' :: letter :: rest) =
      (decodeFrom? 0 (rest.drop (octalEscape (digitNumber letter) rest).2)).map
        (Char.ofNat (octalEscape (digitNumber letter) rest).1 :: ·) := by
  obtain ⟨hletter, hsimple⟩ := simpleEscape?_octal h
  rw [decodeFrom?_marked hletter, hsimple, digitValue?_octal h]
  rfl

theorem head?_ne_of_isNumeral {digits : List Char} (hdigits : IsNumeral 16 digits) : digits.head? ≠ some 'u' :=
  fun h => absurd (hdigits.lt_base 'u' (List.mem_of_head? h)) (by decide)

theorem ReadEscape.ne_nil {piece rest : List Char} {c : Char} (h : ReadEscape piece rest c) : piece ≠ [] := by
  rcases h with (_ | ⟨⟨⟩⟩ | _) | (⟨⟨⟩⟩ | ⟨⟨⟩⟩) <;> exact List.cons_ne_nil _ _

/-- Behind what is read as an escape, decoding goes on with its character. -/
theorem decodeFrom?_append {piece rest : List Char} {c : Char} (h : ReadEscape piece rest c) :
    decodeFrom? 0 (piece ++ rest) = (decodeFrom? 0 rest).map (c :: ·) := by
  rcases h with hescape | hloose
  · cases hescape with
    | letter hletter => exact decodeFrom?_letter (simpleEscape?_eq_some_iff.mpr hletter) rest
    | unicode hmarks hdigits hlength hcode =>
        rw [List.append_assoc, decodeFrom?_unicode hmarks (head?_ne_of_isNumeral hdigits) (.inl hlength),
          unicodeChar?_eq (unicodeCode?_isNumeral hdigits) hdigits hlength.le hcode, Option.bind_some]
    | @octal _ digits hcode =>
        obtain ⟨first, digits, rfl⟩ := List.exists_cons_of_ne_nil hcode.isNumeral.ne_nil
        have hfirst := hcode.isNumeral.lt_base first List.mem_cons_self
        rw [List.cons_append, List.cons_append, decodeFrom?_octal hfirst, octalEscape_append hcode, List.drop_left]
  · cases hloose with
    | short hmarks hdigits hlength =>
        have hcode := not_isSurrogate_of_length_lt hdigits hlength
        rw [List.append_assoc, decodeFrom?_unicode hmarks (head?_ne_of_isNumeral hdigits) (.inr ⟨hlength, rfl⟩),
          unicodeChar?_eq (unicodeCode?_isNumeral hdigits) hdigits hlength.le hcode, Option.bind_some]
    | @signed _ _ digits hmarks hdigits hlength hrest =>
        have htaken : ('+' :: digits).length = 4 ∨ ('+' :: digits).length < 4 ∧ rest = [] := by
          rw [List.length_cons]
          rcases hrest with hdigits' | rfl
          · exact .inl (by rw [hdigits'])
          · exact (Nat.lt_or_eq_of_le hlength).symm.imp_right fun hless => ⟨hless, rfl⟩
        have hcode := not_isSurrogate_of_length_lt hdigits hlength
        rw [List.append_assoc, decodeFrom?_unicode hmarks (by simp) htaken,
          unicodeChar?_eq (unicodeCode?_plus hdigits) hdigits hlength.le hcode, Option.bind_some]

theorem readEscape_of_unicodeCode? {marks taken rest : List Char} {c : Char} (hmarks : UnicodeMarks marks)
    (hlength : taken.length = 4 ∨ taken.length < 4 ∧ rest = [])
    (h : (unicodeCode? taken).bind charOfCode? = some c) : ReadEscape (marks ++ taken) rest c := by
  obtain ⟨code, hcode, hc⟩ := Option.bind_eq_some_iff.mp h
  obtain ⟨sign, digits, rfl | rfl, rfl, hdigits, rfl⟩ := unicodeCode?_eq_some_iff.mp hcode
  · obtain ⟨hsurrogate, rfl⟩ := (charOfCode?_numeral hdigits (by omega)).mp hc
    rcases hlength with hlength | ⟨hlength, rfl⟩
    · exact .inl (.unicode hmarks hdigits hlength hsurrogate)
    · exact .inr (.short hmarks hdigits hlength)
  · have hless : digits.length < 4 := by
      simp only [List.singleton_append, List.length_cons] at hlength
      omega
    have hrest : digits.length = 3 ∨ rest = [] :=
      hlength.imp (fun hlength => by simpa using hlength) And.right
    obtain ⟨-, rfl⟩ := (charOfCode?_numeral hdigits hless.le).mp hc
    exact .inr (.signed hmarks hdigits hless hrest)

theorem exists_unicodeMarks (body : List Char) :
    ∃ marks rest, UnicodeMarks marks ∧ '\\' :: 'u' :: body = marks ++ rest ∧ rest.head? ≠ some 'u' := by
  refine ⟨_, body.dropWhile (· == 'u'), ⟨(body.takeWhile (· == 'u')).length⟩, ?_, ?_⟩
  · have hmarks : body.takeWhile (· == 'u') = List.replicate (body.takeWhile (· == 'u')).length 'u' :=
      List.eq_replicate_of_mem fun c hc => by simpa using List.mem_takeWhile_imp hc
    rw [List.replicate_succ, ← hmarks, List.cons_append, List.cons_append, List.takeWhile_append_dropWhile]
  · intro hhead
    have hnot := List.head?_dropWhile_not (· == 'u') body
    rw [hhead] at hnot
    contradiction

/-- Decoding goes past a backslash only by what is read as an escape. -/
theorem exists_readEscape {body text : List Char} (h : decodeFrom? 0 ('\\' :: body) = some text) :
    ∃ piece rest c text', '\\' :: body = piece ++ rest ∧ ReadEscape piece rest c ∧ text = c :: text' ∧
      decodeFrom? 0 rest = some text' := by
  -- It is enough to find an escape with a character, for decoding then goes on behind it.
  suffices hread : ∃ piece rest c, '\\' :: body = piece ++ rest ∧ ReadEscape piece rest c by
    obtain ⟨piece, rest, c, hbody, hescape⟩ := hread
    rw [hbody, decodeFrom?_append hescape] at h
    obtain ⟨text', htext', rfl⟩ := Option.map_eq_some_iff.mp h
    exact ⟨piece, rest, c, text', hbody, hescape, rfl, htext'⟩
  cases body with
  | nil => contradiction
  | cons letter rest =>
      by_cases hmark : letter = 'u'
      · obtain ⟨marks, more, hmarks, hbody, hhead⟩ := exists_unicodeMarks rest
        have hlength : (more.take 4).length = 4 ∨ (more.take 4).length < 4 ∧ more.drop 4 = [] := by
          rw [List.length_take, List.drop_eq_nil_iff]
          omega
        rw [hmark, hbody, ← List.take_append_drop 4 more,
          decodeFrom?_unicode hmarks (by rwa [List.head?_take, if_neg (by decide)]) hlength] at h
        obtain ⟨c, hc, -⟩ := Option.bind_eq_some_iff.mp h
        refine ⟨marks ++ more.take 4, more.drop 4, c, ?_, readEscape_of_unicodeCode? hmarks hlength hc⟩
        rw [hmark, hbody, List.append_assoc, List.take_append_drop]
      · by_cases hoctal : digitNumber letter < 8
        · obtain ⟨digits, rest, rfl, hcode⟩ := exists_isOctalCode hoctal rest
          exact ⟨'\\' :: letter :: digits, rest, _, rfl, .inl (.octal hcode)⟩
        · rw [decodeFrom?_marked hmark, digitValue?_not_octal hoctal] at h
          cases hletter : simpleEscape? letter with
          | none =>
              rw [hletter] at h
              contradiction
          | some c => exact ⟨['\\', letter], rest, c, rfl, .inl (.letter (simpleEscape?_eq_some_iff.mp hletter))⟩

/-- A text is decoded to the characters that it stands for by what is read as escapes, and to nothing where it
stands for none. -/
theorem decode?_eq_some_iff (body text : List Char) : decode? body = some text ↔ Decodes ReadEscape body text := by
  constructor
  · -- The text behind an escape is shorter, by the backslash at least.
    induction hlength : body.length using Nat.strong_induction_on generalizing body text with
    | _ length ih =>
        intro h
        cases body with
        | nil =>
            obtain rfl : [] = text := Option.some.inj h
            exact .nil
        | cons c rest =>
            by_cases hc : c = '\\'
            · subst hc
              obtain ⟨piece, after, c, text', hbody, hescape, rfl, htext'⟩ := exists_readEscape h
              rw [hbody]
              refine .escaped hescape (ih _ ?_ after text' rfl htext')
              rw [← hlength, hbody, List.length_append]
              exact Nat.lt_add_of_pos_left (List.length_pos_iff.mpr hescape.ne_nil)
            · rw [decode?, decodeFrom?_plain hc] at h
              obtain ⟨text', htext', rfl⟩ := Option.map_eq_some_iff.mp h
              exact .plain hc (ih _ (hlength ▸ Nat.lt_succ_self _) rest text' rfl htext')
  · intro h
    unfold decode?
    induction h with
    | nil => rfl
    | plain hc _ ih => rw [decodeFrom?_plain hc, ih, Option.map_some]
    | escaped hpiece _ ih => rw [decodeFrom?_append hpiece, ih, Option.map_some]

theorem MeantEscape.exists_eq_cons {piece rest : List Char} {c : Char} (h : MeantEscape piece rest c) :
    ∃ letter tail, piece = '\\' :: letter :: tail ∧ (letter = 'u' → 4 ≤ tail.length) := by
  rcases h with hescape | hpaired
  · cases hescape with
    | @letter _ letter c hletter =>
        have hmark : ∀ pair ∈ escapeLetters, pair.1 ≠ 'u' := by decide
        exact ⟨letter, [], rfl, fun hu => absurd hu (hmark _ hletter)⟩
    | @unicode _ _ digits hmarks hdigits hlength =>
        obtain ⟨more⟩ := hmarks
        refine ⟨'u', List.replicate more 'u' ++ digits, rfl, fun _ => ?_⟩
        rw [List.length_append, hlength]
        exact Nat.le_add_left _ _
    | @octal _ digits hcode =>
        obtain ⟨first, digits, rfl⟩ := List.exists_cons_of_ne_nil hcode.isNumeral.ne_nil
        refine ⟨first, digits, rfl, ?_⟩
        rintro rfl
        exact absurd (hcode.isNumeral.lt_base 'u' List.mem_cons_self) (by decide)
  · obtain ⟨hmarks, hhigh, hlength⟩ := hpaired
    obtain ⟨more⟩ := hmarks
    refine ⟨'u', _, rfl, fun _ => ?_⟩
    simp only [List.append_eq, List.length_append, hlength]
    omega

/-- Fewer than four characters behind a mark are no escape. -/
theorem not_decodes_meantEscape {more : List Char} (hmore : more.length < 4) (text : List Char) :
    ¬Decodes MeantEscape ('\\' :: 'u' :: more) text := by
  intro h
  generalize hbody : '\\' :: 'u' :: more = body at h
  cases h with
  | nil => contradiction
  | plain hc => exact hc (List.cons.inj hbody).1.symm
  | escaped hpiece =>
      obtain ⟨letter, tail, rfl, htail⟩ := hpiece.exists_eq_cons
      simp only [List.cons_append, List.cons.injEq, true_and] at hbody
      obtain ⟨hletter, rfl⟩ := hbody
      have hle := htail hletter.symm
      rw [List.length_append] at hmore
      omega

/-- Two hexadecimal digits are taken for an escape at the end of a text, and none is meant by them; a surrogate pair
is meant for one character, and is not decoded. -/
theorem exists_escape_misread :
    (decode? "\\u41".toList = some ['A'] ∧ ∀ text, ¬Decodes MeantEscape "\\u41".toList text) ∧
      decode? "\\uD83D\\uDE00".toList = none ∧ Decodes MeantEscape "\\uD83D\\uDE00".toList ['😀'] := by
  have hmarks : UnicodeMarks ['\\', 'u'] := ⟨0⟩
  have hhigh : IsNumeral 16 ['D', '8', '3', 'D'] := by decide
  have hlow : IsNumeral 16 ['D', 'E', '0', '0'] := by decide
  have hpair : MeantEscape "\\uD83D\\uDE00".toList [] '😀' :=
    .inr (.intro hmarks hhigh rfl hmarks hlow rfl (by decide) (by decide))
  exact ⟨⟨by decide, not_decodes_meantEscape (by decide)⟩, by decide, .escaped hpair .nil⟩

end LockDiscipline.Literal
