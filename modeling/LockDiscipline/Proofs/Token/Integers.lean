import LockDiscipline.Proofs.Token.Numerals
import LockDiscipline.Proofs.Token.Rules
/-!
# Integer literals

An integer literal is a numeral with underscores in it, behind a mark of its base and before a suffix. Where the
numeral has only digits of the base and denotes a number that fits into 64 bits, the value of the literal is the
number with these bits in two's complement, and everything else is an error over the literal.

For a base that is marked this is how masks are written. A decimal literal is read in the same way, so that from
`2 ^ 63` on it has a negative value; the value of the literal is the number that it denotes up to there only.
-/

namespace LockDiscipline

/-- What is dropped on the right is what passes the test there. -/
theorem Text.dropRightWhile_append {test : Char → Bool} {body suffix : List Char} (hbody : ∀ c ∈ body, ¬test c)
    (hsuffix : ∀ c ∈ suffix, test c) : Text.dropRightWhile test (body ++ suffix) = body := by
  have hkept : body.reverse.dropWhile test = body.reverse := by
    rw [List.dropWhile_eq_self_iff]
    exact fun hlen => hbody _ (List.mem_reverse.mp (List.getElem_mem hlen))
  have hdropped : ∀ c ∈ suffix.reverse, test c := fun c hc => hsuffix c (List.mem_reverse.mp hc)
  rw [Text.dropRightWhile, List.reverse_append, List.dropWhile_append_of_pos hdropped, hkept, List.reverse_reverse]

namespace Literal

/-- The number that the bits of a natural number have in two's complement, of which there are 64. -/
def signed (number : Nat) : Int :=
  if number < 2 ^ 63 then number else number - 2 ^ 64

theorem toInt_ofNat {number : Nat} (h : number < 2 ^ 64) : (Int64.ofNat number).toInt = signed number := by
  rw [Int64.toInt_ofNat', Int.bmod_def, signed, Int64.size]
  split <;> split <;> omega

/-- The digits of a base that is at most sixteen are the bits of an integer, if they fit into one. -/
theorem integer?_eq {base : Nat} (hbase : base ≤ 16) (body : List Char) :
    integer? base body =
      if IsNumeral base (withoutUnderscores body) ∧ numeral base (withoutUnderscores body) < 2 ^ 64 then
        some (Int64.ofNat (numeral base (withoutUnderscores body)))
      else none := by
  rw [integer?]
  cases hread : natural? base (withoutUnderscores body) with
  | none =>
      have hnot : ¬IsNumeral base (withoutUnderscores body) := fun h =>
        absurd (hread.symm.trans ((natural?_eq_some_iff hbase).mpr ⟨h, rfl⟩)) nofun
      rw [if_neg fun h => hnot h.1]
      rfl
  | some number =>
      obtain ⟨hnumeral, rfl⟩ := (natural?_eq_some_iff hbase).mp hread
      simp only [hnumeral, true_and]
      rfl

end Literal

namespace Lexer

open Literal

/-- The base of digits that no mark stands before: octal behind a zero, otherwise decimal. -/
def plainBase (digits : List Char) : Nat :=
  if digits.head? = some '0' ∧ 1 < digits.length then 8 else 10

/-- A text is an integer literal with these digits of a base: a mark for the base, the digits with underscores
between them, and a suffix. Without a mark all decimal digits may stand there. -/
inductive IsInteger : List Char → List Char → Nat → Prop
  | marked {mark : Char} {body suffix : List Char} {base : Nat}
      (hmark : (mark, base) ∈ [('x', 16), ('X', 16), ('b', 2), ('B', 2)])
      (hbody : ∀ c ∈ body, c = '_' ∨ digitNumber c < base) (hsuffix : suffix ∈ [[], ['l'], ['L']]) :
      IsInteger ('0' :: mark :: (body ++ suffix)) (body.filter (· ≠ '_')) base
  | plain {body suffix : List Char}
      (hbody : ∀ c ∈ body, c = '_' ∨ digitNumber c < 10) (hsuffix : suffix ∈ [[], ['l'], ['L']]) :
      IsInteger (body ++ suffix) (body.filter (· ≠ '_')) (plainBase (body.filter (· ≠ '_')))

theorem isLongSuffix_of_mem {suffix : List Char} (h : suffix ∈ [[], ['l'], ['L']]) : ∀ c ∈ suffix, isLongSuffix c := by
  simp only [List.mem_cons, List.not_mem_nil, or_false] at h
  rcases h with rfl | rfl | rfl <;> simp [isLongSuffix]

theorem take_optionally_isLongSuffix (text : List Char) :
    text.take (optionally isLongSuffix text) ∈ [[], ['l'], ['L']] := by
  cases text with
  | nil => decide
  | cons c rest =>
      rw [optionally]
      split
      case isTrue hc =>
        rw [isLongSuffix, Bool.or_eq_true, beq_iff_eq, beq_iff_eq] at hc
        rcases hc with rfl | rfl <;> simp
      case isFalse => simp

/-- No digit is a suffix, and no underscore is. -/
theorem not_isLongSuffix {body : List Char} {base : Nat} (hbase : base ≤ 16)
    (h : ∀ c ∈ body, c = '_' ∨ digitNumber c < base) : ∀ c ∈ body, ¬isLongSuffix c := by
  intro c hc hsuffix
  rw [isLongSuffix, Bool.or_eq_true, beq_iff_eq, beq_iff_eq] at hsuffix
  have hnumber : digitNumber c = 16 := by rcases hsuffix with rfl | rfl <;> decide
  rcases h c hc with rfl | hlt
  · exact absurd hsuffix (by decide)
  · omega

theorem base_le_of_mem {mark : Char} {base : Nat} (h : (mark, base) ∈ [('x', 16), ('X', 16), ('b', 2), ('B', 2)]) :
    base ≤ 16 := by
  simp only [List.mem_cons, Prod.mk.injEq, List.not_mem_nil, or_false] at h
  omega

/-- A mark of a base is found neither among decimal digits nor in a suffix. -/
theorem not_mem_of_mark {mark : Char} {base : Nat} {body suffix : List Char}
    (hmark : (mark, base) ∈ [('x', 16), ('X', 16), ('b', 2), ('B', 2)])
    (hbody : ∀ c ∈ body, c = '_' ∨ digitNumber c < 10) (hsuffix : suffix ∈ [[], ['l'], ['L']]) :
    mark ∉ body ++ suffix := by
  have hcases : mark = 'x' ∨ mark = 'X' ∨ mark = 'b' ∨ mark = 'B' := by
    simp only [List.mem_cons, Prod.mk.injEq, List.not_mem_nil, or_false] at hmark
    exact hmark.imp And.left (.imp And.left (.imp And.left And.left))
  intro hmem
  rcases List.mem_append.mp hmem with hmem | hmem
  · have hdigit := hbody mark hmem
    rcases hcases with rfl | rfl | rfl | rfl <;> exact absurd hdigit (by decide)
  · have hlong := isLongSuffix_of_mem hsuffix mark hmem
    rcases hcases with rfl | rfl | rfl | rfl <;> exact absurd hlong (by decide)

/-- The digits behind a mark can be told from the suffix. -/
theorem eq_of_append_suffix {body body' suffix suffix' : List Char} {base base' : Nat} (hbase : base ≤ 16)
    (hbase' : base' ≤ 16) (hbody : ∀ c ∈ body, c = '_' ∨ digitNumber c < base)
    (hbody' : ∀ c ∈ body', c = '_' ∨ digitNumber c < base') (hsuffix : suffix ∈ [[], ['l'], ['L']])
    (hsuffix' : suffix' ∈ [[], ['l'], ['L']]) (h : body ++ suffix = body' ++ suffix') : body = body' :=
  calc body
    _ = Text.dropRightWhile isLongSuffix (body ++ suffix) :=
        (Text.dropRightWhile_append (not_isLongSuffix hbase hbody) (isLongSuffix_of_mem hsuffix)).symm
    _ = Text.dropRightWhile isLongSuffix (body' ++ suffix') := by rw [h]
    _ = body' := Text.dropRightWhile_append (not_isLongSuffix hbase' hbody') (isLongSuffix_of_mem hsuffix')

/-- An integer literal has one list of digits and one base. -/
theorem IsInteger.unique {lexeme digits digits' : List Char} {base base' : Nat} (h : IsInteger lexeme digits base)
    (h' : IsInteger lexeme digits' base') : digits = digits' ∧ base = base' := by
  cases h with
  | @marked mark body suffix base hmark hbody hsuffix =>
      generalize hlexeme : '0' :: mark :: (body ++ suffix) = lexeme at h'
      cases h' with
      | @marked mark' body' suffix' base' hmark' hbody' hsuffix' =>
          simp only [List.cons.injEq, true_and] at hlexeme
          obtain ⟨rfl, happend⟩ := hlexeme
          obtain rfl := eq_of_append_suffix (base_le_of_mem hmark) (base_le_of_mem hmark') hbody hbody' hsuffix
            hsuffix' happend
          refine ⟨rfl, ?_⟩
          simp only [List.mem_cons, Prod.mk.injEq, List.not_mem_nil, or_false] at hmark hmark'
          rcases hmark with ⟨rfl, rfl⟩ | ⟨rfl, rfl⟩ | ⟨rfl, rfl⟩ | ⟨rfl, rfl⟩ <;> simpa [eq_comm] using hmark'
      | @plain body' suffix' hbody' hsuffix' =>
          exact absurd (hlexeme ▸ List.mem_cons_of_mem _ List.mem_cons_self) (not_mem_of_mark hmark hbody' hsuffix')
  | @plain body suffix hbody hsuffix =>
      generalize hlexeme : body ++ suffix = lexeme at h'
      cases h' with
      | marked hmark' _ _ =>
          exact absurd (hlexeme ▸ List.mem_cons_of_mem _ List.mem_cons_self) (not_mem_of_mark hmark' hbody hsuffix)
      | plain hbody' hsuffix' =>
          have hten : (10 : Nat) ≤ 16 := by decide
          obtain rfl := eq_of_append_suffix hten hten hbody hbody' hsuffix hsuffix' hlexeme
          exact ⟨rfl, rfl⟩

theorem digitNumber_lt_of_isHexDigit {c : Char} (h : isHexDigit c || c == '_') : c = '_' ∨ digitNumber c < 16 := by
  rw [Bool.or_eq_true, beq_iff_eq, isHexDigit, Option.isSome_iff_exists] at h
  rcases h with ⟨number, hnumber⟩ | h
  · exact .inr ((digitValue?_eq_some_iff (Nat.le_refl 16)).mp hnumber).1
  · exact .inl h

theorem digitNumber_lt_of_isBit {c : Char} (h : c == '0' || c == '1' || c == '_') : c = '_' ∨ digitNumber c < 2 := by
  rw [Bool.or_eq_true, Bool.or_eq_true, beq_iff_eq, beq_iff_eq, beq_iff_eq] at h
  rcases h with (rfl | rfl) | rfl <;> decide

theorem digitNumber_lt_of_isDigitPart {c : Char} (h : isDigitPart c) : c = '_' ∨ digitNumber c < 10 := by
  rw [isDigitPart, Bool.or_eq_true, beq_iff_eq] at h
  refine h.symm.imp_right fun hdigit => ?_
  have hbounds : 48 ≤ c.val ∧ c.val ≤ 57 := by simpa [Char.isDigit] using hdigit
  have hrange : '0' ≤ c ∧ c ≤ '9' := hbounds
  have hread : digitValue? 10 c = some (c.toNat - '0'.toNat) := by
    have hle : c.toNat ≤ 57 := hrange.2
    rw [digitValue?, if_pos hrange, Option.filter_some, if_pos]
    exact decide_eq_true (Nat.lt_of_le_of_lt (Nat.sub_le_sub_right hle 48) (by decide))
  exact ((digitValue?_eq_some_iff (by decide)).mp hread).1

/-- What an integer literal with these digits of a base denotes, if it denotes anything. -/
def integerOutcome (digits : List Char) (base : Nat) (span : Span) : Except LexError (Option TokenKind) :=
  if IsNumeral base digits ∧ numeral base digits < 2 ^ 64 then
    .ok (some (.int (Int64.ofNat (numeral base digits))))
  else .error (.invalidNumber span)

/-- The digits that are left when underscores are dropped make the literal. -/
theorem integerOutcome_eq {base : Nat} (hbase : base ≤ 16) (body : List Char) (span : Span) :
    (match integer? base body with
      | some value => .ok (some (.int value))
      | none => .error (.invalidNumber span)) = integerOutcome (withoutUnderscores body) base span := by
  rw [integer?_eq hbase, integerOutcome]
  by_cases hfits : IsNumeral base (withoutUnderscores body) ∧ numeral base (withoutUnderscores body) < 2 ^ 64
  · rw [if_pos hfits, if_pos hfits]
  · rw [if_neg hfits, if_neg hfits]

theorem decimalInteger?_eq (body : List Char) :
    decimalInteger? body = integer? (plainBase (withoutUnderscores body)) body := by
  rw [decimalInteger?, plainBase]
  split
  case h_1 digit digits heq => simp [heq]
  case h_2 hplain =>
    rw [if_neg]
    rintro ⟨hhead, hlength⟩
    match withoutUnderscores body, hplain, hhead, hlength with
    | _ :: digit :: digits, hplain, hhead, _ => exact hplain digit digits (by rw [Option.some.inj hhead])

theorem plainBase_le (digits : List Char) : plainBase digits ≤ 16 := by
  rw [plainBase]
  split <;> decide

/-- A lexeme of a rule is an integer literal, and the rule reads what its digits come to. -/
def ReadsInteger (rule : Rule) (lexeme : List Char) : Prop :=
  ∃ digits base, IsInteger lexeme digits base ∧ ∀ span, tokenKind? rule lexeme span = integerOutcome digits base span

/-- The rules for literals with a mark for their base. -/
theorem readsInteger_based {rule : Rule} {lower upper : Char} {isDigit : Char → Bool} {base : Nat} {text : List Char}
    {length : Nat} (hlower : (lower, base) ∈ [('x', 16), ('X', 16), ('b', 2), ('B', 2)])
    (hupper : (upper, base) ∈ [('x', 16), ('X', 16), ('b', 2), ('B', 2)]) (hbase : base ≤ 16)
    (hdigit : ∀ c, isDigit c → c = '_' ∨ digitNumber c < base)
    (hkind : ∀ lexeme span, tokenKind? rule lexeme span =
      match integer? base (Text.dropRightWhile isLongSuffix (lexeme.drop 2)) with
      | some value => .ok (some (.int value))
      | none => .error (.invalidNumber span))
    (hlength : basedLength lower upper isDigit text = some length) : ReadsInteger rule (text.take length) := by
  obtain ⟨mark, rest, rfl, hmark, -, rfl⟩ := Rule.basedLength_eq_some_iff.mp hlength
  have hbody : ∀ c ∈ rest.takeWhile isDigit, c = '_' ∨ digitNumber c < base :=
    fun c hc => hdigit c (List.mem_takeWhile_imp hc)
  have hsuffix := take_optionally_isLongSuffix (rest.drop (countWhile isDigit rest))
  rw [List.take_succ_cons, List.take_succ_cons, andThen, List.take_add, take_countWhile]
  refine ⟨_, base, .marked ?_ hbody hsuffix, fun span => ?_⟩
  · rcases hmark with rfl | rfl
    · exact hlower
    · exact hupper
  · rw [hkind, List.drop_succ_cons, List.drop_succ_cons, List.drop_zero,
      Text.dropRightWhile_append (not_isLongSuffix hbase hbody) (isLongSuffix_of_mem hsuffix)]
    exact integerOutcome_eq hbase _ span

theorem isDigitPart_of_mem_digitRun (text : List Char) : ∀ c ∈ text.take (digitRun text), isDigitPart c := by
  cases text with
  | nil => exact List.forall_mem_nil _
  | cons c rest =>
      rw [digitRun]
      split
      case isTrue hc =>
        rw [Nat.add_comm, List.take_succ_cons, take_countWhile]
        refine List.forall_mem_cons.mpr ⟨?_, fun d hd => List.mem_takeWhile_imp hd⟩
        rw [isDigitPart, hc, Bool.true_or]
      case isFalse => exact List.forall_mem_nil _

/-- The rule for literals without a mark. -/
theorem readsInteger_decimal {text : List Char} {length : Nat} (hlength : decimalLength text = some length) :
    ReadsInteger .decimal (text.take length) := by
  obtain rfl : andThen digitRun (optionally isLongSuffix) text = length := by
    rw [decimalLength, Option.ite_none_left_eq_some] at hlength
    exact Option.some.inj hlength.2
  have hbody : ∀ c ∈ text.take (digitRun text), c = '_' ∨ digitNumber c < 10 :=
    fun c hc => digitNumber_lt_of_isDigitPart (isDigitPart_of_mem_digitRun text c hc)
  have hsuffix := take_optionally_isLongSuffix (text.drop (digitRun text))
  rw [andThen, List.take_add]
  refine ⟨_, _, .plain hbody hsuffix, fun span => ?_⟩
  rw [tokenKind?, Text.dropRightWhile_append (not_isLongSuffix (by decide) hbody) (isLongSuffix_of_mem hsuffix),
    decimalInteger?_eq]
  exact integerOutcome_eq (plainBase_le _) _ span

theorem readsInteger_of_length? {rule : Rule} (hrule : rule ∈ [.hexadecimal, .binary, .decimal]) {text : List Char}
    {length : Nat} (hlength : rule.length? text = some length) : ReadsInteger rule (text.take length) := by
  simp only [List.mem_cons, List.not_mem_nil, or_false] at hrule
  rcases hrule with rfl | rfl | rfl
  · exact readsInteger_based (by simp) (by simp) (by decide) (fun c => digitNumber_lt_of_isHexDigit)
      (fun _ _ => rfl) hlength
  · exact readsInteger_based (by simp) (by simp) (by decide) (fun c => digitNumber_lt_of_isBit)
      (fun _ _ => rfl) hlength
  · exact readsInteger_decimal hlength

/-- Where the longest lexeme is one of the rules for integers, it is an integer literal and comes first in what
the lexer finds from there on. With digits of its base that denote a number of at most 64 bits it is the token of
the integer that has these bits, so that it has the value of the number below `2 ^ 63`. Otherwise it is an error
over the literal. -/
theorem run_integer (recovery : Recovery) {text : List Char} {rule : Rule} {length : Nat}
    (hlongest : Rule.longest? text = some (rule, length)) (hrule : rule ∈ [.hexadecimal, .binary, .decimal])
    (position : Nat) {errors : Nat} (herrors : errors < errorLimit) :
    ∃ digits base span,
      (∀ digits' base', IsInteger (text.take length) digits' base' ↔ digits' = digits ∧ base' = base) ∧
      span = ⟨position, position + Text.byteLength (text.take length)⟩ ∧
      if IsNumeral base digits ∧ numeral base digits < 2 ^ 64 then
        ∃ value : Int64, value.toInt = signed (numeral base digits) ∧
          run recovery 0 position errors text =
            .cons (.ok ⟨.int value, span⟩) (run recovery 0 span.stop errors (text.drop length))
      else
        ∃ error : LexError, error.message = "Invalid number" ∧ error.span = span ∧
          run recovery 0 position errors text = .cons (.error error) (run recovery 0 span.stop (errors + 1) (text.drop length)) := by
  have hpos := longest?_pos hlongest
  obtain ⟨digits, base, hinteger, hkind⟩ := readsInteger_of_length? hrule (length?_of_longest? hlongest)
  refine ⟨digits, base, _, fun digits' base' => ⟨fun h => h.unique hinteger, ?_⟩, rfl, ?_⟩
  · rintro ⟨rfl, rfl⟩
    exact hinteger
  cases text with
  | nil => cases hlongest
  | cons c rest =>
      rw [run.eq_def]
      simp only [hlongest, hkind, run_lexeme recovery position _ c rest hpos, integerOutcome, Nat.not_le.mpr herrors, if_false]
      split
      case isTrue hfits => exact ⟨_, toInt_ofNat hfits.2, rfl⟩
      case isFalse => exact ⟨_, rfl, rfl, rfl⟩

/-- A mask of all bits, with underscores and a suffix, before the end of its statement. -/
def fullMask : List Char :=
  "0xFFFF_FFFF_FFFF_FFFFL;".toList

theorem run_integer_fullMask :
    Rule.longest? fullMask = some (.hexadecimal, 22) ∧ .hexadecimal ∈ [Rule.hexadecimal, .binary, .decimal] ∧
      0 < errorLimit ∧ ∃ value : Int64, value.toInt = -1 ∧
        run recovery 0 0 0 fullMask = .cons (.ok ⟨.int value, ⟨0, 22⟩⟩) (run recovery 0 22 0 [';']) := by
  have hlongest : Rule.longest? fullMask = some (.hexadecimal, 22) := by decide +kernel
  have hrule : .hexadecimal ∈ [Rule.hexadecimal, .binary, .decimal] := List.mem_cons_self
  have herrors : 0 < errorLimit := by decide
  refine ⟨hlongest, hrule, herrors, ?_⟩
  obtain ⟨digits, base, span, hdigits, hspan, houtcome⟩ := run_integer recovery hlongest hrule 0 herrors
  have hmask : IsInteger (fullMask.take 22) "FFFFFFFFFFFFFFFF".toList 16 :=
    @IsInteger.marked 'x' "FFFF_FFFF_FFFF_FFFF".toList ['L'] 16 (by decide)
      (List.all_iff_forall_prop.mp (by decide)) (by decide)
  obtain ⟨rfl, rfl⟩ := (hdigits _ _).mp hmask
  have hfits : IsNumeral 16 "FFFFFFFFFFFFFFFF".toList ∧ numeral 16 "FFFFFFFFFFFFFFFF".toList < 2 ^ 64 := by decide
  rw [if_pos hfits] at houtcome
  obtain ⟨value, hvalue, hrun⟩ := houtcome
  have hstop : span = ⟨0, 22⟩ := hspan.trans (by decide)
  rw [hstop] at hrun
  exact ⟨value, hvalue.trans (by decide), hrun⟩

/-- A decimal literal that is too large for a signed integer, and fits into 64 bits. -/
def largeDecimal : List Char :=
  "18446744073709551615".toList

/-- Too large a decimal literal is no error, and has another value than it denotes. -/
theorem exists_decimal_wrapped :
    IsInteger largeDecimal largeDecimal 10 ∧ IsNumeral 10 largeDecimal ∧ 2 ^ 63 < numeral 10 largeDecimal ∧
      (tokenize largeDecimal).errors = [] ∧
      (tokenize largeDecimal).tokens = [⟨.int (-1), ⟨0, 20⟩⟩, ⟨.eof, ⟨20, 20⟩⟩] := by
  refine ⟨?_, by decide, by decide, by decide +kernel, by decide +kernel⟩
  exact @IsInteger.plain largeDecimal [] (List.all_iff_forall_prop.mp (by decide)) (by decide)

end Lexer
end LockDiscipline
