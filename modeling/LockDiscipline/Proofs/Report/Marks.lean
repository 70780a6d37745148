import LockDiscipline.Proofs.Report.Gutter
import Mathlib.Data.List.SplitBy
/-!
# The signs below a line

The labels that begin in a line mark their columns in the row below it. Primary marks are drawn before secondary
ones, and what is drawn later hides what is drawn before. So a column has the sign of a secondary label as soon as
one of them takes it, and the sign of a primary label only where no secondary one does. A finding of which the
primary label lies inside of a secondary one is shown without its primary sign.

Columns count bytes. They are the columns of the printed rows where every character takes one byte, and what is
printed below a character is stated for such sources. Of the carriage returns that end a line, only those in the
first columns behind its text have a sign.
-/

namespace LockDiscipline

namespace Text

theorem dropRightWhile_append_rtakeWhile (test : Char → Bool) (text : List Char) :
    dropRightWhile test text ++ text.rtakeWhile test = text := by
  rw [dropRightWhile, List.rtakeWhile, ← List.reverse_append, List.takeWhile_append_dropWhile,
    List.reverse_reverse]

theorem dropRightWhile_prefix (test : Char → Bool) (text : List Char) : dropRightWhile test text <+: text :=
  ⟨_, dropRightWhile_append_rtakeWhile test text⟩

/-- What is left when the end of a text is cut off is where it was. -/
theorem getElem?_dropRightWhile_of_lt {test : Char → Bool} {text : List Char} {column : Nat}
    (hinside : column < (dropRightWhile test text).length) : (dropRightWhile test text)[column]? = text[column]? := by
  conv_rhs => rw [← dropRightWhile_append_rtakeWhile test text]
  rw [List.getElem?_append_left hinside]

/-- A character that does not pass the test is not cut off. -/
theorem getElem?_dropRightWhile {test : Char → Bool} {text : List Char} {column : Nat} {c : Char}
    (hpresent : text[column]? = some c) (hkept : ¬test c) : (dropRightWhile test text)[column]? = some c := by
  rw [← hpresent]
  refine getElem?_dropRightWhile_of_lt ?_
  by_contra hbeyond
  rw [← dropRightWhile_append_rtakeWhile test text, List.getElem?_append_right (by omega)] at hpresent
  exact hkept (List.mem_rtakeWhile_imp (List.mem_of_getElem? hpresent))

theorem byteLength_eq_length {text : List Char} (hascii : ∀ c ∈ text, c.utf8Size = 1) :
    byteLength text = text.length := by
  induction text with
  | nil => rfl
  | cons c rest ih =>
      obtain ⟨hsingle, hothers⟩ := List.forall_mem_cons.mp hascii
      rw [byteLength, hsingle, ih hothers, List.length_cons, Nat.add_comm]

end Text

/-! ## Marks in the order of drawing -/

namespace LineMark

theorem drawnBefore_trans {first second third : LineMark} (hbefore : drawnBefore first second)
    (hbehind : drawnBefore second third) : drawnBefore first third := by
  obtain ⟨start, stop, style, message⟩ := first
  obtain ⟨start', stop', style', message'⟩ := second
  obtain ⟨start'', stop'', style'', message''⟩ := third
  cases style <;> cases style' <;> cases style'' <;> simp_all [drawnBefore] <;> omega

theorem drawnBefore_total (first second : LineMark) : drawnBefore first second || drawnBefore second first := by
  obtain ⟨start, stop, style, message⟩ := first
  obtain ⟨start', stop', style', message'⟩ := second
  cases style <;> cases style' <;> simp [drawnBefore] <;> omega

/-- No secondary mark is drawn before a primary one. -/
theorem eq_primary_of_drawnBefore {first second : LineMark} (hbefore : drawnBefore first second)
    (hprimary : second.style = .primary) : first.style = .primary := by
  rw [drawnBefore, hprimary] at hbefore
  cases hstyle : first.style with
  | primary => rfl
  | secondary =>
      rw [hstyle] at hbefore
      cases hbefore

/-- A mark takes a column for a secondary label. -/
def hides (column : Nat) (mark : LineMark) : Bool :=
  mark.style == .secondary && mark.covers column

/-- If a primary mark is the last one that takes a column, no secondary mark takes it: none is drawn before a
primary one. -/
theorem not_any_hides {earlier later : List LineMark} {last : LineMark} {column : Nat}
    (hsorted : (earlier ++ last :: later).Pairwise (drawnBefore · ·)) (hprimary : last.style = .primary)
    (huncovered : ∀ mark ∈ later, ¬mark.covers column) : ¬(earlier ++ last :: later).any (hides column) := by
  rw [List.any_eq_true]
  rintro ⟨mark, hpresent, hidden⟩
  obtain ⟨hsecondary, htakes⟩ := Bool.and_eq_true_iff.mp hidden
  have hisPrimary : mark.style = .primary := by
    rcases List.mem_append.mp hpresent with hbefore | hbehind
    · have hdrawn := (List.pairwise_append.mp hsorted).2.2 mark hbefore last List.mem_cons_self
      exact eq_primary_of_drawnBefore hdrawn hprimary
    · rcases List.mem_cons.mp hbehind with rfl | hbehind
      · exact hprimary
      · exact absurd htakes (huncovered mark hbehind)
  rw [hisPrimary] at hsecondary
  cases hsecondary

/-- In a column that marks take, the sign is that of a secondary label if one of them takes it. -/
theorem signAt_of_sorted {marks : List LineMark} (hsorted : marks.Pairwise (drawnBefore · ·)) {column : Nat}
    (htaken : ∃ mark ∈ marks, mark.covers column) :
    signAt marks column = if marks.any (hides column) then '-' else '^' := by
  cases hfound : marks.reverse.find? (covers column) with
  | none =>
      obtain ⟨mark, hpresent, hcovered⟩ := htaken
      exact absurd hcovered (List.find?_eq_none.mp hfound mark (List.mem_reverse.mpr hpresent))
  | some last =>
      obtain ⟨hcovered, later, earlier, horder, huncovered⟩ := List.find?_eq_some_iff_append.mp hfound
      obtain rfl : marks = earlier.reverse ++ last :: later.reverse := by
        rw [← List.reverse_reverse marks, horder]
        simp
      rw [signAt, hfound]
      cases hstyle : last.style with
      | secondary =>
          have hidden : (earlier.reverse ++ last :: later.reverse).any (hides column) :=
            List.any_eq_true.mpr ⟨last, by simp, by rw [hides, hstyle, hcovered]; rfl⟩
          rw [if_pos hidden]
          exact congrArg LabelStyle.sign hstyle
      | primary =>
          have hfree : ∀ mark ∈ later.reverse, ¬mark.covers column := by simpa using huncovered
          rw [if_neg (not_any_hides hsorted hstyle hfree)]
          exact congrArg LabelStyle.sign hstyle

end LineMark

/-! ## The row below a line -/

namespace MarkedLine

variable {line : MarkedLine} {lines : List MarkedLine}

/-- A column below a line is drawn as the marks of the line say. -/
theorem getElem?_underline (hsorted : line.marks.Pairwise (LineMark.drawnBefore · ·)) {column : Nat}
    (hroom : column < line.width) (htaken : ∃ mark ∈ line.marks, mark.covers column) :
    line.underline[column]? = some (if line.marks.any (LineMark.hides column) then '-' else '^') := by
  refine Text.getElem?_dropRightWhile ?_ (by split <;> decide)
  rw [List.getElem?_map, List.getElem?_range hroom, Option.map_some,
    LineMark.signAt_of_sorted hsorted htaken]

/-- The row of the signs below a line, with the message beside them if there is only one. -/
def underlineRow (line : MarkedLine) : ReportRow :=
  .underline line.underline <|
    match line.messages with
    | [(mark, text)] => some (mark.style, text)
    | _ => none

/-- Signs below a line stand directly below it. -/
theorem pair_prefix_rows (hsigned : line.underline ≠ []) :
    [.sourceLine line.number line.text, line.underlineRow] <+: line.rows := by
  rw [rows, markRows, if_neg (by simpa using hsigned), underlineRow]
  cases line.messages with
  | nil => exact ⟨[], rfl⟩
  | cons first rest =>
      cases rest with
      | nil => exact ⟨[], rfl⟩
      | cons => exact ⟨_, rfl⟩

theorem rows_infix_rowsBehind (hpresent : line ∈ lines) (previous : Nat) :
    line.rows <:+: rowsBehind previous lines := by
  induction lines generalizing previous with
  | nil => cases hpresent
  | cons first rest ih =>
      rw [rowsBehind]
      rcases List.mem_cons.mp hpresent with rfl | hlater
      · exact ⟨_, _, rfl⟩
      · exact (ih hlater first.number).trans (List.suffix_append _ _).isInfix

theorem rows_infix_excerptRows (hpresent : line ∈ lines) : line.rows <:+: excerptRows lines := by
  cases lines with
  | nil => cases hpresent
  | cons first rest =>
      rw [excerptRows, List.cons_append]
      refine List.IsInfix.trans ?_ (List.suffix_cons _ _).isInfix
      rcases List.mem_cons.mp hpresent with rfl | hlater
      · exact (List.prefix_append _ _).isInfix
      · exact (rows_infix_rowsBehind hlater first.number).trans (List.suffix_append _ _).isInfix

end MarkedLine

/-! ## The texts of these rows -/

namespace ReportRow

/-- Without colors all runs of signs are written alike. -/
theorem paintSigns_plain (signs : List Char) : paintSigns .plain signs = String.ofList signs := by
  have hruns : paintSigns .plain signs = String.join ((signs.splitBy (· == ·)).map String.ofList) := by
    refine congrArg String.join (List.map_congr_left fun run _ => ?_)
    split <;> rfl
  rw [hruns, ← String.toList_inj, String.toList_join, List.flatMap_map]
  simp [List.flatten_splitBy]

/-- The column in which what is behind the bar begins. -/
def textColumn (gutter : Nat) : Nat :=
  gutter + 4

variable {gutter column : Nat}

/-- A line of the source stands behind the bar. -/
theorem getElem?_text_sourceLine {number : Nat} {text : List Char}
    (hfits : (ReportRow.sourceLine number text).Fits gutter) :
    ((ReportRow.sourceLine number text).text .plain gutter).toList[textColumn gutter + column]? = text[column]? := by
  have hroom : (Text.padLeft (gutter + 1) (toString number)).toList.length = gutter + 1 := by
    rw [String.length_toList, Text.length_padLeft (Nat.le_succ_of_le hfits)]
  have hshown : ((ReportRow.sourceLine number text).text .plain gutter).toList =
      (Text.padLeft (gutter + 1) (toString number)).toList ++ (' ' :: '|' :: ' ' :: text) := by
    simp [ReportRow.text, bar]
  rw [hshown, List.getElem?_append_right (by rw [hroom, textColumn]; omega), hroom,
    show textColumn gutter + column - (gutter + 1) = column + 3 by rw [textColumn]; omega]
  rfl

/-- The signs stand behind the bar. -/
theorem getElem?_text_underline {signs : List Char} {message : Option (LabelStyle × String)} {sign : Char}
    (hpresent : signs[column]? = some sign) :
    ((ReportRow.underline signs message).text .plain gutter).toList[textColumn gutter + column]? = some sign := by
  obtain ⟨rest, hshown⟩ : ∃ rest, ((ReportRow.underline signs message).text .plain gutter).toList =
      List.replicate (gutter + 1) ' ' ++ (' ' :: '|' :: ' ' :: (signs ++ rest)) := by
    cases message <;> simp [ReportRow.text, blankStart, bar, paintSigns_plain]
  rw [hshown, List.getElem?_append_right (by rw [List.length_replicate, textColumn]; omega),
    List.length_replicate, show textColumn gutter + column - (gutter + 1) = column + 3 by rw [textColumn]; omega]
  rw [← hpresent, List.getElem?_cons_succ, List.getElem?_cons_succ, List.getElem?_cons_succ,
    List.getElem?_append_left (List.getElem?_eq_some_iff.mp hpresent).1]

end ReportRow

/-! ## The marks of labels -/

namespace LineMap

variable (lines : LineMap) {offset later : Nat}

/-- In one line the columns are in the order of the offsets. -/
theorem column_lt (horder : offset < later) (hsame : (lines.lineCol offset).1 = (lines.lineCol later).1) :
    (lines.lineCol offset).2 < (lines.lineCol later).2 := by
  rcases Prod.Lex.toLex_lt_toLex.mp (lines.strictMono_lineCol horder) with hbefore | ⟨-, hbefore⟩
  · exact absurd hsame hbefore.ne
  · exact hbefore

theorem column_le (horder : offset ≤ later) (hsame : (lines.lineCol offset).1 = (lines.lineCol later).1) :
    (lines.lineCol offset).2 ≤ (lines.lineCol later).2 := by
  rcases horder.lt_or_eq with hbefore | rfl
  · exact (lines.column_lt hbefore hsame).le
  · exact le_rfl

end LineMap

namespace MappedSource

/-- A label covers a column of the line in which it begins: an offset of its span has this place. Of a label that
goes on in other lines only what is in the text of the line counts. -/
structure Covers (mapped : MappedSource) (label : Label) (offset column : Nat) : Prop where
  start : label.span.start ≤ offset
  stop : offset < label.span.stop
  place : mapped.lines.lineCol offset = (mapped.labelLine label, column + 1)
  inLine : (mapped.lines.lineCol label.span.stop).1 = mapped.labelLine label ∨
    column < Text.byteLength (mapped.lineText (mapped.labelLine label))

/-- A label is a secondary one in a line, and its mark takes a column. -/
def hides (mapped : MappedSource) (number column : Nat) (label : Label) : Bool :=
  mapped.labelLine label == number && (mapped.mark label).hides column

variable {mapped : MappedSource} {labels : List Label} {label : Label} {offset column number : Nat}

theorem start_mark (label : Label) :
    (mapped.mark label).start = (mapped.lines.lineCol label.span.start).2 - 1 :=
  rfl

theorem stop_mark (label : Label) : (mapped.mark label).stop =
    max (if (mapped.lines.lineCol label.span.stop).1 = mapped.labelLine label then
        (mapped.lines.lineCol label.span.stop).2 - 1
      else Text.byteLength (mapped.lineText (mapped.labelLine label)))
      (mapped.lines.lineCol label.span.start).2 :=
  rfl

/-- The mark of a label takes every column that the label covers. -/
theorem covers_mark (hcovered : mapped.Covers label offset column) : (mapped.mark label).covers column := by
  have hbegun := mapped.lines.column_le hcovered.start (congrArg Prod.fst hcovered.place).symm
  rw [hcovered.place] at hbegun
  have hlow : (mapped.mark label).start ≤ column := by
    rw [start_mark]
    omega
  have high : column < (mapped.mark label).stop := by
    rw [stop_mark]
    refine Nat.lt_of_lt_of_le ?_ (Nat.le_max_left _ _)
    split
    · next hsingle =>
        have hends := mapped.lines.column_lt hcovered.stop ((congrArg Prod.fst hcovered.place).trans hsingle.symm)
        rw [hcovered.place] at hends
        omega
    · next hgoesOn => exact hcovered.inLine.resolve_left hgoesOn
  exact Bool.and_eq_true_iff.mpr ⟨decide_eq_true hlow, decide_eq_true high⟩

theorem mem_marks_markedLine {mark : LineMark} : mark ∈ (mapped.markedLine labels number).marks ↔
    ∃ label ∈ labels, mapped.labelLine label = number ∧ mapped.mark label = mark := by
  rw [markedLine, List.mem_mergeSort, List.mem_map]
  simp [and_assoc]

theorem pairwise_marks_markedLine :
    (mapped.markedLine labels number).marks.Pairwise (LineMark.drawnBefore · ·) :=
  @List.pairwise_mergeSort _ LineMark.drawnBefore (fun _ _ _ => LineMark.drawnBefore_trans)
    LineMark.drawnBefore_total _

theorem any_hides_markedLine : (mapped.markedLine labels number).marks.any (LineMark.hides column) =
    labels.any (mapped.hides number column) := by
  rw [Bool.eq_iff_iff, List.any_eq_true, List.any_eq_true]
  constructor
  · rintro ⟨mark, hpresent, hidden⟩
    obtain ⟨label, hamong, here, rfl⟩ := mem_marks_markedLine.mp hpresent
    exact ⟨label, hamong, by rw [hides, here, hidden, beq_self_eq_true]; rfl⟩
  · rintro ⟨label, hamong, hidden⟩
    obtain ⟨here, htakes⟩ := Bool.and_eq_true_iff.mp hidden
    exact ⟨_, mem_marks_markedLine.mpr ⟨label, hamong, beq_iff_eq.mp here, rfl⟩, htakes⟩

/-- What is drawn in a column that a label covers. -/
theorem getElem?_underline_markedLine (hpresent : label ∈ labels) (hcovered : mapped.Covers label offset column)
    (hroom : column < (mapped.markedLine labels (mapped.labelLine label)).width) :
    (mapped.markedLine labels (mapped.labelLine label)).underline[column]? =
      some (if labels.any (mapped.hides (mapped.labelLine label) column) then '-' else '^') := by
  have htaken : ∃ mark ∈ (mapped.markedLine labels (mapped.labelLine label)).marks, mark.covers column :=
    ⟨_, mem_marks_markedLine.mpr ⟨label, hpresent, rfl, rfl⟩, covers_mark hcovered⟩
  rw [MarkedLine.getElem?_underline pairwise_marks_markedLine hroom htaken, any_hides_markedLine]

theorem markedLine_mem_markedLines (hpresent : label ∈ labels) :
    mapped.markedLine labels (mapped.labelLine label) ∈ mapped.markedLines labels := by
  obtain ⟨line, hamong, hsame⟩ := (mapped.exists_line_iff labels _).mpr ⟨label, hpresent, rfl⟩
  obtain ⟨number, -, rfl⟩ := List.mem_map.mp hamong
  obtain rfl : number = mapped.labelLine label := hsame
  exact hamong

/-- Where every character takes one byte, the text of a line has the character of an offset in its column. -/
theorem getElem?_lineText {source : List Char} (hascii : ∀ c ∈ source, c.utf8Size = 1)
    (hinside : offset ≤ Text.byteLength source)
    (hplace : (MappedSource.of source).lines.lineCol offset = (number, column + 1))
    (hinText : column < Text.byteLength ((MappedSource.of source).lineText number)) :
    ((MappedSource.of source).lineText number)[column]? = source[offset]? := by
  obtain ⟨before, line, after, hcut, hlow, high⟩ := Text.exists_lineCut source hinside
  obtain ⟨distance, rfl⟩ := Nat.exists_eq_add_of_le hlow
  obtain ⟨rfl, rfl⟩ : before.count '\n' + 1 = number ∧ distance = column := by
    have hfound := (LineMap.lineCol_of_lineCut hcut (Nat.le_of_add_le_add_left high)).symm.trans hplace
    simpa using hfound
  have htext : (MappedSource.of source).lineText (before.count '\n' + 1) = Text.dropRightWhile (· == '\r') line := by
    rw [lineText]
    exact congrArg (Option.getD · []) (LineMap.lineText?_of_lineCut hcut)
  have hsingle : ∀ c ∈ before ++ (line ++ after), c.utf8Size = 1 := hcut.whole ▸ hascii
  have hshorter := Text.dropRightWhile_prefix (· == '\r') line
  have hkept : ∀ c ∈ Text.dropRightWhile (· == '\r') line, c.utf8Size = 1 := fun c hpresent =>
    hsingle c (List.mem_append_right _ (List.mem_append_left _ (hshorter.subset hpresent)))
  rw [htext] at hinText ⊢
  rw [Text.byteLength_eq_length hkept] at hinText
  have hwithin : distance < line.length := Nat.lt_of_lt_of_le hinText hshorter.length_le
  have hahead : Text.byteLength before = before.length :=
    Text.byteLength_eq_length fun c hpresent => hsingle c (List.mem_append_left _ hpresent)
  rw [Text.getElem?_dropRightWhile_of_lt hinText, hcut.whole, hahead,
    List.getElem?_append_right (Nat.le_add_right _ _), Nat.add_sub_cancel_left, List.getElem?_append_left hwithin]

end MappedSource

/-! ## What is printed -/

namespace Diagnostic

variable {mapped : MappedSource} {diagnostic : Diagnostic} {label : Label} {offset column : Nat}

/-- The line in which a label begins, with the marks of all labels that begin there. -/
def lineOf (mapped : MappedSource) (diagnostic : Diagnostic) (label : Label) : MarkedLine :=
  mapped.markedLine diagnostic.labels (mapped.labelLine label)

/-- The printed line in which a label begins. -/
def printedLine (mapped : MappedSource) (diagnostic : Diagnostic) (label : Label) : String :=
  let line := diagnostic.lineOf mapped label
  (ReportRow.sourceLine line.number line.text).text .plain (diagnostic.gutter mapped)

/-- The printed signs below this line. -/
def printedSigns (mapped : MappedSource) (diagnostic : Diagnostic) (label : Label) : String :=
  (diagnostic.lineOf mapped label).underlineRow.text .plain (diagnostic.gutter mapped)

/-- The character of a printed row in a column of the source. -/
def charAt? (mapped : MappedSource) (diagnostic : Diagnostic) (row : String) (column : Nat) : Option Char :=
  row.toList[ReportRow.textColumn (diagnostic.gutter mapped) + column]?

/-- In the row directly below its line every primary label has its own sign in all columns that it covers. -/
def ShowsPrimary (mapped : MappedSource) (diagnostic : Diagnostic) : Prop :=
  ∀ file, ∀ label ∈ diagnostic.labels, label.style = .primary →
    ∀ offset column, mapped.Covers label offset column →
      [diagnostic.printedLine mapped label, diagnostic.printedSigns mapped label] <:+:
          diagnostic.bodyRows .plain file mapped ∧
        diagnostic.charAt? mapped (diagnostic.printedSigns mapped label) column = some '^'

theorem rows_lineOf_infix_rows (hpresent : label ∈ diagnostic.labels) :
    (diagnostic.lineOf mapped label).rows <:+: diagnostic.rows mapped := by
  refine (MarkedLine.rows_infix_excerptRows (mapped.markedLine_mem_markedLines hpresent)).trans ?_
  rw [rows, List.append_assoc]
  exact (List.prefix_append _ _).isInfix

theorem charAt?_printedSigns (hpresent : label ∈ diagnostic.labels) (hcovered : mapped.Covers label offset column)
    (hroom : column < (diagnostic.lineOf mapped label).width) :
    diagnostic.charAt? mapped (diagnostic.printedSigns mapped label) column =
      some (if diagnostic.labels.any (mapped.hides (mapped.labelLine label) column) then '-' else '^') :=
  ReportRow.getElem?_text_underline (MappedSource.getElem?_underline_markedLine hpresent hcovered hroom)

theorem charAt?_printedLine (hpresent : label ∈ diagnostic.labels) :
    diagnostic.charAt? mapped (diagnostic.printedLine mapped label) column =
      (mapped.lineText (mapped.labelLine label))[column]? := by
  have hprinted : (diagnostic.lineOf mapped label).rows <:+: diagnostic.rows mapped := rows_lineOf_infix_rows hpresent
  exact ReportRow.getElem?_text_sourceLine (fits_gutter (hprinted.subset List.mem_cons_self))

/-- Where there are signs below a line, they are printed directly below it. -/
theorem printed_infix_bodyRows (file : String) (hpresent : label ∈ diagnostic.labels)
    (hsigned : (diagnostic.lineOf mapped label).underline ≠ []) :
    [diagnostic.printedLine mapped label, diagnostic.printedSigns mapped label] <:+:
      diagnostic.bodyRows .plain file mapped := by
  obtain ⟨place, hbody⟩ := exists_bodyRows_eq .plain file mapped (List.ne_nil_of_mem hpresent)
  have hpair := (MarkedLine.pair_prefix_rows hsigned).isInfix.trans (rows_lineOf_infix_rows hpresent)
  rw [hbody]
  exact (hpair.map (·.text .plain (diagnostic.gutter mapped))).trans (List.suffix_cons _ _).isInfix

/-- Directly below the line in which a label begins, each column that the label covers has a sign, unless it is
far behind the text of the line. It is the one of primary labels exactly if no secondary label that begins in the
line marks the column. Where every character takes one byte, the sign stands below the character it is about. -/
theorem sign_below_covered {source : List Char} (file : String) (hascii : ∀ c ∈ source, c.utf8Size = 1)
    (hpresent : label ∈ diagnostic.labels) (hinside : label.span.stop ≤ Text.byteLength source)
    (hcovered : (MappedSource.of source).Covers label offset column)
    (hroom : column < (diagnostic.lineOf (.of source) label).width) :
    [diagnostic.printedLine (.of source) label, diagnostic.printedSigns (.of source) label] <:+:
        diagnostic.bodyRows .plain file (.of source) ∧
      (column < Text.byteLength (diagnostic.lineOf (.of source) label).text →
        diagnostic.charAt? (.of source) (diagnostic.printedLine (.of source) label) column = source[offset]?) ∧
      diagnostic.charAt? (.of source) (diagnostic.printedSigns (.of source) label) column =
        some (if diagnostic.labels.any
          ((MappedSource.of source).hides ((MappedSource.of source).labelLine label) column) then '-' else '^') := by
  have hdrawn := MappedSource.getElem?_underline_markedLine hpresent hcovered hroom
  have hsigned : (diagnostic.lineOf (.of source) label).underline ≠ [] :=
    List.ne_nil_of_mem (List.mem_of_getElem? hdrawn)
  refine ⟨printed_infix_bodyRows file hpresent hsigned, fun hinText => ?_,
    charAt?_printedSigns hpresent hcovered hroom⟩
  rw [charAt?_printedLine hpresent]
  exact MappedSource.getElem?_lineText hascii (hcovered.stop.le.trans hinside) hcovered.place hinText

/-- A call with its own argument. -/
def callSource : List Char :=
  ['f', '(', 'x', ')']

/-- A finding with a primary and a secondary label. -/
def nestedFinding (primary secondary : Span) : Diagnostic :=
  ⟨.error, none, "guarded method called", [.primary primary "here", .secondary secondary "related"], [], none⟩

private theorem ascii_callSource : ∀ c ∈ callSource, c.utf8Size = 1 := by
  intro c hpresent
  rw [callSource, List.mem_cons, List.mem_cons, List.mem_cons, List.mem_singleton] at hpresent
  rcases hpresent with rfl | rfl | rfl | rfl <;> rfl

private theorem place_callSource {offset : Nat} (hinside : offset ≤ 4) :
    (MappedSource.of callSource).lines.lineCol offset = (1, offset + 1) := by
  have hcut : Text.LineCut callSource [] callSource [] := ⟨rfl, .inl rfl, by decide, .inl rfl⟩
  have hplace := LineMap.lineCol_of_lineCut hcut hinside
  rwa [Text.byteLength, Nat.zero_add] at hplace

private theorem covers_callSource {label : Label} {column : Nat} (hstart : label.span.start ≤ column)
    (hstop : column < label.span.stop) (hinside : label.span.stop ≤ 4) :
    (MappedSource.of callSource).Covers label column column := by
  have hline : (MappedSource.of callSource).labelLine label = 1 := by
    rw [MappedSource.labelLine, place_callSource (by omega)]
  refine ⟨hstart, hstop, ?_, .inl ?_⟩
  · rw [hline, place_callSource (by omega)]
  · rw [hline, place_callSource hinside]

/-- In the call a secondary label on the argument hides the primary sign below it, but not the one below `f`. -/
theorem sign_below_covered_call :
    let label := Label.primary ⟨0, 4⟩ "here"
    let finding := nestedFinding ⟨0, 4⟩ ⟨2, 3⟩
    let mapped := MappedSource.of callSource
    (∀ c ∈ callSource, c.utf8Size = 1) ∧ label ∈ finding.labels ∧
      label.span.stop ≤ Text.byteLength callSource ∧ mapped.Covers label 0 0 ∧ mapped.Covers label 2 2 ∧
      2 < (finding.lineOf mapped label).width ∧
      finding.charAt? mapped (finding.printedLine mapped label) 2 = some 'x' ∧
      finding.charAt? mapped (finding.printedSigns mapped label) 0 = some '^' ∧
      finding.charAt? mapped (finding.printedSigns mapped label) 2 = some '-' := by
  intro label finding mapped
  have hpresent : label ∈ finding.labels := List.mem_cons_self
  have hinside : label.span.stop ≤ Text.byteLength callSource := by decide
  have hfirst : mapped.Covers label 0 0 := covers_callSource (by decide) (by decide) (by decide)
  have hargument : mapped.Covers label 2 2 := covers_callSource (by decide) (by decide) (by decide)
  have hroom : 2 < (finding.lineOf mapped label).width := by decide +kernel
  have hinText : 2 < Text.byteLength (finding.lineOf mapped label).text := by decide +kernel
  obtain ⟨-, -, hshown⟩ := sign_below_covered "" ascii_callSource hpresent hinside hfirst (Nat.zero_lt_of_lt hroom)
  obtain ⟨-, habove, hidden⟩ := sign_below_covered "" ascii_callSource hpresent hinside hargument hroom
  refine ⟨ascii_callSource, hpresent, hinside, hfirst, hargument, hroom, habove hinText, hshown.trans ?_, hidden.trans ?_⟩
  · decide +kernel
  · decide +kernel

/-- A primary label on the argument has no sign of its own if a secondary one is on the whole call. -/
theorem not_showsPrimary_nested :
    (∀ c ∈ callSource, c.utf8Size = 1) ∧
      (∀ label ∈ (nestedFinding ⟨2, 3⟩ ⟨0, 4⟩).labels, label.span.start ≤ label.span.stop ∧
        label.span.stop ≤ Text.byteLength callSource) ∧
      ¬(nestedFinding ⟨2, 3⟩ ⟨0, 4⟩).ShowsPrimary (.of callSource) := by
  refine ⟨ascii_callSource, by decide, fun hvisible => ?_⟩
  have hpresent : Label.primary ⟨2, 3⟩ "here" ∈ (nestedFinding ⟨2, 3⟩ ⟨0, 4⟩).labels := List.mem_cons_self
  have hcovered : (MappedSource.of callSource).Covers (.primary ⟨2, 3⟩ "here") 2 2 :=
    covers_callSource (by decide) (by decide) (by decide)
  obtain ⟨-, hshown⟩ := hvisible "" _ hpresent rfl 2 2 hcovered
  rw [charAt?_printedSigns hpresent hcovered (by decide +kernel)] at hshown
  revert hshown
  decide +kernel

end Diagnostic
end LockDiscipline
