import LockDiscipline.Report.Terminal
import LockDiscipline.Proofs.Source.LineMap
import Mathlib.Algebra.Group.Nat.Defs
import Mathlib.Data.List.Sort
/-!
# The signs between the line numbers and the source

Every row of a report below its place, except the one that stands for left-out lines, has a sign behind the line
numbers: a bar, or an equals sign before notes and advice. The rows of the excerpt leave room for the greatest
line number, and so their bars stand in one column. The rows of notes and advice always leave room for two
digits. So their signs stand below the bars exactly if every label begins in one of the first 99 lines.

Texts are those without color, in which a row has as many characters as columns.
-/

namespace LockDiscipline

/-- The palette that leaves every text as it is. -/
def Palette.plain : Palette := ⟨false⟩

@[simp] theorem Palette.paint_plain (style : TextStyle) (text : String) : plain.paint style text = text :=
  rfl

namespace Text

/-- The first column of a text in which a sign stands. -/
def column? (sign : Char) (text : String) : Option Nat :=
  text.toList.idxOf? sign

theorem column?_of_lead {sign : Char} {text : String} {lead rest : List Char} (hclear : sign ∉ lead)
    (hshown : text.toList = lead ++ sign :: rest) : column? sign text = some lead.length := by
  rw [column?, hshown, List.idxOf?_eq_some_iff]
  refine ⟨by simp, by simp, fun column hbefore => ?_⟩
  rw [List.getElem_append_left hbefore]
  exact fun hsame => hclear (hsame ▸ List.getElem_mem hbefore)

@[simp] theorem toList_blank (count : Nat) : (blank count).toList = List.replicate count ' ' :=
  String.toList_ofList

theorem length_padLeft {width : Nat} {text : String} (hfits : text.length ≤ width) :
    (padLeft width text).length = width := by
  rw [padLeft, String.length_append, ← String.length_toList, toList_blank, List.length_replicate]
  omega

end Text

/-! ## One row -/

namespace ReportRow

/-- The sign behind the line numbers. A row that stands for left-out lines has none. -/
def sign? : ReportRow → Option Char
  | .gap => none
  | .remark .. => some '='
  | _ => some '|'

/-- The column of the sign where the line numbers have a width. Notes and advice do not go by it. -/
def signColumn (gutter : Nat) : ReportRow → Nat
  | .remark .. => remarkGutter + 2
  | _ => gutter + 2

/-- The line number of a row has no more digits than there is room for. -/
def Fits (gutter : Nat) : ReportRow → Prop
  | .sourceLine number _ => (toString number).length ≤ gutter
  | _ => True

/-- What stands before the sign of a row. -/
def lead (gutter : Nat) : ReportRow → List Char
  | .sourceLine number _ => (Text.padLeft (gutter + 1) (toString number)).toList ++ [' ']
  | row => List.replicate (row.signColumn gutter) ' '

variable {row : ReportRow} {sign : Char} {gutter : Nat}

theorem exists_toList_text (hsigned : row.sign? = some sign) :
    ∃ rest, (row.text .plain gutter).toList = row.lead gutter ++ sign :: rest := by
  cases row with
  | gap => cases hsigned
  | underline signs message =>
      obtain rfl := Option.some.inj hsigned
      cases message <;> simp [ReportRow.text, blankStart, bar, lead, signColumn, List.replicate_succ']
  | _ =>
      obtain rfl := Option.some.inj hsigned
      simp [ReportRow.text, blankStart, bar, lead, signColumn, List.replicate_succ']

theorem length_lead (hfits : row.Fits gutter) : (row.lead gutter).length = row.signColumn gutter := by
  cases row with
  | sourceLine number text =>
      rw [lead, List.length_append, String.length_toList, Text.length_padLeft (Nat.le_succ_of_le hfits)]
      rfl
  | _ => exact List.length_replicate

theorem isDigit_of_mem_toString {number : Nat} {c : Char} (hdigit : c ∈ (toString number).toList) :
    c.isDigit := by
  rw [Nat.toString_eq_ofList_toDigits, String.toList_ofList] at hdigit
  exact Nat.isDigit_of_mem_toDigits (by decide) (by decide) hdigit

/-- Before the sign are blanks and digits only. -/
theorem sign_not_mem_lead (hsigned : row.sign? = some sign) : sign ∉ row.lead gutter := by
  have hother : sign ≠ ' ' ∧ ¬sign.isDigit := by
    cases row with
    | gap => cases hsigned
    | _ =>
        obtain rfl := Option.some.inj hsigned
        exact ⟨by decide, by decide⟩
  intro hpresent
  cases row with
  | sourceLine number text =>
      simp only [lead, Text.padLeft, String.toList_append, Text.toList_blank, List.mem_append,
        List.mem_replicate, List.mem_singleton, or_assoc] at hpresent
      rcases hpresent with ⟨-, hblank⟩ | hdigit | hblank
      · exact hother.1 hblank
      · exact hother.2 (isDigit_of_mem_toString hdigit)
      · exact hother.1 hblank
  | _ => exact hother.1 (List.eq_of_mem_replicate hpresent)

theorem column?_sign (hsigned : row.sign? = some sign) (hfits : row.Fits gutter) :
    Text.column? sign (row.text .plain gutter) = some (row.signColumn gutter) := by
  obtain ⟨rest, hshown⟩ : ∃ rest, (row.text .plain gutter).toList = row.lead gutter ++ sign :: rest :=
    exists_toList_text hsigned
  rw [Text.column?_of_lead (sign_not_mem_lead hsigned) hshown, length_lead hfits]

/-- The column of the sign depends on the width of the line numbers and on whether the row is a remark. -/
theorem signColumn_eq (hsigned : row.sign? = some sign) :
    row.signColumn gutter = if sign = '=' then remarkGutter + 2 else gutter + 2 := by
  cases row with
  | gap => cases hsigned
  | _ =>
      obtain rfl := Option.some.inj hsigned
      rfl

end ReportRow

/-! ## The width of the line numbers -/

theorem length_toString_le_iff {number digits : Nat} (hpositive : 0 < digits) :
    (toString number).length ≤ digits ↔ number < 10 ^ digits := by
  rw [Nat.toString_eq_ofList_toDigits, String.length_ofList]
  exact Nat.length_toDigits_le_iff (by decide) hpositive

theorem length_toString_mono {number later : Nat} (horder : number ≤ later) :
    (toString number).length ≤ (toString later).length := by
  have hpositive : 0 < (toString later).length := by
    rw [Nat.toString_eq_ofList_toDigits, String.length_ofList]
    exact Nat.length_toDigits_pos
  exact (length_toString_le_iff hpositive).mpr
    (horder.trans_lt ((length_toString_le_iff hpositive).mp le_rfl))

theorem eraseDups_sublist (numbers : List Nat) : numbers.eraseDups.Sublist numbers := by
  induction hsize : numbers.length using Nat.strongRecOn generalizing numbers with
  | _ size ih =>
      subst hsize
      cases numbers with
      | nil => exact .refl _
      | cons first rest =>
          have hkept : (rest.filter fun number => !number == first).Sublist rest := List.filter_sublist
          rw [List.eraseDups_cons]
          exact ((ih _ (Nat.lt_succ_of_le hkept.length_le) _ rfl).trans hkept).cons_cons first

namespace MappedSource

variable (mapped : MappedSource) (labels : List Label)

theorem map_number_markedLines : (mapped.markedLines labels).map (·.number) =
    ((labels.map mapped.labelLine).mergeSort (· ≤ ·)).eraseDups := by
  simp [markedLines, markedLine, Function.comp_def]

/-- The lines of an excerpt are those in which labels begin. -/
theorem exists_line_iff (number : Nat) : (∃ line ∈ mapped.markedLines labels, line.number = number) ↔
    ∃ label ∈ labels, mapped.labelLine label = number := by
  rw [← List.mem_map, map_number_markedLines, List.mem_eraseDups, List.mem_mergeSort, List.mem_map]

/-- The last line of an excerpt has the greatest number. -/
theorem number_le_of_getLast? {line last : MarkedLine} (hpresent : line ∈ mapped.markedLines labels)
    (hends : (mapped.markedLines labels).getLast? = some last) : line.number ≤ last.number := by
  have hsorted : ((mapped.markedLines labels).map (·.number)).Pairwise (· ≤ ·) := by
    rw [map_number_markedLines]
    refine List.Pairwise.sublist (eraseDups_sublist _) ?_
    simpa using List.pairwise_mergeSort' (· ≤ ·) (labels.map mapped.labelLine)
  obtain ⟨before, hwhole⟩ := List.getLast?_eq_some_iff.mp hends
  rw [hwhole, List.map_append, List.pairwise_append] at hsorted
  rw [hwhole] at hpresent
  rcases List.mem_append.mp hpresent with hearly | hlate
  · exact hsorted.2.2 _ (List.mem_map_of_mem hearly) _ (List.mem_map_of_mem (List.mem_singleton_self last))
  · exact (List.mem_singleton.mp hlate ▸ le_rfl)

end MappedSource

/-! ## The rows of an excerpt -/

/-- A row below a line of the source that marks parts of it. -/
def ReportRow.IsMark : ReportRow → Prop
  | .underline .. | .message .. => True
  | _ => False

namespace MarkedLine

variable {lines : List MarkedLine} {line : MarkedLine} {row : ReportRow}

theorem eq_or_isMark_of_mem_rows (hpresent : row ∈ line.rows) :
    row = .sourceLine line.number line.text ∨ row.IsMark := by
  refine (List.mem_cons.mp hpresent).imp_right fun hbelow => ?_
  rw [markRows] at hbelow
  split at hbelow
  · cases hbelow
  · split at hbelow
    · exact List.mem_singleton.mp hbelow ▸ trivial
    · exact List.mem_singleton.mp hbelow ▸ trivial
    · rcases List.mem_cons.mp hbelow with rfl | hmessage
      · trivial
      · obtain ⟨_, _, rfl⟩ := List.mem_map.mp hmessage
        trivial

theorem cases_of_mem_rowsBehind {previous : Nat} (hpresent : row ∈ rowsBehind previous lines) :
    row = .gap ∨ ∃ line ∈ lines, row ∈ line.rows := by
  induction lines generalizing previous with
  | nil => cases hpresent
  | cons first rest ih =>
      rw [rowsBehind, List.mem_append, List.mem_append] at hpresent
      rcases hpresent with (hleft | here) | hlater
      · split at hleft
        · exact .inl (List.mem_singleton.mp hleft)
        · cases hleft
      · exact .inr ⟨first, List.mem_cons_self, here⟩
      · exact (ih hlater).imp_right fun ⟨line, hamong, hinside⟩ => ⟨line, List.mem_cons_of_mem _ hamong, hinside⟩

/-- The rows of an excerpt are those of its lines and those between them. -/
theorem cases_of_mem_excerptRows (hpresent : row ∈ excerptRows lines) :
    row = .separator ∨ row = .gap ∨ ∃ line ∈ lines, row ∈ line.rows := by
  cases lines with
  | nil => cases hpresent
  | cons first rest =>
      rw [excerptRows, List.cons_append, List.mem_cons] at hpresent
      refine hpresent.imp_right fun hinside => ?_
      -- Apart from the separator, these are the rows behind a line that leaves no gap.
      have hbehind : row ∈ rowsBehind first.number (first :: rest) := by
        rw [rowsBehind, List.append_assoc]
        exact List.mem_append_right _ hinside
      exact cases_of_mem_rowsBehind hbehind

theorem separator_mem_excerptRows (hshown : lines ≠ []) : .separator ∈ excerptRows lines := by
  cases lines with
  | nil => exact absurd rfl hshown
  | cons => exact List.mem_cons_self

end MarkedLine

/-! ## All rows of a report -/

namespace Diagnostic

/-- The width of the line numbers in the report of a diagnostic. -/
def gutter (mapped : MappedSource) (diagnostic : Diagnostic) : Nat :=
  MarkedLine.gutter (mapped.markedLines diagnostic.labels)

/-- The signs of all rows are in one column. -/
def SignsLineUp (mapped : MappedSource) (diagnostic : Diagnostic) : Prop :=
  ∃ column, ∀ row ∈ diagnostic.rows mapped, ∀ sign ∈ row.sign?,
    Text.column? sign (row.text .plain (diagnostic.gutter mapped)) = some column

variable {mapped : MappedSource} {diagnostic : Diagnostic} {row : ReportRow}

/-- The rows of a report are those of the excerpt, a separator and the remarks. -/
theorem cases_of_mem_rows (hpresent : row ∈ diagnostic.rows mapped) :
    row = .separator ∨ row = .gap ∨ (∃ line ∈ mapped.markedLines diagnostic.labels,
      row = .sourceLine line.number line.text) ∨ row.IsMark ∨ row ∈ diagnostic.remarks := by
  rw [rows, List.mem_append, List.mem_append] at hpresent
  rcases hpresent with (hinside | hseparator) | hremark
  · rcases MarkedLine.cases_of_mem_excerptRows hinside with hsame | hsame | ⟨line, hamong, here⟩
    · exact .inl hsame
    · exact .inr (.inl hsame)
    · rcases MarkedLine.eq_or_isMark_of_mem_rows here with hsame | hmark
      · exact .inr (.inr (.inl ⟨line, hamong, hsame⟩))
      · exact .inr (.inr (.inr (.inl hmark)))
  · split at hseparator
    · cases hseparator
    · exact .inl (List.mem_singleton.mp hseparator)
  · exact .inr (.inr (.inr (.inr hremark)))

theorem exists_eq_of_mem_remarks (hpresent : row ∈ diagnostic.remarks) :
    ∃ word text, row = .remark word text := by
  rw [remarks, List.mem_append] at hpresent
  rcases hpresent with hnote | help
  · obtain ⟨text, -, rfl⟩ := List.mem_map.mp hnote
    exact ⟨_, _, rfl⟩
  · obtain ⟨text, -, rfl⟩ := Option.map_eq_some_iff.mp (Option.mem_toList.mp help)
    exact ⟨_, _, rfl⟩

theorem getLast?_markedLines (mapped : MappedSource) (hlabeled : diagnostic.labels ≠ []) :
    ∃ last, (mapped.markedLines diagnostic.labels).getLast? = some last := by
  obtain ⟨label, rest, hlabels⟩ := List.exists_cons_of_ne_nil hlabeled
  obtain ⟨line, hpresent, -⟩ := (mapped.exists_line_iff diagnostic.labels _).mpr
    ⟨label, hlabels ▸ List.mem_cons_self, rfl⟩
  exact ⟨_, List.getLast?_eq_some_getLast (List.ne_nil_of_mem hpresent)⟩

theorem gutter_eq {last : MarkedLine}
    (hends : (mapped.markedLines diagnostic.labels).getLast? = some last) :
    diagnostic.gutter mapped = max 2 (toString last.number).length := by
  rw [gutter, MarkedLine.gutter, hends]
  rfl

/-- There is room for the line number of every row. -/
theorem fits_gutter (hpresent : row ∈ diagnostic.rows mapped) : row.Fits (diagnostic.gutter mapped) := by
  rcases cases_of_mem_rows hpresent with rfl | rfl | ⟨line, hamong, rfl⟩ | hmark | hremark
  · trivial
  · trivial
  · have hends := List.getLast?_eq_some_getLast (List.ne_nil_of_mem hamong)
    have hleast := length_toString_mono (mapped.number_le_of_getLast? _ hamong hends)
    rw [gutter_eq hends]
    exact hleast.trans (le_max_right _ _)
  · cases row with
    | underline | message => trivial
    | _ => exact hmark.elim
  · obtain ⟨word, text, rfl⟩ := exists_eq_of_mem_remarks hremark
    trivial

/-- Two digits are room enough as long as all labels begin in the first 99 lines. -/
theorem gutter_eq_two_iff (hlabeled : diagnostic.labels ≠ []) : diagnostic.gutter mapped = 2 ↔
    ∀ label ∈ diagnostic.labels, mapped.labelLine label ≤ 99 := by
  obtain ⟨last, hends⟩ := getLast?_markedLines mapped hlabeled
  have htwo : diagnostic.gutter mapped = 2 ↔ last.number < 10 ^ 2 := by
    rw [gutter_eq hends, ← length_toString_le_iff (by decide)]
    exact sup_eq_left
  rw [htwo]
  constructor
  · intro hfew label hpresent
    obtain ⟨line, hamong, hsame⟩ := (mapped.exists_line_iff diagnostic.labels _).mpr ⟨label, hpresent, rfl⟩
    have hleast := mapped.number_le_of_getLast? _ hamong hends
    omega
  · intro hfew
    obtain ⟨label, hpresent, hsame⟩ := (mapped.exists_line_iff diagnostic.labels _).mp
      ⟨last, List.mem_of_getLast? hends, rfl⟩
    have hbound := hfew label hpresent
    omega

theorem column?_sign_of_mem_rows (hpresent : row ∈ diagnostic.rows mapped) {sign : Char}
    (hsigned : row.sign? = some sign) :
    Text.column? sign (row.text .plain (diagnostic.gutter mapped)) =
      some (if sign = '=' then ReportRow.remarkGutter + 2 else diagnostic.gutter mapped + 2) := by
  rw [ReportRow.column?_sign hsigned (fits_gutter hpresent), ReportRow.signColumn_eq hsigned]

/-- Only remarks have an equals sign. -/
theorem remarks_ne_nil_of_sign? (hpresent : row ∈ diagnostic.rows mapped) (hsigned : row.sign? = some '=') :
    diagnostic.remarks ≠ [] := by
  rcases cases_of_mem_rows hpresent with rfl | rfl | ⟨line, -, rfl⟩ | hmark | hremark
  · cases hsigned
  · cases hsigned
  · cases hsigned
  · cases row with
    | underline | message => cases hsigned
    | _ => exact hmark.elim
  · exact List.ne_nil_of_mem hremark

theorem separator_mem_rows (mapped : MappedSource) (hlabeled : diagnostic.labels ≠ []) :
    .separator ∈ diagnostic.rows mapped := by
  obtain ⟨last, hends⟩ := getLast?_markedLines mapped hlabeled
  exact List.mem_append_left _ (List.mem_append_left _ (MarkedLine.separator_mem_excerptRows
    (List.ne_nil_of_mem (List.mem_of_getLast? hends))))

theorem signsLineUp_iff (hlabeled : diagnostic.labels ≠ []) : diagnostic.SignsLineUp mapped ↔
    diagnostic.remarks = [] ∨ ∀ label ∈ diagnostic.labels, mapped.labelLine label ≤ 99 := by
  rw [← gutter_eq_two_iff hlabeled]
  constructor
  · rintro ⟨column, hsame⟩
    refine or_iff_not_imp_left.mpr fun hremarked => ?_
    obtain ⟨remark, rest, hremarks⟩ := List.exists_cons_of_ne_nil hremarked
    have hlast : remark ∈ diagnostic.remarks := hremarks ▸ List.mem_cons_self
    obtain ⟨word, text, rfl⟩ := exists_eq_of_mem_remarks hlast
    have hbelow : .remark word text ∈ diagnostic.rows mapped := List.mem_append_right _ hlast
    have habove := separator_mem_rows mapped hlabeled
    have hcolumns := (hsame _ habove '|' rfl).trans (hsame _ hbelow '=' rfl).symm
    rw [column?_sign_of_mem_rows habove rfl, column?_sign_of_mem_rows hbelow rfl] at hcolumns
    exact Nat.add_right_cancel (Option.some.inj hcolumns)
  · intro hroom
    refine ⟨diagnostic.gutter mapped + 2, fun row hpresent sign hsigned => ?_⟩
    rw [column?_sign_of_mem_rows hpresent hsigned]
    split
    · next hequals =>
        subst hequals
        rw [hroom.resolve_left (remarks_ne_nil_of_sign? hpresent hsigned)]
        rfl
    · rfl

theorem exists_bodyRows_eq (palette : Palette) (file : String) (mapped : MappedSource)
    (hlabeled : diagnostic.labels ≠ []) :
    ∃ place, diagnostic.bodyRows palette file mapped =
      place :: (diagnostic.rows mapped).map (·.text palette (diagnostic.gutter mapped)) := by
  have hplaced : diagnostic.primarySpan?.isSome := by
    obtain ⟨label, rest, hlabels⟩ := List.exists_cons_of_ne_nil hlabeled
    simp [primarySpan?, hlabels]
  obtain ⟨span, here⟩ := Option.isSome_iff_exists.mp hplaced
  exact ⟨_, by rw [bodyRows, here]; rfl⟩

/-- Behind the place, the report of a diagnostic with a label consists of its rows. The bars of all of them are in
one column, which the width of the greatest line number decides, and the equals signs are in another one, which
is always the same. These are one column exactly if there is no remark or if no label begins behind line 99. -/
theorem rows_align (file : String) (hlabeled : diagnostic.labels ≠ []) :
    (∃ place, diagnostic.bodyRows .plain file mapped =
      place :: (diagnostic.rows mapped).map (·.text .plain (diagnostic.gutter mapped))) ∧
    (∀ row ∈ diagnostic.rows mapped, ∀ sign ∈ row.sign?,
      Text.column? sign (row.text .plain (diagnostic.gutter mapped)) =
        some (if sign = '=' then ReportRow.remarkGutter + 2 else diagnostic.gutter mapped + 2)) ∧
    (diagnostic.SignsLineUp mapped ↔
      diagnostic.remarks = [] ∨ ∀ label ∈ diagnostic.labels, mapped.labelLine label ≤ 99) :=
  ⟨exists_bodyRows_eq .plain file mapped hlabeled, fun _ hpresent _ hsigned => column?_sign_of_mem_rows hpresent hsigned,
    signsLineUp_iff hlabeled⟩

/-- A source with a character behind some empty lines. -/
def sourceBehind (lines : Nat) : MappedSource :=
  .of (List.replicate lines '\n' ++ ['x'])

/-- A finding at this character, with a note. -/
def findingBehind (lines : Nat) : Diagnostic :=
  ⟨.error, none, "unexpected token", [.primary ⟨lines, lines + 1⟩ "here"], ["behind empty lines"], none⟩

private theorem labelLine_behind (lines : Nat) :
    (sourceBehind lines).labelLine (.primary ⟨lines, lines + 1⟩ "here") = lines + 1 := by
  have hempty : Text.byteLength (List.replicate lines '\n') = lines := by
    induction lines with
    | zero => rfl
    | succ lines ih => rw [List.replicate_succ, Text.byteLength, ih, Nat.add_comm]; rfl
  have hcut : Text.LineCut (List.replicate lines '\n' ++ ['x']) (List.replicate lines '\n') ['x'] [] :=
    { whole := rfl
      opens := by
        cases lines with
        | zero => exact .inl rfl
        | succ lines => exact .inr ⟨_, List.replicate_succ'⟩
      unbroken := by decide
      closes := .inl rfl }
  have hplace := LineMap.lineCol_of_lineCut hcut (Nat.zero_le _)
  rw [hempty, List.count_replicate_self] at hplace
  exact congrArg Prod.fst hplace

theorem rows_align_behind :
    (findingBehind 98).labels ≠ [] ∧ (findingBehind 98).SignsLineUp (sourceBehind 98) := by
  have hlabeled : (findingBehind 98).labels ≠ [] := List.cons_ne_nil _ _
  refine ⟨hlabeled, (rows_align "" hlabeled).2.2.mpr (.inr fun label hpresent => ?_)⟩
  obtain rfl := List.mem_singleton.mp hpresent
  exact (labelLine_behind 98).le

/-- From line 100 on the signs before notes and advice are in another column than the bars. -/
theorem not_signsLineUp_behind :
    (findingBehind 99).labels ≠ [] ∧ ¬(findingBehind 99).SignsLineUp (sourceBehind 99) := by
  have hlabeled : (findingBehind 99).labels ≠ [] := List.cons_ne_nil _ _
  refine ⟨hlabeled, fun haligned => ?_⟩
  rcases (signsLineUp_iff hlabeled).mp haligned with hnone | hfew
  · cases hnone
  · have hbound := hfew _ (List.mem_singleton_self _)
    rw [labelLine_behind] at hbound
    omega

end Diagnostic
end LockDiscipline
