import LockDiscipline.Proofs.Grammar.DeclarationProgress
import LockDiscipline.Proofs.Grammar.Heads
import LockDiscipline.Proofs.Text.Dotted
/-!
# The texts of types

A type is kept as its text, and the class that it refers to is looked up by a name that is recovered from
there. This name is meant to be the text without type arguments, wherever in the chain of names they stand.
It is the part of the text before the first type arguments, so that the names behind these are lost. The
name is the one that is meant exactly where type arguments stand only behind the last name, unless that is
the name of a primitive type and should have none.

What holds of every text that is read as a type is told by the grammar of these texts.
-/

namespace LockDiscipline

namespace TypeName

/-! ### The grammar of the texts -/

/-- Pairs of square brackets. -/
def brackets : Nat → String
  | 0 => ""
  | count + 1 => brackets count ++ "[]"

/-- The text of a type: names with dots between them, each with the text of its type arguments, and pairs of
brackets. -/
def render (parts : List (String × String)) (dims : Nat) : String :=
  Text.join "." (parts.map fun part => part.1 ++ part.2) ++ brackets dims

/-- The texts that the grammar of types tells apart. -/
inductive Form
  | type
  | args
  | arg

/-- A text has a form: it is a type, the type arguments behind a name, or one of these. -/
inductive Written : Form → String → Prop
  | type (parts : List (String × String)) (dims : Nat) (hne : parts ≠ [])
      (hisWord : ∀ part ∈ parts, Lexer.IsWord part.1.toList) (hisArgs : ∀ part ∈ parts, Written .args part.2) :
      Written .type (render parts dims)
  | noArgs : Written .args ""
  | args (args : List String) (hisArg : ∀ arg ∈ args, Written .arg arg) :
      Written .args ("<" ++ Text.join "," args ++ ">")
  | wildcard : Written .arg "?"
  | exact {text : String} (hisType : Written .type text) : Written .arg text
  | upper {text : String} (hisType : Written .type text) : Written .arg ("? extends " ++ text)
  | lower {text : String} (hisType : Written .type text) : Written .arg ("? super " ++ text)

/-- The parts of a type: names, each with the text of its type arguments. -/
structure AreParts (parts : List (String × String)) : Prop where
  ne_nil : parts ≠ []
  isWord : ∀ part ∈ parts, Lexer.IsWord part.1.toList
  isArgs : ∀ part ∈ parts, Written .args part.2

/-! ### Names without type arguments -/

/-- The characters outside of angle brackets, of which some are open already. -/
def outsideArgs : Nat → List Char → List Char
  | _, [] => []
  | depth, c :: rest =>
      if c = '<' then outsideArgs (depth + 1) rest
      else if c = '>' then outsideArgs (depth - 1) rest
      else if depth = 0 then c :: outsideArgs depth rest
      else outsideArgs depth rest

/-- The class that a type is meant to refer to: its names without their type arguments, unless the type is
an array or a bare primitive name. -/
def erased? (type : String) : Option String :=
  if isArray type.toList || primitives.contains type then none
  else some (String.ofList (outsideArgs 0 type.toList))

/-- The names of a type up to the first with type arguments. -/
def namesToArgs : List (String × String) → List String
  | [] => []
  | (name, args) :: rest => name :: if args = "" then namesToArgs rest else []

/-- A text has no angle brackets. -/
def Unbracketed (text : List Char) : Prop :=
  ∀ c ∈ text, c ≠ '<' ∧ c ≠ '>'

-- Among the instances for characters there is one that goes through all of them.
instance (text : List Char) : Decidable (Unbracketed text) :=
  List.decidableBAll (fun c => c ≠ '<' ∧ c ≠ '>') text

theorem unbracketed_of_isWord {text : List Char} (h : Lexer.IsWord text) : Unbracketed text := by
  intro c hc
  have hpart := h.isWordPart c hc
  constructor <;>
  · rintro rfl
    exact absurd hpart (by decide)

theorem outsideArgs_zero_append {piece : List Char} (h : Unbracketed piece) (rest : List Char) :
    outsideArgs 0 (piece ++ rest) = piece ++ outsideArgs 0 rest := by
  induction piece with
  | nil => rfl
  | cons c piece ih =>
      obtain ⟨⟨hopen, hclose⟩, hpiece⟩ := List.forall_mem_cons.mp h
      rw [List.cons_append, outsideArgs, if_neg hopen, if_neg hclose, if_pos rfl, ih hpiece]
      rfl

/-- A text is left out where at least so many angle brackets are open, and closes as many as it opens. -/
def LeftOut (depth : Nat) (piece : List Char) : Prop :=
  ∀ inside rest, depth ≤ inside → outsideArgs inside (piece ++ rest) = outsideArgs inside rest

namespace LeftOut

variable {depth : Nat} {piece other : List Char}

theorem append (hpiece : LeftOut depth piece) (hother : LeftOut depth other) :
    LeftOut depth (piece ++ other) := by
  intro inside rest hinside
  rw [List.append_assoc, hpiece inside _ hinside, hother inside rest hinside]

theorem of_unbracketed (h : Unbracketed piece) : LeftOut 1 piece := by
  intro inside rest hinside
  induction piece with
  | nil => rfl
  | cons c piece ih =>
      obtain ⟨⟨hopen, hclose⟩, hpiece⟩ := List.forall_mem_cons.mp h
      rw [List.cons_append, outsideArgs, if_neg hopen, if_neg hclose, if_neg (Nat.ne_of_gt hinside),
        ih hpiece]

theorem enclosed (h : LeftOut 1 piece) : LeftOut 0 ('<' :: piece ++ ['>']) := by
  intro inside rest _
  rw [List.append_assoc, List.cons_append, outsideArgs, if_pos rfl, h (inside + 1) _ (Nat.le_add_left 1 inside),
    List.singleton_append, outsideArgs, if_neg (by decide), if_pos rfl, Nat.add_sub_cancel]

theorem weaken (h : LeftOut 0 piece) : LeftOut depth piece :=
  fun inside rest _ => h inside rest (Nat.zero_le inside)

theorem join {separator : String} (hseparator : Unbracketed separator.toList) {texts : List String}
    (h : ∀ text ∈ texts, LeftOut 1 text.toList) : LeftOut 1 (Text.join separator texts).toList := by
  induction texts with
  | nil => exact of_unbracketed fun c hc => absurd hc (by simp [Text.join])
  | cons text rest ih =>
      obtain ⟨htext, hrest⟩ := List.forall_mem_cons.mp h
      cases rest with
      | nil => exact htext
      | cons next rest =>
          rw [Text.join, String.toList_append, String.toList_append]
          · exact (htext.append (of_unbracketed hseparator)).append (ih hrest)
          · simp

end LeftOut

theorem unbracketed_brackets (count : Nat) : Unbracketed (brackets count).toList := by
  induction count with
  | zero => exact fun c hc => absurd hc (by simp [brackets])
  | succ count ih =>
      rw [brackets, String.toList_append]
      have hpair : Unbracketed "[]".toList := by decide
      exact List.forall_mem_append.mpr ⟨ih, hpair⟩

/-- How many angle brackets are open at least where a text of a form is left out. -/
def Form.depth : Form → Nat
  | .args => 0
  | .type | .arg => 1

/-- A type is left out among type arguments, and type arguments are left out everywhere. -/
theorem Written.leftOut {form : Form} {text : String} (h : Written form text) :
    LeftOut form.depth text.toList := by
  induction h with
  | type parts dims _ hisWord _ ih =>
      rw [render, String.toList_append]
      refine .append (.join (by decide) ?_) (.of_unbracketed (unbracketed_brackets dims))
      refine List.forall_mem_map.mpr fun part hpart => ?_
      rw [String.toList_append]
      exact .append (.of_unbracketed (unbracketed_of_isWord (hisWord part hpart))) (ih part hpart).weaken
  | noArgs => exact fun _ _ _ => rfl
  | args args _ ih =>
      rw [String.toList_append, String.toList_append]
      exact .enclosed (.join (by decide) ih)
  | wildcard => exact .of_unbracketed (by decide)
  | exact _ ih => exact ih
  | upper _ ih | lower _ ih =>
      rw [String.toList_append]
      exact .append (.of_unbracketed (by decide)) ih

/-- Type arguments begin with a bracket and end with one. -/
theorem Written.args_eq {args : String} (h : Written .args args) :
    args = "" ∨ ∃ inner, args.toList = '<' :: inner ++ ['>'] := by
  cases h with
  | noArgs => exact .inl rfl
  | args args _ =>
      refine .inr ⟨(Text.join "," args).toList, ?_⟩
      rw [String.toList_append, String.toList_append]
      rfl

/-! ### The name that is looked up -/

/-- The texts of the parts of a type with dots between them. -/
abbrev joined (parts : List (String × String)) : String :=
  Text.join "." (parts.map fun part => part.1 ++ part.2)

theorem joined_cons (part next : String × String) (rest : List (String × String)) :
    (joined (part :: next :: rest)).toList =
      part.1.toList ++ (part.2.toList ++ '.' :: (joined (next :: rest)).toList) := by
  simp [joined, Text.join]

theorem join_cons (name next : String) (rest : List String) :
    (Text.join "." (name :: next :: rest)).toList =
      name.toList ++ '.' :: (Text.join "." (next :: rest)).toList := by
  simp [Text.join]

theorem render_zero (parts : List (String × String)) : render parts 0 = joined parts :=
  String.append_empty

theorem isArray_brackets (parts : List (String × String)) (dims : Nat) :
    isArray (render parts (dims + 1)).toList = true := by
  rw [isArray, Bool.or_eq_true, List.isSuffixOf_iff_suffix]
  refine .inl ⟨(joined parts ++ brackets dims ++ "[").toList, ?_⟩
  simp [render, brackets]

theorem joined_concat {front : List (String × String)} (h : front ≠ []) (part : String × String) :
    joined (front ++ [part]) = joined front ++ "." ++ (part.1 ++ part.2) := by
  cases front with
  | nil => exact absurd rfl h
  | cons first front =>
      rw [joined, List.cons_append, List.map_cons, List.map_append, List.map_singleton, Text.join_concat]
      rfl

theorem prefix_join (name : String) (rest : List String) :
    name.toList <+: (Text.join "." (name :: rest)).toList := by
  cases rest with
  | nil => exact List.prefix_refl _
  | cons next rest => exact ⟨_, (join_cons name next rest).symm⟩

namespace AreParts

variable {parts : List (String × String)} {part next : String × String}

theorem head (h : AreParts (part :: parts)) : Lexer.IsWord part.1.toList ∧ Written .args part.2 :=
  ⟨h.isWord part List.mem_cons_self, h.isArgs part List.mem_cons_self⟩

theorem tail (h : AreParts (part :: next :: parts)) : AreParts (next :: parts) :=
  ⟨List.cons_ne_nil next parts, (List.forall_mem_cons.mp h.isWord).2, (List.forall_mem_cons.mp h.isArgs).2⟩

theorem written (h : AreParts parts) (dims : Nat) : Written .type (render parts dims) :=
  .type parts dims h.ne_nil h.isWord h.isArgs

theorem concat {front : List (String × String)}
    (hfront : ∀ part ∈ front, Lexer.IsWord part.1.toList ∧ Written .args part.2)
    (hpart : Lexer.IsWord part.1.toList ∧ Written .args part.2) : AreParts (front ++ [part]) := by
  have hall := List.forall_mem_append.mpr ⟨hfront, List.forall_mem_singleton.mpr hpart⟩
  exact ⟨List.append_ne_nil_of_right_ne_nil front (List.cons_ne_nil part []),
    fun part hmem => (hall part hmem).1, fun part hmem => (hall part hmem).2⟩

/-- Outside of the type arguments are the names. -/
theorem outsideArgs_joined (h : AreParts parts) (rest : List Char) :
    outsideArgs 0 ((joined parts).toList ++ rest) =
      (Text.join "." (parts.map (·.1))).toList ++ outsideArgs 0 rest := by
  induction parts with
  | nil => exact absurd rfl h.ne_nil
  | cons part parts ih =>
      obtain ⟨hword, hargs⟩ := h.head
      have hname := unbracketed_of_isWord hword
      have hskip := fun rest => hargs.leftOut 0 rest (Nat.le_refl 0)
      cases parts with
      | nil =>
          have htext : (joined [part]).toList = part.1.toList ++ part.2.toList := String.toList_append
          rw [htext, List.append_assoc, outsideArgs_zero_append hname, hskip]
          rfl
      | cons next parts =>
          have hdot : Unbracketed ['.'] := by decide
          rw [joined_cons, List.append_assoc, outsideArgs_zero_append hname, List.append_assoc, hskip,
            ← List.singleton_append, List.append_assoc, outsideArgs_zero_append hdot, ih h.tail]
          simp [Text.join]

/-- Before the first bracket are the names up to the first with type arguments. -/
theorem takeWhile_joined (h : AreParts parts) :
    (joined parts).toList.takeWhile (· ≠ '<') = (Text.join "." (namesToArgs parts)).toList := by
  induction parts with
  | nil => exact absurd rfl h.ne_nil
  | cons part parts ih =>
      obtain ⟨hword, hargs⟩ := h.head
      have hname : ∀ c ∈ part.1.toList, decide (c ≠ '<') := fun c hc =>
        decide_eq_true (unbracketed_of_isWord hword c hc).1
      obtain ⟨name, args⟩ := part
      rcases hargs.args_eq with rfl | ⟨inner, hinner⟩
      · cases parts with
        | nil => simpa [joined, Text.join, namesToArgs] using List.takeWhile_eq_self_iff.mpr hname
        | cons next parts =>
            have hnames : namesToArgs ((name, "") :: next :: parts) =
                name :: next.1 :: (if next.2 = "" then namesToArgs parts else []) := rfl
            rw [joined_cons, List.takeWhile_append_of_pos hname, hnames, join_cons]
            congr 1
            exact congrArg ('.' :: ·) (ih h.tail)
      · have hstart : ∃ rest, (joined ((name, args) :: parts)).toList = name.toList ++ '<' :: rest := by
          cases parts with
          | nil => exact ⟨inner ++ ['>'], by simp [joined, Text.join, hinner]⟩
          | cons next parts => exact ⟨_, by rw [joined_cons, hinner]; rfl⟩
        have hne : args ≠ "" := by
          rintro rfl
          simp at hinner
        obtain ⟨rest, hrest⟩ := hstart
        rw [hrest, List.takeWhile_append_of_pos hname, namesToArgs, if_neg hne]
        simp [Text.join]

/-- A type without brackets ends in a word or in type arguments. -/
theorem isArray_joined (h : AreParts parts) : isArray (joined parts).toList = false := by
  obtain ⟨front, last, rfl⟩ := (List.eq_nil_or_concat' parts).resolve_left h.ne_nil
  have hend : ∃ start, (joined (front ++ [last])).toList = start ++ last.1.toList ++ last.2.toList := by
    cases front with
    | nil => exact ⟨[], String.toList_append⟩
    | cons first front =>
        refine ⟨(joined (first :: front) ++ ".").toList, ?_⟩
        rw [joined_concat (List.cons_ne_nil first front)]
        simp
  obtain ⟨start, hstart⟩ := hend
  have hlast : last ∈ front ++ [last] := List.mem_append_right front (List.mem_singleton_self last)
  rcases (h.isArgs last hlast).args_eq with hargs | ⟨inner, hinner⟩
  · rw [hstart, hargs, String.toList_empty, List.append_nil]
    exact isArray_append_word start (h.isWord last hlast)
  · have hlast : (joined (front ++ [last])).toList.getLast? = some '>' := by
      rw [hstart, hinner, ← List.append_assoc, List.getLast?_concat]
    exact isArray_eq_false_of_getLast? hlast (by decide) (by decide)

/-- The name that a type is looked up by consists of the names up to the first with type arguments. -/
theorem base?_render (h : AreParts parts) (dims : Nat) : base? (render parts dims) =
    if dims ≠ 0 ∨ Text.join "." (namesToArgs parts) ∈ primitives then none
    else some (Text.join "." (namesToArgs parts)) := by
  cases dims with
  | succ dims =>
      rw [base?, isArray_brackets, if_pos rfl, if_pos (.inl (Nat.succ_ne_zero dims))]
  | zero =>
      have hne : (Text.join "." (namesToArgs parts)).isEmpty = false := by
        cases parts with
        | nil => exact absurd rfl h.ne_nil
        | cons part parts =>
            obtain ⟨start, hstart⟩ := prefix_join part.1 (if part.2 = "" then namesToArgs parts else [])
            have hname : part.1.toList ++ start ≠ [] := List.append_ne_nil_of_left_ne_nil h.head.1.ne_nil start
            rw [hstart] at hname
            simpa [namesToArgs] using hname
      simp only [render_zero, base?, h.isArray_joined, h.takeWhile_joined, String.ofList_toList, hne]
      simp

theorem erased?_render (h : AreParts parts) (dims : Nat) : erased? (render parts dims) =
    if dims ≠ 0 ∨ joined parts ∈ primitives then none else some (Text.join "." (parts.map (·.1))) := by
  cases dims with
  | succ dims => 
      rw [erased?, isArray_brackets, Bool.true_or, if_pos rfl, if_pos (.inl (Nat.succ_ne_zero dims))]
  | zero =>
      have houtside := h.outsideArgs_joined []
      rw [List.append_nil, outsideArgs, List.append_nil] at houtside
      rw [render_zero, erased?, h.isArray_joined, houtside]
      simp

/-- A text that is the name of a primitive type has no other part and no type arguments. -/
theorem eq_of_joined_mem (h : AreParts parts) (hmem : joined parts ∈ primitives) :
    ∃ name ∈ primitives, parts = [(name, "")] := by
  have hangle : ∀ primitive ∈ primitives, '<' ∉ primitive.toList := by decide
  cases parts with
  | nil => exact absurd rfl h.ne_nil
  | cons part rest =>
      obtain ⟨name, args⟩ := part
      obtain rfl := List.map_eq_nil_iff.mp (eq_nil_of_join_mem_primitives hmem)
      have htext : (joined [(name, args)]).toList = name.toList ++ args.toList := String.toList_append
      rcases h.head.2.args_eq with rfl | ⟨inner, hinner⟩
      · rw [joined, List.map_singleton, Text.join, String.append_empty] at hmem
        exact ⟨name, hmem, rfl⟩
      · have hnot := hangle _ hmem
        rw [htext, hinner] at hnot
        simp at hnot

theorem namesToArgs_singleton (part : String × String) : namesToArgs [part] = [part.1] := by
  simp [namesToArgs]

theorem namesToArgs_prefix (parts : List (String × String)) : namesToArgs parts <+: parts.map (·.1) := by
  induction parts with
  | nil => exact List.prefix_refl _
  | cons part parts ih =>
      rw [namesToArgs, List.map_cons, List.prefix_cons_inj]
      split
      · exact ih
      · exact List.nil_prefix

theorem namesToArgs_eq_names_iff : namesToArgs parts = parts.map (·.1) ↔
    ∀ part ∈ parts.dropLast, part.2 = "" := by
  induction parts with
  | nil => simp [namesToArgs]
  | cons part parts ih =>
      obtain ⟨name, args⟩ := part
      cases parts with
      | nil => simp [namesToArgs]
      | cons next parts =>
          rw [namesToArgs, List.dropLast_cons_cons, List.forall_mem_cons, List.map_cons, List.cons_inj_right, ← ih]
          split
          · simp [*]
          · simp [*]

/-- The names of a type can be told from the text in which dots stand between them. -/
theorem join_namesToArgs_eq_iff (h : AreParts parts) :
    Text.join "." (namesToArgs parts) = Text.join "." (parts.map (·.1)) ↔
      ∀ part ∈ parts.dropLast, part.2 = "" := by
  rw [← namesToArgs_eq_names_iff]
  refine ⟨fun heq => ?_, congrArg _⟩
  have hsegments : ∀ name ∈ parts.map (·.1), Text.IsSegment name := by
    refine List.forall_mem_map.mpr fun part hpart hdot => ?_
    exact absurd ((h.isWord part hpart).isWordPart _ hdot) (by decide)
  have hleading := namesToArgs_prefix parts
  cases parts with
  | nil => exact absurd rfl h.ne_nil
  | cons part rest =>
      calc namesToArgs (part :: rest)
        _ = Text.segments (Text.join "." (namesToArgs (part :: rest))) :=
            (Text.segments_join fun name hname => hsegments name (hleading.subset hname)).symm
        _ = Text.segments (Text.join "." ((part :: rest).map (·.1))) := by rw [heq]
        _ = (part :: rest).map (·.1) := Text.segments_join hsegments

/-- The class that a type is looked up by is the one that it is meant to refer to exactly if the type is an
array, or if type arguments stand only behind its last name and not behind a primitive type. -/
theorem base?_eq_erased?_iff (h : AreParts parts) (dims : Nat) :
    base? (render parts dims) = erased? (render parts dims) ↔ dims ≠ 0 ∨
      (∀ part ∈ parts.dropLast, part.2 = "") ∧
        ∀ name args, parts = [(name, args)] → name ∈ primitives → args = "" := by
  rw [h.base?_render, h.erased?_render]
  cases dims with
  | succ dims => simp
  | zero =>
      simp only [ne_eq, not_true_eq_false, false_or]
      rw [← h.join_namesToArgs_eq_iff]
      constructor
      · intro heq
        by_cases hbare : joined parts ∈ primitives
        · obtain ⟨name, -, rfl⟩ := h.eq_of_joined_mem hbare
          exact ⟨rfl, fun _ _ hparts _ => by cases hparts; rfl⟩
        · rw [if_neg hbare] at heq
          split at heq
          · cases heq
          · next hleading =>
            refine ⟨Option.some.inj heq, fun name args hparts hname => ?_⟩
            subst hparts
            rw [namesToArgs_singleton] at hleading
            exact absurd hname hleading
      · rintro ⟨heq, hprimitive⟩
        by_cases hleading : Text.join "." (namesToArgs parts) ∈ primitives
        · -- The only name is that of a primitive type, so that no type arguments follow it.
          rw [if_pos hleading, if_pos]
          rw [heq] at hleading
          cases parts with
          | nil => exact absurd rfl h.ne_nil
          | cons part rest =>
              obtain ⟨name, args⟩ := part
              obtain rfl := List.map_eq_nil_iff.mp (eq_nil_of_join_mem_primitives hleading)
              obtain rfl := hprimitive name args rfl hleading
              rw [joined, List.map_singleton, String.append_empty]
              exact hleading
        · have hbare : joined parts ∉ primitives := fun hbare => by
            obtain ⟨name, hname, rfl⟩ := h.eq_of_joined_mem hbare
            exact hleading hname
          rw [if_neg hleading, if_neg hbare, heq]

end AreParts

end TypeName

namespace Grammar

open LockDiscipline.TypeName (Form Written AreParts)

/-! ### What the readers of types yield -/

theorem Forward.words {before after : Cursor} (h : Forward before after) (hwords : before.Words) :
    after.Words := by
  obtain ⟨read, hread, -⟩ := h.read
  exact fun token htoken => hwords token (hread ▸ List.mem_append_right read htoken)

section Readers

variable {α : Type} {level : Nat} {before : Cursor → Prop} {good : α → Prop}

/-- Behind a reader that goes forward, identifiers are words as before. -/
theorem Passes.yields_words {reader : Reader α} (h : Passes none level reader) :
    Yields Cursor.Words reader fun _ => Cursor.Words := by
  intro cursor value cursor' hwords hrun
  have houtcome := @h Anywhere ⟨level, 0⟩ (Nat.le_refl _) cursor trivial (suffices_none _)
  rw [hrun] at houtcome
  exact (Accounts.forward houtcome).words hwords

theorem yields_advance : Yields Cursor.Words advance fun _ => Cursor.Words :=
  .advance fun _ h => h.advance

theorem yields_acceptSymbol (sign : Symbol) : Yields Cursor.Words (acceptSymbol sign) fun _ => Cursor.Words :=
  @Passes.yields_words Bool 0 _ (accepts_acceptSymbol sign).passes

theorem yields_acceptKeyword (word : Keyword) :
    Yields Cursor.Words (acceptKeyword word) fun _ => Cursor.Words :=
  @Passes.yields_words Bool 0 _ (accepts_acceptKeyword word).passes

theorem yields_expectSymbol (sign : Symbol) : Yields Cursor.Words (expectSymbol sign) fun _ => Cursor.Words :=
  Passes.yields_words (consumes_expectSymbol sign).passes

theorem yields_expectName :
    Yields Cursor.Words expectName fun name cursor => Lexer.IsWord name.toList ∧ cursor.Words := by
  refine Yields.currentKind.bind fun kind => ?_
  split
  · next name =>
    have hadvance : Yields (fun cursor => cursor.Words ∧ cursor.current.kind = .ident name) advance
        fun _ cursor => Lexer.IsWord name.toList ∧ cursor.Words :=
      .advance fun cursor h => ⟨h.1.current h.2, h.1.advance⟩
    exact hadvance.bind fun _ => .pure fun _ h => h
  · exact .failExpected _

theorem yields_collect {step : Reader (Option α)}
    (h : Yields before step fun result cursor => (∀ value ∈ result, good value) ∧ before cursor) :
    Yields before (collect step) fun values cursor => (∀ value ∈ values, good value) ∧ before cursor := by
  have hloop : Yields before (iterate (collectStep step) []) fun values cursor =>
      (∀ value ∈ values, good value) ∧ before cursor := by
    refine .iterate (fun _ hbefore => ⟨List.forall_mem_nil _, hbefore⟩) fun values => ?_
    refine .given (fun _ h => h.1) fun hvalues => ?_
    refine (h.narrow fun _ h => h.2).bind fun result => ?_
    cases result with
    | some value => exact .pure fun _ h => ⟨List.forall_mem_cons.mpr ⟨h.1 value rfl, hvalues⟩, h.2⟩
    | none => exact .pure fun _ h => ⟨hvalues, h.2⟩
  exact hloop.bind fun values => .pure fun _ h =>
    ⟨fun value hvalue => h.1 value (List.mem_reverse.mp hvalue), h.2⟩

theorem yields_separated (separator : Symbol) {item : Reader α}
    (h : Yields Cursor.Words item fun value cursor => good value ∧ cursor.Words) :
    Yields Cursor.Words (separated separator item) fun values cursor =>
      (∀ value ∈ values, good value) ∧ cursor.Words := by
  refine h.bind fun first => .given (fun _ h => h.1) fun hfirst => ?_
  have hothers : Yields Cursor.Words (collect do
      if ← acceptSymbol separator then return some (← item) else return none) fun values cursor =>
      (∀ value ∈ values, good value) ∧ cursor.Words := by
    refine yields_collect ((yields_acceptSymbol separator).bind fun found => .ite (fun _ => ?_) fun _ => ?_)
    · exact h.bind fun value => .pure fun _ h => ⟨fun _ heq => Option.some.inj heq ▸ h.1, h.2⟩
    · exact .pure fun _ h => ⟨nofun, h⟩
  refine (hothers.narrow fun _ h => h.2).bind fun others => .pure fun _ h => ?_
  exact ⟨List.forall_mem_cons.mpr ⟨hfirst, h.1⟩, h.2⟩

/-- A reader of texts of a form. -/
abbrev Writes (form : Form) (reader : Reader String) : Prop :=
  Yields Cursor.Words reader fun text cursor => Written form text ∧ cursor.Words

variable {rules : Rules}

theorem writes_readTypeArg (hrules : Writes .type (rules _ .type)) : Writes .arg (readTypeArg rules) := by
  have hbound {wildcard : String} (h : ∀ text, Written .type text → Written .arg (wildcard ++ text)) :
      Writes .arg (do return wildcard ++ (← rules _ .type)) :=
    hrules.bind fun text => .pure fun _ hread => ⟨h text hread.1, hread.2⟩
  refine (yields_acceptSymbol .question).bind fun wildcard => .ite (fun _ => ?_) fun _ => ?_
  · refine (yields_acceptKeyword .extends).bind fun upper => .ite (fun _ => ?_) fun _ => ?_
    · exact hbound fun _ => .upper
    · refine (yields_acceptKeyword .super).bind fun lower => .ite (fun _ => ?_) fun _ => ?_
      · exact hbound fun _ => .lower
      · exact .pure fun _ h => ⟨.wildcard, h⟩
  · exact hrules.weaken (fun _ h => h) fun _ _ h => ⟨.exact h.1, h.2⟩

theorem writes_readTypeArgs (hrules : Writes .type (rules _ .type)) : Writes .args (readTypeArgs rules) := by
  refine (yields_expectSymbol .less).bind fun _ => ?_
  refine (yields_acceptSymbol .greater).bind fun empty => .ite (fun _ => ?_) fun _ => ?_
  · exact .pure fun _ h => ⟨.args [] (List.forall_mem_nil _), h⟩
  · refine (yields_separated .comma (writes_readTypeArg hrules)).bind fun args =>
      .given (fun _ h => h.1) fun hargs => ?_
    refine ((yields_expectSymbol .greater).narrow fun _ h => h.2).bind fun _ => ?_
    exact .pure fun _ h => ⟨.args args hargs, h⟩

/-- A text to which the next part of a type is added. Whatever it is, it makes a type with the parts before
it. -/
def Awaits (text : String) : Prop :=
  ∃ front, (∀ part ∈ front, Lexer.IsWord (Prod.fst part).toList ∧ Written .args part.2) ∧
    ∀ name args, text ++ name ++ args = TypeName.joined (front ++ [(name, args)])

theorem awaits_empty : Awaits "" :=
  ⟨[], List.forall_mem_nil _, fun name args => by simp [TypeName.joined, Text.join]⟩

/-- What a type name is, or is to become when more parts follow. -/
def Composes (state : String × Bool) : Prop :=
  if state.2 then Awaits state.1 else ∃ parts, AreParts parts ∧ state.1 = TypeName.joined parts

theorem composes_append {text name args : String} (h : Awaits text) (hname : Lexer.IsWord name.toList)
    (hargs : Written .args args) :
    Composes (text ++ name ++ args, false) ∧ Composes (text ++ name ++ args ++ ".", true) := by
  obtain ⟨front, hfront, htext⟩ := h
  have hparts : AreParts (front ++ [(name, args)]) := .concat hfront ⟨hname, hargs⟩
  refine ⟨⟨_, hparts, htext name args⟩, front ++ [(name, args)], ?_, fun next nextArgs => ?_⟩
  · exact List.forall_mem_append.mpr ⟨hfront, List.forall_mem_singleton.mpr ⟨hname, hargs⟩⟩
  · rw [htext name args, TypeName.joined_concat hparts.ne_nil]
    exact String.append_assoc

theorem yields_readTypeName (hrules : Writes .type (rules _ .type)) :
    Yields Cursor.Words (readTypeName rules) fun text cursor =>
      (∃ parts, AreParts parts ∧ text = TypeName.joined parts) ∧ cursor.Words := by
  have hend (state : String × Bool) : Yields (fun cursor => Composes (state.1, false) ∧ cursor.Words)
      (pure state.1) fun text cursor =>
        (∃ parts, AreParts parts ∧ text = TypeName.joined parts) ∧ cursor.Words :=
    .pure fun _ h => h
  refine Yields.bind ?_ hend
  refine @Yields.iterateTo _ _ _ (fun state cursor => Composes state ∧ cursor.Words) _ _
    (fun _ h => ⟨awaits_empty, h⟩) ?_
  rintro ⟨text, more⟩
  refine .ite (fun hended => ?_) fun hmore => ?_
  · obtain rfl : more = false := by simpa using hended
    exact .pure fun _ h => h
  · obtain rfl : more = true := by simpa using hmore
    refine .given (fun _ h => h.1) fun hawaits => ?_
    refine (yields_expectName.narrow fun _ h => h.2).bind fun name =>
      .given (fun _ h => h.1) fun hname => ?_
    have hrest (args : String) : Yields (fun cursor => Written .args args ∧ cursor.Words) (do
        if (← atSymbol .dot) && (← peek 1).isIdent then
          advance
          return some (text ++ name ++ args ++ ".", true)
        else return some (text ++ name ++ args, false)) fun result cursor =>
          result.elim (Composes (text, false) ∧ cursor.Words) (Composes · ∧ cursor.Words) := by
      refine .given (fun _ h => h.1) fun hargs => ?_
      obtain ⟨hlast, hmore⟩ := composes_append hawaits hname hargs
      refine (Yields.atSymbol .dot).bind fun dot => (Yields.peek 1).bind fun next => .ite (fun _ => ?_) fun _ => ?_
      · exact (yields_advance.narrow fun _ h => h.2).bind fun _ => .pure fun _ h => ⟨hmore, h⟩
      · exact .pure fun _ h => ⟨hlast, h.2⟩
    refine (Yields.atSymbol .less).bind fun found => .ite (fun _ => ?_) fun _ => ?_
    · exact ((writes_readTypeArgs hrules).narrow fun _ h => h.2).bind hrest
    · exact (hrest "").narrow fun _ h => ⟨.noArgs, h.2⟩

theorem yields_readDims : Yields Cursor.Words readDims fun text cursor =>
    (∃ dims, text = TypeName.brackets dims) ∧ cursor.Words := by
  refine .iterate (fun _ h => ⟨⟨0, rfl⟩, h⟩) fun text => .given (fun _ h => h.1) ?_
  rintro ⟨dims, rfl⟩
  refine (Yields.atSymbol .leftBracket).bind fun bracket => (Yields.peek 1).bind fun next =>
    .ite (fun _ => ?_) fun _ => .pure fun _ h => ⟨⟨dims, rfl⟩, h.2⟩
  refine (yields_advance.narrow fun _ h => h.2).bind fun _ => yields_advance.bind fun _ => ?_
  exact .pure fun _ h => ⟨⟨dims + 1, rfl⟩, h⟩

theorem writes_readType (hrules : Writes .type (rules _ .type)) (hconsuming : rules.Consuming none) :
    Writes .type (readType rules) := by
  refine (passes_skipAnnotations hconsuming).yields_words.bind fun _ => ?_
  refine Yields.currentKind.bind fun kind => ?_
  have hname : Yields Cursor.Words (do
      let name ← readTypeName rules
      return name ++ (← readDims)) fun text cursor => Written .type text ∧ cursor.Words := by
    refine (yields_readTypeName hrules).bind fun name => .given (fun _ h => h.1) ?_
    rintro ⟨parts, hparts, rfl⟩
    refine (yields_readDims.narrow fun _ h => h.2).bind fun text => .pure ?_
    rintro cursor ⟨⟨dims, rfl⟩, hwords⟩
    exact ⟨hparts.written dims, hwords⟩
  refine .ite (fun _ => ?_) fun _ => hname.narrow fun _ h => h.1
  exact Yields.bind (.failExpected _) fun _ => hname

end Readers

/-- By the rules tied together to any depth, the text of a type is read. -/
theorem writes_rules (depth : Nat) : Writes .type (rules depth _ .type) := by
  induction depth with
  | zero => exact .failTooDeep
  | succ depth ih => exact writes_readType ih (consuming_rules_unasked depth)

/-- Where a type is read from tokens, its text consists of names with type arguments and of pairs of brackets.
The class it is meant to refer to is named by its names, unless it is an array or a bare primitive name. The
name it is looked up by consists of the names up to the first with type arguments. So the class is found
under the name that is meant exactly if the type is an array, or if type arguments stand only behind its last
name and not behind a primitive type. -/
theorem base?_readType {depth : Nat} {cursor cursor' : Cursor} {text : String} (hwords : cursor.Words)
    (hrun : (readType (rules depth)).run cursor = .ok text cursor') :
    ∃ parts dims, AreParts parts ∧ text = TypeName.render parts dims ∧
      TypeName.erased? text = (if dims ≠ 0 ∨ text ∈ TypeName.primitives then none
        else some (Text.join "." (parts.map (·.1)))) ∧
      TypeName.base? text = (if dims ≠ 0 ∨ Text.join "." (TypeName.namesToArgs parts) ∈ TypeName.primitives
        then none else some (Text.join "." (TypeName.namesToArgs parts))) ∧
      (TypeName.base? text = TypeName.erased? text ↔ dims ≠ 0 ∨
        (∀ part ∈ parts.dropLast, part.2 = "") ∧
          ∀ name args, parts = [(name, args)] → name ∈ TypeName.primitives → args = "") := by
  have hwritten := (writes_readType (writes_rules depth) (consuming_rules_unasked depth) cursor text cursor'
    hwords hrun).1
  cases hwritten with
  | type parts dims hne hisWord hisArgs =>
      have hparts : AreParts parts := ⟨hne, hisWord, hisArgs⟩
      refine ⟨parts, dims, hparts, rfl, ?_, hparts.base?_render dims, hparts.base?_eq_erased?_iff dims⟩
      rw [hparts.erased?_render]
      cases dims with
      | zero => rw [TypeName.render_zero]
      | succ dims => simp

/-- The tokens of a type with type arguments behind the first of its two names. -/
def lostNameTokens : List Token :=
  (Lexer.tokenize "A<B>.C".toList).tokens

private theorem words_lostName : (Cursor.start lostNameTokens).Words :=
  fun _ htoken _ hname => Lexer.isWord_of_mem_tokenize htoken hname

private theorem exists_run_lostName :
    ∃ cursor', (readType (rules 8)).run (.start lostNameTokens) = .ok "A<B>.C" cursor' :=
  ⟨_, rfl⟩

theorem base?_readType_lostName :
    (Cursor.start lostNameTokens).Words ∧
      ∃ cursor', (readType (rules 8)).run (.start lostNameTokens) = .ok "A<B>.C" cursor' ∧
        ∃ parts dims, AreParts parts ∧ "A<B>.C" = TypeName.render parts dims ∧
          (TypeName.base? "A<B>.C" = TypeName.erased? "A<B>.C" ↔ dims ≠ 0 ∨
            (∀ part ∈ parts.dropLast, part.2 = "") ∧
              ∀ name args, parts = [(name, args)] → name ∈ TypeName.primitives → args = "") := by
  obtain ⟨cursor', hrun⟩ := exists_run_lostName
  obtain ⟨parts, dims, hparts, htext, -, -, hiff⟩ := base?_readType words_lostName hrun
  exact ⟨words_lostName, cursor', hrun, parts, dims, hparts, htext, hiff⟩

/-- Behind type arguments a name is lost when the class of a type is looked up. -/
theorem exists_base?_ne_erased? :
    (Cursor.start lostNameTokens).Words ∧
      ∃ cursor', (readType (rules 8)).run (.start lostNameTokens) = .ok "A<B>.C" cursor' ∧
        TypeName.erased? "A<B>.C" = some "A.C" ∧ TypeName.base? "A<B>.C" = some "A" := by
  obtain ⟨cursor', hrun⟩ := exists_run_lostName
  exact ⟨words_lostName, cursor', hrun, by decide, by decide⟩

end Grammar
end LockDiscipline
