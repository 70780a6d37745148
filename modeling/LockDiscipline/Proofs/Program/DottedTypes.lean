import Mathlib.Data.List.Induction
import LockDiscipline.Proofs.Grammar.Heads
import LockDiscipline.Proofs.Program.Entry
import LockDiscipline.Proofs.Program.QualifiedNames
import LockDiscipline.Proofs.Program.Stability
/-!
# Dotted type names

Where a type is written, a dotted name is first taken as a qualified name, and only then as the chain of
member classes from its head. In an expression the same name is resolved link by link, so that the chain
comes first. The two agree unless some class that bears the dotted name is not the one that the chain
reaches, as where a nested class hides the head of the qualified name of another class.
-/

namespace LockDiscipline

/-- An expression selects names from an object, one after the other. -/
inductive Expr.Selects (object : Expr) : List String → Expr → Prop where
  | object : Selects object [] object
  | select {names : List String} {inner : Expr} (node : NodeId) (name : String) (span : Span)
      (hinner : Selects object names inner) :
      Selects object (names ++ [name]) ⟨node, .select inner name, span⟩

theorem Expr.Selects.dottedName?_eq {object expr : Expr} {names : List String}
    (h : object.Selects names expr) : expr.dottedName? =
      object.dottedName?.map fun head => Text.join "." (head :: names) := by
  induction h with
  | object => cases object.dottedName? <;> rfl
  | @select names inner node name span hinner ih =>
      rw [dottedName?, ih, Option.map_map]
      refine congrArg (Option.map · _) (funext fun head => ?_)
      exact (Text.join_concat head names name).symm

/-- What an expression denotes that is resolved as a type. -/
def Denotation.ofType (found : Option SymbolId) : Denotation :=
  found.elim .unknown .typeName

namespace Program

/-- The class that is reached by following names, one link after the other. Where no class is reached, the
dotted name up to the next link may be the name of a class. -/
def typeAlong? (program : Program) (fromClass : SymbolId)
    (link : SymbolId → String → Option SymbolId) :
    Option String → Option SymbolId → List String → Option SymbolId
  | _, reached, [] => reached
  | dotted, reached, name :: rest =>
      let dotted := dotted.map (· ++ "." ++ name)
      typeAlong? program fromClass link dotted
        (reached.elim (dotted.bind (program.findType? fromClass)) (link · name)) rest

variable {program : Program} {fromClass : SymbolId} {link : SymbolId → String → Option SymbolId}
  {dotted : Option String} {reached : Option SymbolId}

/-- The last link is followed from where the others lead. -/
theorem typeAlong?_concat (names : List String) (name : String) :
    program.typeAlong? fromClass link dotted reached (names ++ [name]) =
      (program.typeAlong? fromClass link dotted reached names).elim
        ((dotted.map fun head => Text.join "." (head :: (names ++ [name]))).bind
          (program.findType? fromClass)) (link · name) := by
  induction names generalizing dotted reached with
  | nil => rfl
  | cons next rest ih =>
      rw [List.cons_append, typeAlong?, ih, Option.map_map]
      refine congrArg (Option.elim _ · _) (congrArg (Option.bind · _) ?_)
      exact congrArg (Option.map · dotted) (funext fun head => Text.join_join head next _)

theorem foldlM_concat (first : SymbolId) (names : List String) (name : String) :
    (names ++ [name]).foldlM link first = (names.foldlM link first).bind (link · name) := by
  rw [List.foldlM_append]
  simp

/-- Where every link is found the dotted names do not matter. -/
theorem typeAlong?_of_foldlM {names : List String} {first type : SymbolId}
    (h : names.foldlM link first = some type) :
    program.typeAlong? fromClass link dotted (some first) names = some type := by
  induction names generalizing dotted first with
  | nil => exact h
  | cons name rest ih =>
      obtain ⟨next, hnext, hrest⟩ := Option.bind_eq_some_iff.mp h
      rw [typeAlong?, Option.elim_some, hnext]
      exact ih hrest

/-- A dotted name is a qualified name, or else the chain of member classes from its head. -/
theorem findType?_join {head : String} {names : List String}
    (hsegments : ∀ segment ∈ head :: names, Text.IsSegment segment) (hnames : names ≠ []) :
    program.findType? fromClass (Text.join "." (head :: names)) =
      (program.findQualified? (Text.join "." (head :: names))).or
        ((program.findType? fromClass head).bind (names.foldlM program.memberClass?)) := by
  rw [findType?_of_isSegment (hsegments head List.mem_cons_self)]
  cases names with
  | nil => exact absurd rfl hnames
  | cons name rest => rw [findType?, Text.segments_join hsegments]; rfl

/-- Along a chain of member classes nothing else is reached than what the chain reaches, unless a link is
missing and the dotted name up to there or further is that of a class. -/
theorem foldlM_of_typeAlong? {head : String} {first type : SymbolId}
    (hfirst : program.findType? fromClass head = some first) {names : List String}
    (hsegments : ∀ segment ∈ head :: names, Text.IsSegment segment)
    (h : program.typeAlong? fromClass program.memberClass? (some head) (some first) names = some type) :
    names.foldlM program.memberClass? first = some type ∨
      ∃ before after, names = before ++ after ∧ before.foldlM program.memberClass? first = none ∧
        ∃ named, program.findQualified? (Text.join "." (head :: before)) = some named ∧
          after.foldlM program.memberClass? named = some type := by
  induction names using List.reverseRecOn generalizing type with
  | nil => exact .inl h
  | append_singleton names name ih =>
      have hsegments' : ∀ segment ∈ head :: names, Text.IsSegment segment := fun segment hsegment =>
        hsegments segment (List.mem_append_left [name] hsegment)
      rw [typeAlong?_concat] at h
      cases hnames : program.typeAlong? fromClass program.memberClass? (some head) (some first) names with
      | some owner =>
          rw [hnames, Option.elim_some] at h
          rcases ih hsegments' hnames with hchain | ⟨before, after, rfl, hnone, named, hnamed, hafter⟩
          · exact .inl (by rw [foldlM_concat, hchain]; exact h)
          · refine .inr ⟨before, after ++ [name], List.append_assoc .., hnone, named, hnamed, ?_⟩
            rw [foldlM_concat, hafter]
            exact h
      | none =>
          have hchain : names.foldlM program.memberClass? first = none := by
            cases hchain : names.foldlM program.memberClass? first with
            | none => rfl
            | some owner => exact nomatch hnames.symm.trans (typeAlong?_of_foldlM hchain)
          have hchain' : (names ++ [name]).foldlM program.memberClass? first = none := by
            rw [foldlM_concat, hchain]
            rfl
          rw [hnames, Option.elim_none, Option.map_some, Option.bind_some,
            findType?_join hsegments (by simp), hfirst, Option.bind_some, hchain', Option.or_none] at h
          exact .inr ⟨names ++ [name], [], (List.append_nil _).symm, hchain', type, h, rfl⟩

end Program

/-! ### Dotted names in expressions -/

namespace TypeName

theorem isDotted_join {head : String} {names : List String}
    (hwords : ∀ word ∈ head :: names, Lexer.IsWord word.toList) : IsDotted (Text.join "." (head :: names)) := by
  induction names using List.reverseRecOn with
  | nil => exact isDotted_of_isWord (hwords head List.mem_cons_self)
  | append_singleton names name ih =>
      rw [Text.join_concat]
      refine IsDotted.append (ih fun word hword => hwords word ?_) (hwords name ?_)
      · exact List.mem_append_left [name] hword
      · exact List.mem_append_right (head :: names) (List.mem_singleton_self name)

/-- A name with several segments is looked up as a class by all of its text. -/
theorem base?_join {head : String} {names : List String} (hnames : names ≠ [])
    (hwords : ∀ word ∈ head :: names, Lexer.IsWord word.toList) :
    base? (Text.join "." (head :: names)) = some (Text.join "." (head :: names)) := by
  have hprimitive : primitives.contains (Text.join "." (head :: names)) = false := by
    rw [Bool.eq_false_iff]
    exact fun hmem => hnames (eq_nil_of_join_mem_primitives (List.contains_iff_mem.mp hmem))
  rw [(isDotted_join hwords).base?_eq, hprimitive]
  rfl

end TypeName

namespace Resolving

open Program (Grows SameClasses typeAlong?)

theorem fst_useType (node : NodeId) (found : Option SymbolId) (draft : TrackedDraft) :
    ((useType node found).run draft).1 = .ofType found := by
  cases found <;> rfl

theorem scopes_useType (node : NodeId) (found : Option SymbolId) (draft : TrackedDraft) :
    ((useType node found).run draft).2.scopes = draft.scopes := by
  cases found <;> rfl

theorem grows_useType (node : NodeId) (found : Option SymbolId) (draft : TrackedDraft) :
    Grows False draft.program ((useType node found).run draft).2.program := by
  cases found with
  | none => exact .refl False draft.program
  | some id => exact .of_change (.use node id)

end Resolving

/-- An expression spells a dotted name in a class, and no part of it behind the head names a field. The head
denotes a type, or nothing that is known. -/
structure Draft.Spells (draft : TrackedDraft) (fromClass : SymbolId) (head : String) (first : Option SymbolId)
    (names : List String) (expr : Expr) : Prop where
  selects : ∃ node span, Expr.Selects ⟨node, .name head, span⟩ names expr
  isWord : ∀ word ∈ head :: names, Lexer.IsWord word.toList
  currentClass : draft.scopes.currentClass? = some fromClass
  noField : ∀ before name after type, names = before ++ name :: after →
    draft.program.typeAlong? fromClass draft.program.memberClass? (some head) first before = some type →
      draft.program.findField? type name = none

/-- An expression spells a dotted name, in a class, of which no part names a variable or a field. The head
is no primitive type, which no expression refers to. -/
structure Draft.SpellsType (draft : TrackedDraft) (fromClass : SymbolId) (head : String) (names : List String)
    (expr : Expr) : Prop extends
      draft.Spells fromClass head (draft.program.findType? fromClass head) names expr where
  notPrimitive : head ∉ TypeName.primitives
  noVariable : draft.scopes.lookup head (draft.program.findField? · head) = none

namespace Resolving

open Program (Grows SameClasses typeAlong?)

/-- An expression is resolved as a type, if there is one, which is recorded as its use. The scopes stay, and
the program only grows. -/
structure ResolvesTo (expr : Expr) (draft : TrackedDraft) (found : Option SymbolId) : Prop where
  denotes : ((resolveExpr expr).run draft).1 = .ofType found
  uses : ∀ type, found = some type → ((resolveExpr expr).run draft).2.program.use? expr.id = some type
  scopes : ((resolveExpr expr).run draft).2.scopes = draft.scopes
  grows : Grows False draft.program ((resolveExpr expr).run draft).2.program

theorem ResolvesTo.memberClass?_eq {expr : Expr} {draft : TrackedDraft} {found : Option SymbolId}
    (h : ResolvesTo expr draft found) : ((resolveExpr expr).run draft).1.memberClass? = found := by
  rw [h.denotes]
  cases found <;> rfl

variable {draft : TrackedDraft} {fromClass : SymbolId} {head : String} {names : List String}

/-- A dotted name in an expression is resolved link by link from what its head denotes. -/
theorem resolvesTo_selects {first : Option SymbolId} {object expr : Expr} (hselects : object.Selects names expr)
    (hobject : ∃ node span, object = ⟨node, .name head, span⟩)
    (hfirst : ∀ before : TrackedDraft, before.program = draft.program → before.scopes = draft.scopes →
      ResolvesTo object before first)
    (hdraft : draft.program.WellFormed) (hclass : draft.program.IsClass fromClass)
    (h : draft.Spells fromClass head first names expr) :
    ResolvesTo expr draft (draft.program.typeAlong? fromClass draft.program.memberClass? (some head) first
      names) := by
  induction hselects generalizing draft with
  | object => exact hfirst draft rfl rfl
  | @select names inner node name span hinner ih =>
      obtain ⟨objectNode, objectSpan, rfl⟩ := hobject
      have hspells : (visiting draft node).Spells fromClass head first names inner :=
        { selects := ⟨objectNode, objectSpan, hinner⟩
          isWord := fun word hword => h.isWord word (List.mem_append_left [name] hword)
          currentClass := h.currentClass
          noField := fun before name' after type heq =>
            h.noField before name' (after ++ [name]) type (by rw [heq]; simp) }
      have hinside := @ih (visiting draft node) hfirst hdraft hclass hspells
      have howner := hinside.memberClass?_eq
      obtain ⟨-, -, hscopes, hgrows⟩ := hinside
      have hdotted : inner.dottedName?.map (· ++ "." ++ name) =
          some (Text.join "." (head :: (names ++ [name]))) := by
        rw [hinner.dottedName?_eq, Text.join_concat]
        rfl
      have hrun : (resolveExpr ⟨node, .select inner name, span⟩).run draft =
          (resolveSelect node ((resolveExpr inner).run (visiting draft node)).1 name
            (some (Text.join "." (head :: (names ++ [name]))))).run
              ((resolveExpr inner).run (visiting draft node)).2 := by
        rw [run_resolveExpr, resolveExprKind, run_bind, hdotted]
      generalize (resolveExpr inner).run (visiting draft node) = middle at howner hscopes hgrows hrun
      have hsame : draft.program.SameClasses middle.2.program := .of_grows hgrows
      suffices hlast : ∃ found seen, (resolveExpr ⟨node, .select inner name, span⟩).run draft =
          (useType node found).run (looking middle.2 node seen) ∧
            found = draft.program.typeAlong? fromClass draft.program.memberClass? (some head) first
              (names ++ [name]) by
        obtain ⟨found, seen, hlast, rfl⟩ := hlast
        constructor <;> rw [hlast]
        · exact fst_useType ..
        · exact fun type hfound => by rw [use?_useType, hfound, Option.some_or]
        · exact (scopes_useType ..).trans hscopes
        · exact hgrows.trans (grows_useType node _ (looking middle.2 node seen))
      rw [hrun, Program.typeAlong?_concat]
      cases hreached : draft.program.typeAlong? fromClass draft.program.memberClass? (some head) first
          names with
      | some owner =>
          have hfield : middle.2.program.findField? owner name = none := by
            rw [hsame.findField?_eq hdraft]
            exact h.noField names name [] owner rfl hreached
          refine ⟨_, _, run_resolveSelect_of_some (howner.trans hreached) hfield, ?_⟩
          exact hsame.memberClass?_eq hdraft owner name
      | none =>
          refine ⟨_, _, run_resolveSelect_of_none (howner.trans hreached), ?_⟩
          have hcurrent : (visiting draft node).scopes.currentClass? = some fromClass := h.currentClass
          rw [run_findTypeHere, hscopes, hcurrent, Option.bind_some, TypeName.base?_join (by simp) h.isWord]
          exact hsame.findType?_eq hdraft hclass.lt_size _

/-- A bare name that is no variable is resolved as a type. -/
theorem resolvesTo_name (hword : Lexer.IsWord head.toList) (hprimitive : head ∉ TypeName.primitives)
    (hcurrent : draft.scopes.currentClass? = some fromClass)
    (hvariable : draft.scopes.lookup head (draft.program.findField? · head) = none) (node : NodeId)
    (span : Span) :
    ResolvesTo ⟨node, .name head, span⟩ draft (draft.program.findType? fromClass head) := by
  have hbase : TypeName.base? head = some head := by
    rw [(TypeName.isDotted_of_isWord hword).base?_eq,
      if_neg fun hmem => hprimitive (List.contains_iff_mem.mp hmem)]
  have hhere : ((findTypeHere head).run (visiting draft node)).1 =
      draft.program.findType? fromClass head := by
    rw [run_findTypeHere]
    change (draft.scopes.currentClass?.bind fun context => _) = _
    rw [hcurrent, Option.bind_some, hbase]
    rfl
  have hrun : (resolveExpr ⟨node, .name head, span⟩).run draft =
      (useType node (draft.program.findType? fromClass head)).run (visiting draft node) := by
    rw [run_resolveExpr, resolveExprKind, run_resolveName_of_none hvariable, hhere]
  constructor <;> rw [hrun]
  · exact fst_useType ..
  · exact fun type hfound => by rw [use?_useType, hfound, Option.some_or]
  · exact scopes_useType ..
  · exact grows_useType node _ (visiting draft node)

/-- A dotted name that begins with a type is resolved link by link. -/
theorem resolvesTo_spellsType {expr : Expr} (hdraft : draft.program.WellFormed)
    (hclass : draft.program.IsClass fromClass) (h : draft.SpellsType fromClass head names expr) :
    ResolvesTo expr draft (draft.program.typeAlong? fromClass draft.program.memberClass? (some head)
      (draft.program.findType? fromClass head) names) := by
  obtain ⟨node, span, hselects⟩ := h.selects
  refine resolvesTo_selects hselects ⟨node, span, rfl⟩ (fun before hprogram hscopes => ?_) hdraft hclass
    h.toSpells
  rw [← hprogram]
  refine resolvesTo_name (h.isWord head List.mem_cons_self) h.notPrimitive ?_ ?_ node span
  · rw [hscopes]
    exact h.currentClass
  · rw [hscopes, hprogram]
    exact h.noVariable

end Resolving

namespace Program

/-- Names lead to the same class in programs with the same classes. -/
theorem SameClasses.typeAlong?_eq {program later : Program} (h : program.SameClasses later)
    (hprogram : program.WellFormed) {fromClass : SymbolId} (hscope : fromClass < program.symbols.size)
    (names : List String) {dotted : Option String} {reached : Option SymbolId} :
    later.typeAlong? fromClass later.memberClass? dotted reached names =
      program.typeAlong? fromClass program.memberClass? dotted reached names := by
  have htype : later.findType? fromClass = program.findType? fromClass :=
    funext (h.findType?_eq hprogram hscope)
  have hmember : later.memberClass? = program.memberClass? :=
    funext fun id => funext (h.memberClass?_eq hprogram id)
  induction names generalizing dotted reached with
  | nil => rfl
  | cons name rest ih => rw [typeAlong?, typeAlong?, ih, htype, hmember]

/-- A dotted name with a head that is found as a type. Where a type is written, it is the first class that
bears the dotted name as its qualified name, in the package or not, and else the class that the chain of
member classes reaches from the head; so it is the latter exactly if no class that bears the name is
another one. In an expression the chain comes first: what it reaches is what the expression denotes, which
denotes another class only behind a missing link, from where a class bears the dotted name. -/
theorem findType?_dotted (unit : CompilationUnit) {fromClass first : SymbolId} {head : String}
    {names : List String} (hclass : (ofUnit unit).IsClass fromClass)
    (hsegments : ∀ segment ∈ head :: names, Text.IsSegment segment) (hnames : names ≠ [])
    (hfirst : (ofUnit unit).findType? fromClass head = some first) :
    let chain := names.foldlM (ofUnit unit).memberClass? first
    let written := (ofUnit unit).findType? fromClass (Text.join "." (head :: names))
    let bearer? (names : List String) :=
      (ofUnit unit).classKnownAs? unit.package (Text.join "." (head :: names))
    written = (bearer? names).or chain ∧
      (written = chain ↔ ∀ type, bearer? names = some type → chain = some type) ∧
      ∀ (draft : TrackedDraft) (expr : Expr), draft.program.WellFormed →
        draft.program.SameClasses (ofUnit unit) → draft.SpellsType fromClass head names expr →
          (∀ type, chain = some type → ((Resolving.resolveExpr expr).run draft).1 = .typeName type) ∧
          ∀ type, ((Resolving.resolveExpr expr).run draft).1 = .typeName type →
            chain = some type ∨ ∃ before after, names = before ++ after ∧
              before.foldlM (ofUnit unit).memberClass? first = none ∧ ∃ named,
                bearer? before = some named ∧ after.foldlM (ofUnit unit).memberClass? named = some type := by
  intro chain written bearer?
  have hbearer (names : List String) : (ofUnit unit).findQualified? (Text.join "." (head :: names)) =
      bearer? names := findQualified?_ofUnit unit _
  have hwritten : written = (bearer? names).or chain := by
    rw [← hbearer]
    exact (findType?_join hsegments hnames).trans (by rw [hfirst]; rfl)
  refine ⟨hwritten, ?_, fun draft expr hdraft hsame hspells => ?_⟩
  · rw [hwritten]
    cases bearer? names with
    | none => simp
    | some named => simpa using eq_comm
  have hscope : fromClass < draft.program.symbols.size := ((hsame.isClass_iff _).mp hclass).lt_size
  have hdenoted : ((Resolving.resolveExpr expr).run draft).1 = .ofType ((ofUnit unit).typeAlong?
      fromClass (ofUnit unit).memberClass? (some head) (some first) names) := by
    rw [hsame.typeAlong?_eq hdraft hscope, ← hfirst, hsame.findType?_eq hdraft hscope]
    exact (Resolving.resolvesTo_spellsType hdraft ((hsame.isClass_iff _).mp hclass) hspells).denotes
  rw [hdenoted]
  refine ⟨fun type htype => by rw [typeAlong?_of_foldlM htype]; rfl, fun type htype => ?_⟩
  have hreached : (ofUnit unit).typeAlong? fromClass (ofUnit unit).memberClass? (some head) (some first)
      names = some type := by
    cases hfound : (ofUnit unit).typeAlong? fromClass (ofUnit unit).memberClass? (some head)
        (some first) names with
    | none => rw [hfound] at htype; cases htype
    | some other =>
        rw [hfound] at htype
        cases htype
        rfl
  rcases foldlM_of_typeAlong? hfirst hsegments hreached with hchain | ⟨before, after, heq, hnone, hnamed⟩
  · exact .inl hchain
  · rw [hbearer] at hnamed
    exact .inr ⟨before, after, heq, hnone, hnamed⟩

/-- A class with the number 26, behind the library and the classes `A` and `A.B`, in which another class
`A` with a class `B` hides them. -/
def hiddenHeadUnit : CompilationUnit :=
  let nested := "class A \x7b class B \x7b \x7d \x7d"
  (ParsedUnit.ofSource (nested ++ " class C \x7b " ++ nested ++ " \x7d").toList).unit

/-- The place in the body of that class. -/
def hiddenHeadDraft : TrackedDraft :=
  Resolving.inside (draftOf hiddenHeadUnit) 26

/-- The dotted name as an expression. -/
def hiddenHeadExpr : Expr :=
  ⟨1, .select ⟨0, .name "A", default⟩ "B", default⟩

/-- What the names mean there. The number of the member class `A` is 27, and 25 and 28 are those of the
classes `B`. -/
private theorem hiddenHead_names : ((ofUnit hiddenHeadUnit).classInfo? 26).isSome ∧
    hiddenHeadUnit.package = none ∧ (ofUnit hiddenHeadUnit).findType? 26 "A" = some 27 ∧
      (ofUnit hiddenHeadUnit).findType? 26 "A.B" = some 25 ∧
        ["B"].foldlM (ofUnit hiddenHeadUnit).memberClass? 27 = some 28 ∧
          hiddenHeadDraft.scopes.lookup "A" ((ofUnit hiddenHeadUnit).findField? · "A") = none ∧
            (ofUnit hiddenHeadUnit).findField? 27 "B" = none := by
  decide +kernel

private theorem isClass_hiddenHead : (ofUnit hiddenHeadUnit).IsClass 26 :=
  Option.isSome_iff_exists.mp hiddenHead_names.1

private theorem program_inside_draftOf (unit : CompilationUnit) (id : SymbolId) :
    (Resolving.inside (draftOf unit) id).program = ofUnit unit := program_draftOf unit

private theorem program_hiddenHeadDraft : hiddenHeadDraft.program = ofUnit hiddenHeadUnit :=
  program_inside_draftOf hiddenHeadUnit 26

private theorem spellsType_hiddenHead :
    hiddenHeadDraft.SpellsType 26 "A" ["B"] hiddenHeadExpr where
  selects := ⟨0, default, .select 1 "B" default .object⟩
  isWord := by decide
  notPrimitive := by decide
  currentClass := rfl
  noVariable := by
    rw [program_hiddenHeadDraft]
    exact hiddenHead_names.2.2.2.2.2.1
  noField before name after type heq hreached := by
    rw [program_hiddenHeadDraft] at hreached ⊢
    obtain ⟨rfl, hrest⟩ | ⟨rest, rfl, hrest⟩ := List.append_eq_cons_iff.mp heq.symm
    · obtain ⟨rfl, rfl⟩ := List.cons.inj hrest
      obtain rfl := Option.some.inj (hiddenHead_names.2.2.1.symm.trans hreached)
      exact hiddenHead_names.2.2.2.2.2.2
    · simp at hrest

theorem findType?_dotted_hiddenHead :
    (ofUnit hiddenHeadUnit).IsClass 26 ∧ (ofUnit hiddenHeadUnit).findType? 26 "A" = some 27 ∧
      ((ofUnit hiddenHeadUnit).findType? 26 "A.B" =
          ["B"].foldlM (ofUnit hiddenHeadUnit).memberClass? 27 ↔
        ∀ type, (ofUnit hiddenHeadUnit).classKnownAs? none "A.B" = some type →
          ["B"].foldlM (ofUnit hiddenHeadUnit).memberClass? 27 = some type) ∧
      ((Resolving.resolveExpr hiddenHeadExpr).run hiddenHeadDraft).1 = .typeName 28 := by
  obtain ⟨-, hpackage, hfirst, -, hchain, -⟩ := hiddenHead_names
  have hname : Text.join "." ["A", "B"] = "A.B" := by decide
  have hdotted := findType?_dotted hiddenHeadUnit isClass_hiddenHead (by decide) (List.cons_ne_nil "B" [])
    hfirst
  dsimp only at hdotted
  rw [hpackage, hname] at hdotted
  have hprogram : hiddenHeadDraft.program.WellFormed :=
    program_hiddenHeadDraft ▸ wellFormed_ofUnit hiddenHeadUnit
  have hsame : hiddenHeadDraft.program.SameClasses (ofUnit hiddenHeadUnit) :=
    program_hiddenHeadDraft ▸ .refl hiddenHeadDraft.program
  exact ⟨isClass_hiddenHead, hfirst, hdotted.2.1,
    (hdotted.2.2 hiddenHeadDraft hiddenHeadExpr hprogram hsame spellsType_hiddenHead).1 28 hchain⟩

/-- A dotted name can mean another class than the chain of member classes from its head. -/
theorem exists_findType?_dotted_ne : (ofUnit hiddenHeadUnit).IsClass 26 ∧
    (ofUnit hiddenHeadUnit).findType? 26 "A" = some 27 ∧
      (ofUnit hiddenHeadUnit).findType? 26 "A.B" ≠
        ["B"].foldlM (ofUnit hiddenHeadUnit).memberClass? 27 := by
  obtain ⟨-, -, hfirst, hwritten, hchain, -⟩ := hiddenHead_names
  refine ⟨isClass_hiddenHead, hfirst, ?_⟩
  rw [hwritten, hchain]
  decide

end Program
end LockDiscipline
