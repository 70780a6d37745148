import LockDiscipline.Proofs.Program.Entry
import LockDiscipline.Proofs.Program.QualifiedNames
import LockDiscipline.Proofs.Program.Unit
/-!
# The types of variables that are declared with `var`

A variable that is declared with `var` is given the qualified name of the class of its initial value as its
type, and the name is looked up again, from the class around the variable, whenever the type is asked for. So
the type is the class of the initial value only where the lookup leads back to it: a name with a package leads
to the first class that was declared under it, a name without one to what it means where the variable stands.
-/

namespace LockDiscipline

namespace Program

variable {program later : Program}

/-- The class that is found under the qualified name of another one, as a type that is seen from a class. -/
def foundAgain? (program : Program) (context type : SymbolId) : Option SymbolId :=
  (program.qualifiedName? type).bind fun name =>
    (TypeName.base? name).bind (program.findType? context)

/-- The qualified name of a class never changes. -/
theorem Grows.qualifiedName?_eq {classes : Prop} (h : Grows classes program later) {id : SymbolId}
    (hid : id < program.symbols.size) : later.qualifiedName? id = program.qualifiedName? id := by
  obtain ⟨added, hclasses, -⟩ := h.registers.classes
  cases hname : program.qualifiedName? id with
  | some name =>
      refine mem_namedClasses.mp ?_
      rw [hclasses]
      exact List.mem_append_left _ (mem_namedClasses.mpr hname)
  | none =>
      have hinfo : program.classInfo? id = none := Option.map_eq_none_iff.mp hname
      obtain ⟨symbol, hsymbol⟩ : ∃ symbol, program.symbol? id = some symbol :=
        ⟨_, Array.getElem?_eq_getElem hid⟩
      have hnone : symbol.classInfo? = none := by
        rwa [Program.classInfo?, hsymbol, Option.bind_some] at hinfo
      rw [qualifiedName?, Program.classInfo?, h.symbol?_of_not_class hsymbol hnone, Option.bind_some, hnone,
        Option.map_none]

variable (unit : CompilationUnit) {context type : SymbolId} {name : String}

/-- Under a qualified name that has a package the first class is found that was declared under it, and under
one that has none what the name means where it is looked up. -/
theorem foundAgain?_ofUnit (hname : (ofUnit unit).qualifiedName? type = some name)
    (hbase : TypeName.base? name = some name) : (ofUnit unit).foundAgain? context type =
      if Text.IsSegment name then (ofUnit unit).findSimpleType? context name
      else (ofUnit unit).classNamed? name := by
  rw [foundAgain?, hname, Option.bind_some, hbase, Option.bind_some]
  split
  case isTrue hsegment => exact findType?_of_isSegment hsegment context
  case isFalse hdotted =>
    obtain ⟨head, next, rest, hsegments⟩ := Text.exists_segments_of_not_isSegment hdotted
    obtain ⟨first, hfirst⟩ := Option.isSome_iff_exists.mp (isSome_classNamed?.mpr ⟨type, hname⟩)
    rw [findType?, hsegments]
    dsimp only
    rw [findQualified?_ofUnit, classKnownAs?, hfirst, Option.some_or, Option.some_or]

/-- The type of a symbol is a symbol that there is. -/
theorem WellFormed.typeOf?_lt (hprogram : program.WellFormed) {id : SymbolId}
    (h : program.typeOf? id = some type) : type < program.symbols.size := by
  obtain ⟨symbol, -, h⟩ := Option.bind_eq_some_iff.mp h
  split at h
  case isTrue => cases h
  case isFalse =>
    obtain ⟨text, -, h⟩ := Option.bind_eq_some_iff.mp h
    obtain ⟨base, -, h⟩ := Option.bind_eq_some_iff.mp h
    exact hprogram.findType?_lt h

end Program

namespace Resolving

open Program (Grows)

/-! ### The classes of values -/

/-- The class of the value that a computation gives inside a class is a symbol that there is then. -/
def GivesKnown (computation : Tracked Denotation) : Prop :=
  ∀ draft : TrackedDraft, draft.program.WellFormed →
    (∃ self, draft.scopes.currentClass? = some self ∧ self < draft.program.symbols.size) →
    ∀ type, (computation.run draft).1.valueClass? = some type →
      type < (computation.run draft).2.program.symbols.size

namespace GivesKnown

theorem pure {denoted : Denotation} (h : denoted.valueClass? = none) :
    GivesKnown (Pure.pure denoted) := fun _ _ _ _ htype => nomatch htype.symm.trans h

theorem bind {α : Type} {ids : List NodeId} {course : Course} {first : Tracked α}
    {second : α → Tracked Denotation} (hfirst : Covers ids course first)
    (hsecond : ∀ value, GivesKnown (second value)) : GivesKnown (first >>= second) := by
  intro draft hdraft ⟨self, hself, hlt⟩
  have hgrows := hfirst.grows draft hdraft
  exact hsecond _ _ (hgrows.wellFormed hdraft)
    ⟨self, (congrArg List.head? (hfirst.enclosingClasses_eq draft)).trans hself,
      Nat.lt_of_lt_of_le hlt hgrows.size_le⟩

/-- What is denoted may be given after more was done. -/
theorem finish {α : Type} {ids : List NodeId} {course : Course} {first : Tracked Denotation}
    {course' : Course} {second : Tracked α} (hfirst : GivesKnown first) (hcovers : Covers ids course first)
    (hsecond : Covers [] course' second) : GivesKnown (do
      let denoted ← first
      let _ ← second
      return denoted) := by
  intro draft hdraft hself type htype
  have hmiddle := (hcovers.grows draft hdraft).wellFormed hdraft
  exact Nat.lt_of_lt_of_le (hfirst draft hdraft hself type htype) (hsecond.grows _ hmiddle).size_le

/-- The class that is found for a type is a symbol that there is. -/
theorem findTypeHere (type : String) : GivesKnown (do return .value (← Resolving.findTypeHere type)) := by
  intro draft hdraft _ id hid
  rw [run_bind, run_findTypeHere] at hid ⊢
  obtain ⟨context, -, hid⟩ := Option.bind_eq_some_iff.mp hid
  obtain ⟨base, -, hid⟩ := Option.bind_eq_some_iff.mp hid
  exact hdraft.findType?_lt hid

theorem useValue (node : NodeId) (id : SymbolId) : GivesKnown (Resolving.useValue node id) := by
  intro draft hdraft _ type htype
  have hused : (draft.program.setUse node id).WellFormed :=
    (Grows.of_change (.use node id) : Grows False _ _).wellFormed hdraft
  exact hused.typeOf?_lt htype

theorem useType (node : NodeId) (found : Option SymbolId) : GivesKnown (Resolving.useType node found) := by
  intro draft _ _ type htype
  cases found <;> cases htype

theorem useMethod (node : NodeId) (found : Option SymbolId) : GivesKnown (Resolving.useMethod node found) := by
  cases found with
  | none => exact .pure rfl
  | some id => exact useValue node id

theorem resolveName (node : NodeId) (name : String) : GivesKnown (Resolving.resolveName node name) := by
  unfold Resolving.resolveName
  refine .bind (.findVariable name) fun found => ?_
  cases found with
  | some id => exact useValue node id
  | none => exact .bind (.findTypeHere name) fun found => useType node found

/-- That a member is looked up may be kept before. -/
theorem lookIn {rest : Tracked Denotation} (h : GivesKnown rest) (node : NodeId) (type : Option SymbolId) :
    GivesKnown (do
      Resolving.lookIn node type
      rest) :=
  fun draft hdraft hself => h (looking draft node type) hdraft hself

theorem resolveSelect (node : NodeId) (qualifier : Denotation) (name : String)
    (dotted : Option String) : GivesKnown (Resolving.resolveSelect node qualifier name dotted) := by
  unfold Resolving.resolveSelect
  refine lookIn ?_ node qualifier.memberClass?
  cases qualifier.memberClass? with
  | some owner =>
      refine .bind (.ask _) fun field => ?_
      cases field with
      | some field => exact useValue node field
      | none => exact .bind (.ask _) fun found => useType node found
  | none =>
      cases dotted with
      | some dotted => exact .bind (.findTypeHere dotted) fun found => useType node found
      | none => exact .pure rfl

/-- That a type is named may be recorded before its values are given. -/
theorem named {first : Tracked (Option SymbolId)} (h : GivesKnown (do return .value (← first)))
    (node : NodeId) : GivesKnown (do
      let found ← first
      let _ ← Resolving.useType node found
      return .value found) := by
  intro draft hdraft hself type htype
  have hknown := h draft hdraft hself type
  rw [run_bind] at htype hknown ⊢
  cases hfound : (first.run draft).1 <;> rw [hfound] at htype hknown <;> exact hknown htype

/-- A class that is declared where it stands is a symbol from then on. -/
theorem resolveNested (decl : ClassDecl) : GivesKnown (do return .value (← Resolving.resolveNested decl)) := by
  intro draft hdraft _ id hid
  have hnested := declareNested_spec decl hdraft
  have hmiddle := hnested.declares.wellFormed hdraft
  rw [run_bind, run_resolveNested] at hid ⊢
  cases hdeclared : ((declareNested decl).run draft).1 with
  | none => rw [hdeclared] at hid; cases hid
  | some id' =>
      rw [hdeclared] at hid
      obtain rfl : id' = id := Option.some.inj hid
      have hgrows := (covers_resolveMembers decl.members).grows (inside _ id') hmiddle
      exact Nat.lt_of_lt_of_le (hnested.isClass id' hdeclared).lt_size hgrows.size_le

end GivesKnown

mutual

theorem givesKnown_resolveExpr : ∀ expr, GivesKnown (resolveExpr expr)
  | ⟨node, kind, span⟩ => fun draft hdraft hself type => by
    rw [run_resolveExpr]
    exact givesKnown_resolveExprKind node span kind (visiting draft node) hdraft hself type

theorem givesKnown_resolveExprKind (node : NodeId) (span : Span) :
    ∀ kind, GivesKnown (resolveExprKind node span kind)
  | .name name => by
    rw [resolveExprKind]
    exact .resolveName node name
  | .this => by
    rw [resolveExprKind]
    intro draft _ ⟨self, hself, hlt⟩ type htype
    obtain rfl : self = type := Option.some.inj (hself.symm.trans htype)
    exact hlt
  | .super => by
    rw [resolveExprKind]
    intro draft hdraft ⟨self, hself, _⟩ type htype
    obtain ⟨context, -, hsuper⟩ := Option.bind_eq_some_iff.mp htype
    obtain ⟨info, hinfo, hsuperclass⟩ := Option.bind_eq_some_iff.mp hsuper
    refine hdraft.supertype_lt context ?_
    rw [Program.supertypes, hinfo]
    exact List.mem_append_left _ (Option.mem_toList.mpr hsuperclass)
  | .qualifiedThis type => by
    rw [resolveExprKind]
    have hnamed := GivesKnown.named (.findTypeHere type) node
    convert hnamed using 3 with found
    cases found <;> rfl
  | .classLiteral type => by
    rw [resolveExprKind]
    exact .bind (.findTypeHere type) fun found => .bind (.useType node found) fun _ => .pure rfl
  | .select object name => by
    rw [resolveExprKind]
    exact .bind (covers_plain object) fun qualifier => .resolveSelect node qualifier name _
  | .call none method args => by
    rw [resolveExprKind]
    exact .bind (covers_plains args) fun _ =>
      .bind (.findScopedMethod method args.length) fun found => .useMethod node found
  | .call (some receiver) method args => by
    rw [resolveExprKind]
    exact .bind (covers_plains args) fun _ => .bind (covers_plain receiver) fun target =>
      .lookIn (.bind (.ask _) fun found => .useMethod node found) node target.memberClass?
  | .new type args none => by
    rw [resolveExprKind]
    exact .bind (covers_plains args) fun _ => .named (.findTypeHere type) node
  | .new type args (some body) => by
    rw [resolveExprKind]
    exact .bind (covers_plains args) fun _ => .named (.resolveNested body) node
  | .assign op target value => by
    rw [resolveExprKind]
    exact .finish (givesKnown_resolveExpr target) (covers_plain target) (covers_plain value)
  | .conditional cond whenTrue whenFalse => by
    rw [resolveExprKind]
    exact .bind (covers_plain cond) fun _ =>
      .finish (givesKnown_resolveExpr whenTrue) (covers_plain whenTrue) (covers_plain whenFalse)
  | .cast type expr => by
    rw [resolveExprKind]
    exact .bind (covers_plain expr) fun _ => .findTypeHere type
  | .paren inner => by
    rw [resolveExprKind]
    exact givesKnown_resolveExpr inner
  | .newArray element dims none | .newArray element dims (some items) => by
    rw [resolveExprKind]
    intro draft _ _ type htype
    cases htype
  | .arrayInit _ | .index .. | .unary .. | .binary .. | .instanceOf .. | .lambda .. |
    .methodRef .. | .int _ | .float _ | .string _ | .char _ | .bool _ | .null => by
    rw [resolveExprKind]
    intro draft _ _ type htype
    cases htype

end

/-! ### Declarations with `var` -/

/-- A computation adds to a program and records nothing for a node. -/
structure Spares {α : Type} (node : NodeId) (computation : Tracked α) : Prop where
  grows : ∀ draft : TrackedDraft, draft.program.WellFormed →
    Grows True draft.program (computation.run draft).2.program
  use?_eq : ∀ draft : TrackedDraft, draft.program.WellFormed →
    (computation.run draft).2.program.use? node = draft.program.use? node

namespace Spares

variable {α β : Type} {node : NodeId}

theorem of_covers {ids : List NodeId} {course : Course} {computation : Tracked α}
    (h : Covers ids course computation) (hids : node ∉ ids)
    (hparts : node ∉ TreeNode.numbersOf course.parts) : Spares node computation where
  grows draft hdraft := (h.grows draft hdraft).mono fun _ => trivial
  use?_eq draft hdraft := h.uses draft hdraft node hids fun hreached => hparts hreached.mem_numbersOf

theorem updateScopes (change : ScopeStack → ScopeStack) : Spares node (Resolving.updateScopes change) :=
  ⟨fun _ _ => .refl _ _, fun _ _ => rfl⟩

theorem bind {first : Tracked α} {second : α → Tracked β} (hfirst : Spares node first)
    (hsecond : ∀ value, Spares node (second value)) : Spares node (first >>= second) where
  grows draft hdraft :=
    have hgrows := hfirst.grows draft hdraft
    hgrows.trans ((hsecond _).grows _ (hgrows.wellFormed hdraft))
  use?_eq draft hdraft := ((hsecond _).use?_eq _ ((hfirst.grows draft hdraft).wellFormed hdraft)).trans
    (hfirst.use?_eq draft hdraft)

end Spares

theorem resolveDeclarators_append {N : Type} [NoteTaking N] (type : String) (first second : List Declarator) :
    (resolveDeclarators type (first ++ second) : Resolving N Unit) =
      resolveDeclarators type first >>= fun _ => resolveDeclarators type second := by
  induction first with
  | nil => rw [List.nil_append, resolveDeclarators.eq_1]; rfl
  | cons declarator rest ih =>
      obtain ⟨node, name, init, span⟩ := declarator
      cases init <;> simp only [List.cons_append, resolveDeclarators, ih, bind_assoc]

theorem resolveResources_append {N : Type} [NoteTaking N] (first second : List Resource) :
    (resolveResources (first ++ second) : Resolving N Unit) =
      resolveResources first >>= fun _ => resolveResources second := by
  induction first with
  | nil => rw [List.nil_append, resolveResources.eq_1]; rfl
  | cons resource rest ih =>
      obtain ⟨node, type, name, init⟩ := resource
      rw [List.cons_append, resolveResources.eq_2, resolveResources.eq_2, ih]
      cases name <;> simp only [bind_assoc]

end Resolving

open Resolving in
/-- A statement declares a variable with `var`. What the resolver does from the beginning of the statement up
to the initial value of the variable tells what that value denotes. -/
inductive Stmt.Infers : Stmt → NodeId → Tracked Denotation → Prop where
  | localVar (id node : NodeId) (before behind : List Declarator) (name : String) (init : Expr)
      (span span' : Span) :
      Stmt.Infers ⟨id, .localVars "var" (before ++ ⟨node, name, some init, span⟩ :: behind), span'⟩ node (do
        resolveDeclarators "var" before
        resolveExpr init)
  | resource (id node : NodeId) (before behind : List Resource) (body : List Stmt) (catches : List CatchClause)
      (finallyBody : Option (List Stmt)) (name : String) (init : Expr) (span : Span) :
      Stmt.Infers ⟨id, .tryCatch (before ++ ⟨node, some "var", some name, init⟩ :: behind) body catches
          finallyBody, span⟩ node (do
        updateScopes (·.push .block)
        resolveResources before
        resolveExpr init)

/-- What is in one of several parts is in none of those behind it. -/
theorem TreeNode.not_mem_numbersOf_behind {before behind : List Part} {part : Part}
    (hnodup : (numbersOf (before ++ part :: behind)).Nodup) {id : NodeId} (hid : id ∈ part.node.numbers) :
    id ∉ numbersOf behind := by
  rw [numbersOf_append] at hnodup
  exact List.disjoint_of_nodup_append (List.Nodup.of_append_right hnodup) hid

namespace Resolving

/-- What is left of a `try` statement behind one of its resources. -/
def resolveBehind (behind : List Resource) (body : List Stmt) (catches : List CatchClause)
    (finallyBody : Option (List Stmt)) : Tracked Unit := do
  resolveResources behind
  inScope .block (resolveStmts body)
  updateScopes (·.pop)
  resolveCatches catches
  match finallyBody with
  | some body => inScope .block (resolveStmts body)
  | none => return ()

/-- Nothing is recorded there for a node that is in none of the parts. -/
theorem spares_resolveBehind {behind : List Resource} {body : List Stmt} {catches : List CatchClause}
    {finallyBody : Option (List Stmt)} {node : NodeId}
    (hnode : node ∉ TreeNode.numbersOf (behind.map (fun resource => ⟨.plain, .resource resource⟩) ++
      stmtParts (.protectedBy finallyBody) body ++
      catches.map (fun clause => ⟨.protectedBy finallyBody, .catchClause clause⟩) ++
      stmtParts .plain (finallyBody.getD []))) :
    Spares node (resolveBehind behind body catches finallyBody) := by
  simp only [TreeNode.numbersOf_append, List.mem_append, not_or] at hnode
  obtain ⟨⟨⟨hresources, hbody⟩, hcatches⟩, hfinally⟩ := hnode
  have hblock (role : PartRole) (hrole : role ≠ .nested) {body : List Stmt}
      (hbody : node ∉ TreeNode.numbersOf (stmtParts role body)) :
      Spares node (inScope .block (resolveStmts body)) := by
    refine .of_covers ((covers_resolveStmts role hrole body).inScope .block rfl) List.not_mem_nil ?_
    rwa [Course.parts_confined, Course.parts_ofParts]
  have hrest : Spares node (resolveResources behind) := by
    refine .of_covers (covers_resolveResources behind) List.not_mem_nil ?_
    rwa [Course.parts_ofParts]
  have hprotected : PartRole.protectedBy finallyBody ≠ .nested := by simp
  have hhandlers : Spares node (resolveCatches catches) := by
    refine .of_covers (covers_resolveCatches (.protectedBy finallyBody) hprotected catches) List.not_mem_nil ?_
    rwa [Course.parts_ofParts]
  refine .bind hrest fun _ => .bind (hblock (.protectedBy finallyBody) hprotected hbody) fun _ =>
    .bind (.updateScopes _) fun _ => .bind hhandlers fun _ => ?_
  cases finallyBody with
  | some body => exact hblock .plain PartRole.plain_ne_nested hfinally
  | none => exact .of_covers (.pure ()) List.not_mem_nil List.not_mem_nil

end Resolving

namespace Stmt.Infers

open Resolving

variable {stmt : Stmt} {node : NodeId} {denotes : Tracked Denotation} (h : stmt.Infers node denotes)
include h

/-- Up to the initial value the program only grows, and the classes around stay. -/
theorem reaches {draft : TrackedDraft} (hdraft : draft.program.WellFormed) {context : SymbolId}
    (hcontext : draft.scopes.currentClass? = some context) (hlt : context < draft.program.symbols.size) :
    (denotes.run draft).2.program.WellFormed ∧
      (denotes.run draft).2.scopes.currentClass? = some context ∧
      ∀ type, (denotes.run draft).1.valueClass? = some type →
        type < (denotes.run draft).2.program.symbols.size := by
  cases h with
  | localVar id _ before behind name init span span' =>
      have hbefore := covers_resolveDeclarators "var" before
      have hcovers := hbefore.bind fun _ => covers_plain init
      refine ⟨(hcovers.grows draft hdraft).wellFormed hdraft, ?_, ?_⟩
      · exact (congrArg List.head? (hcovers.enclosingClasses_eq draft)).trans hcontext
      · exact GivesKnown.bind hbefore (fun _ => givesKnown_resolveExpr init) draft hdraft ⟨context, hcontext, hlt⟩
  | resource id _ before behind body catches finallyBody name init span =>
      have hbefore := covers_resolveResources before
      have hcovers := hbefore.bind fun _ => covers_plain init
      have hpushed : (draft.scopes.push .block).currentClass? = some context :=
        (congrArg List.head? (draft.scopes.enclosingClasses_push_of_local rfl)).trans hcontext
      let pushed : TrackedDraft := { draft with scopes := draft.scopes.push .block }
      refine ⟨(hcovers.grows pushed hdraft).wellFormed hdraft, ?_, ?_⟩
      · exact (congrArg List.head? (hcovers.enclosingClasses_eq pushed)).trans hpushed
      · exact GivesKnown.bind hbefore (fun _ => givesKnown_resolveExpr init) pushed hdraft ⟨context, hpushed, hlt⟩

/-- Behind the initial value the variable is declared with the class that was found, and then nothing is
recorded for it any more. -/
theorem resolveStmt_eq (hnodup : (TreeNode.stmt stmt).numbers.Nodup) :
    node ∈ (TreeNode.stmt stmt).numbers ∧
    ∃ name span, ∃ rest : Tracked Unit, Spares node rest ∧ resolveStmt stmt = (do
      let denoted ← denotes
      let type ← localType (some "var") denoted
      declareVariable name type (some node) span false
      rest) := by
  rw [TreeNode.numbers_eq] at hnodup
  replace hnodup := List.Nodup.of_append_right hnodup
  cases h with
  | localVar id _ before behind name init span span' =>
      have hparts : (TreeNode.stmt ⟨id, .localVars "var" (before ++ ⟨node, name, some init, span⟩ :: behind),
          span'⟩).parts = before.map (fun declarator => ⟨.plain, .declarator declarator⟩) ++
            ⟨.plain, .declarator ⟨node, name, some init, span⟩⟩ ::
              behind.map fun declarator => ⟨.plain, .declarator declarator⟩ := List.map_append
      have hnode : node ∈ (TreeNode.declarator ⟨node, name, some init, span⟩).numbers :=
        TreeNode.ownIds_subset_numbers (List.mem_singleton_self _)
      refine ⟨TreeNode.mem_numbers_of_part (hparts ▸ List.mem_append_right _ List.mem_cons_self) hnode, ?_⟩
      rw [hparts] at hnodup
      refine ⟨name, span, resolveDeclarators "var" behind,
        .of_covers (covers_resolveDeclarators "var" behind) List.not_mem_nil ?_, ?_⟩
      · rw [Course.parts_ofParts]
        exact TreeNode.not_mem_numbersOf_behind hnodup hnode
      · simp only [resolveStmt, resolveDeclarators_append, resolveDeclarators, bind_assoc]
  | resource id _ before behind body catches finallyBody name init span =>
      have hparts : (TreeNode.stmt ⟨id, .tryCatch (before ++ ⟨node, some "var", some name, init⟩ :: behind) body
          catches finallyBody, span⟩).parts =
          before.map (fun resource => ⟨.plain, .resource resource⟩) ++
            ⟨.plain, .resource ⟨node, some "var", some name, init⟩⟩ ::
              (behind.map (fun resource => ⟨.plain, .resource resource⟩) ++
                stmtParts (.protectedBy finallyBody) body ++
                catches.map (fun clause => ⟨.protectedBy finallyBody, .catchClause clause⟩) ++
                stmtParts .plain (finallyBody.getD [])) := by
        simp [TreeNode.parts, StmtKind.parts]
      have hnode : node ∈ (TreeNode.resource ⟨node, some "var", some name, init⟩).numbers :=
        TreeNode.ownIds_subset_numbers (List.mem_singleton_self _)
      refine ⟨TreeNode.mem_numbers_of_part (hparts ▸ List.mem_append_right _ List.mem_cons_self) hnode, ?_⟩
      rw [hparts] at hnodup
      refine ⟨name, init.span, resolveBehind behind body catches finallyBody,
        spares_resolveBehind (TreeNode.not_mem_numbersOf_behind hnodup hnode), ?_⟩
      cases finallyBody <;> simp only [resolveStmt, resolveBehind, inScope, resolveResources_append,
        resolveResources, bind_assoc, pure_bind]

/-- The variable is given the qualified name of the class of the initial value as its type, if there is one. -/
theorem declared (hnodup : (TreeNode.stmt stmt).numbers.Nodup) {draft : TrackedDraft}
    (hdraft : draft.program.WellFormed) {context : SymbolId}
    (hcontext : draft.scopes.currentClass? = some context) (hlt : context < draft.program.symbols.size) :
    let before := (denotes.run draft).2.program
    let after := ((resolveStmt stmt).run draft).2.program
    Program.Grows True before after ∧ ∃ id symbol, after.use? node = some id ∧ after.symbol? id = some symbol ∧
      symbol.kind = .localVar context ∧
        symbol.type = (denotes.run draft).1.valueClass?.bind before.qualifiedName? := by
  obtain ⟨-, name, span, rest, hrest, heq⟩ := h.resolveStmt_eq hnodup
  obtain ⟨hmiddle, hcontext, -⟩ := h.reaches hdraft hcontext hlt
  intro before after
  let type := (denotes.run draft).1.valueClass?.bind before.qualifiedName?
  have hafter : after = (rest.run ((declareVariable name type (some node) span false).run
      (denotes.run draft).2).2).2.program := by
    rw [show after = ((resolveStmt stmt).run draft).2.program from rfl, heq]
    rfl
  rw [run_declareVariable name type (some node) span false hcontext] at hafter
  have hgrows : Program.Grows True before _ :=
    (declareVariable_adds name type (some node) span false).grows.mono False.elim
  rw [run_declareVariable name type (some node) span false hcontext] at hgrows
  have hdeclared := hgrows.wellFormed hmiddle
  have hlater := hrest.grows _ hdeclared
  have huse := hrest.use?_eq _ hdeclared
  rw [← hafter] at hlater huse
  have hsymbol := hlater.symbol?_of_not_class
    ((before.symbol?_declare name (.localVar context) type none span _).trans (if_pos rfl)) rfl
  exact ⟨hgrows.trans hlater, before.symbols.size, _, huse.trans ((Program.use?_setUse ..).trans (if_pos rfl)),
    hsymbol, rfl, rfl⟩

end Stmt.Infers

namespace Program

open Resolving

theorem typeOf?_localVar {program : Program} {id context : SymbolId} {symbol : NamedSymbol}
    (hsymbol : program.symbol? id = some symbol) (hkind : symbol.kind = .localVar context) :
    program.typeOf? id = symbol.type.bind fun type => (TypeName.base? type).bind (program.findType? context) := by
  have hclass : symbol.isClass = false := by
    rw [NamedSymbol.isClass, NamedSymbol.classInfo?, hkind]
    rfl
  rw [typeOf?, hsymbol, Option.bind_eq_bind, Option.bind_some, hclass, NamedSymbol.contextClass, hkind]
  rfl

end Program

open Program Resolving in
/-- A variable that is declared with `var`, outside annotations, has the type that is found again, from the
class around the variable, for the class of its initial value. -/
def CompilationUnit.InfersTypes (unit : CompilationUnit) : Prop :=
  ∀ decl ∈ unit.types, ∀ path stmt, Within (.classDecl decl) path (.stmt stmt) →
    (∀ step ∈ path, step.role.isResolved) → ∀ node denotes, stmt.Infers node denotes →
      ∃ draft context id, Enters unit.Nests (linkedDraft unit) (draftOf unit) path
          ((TreeNode.classDecl decl).marks path) (.stmt stmt) draft ∧
        (classesAlong (ofUnit unit).use? path).head? = some context ∧ (ofUnit unit).use? node = some id ∧
          (ofUnit unit).typeOf? id =
            (denotes.run draft).1.valueClass?.bind ((ofUnit unit).foundAgain? context)

open Program Resolving in
theorem CompilationUnit.infersTypes {unit : CompilationUnit} (hnodup : unit.numbers.Nodup) :
    unit.InfersTypes := by
  intro decl hdecl path stmt hwithin hpath node denotes hinfers
  obtain ⟨context, hcontext⟩ := exists_head?_classesAlong hnodup hdecl hwithin nofun hpath
  obtain ⟨draft, hentry⟩ := exists_enters_stmt hnodup hdecl hwithin hpath
  have houtside : (linkedDraft unit).scopes.enclosingClasses = [] := by
    rw [scopes_linkedDraft]
    rfl
  have hdraft := hentry.earlier.wellFormed (wellFormed_linkedDraft unit)
  have hclasses : draft.scopes.enclosingClasses = classesAlong (ofUnit unit).use? path := by
    rw [hentry.classes, houtside, List.append_nil, program_draftOf]
  have hcurrent : draft.scopes.currentClass? = some context := by
    rw [ScopeStack.currentClass?, hclasses, hcontext]
  have hchain := hentry.chained (by rw [houtside]; trivial)
  have hlt := (hchain.isClass context (List.mem_of_head? hcurrent)).lt_size
  have hstmt : (TreeNode.stmt stmt).numbers.Nodup :=
    hnodup.sublist (hwithin.numbers_sublist.trans (unit.numbers_sublist hdecl))
  obtain ⟨hgrows, id, symbol, hid, hsymbol, hkind, htype⟩ := hinfers.declared hstmt hdraft hcurrent hlt
  have hlater : Grows True ((resolveStmt stmt).run draft).2.program (ofUnit unit) :=
    program_draftOf unit ▸ hentry.later.mono fun _ => trivial
  have hnotClass : symbol.classInfo? = none := by
    rw [NamedSymbol.classInfo?, hkind]
  have hnode := hentry.uses node (hinfers.resolveStmt_eq hstmt).1
  rw [program_draftOf] at hnode
  refine ⟨draft, context, id, hentry, hcontext, hnode.trans hid, ?_⟩
  rw [typeOf?_localVar (hlater.symbol?_of_not_class hsymbol hnotClass) hkind, htype, Option.bind_assoc]
  refine Option.bind_congr fun type hvalue => ?_
  obtain ⟨-, -, hknown⟩ := hinfers.reaches hdraft hcurrent hlt
  rw [foundAgain?, (hgrows.trans hlater).qualifiedName?_eq (hknown type hvalue)]

/-- A variable that is declared with `var` has the class of its initial value as its type just where this class
is found again by its qualified name: where it was declared first under it, or where a name without a package
means it as seen from the class around the variable. -/
theorem ParsedUnit.infersTypes_ofTokens (tokens : List Token) :
    let unit := (ofTokens tokens).unit
    unit.InfersTypes ∧ ∀ context type name, (Program.ofUnit unit).qualifiedName? type = some name →
      (TypeName.base? name = none → (Program.ofUnit unit).foundAgain? context type = none) ∧
      (TypeName.base? name = some name → ((Program.ofUnit unit).foundAgain? context type = some type ↔
        if Text.IsSegment name then (Program.ofUnit unit).findSimpleType? context name = some type
        else (Program.ofUnit unit).classNamed? name = some type)) := by
  intro unit
  refine ⟨CompilationUnit.infersTypes (nodup_numbers_ofTokens tokens), fun context type name hname =>
    ⟨fun hbase => ?_, fun hbase => ?_⟩⟩
  · rw [Program.foundAgain?, hname, Option.bind_some, hbase, Option.bind_none]
  · rw [Program.foundAgain?_ofUnit unit hname hbase]
    split <;> rfl

/-- A class whose member class has the simple name of another class, which a field that it inherits is of. -/
def hidingMemberTokens : List Token :=
  (Lexer.tokenize ("class A \x7b @GuardedBy(\"this\") int n; \x7d class D \x7b A f; \x7d " ++
    "class C extends D \x7b class A \x7b \x7d void g() \x7b var x = f; x.n = 1; \x7d \x7d").toList).tokens

/-- The nodes of a single variable that is declared with `var` and of its initial value, which is a name. -/
private def inferred? : TreeNode → Option (NodeId × NodeId)
  | .stmt ⟨_, .localVars "var" [⟨node, _, some ⟨init, .name _, _⟩, _⟩], _⟩ => some (node, init)
  | _ => none

private theorem eq_of_inferred? {node : TreeNode} {found : NodeId × NodeId} (h : inferred? node = some found) :
    ∃ id name init span span',
      node = .stmt ⟨id, .localVars "var" [⟨found.1, name, some init, span⟩], span'⟩ ∧ init.id = found.2 := by
  unfold inferred? at h
  split at h
  · obtain rfl := Option.some.inj h
    exact ⟨_, _, _, _, _, rfl, rfl⟩
  · cases h

private theorem hidingMember_resolved :
    let unit := (ParsedUnit.ofTokens hidingMemberTokens).unit
    ∃ decl ∈ unit.types, ∃ place ∈ (TreeNode.classDecl decl).places,
      ∃ found ∈ (inferred? place.node).toList, ∃ id ∈ ((Program.ofUnit unit).use? found.1).toList,
        ∃ field ∈ ((Program.ofUnit unit).use? found.2).toList,
          ∃ type ∈ ((Program.ofUnit unit).typeOf? field).toList,
            place.path.all (·.role.isResolved) ∧ (Program.ofUnit unit).typeOf? id ≠ some type := by
  decide +kernel

private theorem hidingMember_names :
    (Program.ofUnit (ParsedUnit.ofTokens hidingMemberTokens).unit).qualifiedName? 24 = some "A" ∧
      (Program.ofUnit (ParsedUnit.ofTokens hidingMemberTokens).unit).findSimpleType? 28 "A" = some 29 := by
  decide +kernel

open Program Resolving in
theorem infersTypes_hidingMemberTokens :
    let unit := (ParsedUnit.ofTokens hidingMemberTokens).unit
    (ofUnit unit).foundAgain? 28 24 ≠ some 24 ∧
    ∃ decl ∈ unit.types, ∃ path stmt node denotes, Within (.classDecl decl) path (.stmt stmt) ∧
      stmt.Infers node denotes ∧ ∃ draft context id, Enters unit.Nests (linkedDraft unit) (draftOf unit) path
          ((TreeNode.classDecl decl).marks path) (.stmt stmt) draft ∧ (ofUnit unit).use? node = some id ∧
        (ofUnit unit).typeOf? id =
          (denotes.run draft).1.valueClass?.bind ((ofUnit unit).foundAgain? context) := by
  obtain ⟨hinfers, hagain⟩ := ParsedUnit.infersTypes_ofTokens hidingMemberTokens
  obtain ⟨hname, hfound⟩ := hidingMember_names
  refine ⟨fun h => ?_, ?_⟩
  · have hmeans := ((hagain 28 24 "A" hname).2 (by decide)).mp h
    rw [if_pos (by decide), hfound] at hmeans
    exact absurd hmeans (by decide)
  · obtain ⟨decl, hdecl, ⟨path, node⟩, hplace, found, hfound, -, -, -, -, -, -, hpath, -⟩ := hidingMember_resolved
    obtain ⟨id, name, init, span, span', rfl, -⟩ := eq_of_inferred? (Option.mem_toList.mp hfound)
    have hstmt : Stmt.Infers ⟨id, .localVars "var" [⟨found.1, name, some init, span⟩], span'⟩ found.1 _ :=
      .localVar id found.1 [] [] name init span span'
    have hwithin := TreeNode.mem_places.mp hplace
    obtain ⟨draft, context, declared, hentry, -, hdeclared, htype⟩ :=
      hinfers decl hdecl path _ hwithin (List.all_eq_true.mp hpath) _ _ hstmt
    exact ⟨decl, hdecl, path, _, _, _, hwithin, hstmt, draft, context, declared, hentry, hdeclared, htype⟩

/-- A variable that is declared with `var` can have another type than its initial value: the name of a class is
looked up anew where the variable stands, and a member class with the name is nearer there. -/
theorem exists_typeOf?_var_ne :
    let unit := (ParsedUnit.ofTokens hidingMemberTokens).unit
    (ParsedUnit.ofTokens hidingMemberTokens).errors = [] ∧
    ∃ decl ∈ unit.types, ∃ path id node name init span span', Within (.classDecl decl) path
        (.stmt ⟨id, .localVars "var" [⟨node, name, some init, span⟩], span'⟩) ∧
      ∃ declared field type, (Program.ofUnit unit).use? node = some declared ∧
        (Program.ofUnit unit).use? init.id = some field ∧
        (Program.ofUnit unit).typeOf? field = some type ∧
          (Program.ofUnit unit).typeOf? declared ≠ some type := by
  refine ⟨by decide +kernel, ?_⟩
  obtain ⟨decl, hdecl, ⟨path, node⟩, hplace, found, hfound, declared, hdeclared, field, hfield, type, htype, -, hne⟩ :=
    hidingMember_resolved
  obtain ⟨id, name, init, span, span', rfl, hinit⟩ := eq_of_inferred? (Option.mem_toList.mp hfound)
  exact ⟨decl, hdecl, path, id, found.1, name, init, span, span', TreeNode.mem_places.mp hplace, declared, field,
    type, Option.mem_toList.mp hdeclared, hinit ▸ Option.mem_toList.mp hfield, Option.mem_toList.mp htype, hne⟩

end LockDiscipline
