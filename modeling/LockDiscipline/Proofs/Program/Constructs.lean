import Mathlib.Data.List.Flatten
import LockDiscipline.Proofs.Program.Coverage
/-!
# Going through constructs

The steps of the resolver as far as its parts are concerned: recording a use, declaring a variable,
opening a scope, and going from the parts of a construct to the construct itself. Expressions note
their visit before their parts, and a class opens a scope of its own around its members; every other
construct is covered when its parts are.
-/

namespace LockDiscipline

theorem ScopeStack.enclosingClasses_push_of_local (scopes : ScopeStack) {kind : ScopeKind}
    (hkind : kind.class? = none) : (scopes.push kind).enclosingClasses = scopes.enclosingClasses := by
  rw [enclosingClasses_push, hkind]
  rfl

namespace Resolving

open Program (Grows)

/-- What was covered does not depend on more of the drafts than their names and their scopes, and
variables may have been left since. -/
theorem Covered.congr {course course' : Course} {before before' after after' : TrackedDraft}
    (h : Covered course before after) (hseen : course.seen = course'.seen)
    (hprogram : before.program = before'.program) (hvisits : before.visits = before'.visits)
    (hitems : before.scopes.items = before'.scopes.items)
    (hprogram' : after.program = after'.program) (hvisits' : after.visits = after'.visits)
    (hreceivers' : after.receivers = after'.receivers)
    (hdeclaring : Declaring course'.leaves before' after') :
    Covered course' before' after' := by
  have hparts : course.parts = course'.parts := congrArg (List.map _) hseen
  have hclasses : before.scopes.enclosingClasses = before'.scopes.enclosingClasses := by
    rw [ScopeStack.enclosingClasses_eq, hitems, ScopeStack.enclosingClasses_eq]
  refine ⟨?_, fun seen hmem path node hwithin hnode hpath => ?_, ?_, ?_, ?_, hdeclaring, ?_⟩
  · rw [← hvisits, ← hvisits', ← hprogram', ← hclasses, ← hparts]
    exact h.visits
  · rw [← hprogram', ← hparts]
    refine (h.enters seen (hseen ▸ hmem) path node hwithin hnode hpath).imp_right
      fun ⟨entry, hentry⟩ => ⟨entry, ?_⟩
    refine ⟨?_, ?_, ?_, ?_, ?_, ?_, ?_, ?_, ?_, ?_, ?_⟩
    · exact hprogram ▸ hentry.earlier
    · exact hprogram' ▸ hentry.later
    · exact hprogram' ▸ hentry.retained
    · exact hprogram' ▸ hentry.kept
    · exact hprogram ▸ hentry.fresh
    · exact hprogram' ▸ hentry.uses
    · exact fun id hid =>
        (Draft.receiver?_congr hreceivers'.symm id).trans (hentry.receivers id hid)
    · rw [← hprogram', ← hclasses]; exact hentry.classes
    · rw [← hprogram, ← hclasses]; exact hentry.chained
    · rw [← hprogram', ← hitems]; exact hentry.sees
    · exact hvisits' ▸ hentry.visited
  · rw [← hprogram', ← hparts]
    exact h.resolves
  · rw [ScopeStack.currentClass?, ← hclasses, ← hprogram', ← hparts]
    exact h.declared
  · rw [← hprogram, ← hprogram', ← hparts]
    exact h.introduced
  · exact hprogram ▸ hprogram' ▸ h.retained

/-- The draft stays ready in a scope that is not one of a class. -/
theorem Ready.push {ids : List NodeId} {parts : List Part} {draft : TrackedDraft} {kind : ScopeKind}
    (h : Ready ids parts draft) (hkind : kind.class? = none) :
    Ready ids parts { draft with scopes := draft.scopes.push kind } := by
  have hcurrent : (draft.scopes.push kind).currentClass? = draft.scopes.currentClass? :=
    congrArg List.head? (draft.scopes.enclosingClasses_push_of_local hkind)
  exact
    { wellFormed := h.wellFormed
      current := by rw [hcurrent]; exact h.current
      nodup := h.nodup
      declared := by rw [hcurrent]; exact h.declared }

namespace Covers

variable {α : Type} {ids : List NodeId} {course : Course}

theorem setUse (node : NodeId) (id : SymbolId) :
    Covers [node] .nil (Resolving.setUse node id) := by
  refine of_scopes_eq (fun draft _ => .of_change (.use node id)) (fun _ => rfl)
    (fun draft number hnumber => ?_) (fun _ _ _ => rfl) fun _ => rfl
  change (draft.program.setUse node id).use? number = _
  rw [Program.use?_setUse, if_neg (fun heq => hnumber (List.mem_singleton.mpr heq))]

theorem currentClass? : Covers [] .nil Resolving.currentClass? :=
  get.finish fun _ => pure _

/-- A computation in a scope that is not one of a class covers what it does without, and keeps the
variables to itself. -/
theorem inScope {body : Tracked α} (h : Covers ids course body) (kind : ScopeKind)
    (hkind : kind.class? = none) : Covers ids course.confined (inScope kind body) := by
  have hbinds (draft : TrackedDraft) : ScopeStack.Binds [] draft.scopes
      ((Resolving.inScope kind body).run draft).2.scopes := by
    obtain ⟨bindings, hbinds, -⟩ := h.scopes { draft with scopes := draft.scopes.push kind }
    exact .of_eq hbinds.pop
  refine ⟨fun draft => h.grows { draft with scopes := draft.scopes.push kind },
    fun draft => ⟨[], hbinds draft, fun _ => rfl⟩,
    fun draft => h.uses { draft with scopes := draft.scopes.push kind },
    fun draft => h.receivers { draft with scopes := draft.scopes.push kind }, h.sites.confined,
    fun draft hready => ?_⟩
  refine (h.covered { draft with scopes := draft.scopes.push kind } (hready.push hkind)).congr rfl rfl rfl ?_ rfl rfl
    rfl ⟨[], hbinds draft, .nil⟩
  rw [ScopeStack.items_push, hkind]
  rfl

end Covers

/-! ### Declaring variables -/

/-- Variables are declared between two drafts, and uses recorded only for some numbers. -/
structure AddsVariables (ids : List NodeId) (before after : TrackedDraft) : Prop where
  grows : Grows False before.program after.program
  scopes : ∃ bindings, ScopeStack.Binds bindings before.scopes after.scopes
  uses : ∀ id, id ∉ ids → after.program.use? id = before.program.use? id
  visits : after.visits = before.visits
  receivers : after.receivers = before.receivers

namespace AddsVariables

variable {ids : List NodeId} {before middle after : TrackedDraft}

theorem refl (draft : TrackedDraft) : AddsVariables ids draft draft :=
  ⟨.refl _ _, ⟨[], .refl _⟩, fun _ _ => rfl, rfl, rfl⟩

theorem trans (hfirst : AddsVariables ids before middle) (hsecond : AddsVariables ids middle after) :
    AddsVariables ids before after where
  grows := hfirst.grows.trans hsecond.grows
  scopes := by
    obtain ⟨bindings, hbinds⟩ := hfirst.scopes
    obtain ⟨bindings', hbinds'⟩ := hsecond.scopes
    exact ⟨_, hbinds.trans hbinds'⟩
  uses id hid := (hsecond.uses id hid).trans (hfirst.uses id hid)
  visits := hsecond.visits.trans hfirst.visits
  receivers := hsecond.receivers.trans hfirst.receivers

end AddsVariables

section Variables

variable (name : String) (type : Option String) (node : Option NodeId) (span : Span)
  (isParameter : Bool) {draft : TrackedDraft}

/-- Outside all classes no variable is declared. -/
theorem run_declareVariable_of_none (hcurrent : draft.scopes.currentClass? = none) :
    (declareVariable name type node span isParameter).run draft = ((), draft) := by
  rw [declareVariable, run_bind]
  have hrun : Resolving.currentClass?.run draft = (draft.scopes.currentClass?, draft) := rfl
  rw [hrun, hcurrent]
  rfl

/-- A variable gets the next number, is bound in the innermost scope and is recorded for its node. -/
theorem run_declareVariable {context : SymbolId} (hcurrent : draft.scopes.currentClass? = some context) :
    let kind := if isParameter then SymbolKind.parameter context else .localVar context
    let declared := draft.program.declare name kind type none span
    ((declareVariable name type node span isParameter).run draft).2 =
      { draft with
        program := node.elim declared.2 (declared.2.setUse · declared.1)
        scopes := draft.scopes.define name declared.1 } := by
  rw [declareVariable, run_bind]
  have hrun : Resolving.currentClass?.run draft = (draft.scopes.currentClass?, draft) := rfl
  rw [hrun, hcurrent]
  cases node <;> rfl

theorem declareVariable_adds : AddsVariables node.toList draft
    ((declareVariable name type node span isParameter).run draft).2 := by
  cases hcurrent : draft.scopes.currentClass? with
  | none =>
      rw [run_declareVariable_of_none name type node span isParameter hcurrent]
      exact .refl draft
  | some context =>
      rw [run_declareVariable name type node span isParameter hcurrent]
      have hkind : (if isParameter then SymbolKind.parameter context
          else .localVar context).IsVariable := by
        cases isParameter <;> trivial
      have hgrows : Grows False draft.program _ := .of_change (.variable name _ type span hkind)
      cases node with
      | none => exact ⟨hgrows, ⟨_, .define _ _ _⟩, fun _ _ => rfl, rfl, rfl⟩
      | some node =>
          refine ⟨hgrows.trans (.of_change (.use node _)), ⟨_, .define _ _ _⟩, fun number hnumber => ?_,
            rfl, rfl⟩
          refine (Program.use?_setUse _ node _ number).trans (if_neg fun heq => ?_)
          exact hnumber (List.mem_singleton.mpr heq)

/-- The symbol of a variable that is declared in a class. -/
theorem declareVariable_symbol {context : SymbolId}
    (hcurrent : draft.scopes.currentClass? = some context) :
    let after := ((declareVariable name type node span isParameter).run draft).2
    after.program.symbols.size = draft.program.symbols.size + 1 ∧
      ∃ symbol, after.program.symbol? draft.program.symbols.size = some symbol ∧
        symbol.name = name ∧ symbol.isVariable ∧ symbol.span = span := by
  intro after
  have hafter : after = _ := run_declareVariable name type node span isParameter hcurrent
  have hsymbols : after.program.symbols = (draft.program.declare name
      (if isParameter then .parameter context else .localVar context) type none span).2.symbols := by
    rw [hafter]
    cases node <;> rfl
  rw [Program.symbol?, hsymbols]
  refine ⟨Program.size_declare .., _, (Program.symbol?_declare ..).trans (if_pos rfl), rfl, ?_, rfl⟩
  cases isParameter <;> rfl

end Variables

theorem declareLambdaParams_adds (span : Span) (names : List String) (draft : TrackedDraft) :
    AddsVariables [] draft ((declareLambdaParams span names).run draft).2 := by
  induction names generalizing draft with
  | nil => exact .refl draft
  | cons name rest ih =>
      rw [declareLambdaParams, run_bind]
      exact (declareVariable_adds name none none span true).trans (ih _)

/-- The parameters of a lambda are declared one after the other, behind those declared before. -/
theorem declareLambdaParams_declaring (span : Span) (names before : List String) {draft : TrackedDraft}
    {context : SymbolId} (hcurrent : draft.scopes.currentClass? = some context) {first : SymbolId}
    (hsize : draft.program.symbols.size = first + before.length)
    (hbefore : ∀ index param, before[index]? = some param →
      ∃ symbol, draft.program.symbol? (first + index) = some symbol ∧ symbol.name = param ∧
        symbol.isVariable ∧ symbol.span = span) :
    Declaring (VariableSite.ofLambda span before names) draft
      ((declareLambdaParams span names).run draft).2 := by
  induction names generalizing before draft with
  | nil => exact ⟨[], .refl _, .nil⟩
  | cons name rest ih =>
      rw [declareLambdaParams, run_bind]
      have hadds : AddsVariables [] draft _ := declareVariable_adds name none none span true
      have hbinds : ScopeStack.Binds [(name, draft.program.symbols.size)] draft.scopes
          ((declareVariable name none none span true).run draft).2.scopes := by
        rw [run_declareVariable name none none span true hcurrent]
        exact .define _ _ _
      obtain ⟨hsize', hsymbol⟩ := declareVariable_symbol name none none span true hcurrent
      generalize ((declareVariable name none none span true).run draft).2 = declared at *
      have hdeclared : ∀ index param, (before ++ [name])[index]? = some param →
          ∃ symbol, declared.program.symbol? (first + index) = some symbol ∧ symbol.name = param ∧
            symbol.isVariable ∧ symbol.span = span := by
        intro index param hparam
        rcases Nat.lt_or_ge index before.length with hlt | hge
        · rw [List.getElem?_append_left hlt] at hparam
          obtain ⟨symbol, hsymbol, hname, hvariable, hspan⟩ := hbefore index param hparam
          exact ⟨symbol, hadds.grows.symbol?_of_not_class hsymbol
            (symbol.classInfo?_eq_none_of_isVariable hvariable), hname, hvariable, hspan⟩
        · rw [List.getElem?_append_right hge, List.getElem?_singleton] at hparam
          split at hparam
          · obtain rfl := Option.some.inj hparam
            obtain rfl : index = before.length :=
              Nat.le_antisymm (Nat.sub_eq_zero_iff_le.mp (by assumption)) hge
            rwa [hsize] at hsymbol
          · cases hparam
      obtain ⟨bindings, hbinds', hshows⟩ := ih (before ++ [name])
        (hbinds.currentClass?_eq.trans hcurrent) (by rw [hsize', hsize, List.length_append]; rfl)
        hdeclared
      refine ⟨_, hbinds.trans hbinds', ?_⟩
      rw [VariableSite.ofLambda, List.map_append, List.map_append]
      refine List.rel_append hshows (.cons (.variable ?_) .nil)
      have hsite : declared.program.DeclaredAt (.lambda span before name) draft.program.symbols.size :=
        ⟨first, hsize, hdeclared⟩
      exact hsite.mono (declareLambdaParams_adds span rest declared).grows (List.forall_mem_nil _)

namespace Covers

/-- A variable is declared, bound in the innermost scope and recorded for its node. -/
theorem declareVariable (name : String) (type : Option String) (node : NodeId) (span : Span)
    (isParameter : Bool) : Covers [node] (.declares [.node node name])
      (Resolving.declareVariable name type (some node) span isParameter) := by
  have hadds (draft : TrackedDraft) : AddsVariables [node] draft _ :=
    declareVariable_adds name type (some node) span isParameter
  refine of_visits_eq (fun draft _ => (hadds draft).grows)
    (fun draft => (hadds draft).scopes.imp fun _ h => ⟨h, fun hnil => nomatch hnil⟩)
    (fun draft => (hadds draft).uses) (fun draft number _ => Draft.receiver?_congr (hadds draft).receivers number)
    (fun draft => (hadds draft).visits)
    (List.forall_mem_singleton.mpr (List.Subset.refl _)) fun draft hdraft ⟨context, hcurrent⟩ => ?_
  obtain ⟨-, symbol, hsymbol, hname, hvariable, -⟩ :=
    declareVariable_symbol name type (some node) span isParameter hcurrent
  refine ⟨[(name, draft.program.symbols.size)], ?_, .cons (.variable ⟨?_, symbol, hsymbol, hname,
    hvariable⟩) .nil⟩ <;> rw [run_declareVariable name type (some node) span isParameter hcurrent]
  · exact .define _ _ _
  · exact (Program.use?_setUse ..).trans (if_pos rfl)

/-- The parameters of a lambda are declared, for which no uses are recorded. -/
theorem declareLambdaParams (span : Span) (names : List String) :
    Covers [] (.declares (VariableSite.ofLambda span [] names))
      (Resolving.declareLambdaParams span names) := by
  have hadds := declareLambdaParams_adds span names
  refine of_visits_eq (fun draft _ => (hadds draft).grows) (fun draft => ?_)
    (fun draft => (hadds draft).uses) (fun draft number _ => Draft.receiver?_congr (hadds draft).receivers number)
    (fun draft => (hadds draft).visits) (fun site hsite => ?_)
    fun draft _ ⟨context, hcurrent⟩ =>
      declareLambdaParams_declaring span names [] hcurrent rfl fun _ _ h => nomatch h
  · cases names with
    | nil => exact ⟨[], .refl _, fun _ => rfl⟩
    | cons name rest =>
        refine (hadds draft).scopes.imp fun _ h => ⟨h, fun hnil => ?_⟩
        exact absurd hnil (List.append_ne_nil_of_right_ne_nil _ (List.cons_ne_nil _ _))
  · rw [VariableSite.nodes_ofLambda span [] names site hsite]
    exact List.nil_subset _

end Covers

end Resolving

/-! ### From the parts to the construct -/

theorem Part.eq_member_of_classDecl? {role : PartRole} {node : TreeNode} {decl : ClassDecl}
    (hdecl : (⟨role, node⟩ : Part).classDecl? = some decl) (hnode : ∀ decl, node ≠ .classDecl decl) :
    ∃ id span, node = .member ⟨id, .classDecl decl, span⟩ := by
  cases node with
  | classDecl decl => exact absurd rfl (hnode decl)
  | member member =>
      obtain ⟨id, kind, span⟩ := member
      cases kind with
      | classDecl decl' =>
          obtain rfl : decl' = decl := Option.some.inj hdecl
          exact ⟨id, span, rfl⟩
      | _ => cases hdecl
  | _ => cases hdecl

theorem Part.Nests.of_part {role : PartRole} {node : TreeNode} {part : Part}
    (hpart : part ∈ node.parts) (h : part.Nests) : (⟨role, node⟩ : Part).Nests := by
  obtain ⟨index, hindex⟩ := List.getElem?_of_mem hpart
  rcases h with hnested | ⟨path, inner, hwithin, step, hstep, hrole⟩
  · exact .inr ⟨[⟨index, part.role⟩], part.node, .part hindex (.here _), _,
      List.mem_singleton_self _, hnested⟩
  · exact .inr ⟨⟨index, part.role⟩ :: path, inner, .part hindex hwithin, step,
      List.mem_cons_of_mem _ hstep, hrole⟩

theorem Part.Nests.of_within {role role' : PartRole} {outer inner : TreeNode} {path : List PathStep}
    (h : (⟨role, inner⟩ : Part).Nests) (hwithin : Within outer path inner) (hrole : role ≠ .nested) :
    (⟨role', outer⟩ : Part).Nests := by
  rcases h with hnested | ⟨rest, innermost, hrest, step, hstep, hrole'⟩
  · exact absurd hnested hrole
  · exact .inr ⟨path ++ rest, innermost, hwithin.trans hrest, step, List.mem_append_right _ hstep, hrole'⟩

namespace TreeNode

/-- The parts of a construct that the resolver may go into, with what they see of the construct. -/
def resolved (node : TreeNode) : List SeenPart :=
  node.course.seen.filter (·.part.role.isResolved)

theorem mem_resolved {node : TreeNode} {seen : SeenPart} :
    seen ∈ node.resolved ↔ seen ∈ node.course.seen ∧ seen.part.role.isResolved :=
  List.mem_filter

theorem map_resolved (node : TreeNode) :
    node.resolved.map (·.part) = node.parts.filter (·.role.isResolved) := by
  rw [resolved, ← parts_course, Course.parts, List.filter_map]
  rfl

theorem filter_seen {course : Course} (h : ∀ part ∈ course.parts, part.role.isResolved) :
    course.seen.filter (·.part.role.isResolved) = course.seen :=
  List.filter_eq_self.mpr fun seen hseen => h seen.part (Course.mem_parts.mpr ⟨seen, hseen, rfl⟩)

/-- Where the resolver may go into all parts it goes through the whole construct. -/
theorem resolved_eq {node : TreeNode} (h : ∀ part ∈ node.parts, part.role.isResolved) :
    node.resolved = node.course.seen :=
  filter_seen (node.parts_course.symm ▸ h)

/-- None of the arguments of annotations is gone into. -/
theorem filter_modifiers (modifiers : Modifiers) :
    (Course.ofParts modifiers.parts).seen.filter (·.part.role.isResolved) = [] := by
  refine List.filter_eq_nil_iff.mpr fun seen hseen => ?_
  have hpart : seen.part ∈ modifiers.parts :=
    Course.parts_ofParts modifiers.parts ▸ Course.mem_parts.mpr ⟨seen, hseen, rfl⟩
  rw [Modifiers.role_eq_of_mem_parts hpart]
  exact Bool.false_ne_true

/-- Behind annotations everything is gone into as it is without. -/
theorem filter_append_modifiers (modifiers : Modifiers) {course : Course}
    (h : ∀ part ∈ course.parts, part.role.isResolved) :
    (Course.ofParts modifiers.parts ++ course).seen.filter (·.part.role.isResolved) = course.seen := by
  have hleaves : (Course.ofParts modifiers.parts).leaves = [] := Course.leaves_exprParts ..
  rw [Course.seen_append_of_leaves_eq_nil hleaves, List.filter_append, filter_modifiers,
    filter_seen h, List.nil_append]

theorem resolved_expr (expr : Expr) :
    (TreeNode.expr expr).resolved = (expr.kind.course expr.span).seen := by
  refine resolved_eq fun part hpart => ?_
  obtain ⟨id, kind, span⟩ := expr
  cases kind <;> simp only [parts, ExprKind.parts, exprParts] at hpart <;>
    grind [PartRole.isResolved, nestedPart]

theorem resolved_stmt (stmt : Stmt) :
    (TreeNode.stmt stmt).resolved = (stmt.kind.course stmt.id).seen := by
  refine resolved_eq fun part hpart => ?_
  obtain ⟨id, kind, span⟩ := stmt
  cases kind <;> simp only [parts, StmtKind.parts, exprParts, stmtParts] at hpart <;>
    grind [PartRole.isResolved, nestedPart]

theorem nodup_of_resolved {node : TreeNode} {course : Course}
    (hseen : course.seen.Perm node.resolved) (hnodup : node.numbers.Nodup) :
    (node.ownIds ++ numbersOf course.parts).Nodup := by
  have hparts : course.parts.Perm (node.parts.filter (·.role.isResolved)) :=
    (hseen.map _).trans (.of_eq node.map_resolved)
  rw [numbers_eq] at hnodup
  refine (hnodup.sublist ?_).perm ((hparts.flatMap_right _).append_left _).symm
  exact (List.filter_sublist.flatMap _).append_left _

/-- The parts of a construct that are gone through are parts of it. -/
theorem mem_parts_of_resolved {node : TreeNode} {course : Course}
    (hseen : course.seen.Perm node.resolved) {part : Part} (hpart : part ∈ course.parts) :
    part ∈ node.parts ∧ part.role.isResolved := by
  obtain ⟨seen, hmem, rfl⟩ := Course.mem_parts.mp hpart
  obtain ⟨hmem, hrole⟩ := mem_resolved.mp (hseen.mem_iff.mp hmem)
  rw [← parts_course]
  exact ⟨Course.mem_parts.mpr ⟨seen, hmem, rfl⟩, hrole⟩

/-- A class among the parts of a construct is nested there, or is the member that the construct is.
-/
theorem role_eq_of_classDecl? {node : TreeNode} {part : Part} {decl : ClassDecl}
    (hpart : part ∈ node.parts) (hdecl : part.classDecl? = some decl)
    (hnode : ∀ decl, node ≠ .classDecl decl) :
    part.role = .nested ∨ ∃ id span, node = .member ⟨id, .classDecl decl, span⟩ := by
  cases node with
  | expr node =>
      obtain ⟨id, kind, span⟩ := node
      cases kind <;> simp only [parts, ExprKind.parts, exprParts] at hpart <;>
        grind [Part.classDecl?, nestedPart]
  | stmt node =>
      obtain ⟨id, kind, span⟩ := node
      cases kind <;>
        simp only [parts, StmtKind.parts, exprParts, stmtParts, nestedPart] at hpart <;>
        grind [Part.classDecl?]
  | member node =>
      obtain ⟨id, kind, span⟩ := node
      cases kind with
      | classDecl inner =>
          obtain rfl := List.mem_singleton.mp hpart
          obtain rfl : inner = decl := Option.some.inj hdecl
          exact .inr ⟨id, span, rfl⟩
      | _ =>
          simp only [parts, MemberKind.parts, Modifiers.parts, exprParts] at hpart
          grind [Part.classDecl?, nestedPart]
  | code body =>
      rcases body with _ | _ | (_ | _) <;>
        simp only [parts, UnitBody.parts, exprParts, stmtParts] at hpart <;>
        grind [Part.classDecl?]
  | classDecl decl => exact absurd rfl (hnode decl)
  | _ =>
      simp only [parts, Modifiers.parts, exprParts, stmtParts] at hpart
      grind [Part.classDecl?]

end TreeNode

namespace Resolving

open Program (Grows)

variable {α : Type} {course : Course} {role : PartRole} {node : TreeNode}

private theorem nests_of_parts (hseen : course.seen.Perm node.resolved) :
    (∃ part ∈ course.parts, part.Nests) → ∃ part ∈ [(⟨role, node⟩ : Part)], part.Nests := by
  rintro ⟨part, hpart, hnests⟩
  exact ⟨_, List.mem_singleton_self _, hnests.of_part (TreeNode.mem_parts_of_resolved hseen hpart).1⟩

/-- A path into a construct that is no class goes into the classes that its rest goes into. -/
theorem classesAlong_cons {part : Part} {index : Nat} {path : List PathStep}
    {use? : NodeId → Option SymbolId} (hpart : part ∈ node.parts)
    (hclass : ∀ decl, node ≠ .classDecl decl) :
    classesAlong use? (⟨index, part.role⟩ :: path) = classesAlong use? path := by
  rw [classesAlong]
  cases hrole : part.role with
  | member classNode =>
      obtain ⟨decl, -, hnode, -⟩ := TreeNode.eq_classDecl_of_role_eq_member hpart hrole
      exact absurd hnode (hclass decl)
  | _ => exact List.append_nil _

/-- What is seen at the end of a path into a construct that is no class is what its rest sees, and then
what the first part sees of the construct. -/
theorem marks_cons {step : PathStep} {path : List PathStep} {seen : SeenPart}
    (hseen : node.course.seen[step.index]? = some seen) (hrole : seen.part.role = step.role)
    (hclass : ∀ decl, node ≠ .classDecl decl) :
    node.marks (step :: path) = seen.part.node.marks path ++ seen.visible.map .variable := by
  rw [TreeNode.marks_cons hseen]
  have hpart : seen.part ∈ node.parts := by
    rw [← node.parts_course]
    exact Course.mem_parts.mpr ⟨seen, List.mem_of_getElem? hseen, rfl⟩
  cases hstep : step.role with
  | member classNode =>
      obtain ⟨decl, -, hnode, -⟩ :=
        TreeNode.eq_classDecl_of_role_eq_member hpart (hrole.trans hstep)
      exact absurd hnode (hclass decl)
  | _ => exact congrArg (· ++ _) (List.append_nil _)

namespace Covered

variable {before after : TrackedDraft} (h : Covered course before after)
  (hseen : course.seen.Perm node.resolved) (hclass : ∀ decl, node ≠ .classDecl decl)
include h hseen hclass

private theorem visits_under : ∃ visits, after.visits = visits ++ before.visits ∧
    ∀ visit ∈ visits, ∃ path expr, Within node path (.expr expr) ∧
      (∀ step ∈ path, step.role.isResolved) ∧ visit = (expr.id,
        (classesAlong after.program.use? path ++ before.scopes.enclosingClasses).head?) := by
  obtain ⟨visits, hvisits, hvisit⟩ := h.visits
  refine ⟨visits, hvisits, fun visit hmem => ?_⟩
  obtain ⟨part, hpart, path, expr, hwithin, hpath, rfl⟩ := hvisit visit hmem
  obtain ⟨hpart, hrole⟩ := TreeNode.mem_parts_of_resolved hseen hpart
  obtain ⟨index, hindex⟩ := List.getElem?_of_mem hpart
  refine ⟨⟨index, part.role⟩ :: path, expr, .part hindex hwithin,
    List.forall_mem_cons.mpr ⟨hrole, hpath⟩, ?_⟩
  rw [classesAlong_cons hpart hclass]

variable (role) in
private theorem enters_under {step : PathStep} {path : List PathStep} {inner : TreeNode}
    (hwithin : Within node (step :: path) inner) (hentered : inner.isEntered)
    (hpath : ∀ inner ∈ step :: path, inner.role.isResolved) :
    (∃ expr, inner = .expr expr ∧ IsLabelName role (step :: path) expr ∧
      after.program.NamesConstant expr) ∨
    ∃ entry, Enters (∃ part ∈ [(⟨role, node⟩ : Part)], part.Nests) before after (step :: path)
      (node.marks (step :: path)) inner entry := by
  cases hwithin with
  | part hindex hinner =>
      obtain ⟨hrole, hpath⟩ := List.forall_mem_cons.mp hpath
      have hchild := List.mem_of_getElem? hindex
      obtain ⟨⟨part, visible⟩, hmem, hpart⟩ := TreeNode.exists_seen_of_parts hindex
      dsimp only at hpart
      subst hpart
      rw [marks_cons hmem rfl hclass]
      refine (h.enters _ (hseen.mem_iff.mpr (TreeNode.mem_resolved.mpr
        ⟨List.mem_of_getElem? hmem, hrole⟩)) path inner hinner hentered hpath).imp_right
        fun ⟨entry, hentry⟩ => ⟨entry, ?_⟩
      exact
        { hentry with
          earlier := hentry.earlier.mono (nests_of_parts hseen)
          later := hentry.later.mono (nests_of_parts hseen)
          classes := hentry.classes.trans
            (congrArg (· ++ _) (classesAlong_cons hchild hclass).symm) }

private theorem resolves_under {path : List PathStep} {decl : ClassDecl}
    (hwithin : Within node path (.classDecl decl)) (hpath : ∀ step ∈ path, step.role.isCertain) :
    ∃ outer, after.program.Declared outer decl := by
  cases hwithin with
  | here => exact absurd rfl (hclass decl)
  | part hindex hinner =>
      obtain ⟨hrole, hpath⟩ := List.forall_mem_cons.mp hpath
      obtain ⟨seen, hmem, hpart⟩ := TreeNode.exists_seen_of_parts hindex
      have hcourse : seen ∈ course.seen := hseen.mem_iff.mpr (TreeNode.mem_resolved.mpr
        ⟨List.mem_of_getElem? hmem, hpart ▸ PartRole.isResolved_of_isCertain hrole⟩)
      exact h.resolves _ (Course.mem_parts.mpr ⟨seen, hcourse, hpart⟩) _ decl hinner hrole hpath

omit hclass in
private theorem introduced_under {id owner : SymbolId} {symbol : NamedSymbol}
    (hsymbol : after.program.symbol? id = some symbol) (howner : symbol.owner? = some owner) :
    before.program.symbol? id = some symbol ∨
      ∃ part ∈ (Course.one ⟨role, node⟩).parts, after.program.DeclaredIn part.node id := by
  refine (h.introduced id owner symbol hsymbol howner).imp_right fun ⟨part, hpart, hdeclared⟩ => ?_
  obtain ⟨hpart, hrole⟩ := TreeNode.mem_parts_of_resolved hseen hpart
  exact ⟨_, List.mem_singleton_self _, hdeclared.of_part hpart hrole⟩

/-- A construct that is neither an expression nor a class is gone through when its parts are. If it is a
statement then that is what the resolver does with it. -/
theorem of_parts (hleaves : course.leaves = (⟨role, node⟩ : Part).declared)
    (hexpr : ∀ expr, node ≠ .expr expr)
    (hrun : node.isEntered → ((resolveNode node).run before).2 = after) :
    Covered (.one ⟨role, node⟩) before after := by
  obtain ⟨visits, hvisits, hvisit⟩ := h.visits_under hseen hclass
  refine ⟨⟨visits, hvisits, fun visit hmem =>
    ⟨_, List.mem_singleton_self _, hvisit visit hmem⟩⟩, ?_, ?_, ?_,
    fun _ _ _ => h.introduced_under hseen, ?_, h.retained⟩
  · intro seen hmem path inner hwithin hnode hpath
    obtain rfl := List.mem_singleton.mp hmem
    cases path with
    | nil =>
        cases hwithin with
        | here =>
            have hafter := hrun hnode
            refine .inr ⟨before, .refl _ _, ?_, h.retained, ?_, fun _ => rfl, ?_, ?_, rfl, fun h => h,
              ⟨[], .nil, rfl⟩, fun expr hnode => absurd hnode (hexpr expr)⟩ <;> rw [hafter]
            · exact .refl _ _
            · exact .refl _ _
            · exact fun _ _ => rfl
            · exact fun _ _ => rfl
    | cons step path =>
        have hentered := h.enters_under role hseen hclass hwithin hnode hpath
        rwa [← List.append_nil (node.marks _)] at hentered
  · intro part hpart path decl hwithin _ hpath
    obtain rfl := List.mem_singleton.mp hpart
    exact h.resolves_under hseen hclass hwithin hpath
  · intro part hpart decl hdecl
    obtain rfl := List.mem_singleton.mp hpart
    obtain ⟨id, span, rfl⟩ := Part.eq_member_of_classDecl? hdecl hclass
    have hmem : (⟨.declared, .classDecl decl⟩ : Part) ∈ course.parts := by
      have hparts : course.parts.Perm _ := (hseen.map _).trans (.of_eq (TreeNode.map_resolved _))
      exact hparts.mem_iff.mpr (List.mem_singleton_self _)
    exact h.declared ⟨.declared, .classDecl decl⟩ hmem decl rfl
  · rw [Course.leaves_one, ← hleaves]
    exact h.declaring

end Covered

/-- The draft is ready for the parts of a construct if it is for the construct. -/
theorem Ready.of_parts {draft : TrackedDraft}
    (h : Ready [] [⟨role, node⟩] draft) (hseen : course.seen.Perm node.resolved)
    (hrole : role ≠ .nested) (hclass : ∀ decl, node ≠ .classDecl decl) :
    Ready (node.recordedIds role) course.parts draft where
  wellFormed := h.wellFormed
  current := h.current
  nodup := (TreeNode.nodup_of_resolved hseen (by simpa [TreeNode.numbersOf] using h.nodup)).sublist
    ((TreeNode.recordedIds_sublist hclass).append_right _)
  declared part hpart hnested decl hdecl := by
    have hmem := (TreeNode.mem_parts_of_resolved hseen hpart).1
    rcases TreeNode.role_eq_of_classDecl? hmem hdecl hclass with h' | ⟨id, span, rfl⟩
    · exact absurd h' hnested
    · exact h.declared _ (List.mem_singleton_self _) hrole decl rfl

/-- The draft after the visit of an expression is noted. -/
def visiting (draft : TrackedDraft) (id : NodeId) : TrackedDraft :=
  { draft with notes := NoteTaking.visited id draft.scopes.currentClass? draft.notes }

theorem run_resolveExpr (id : NodeId) (kind : ExprKind) (span : Span) (draft : TrackedDraft) :
    (resolveExpr ⟨id, kind, span⟩).run draft =
      (resolveExprKind id span kind).run (visiting draft id) := by
  rw [resolveExpr]
  rfl

/-- What the resolver goes through in a construct that is neither an expression nor a statement nor a class,
and the numbers of the construct itself for which it records uses. -/
structure Unfolds (role : PartRole) (node : TreeNode) (ids : List NodeId) (course : Course) : Prop where
  ids_eq : ids = node.recordedIds role
  seen : course.seen.Perm node.resolved
  leaves : course.leaves = (⟨role, node⟩ : Part).declared
  role_ne : role ≠ .nested
  not_entered : node.isEntered = false
  not_class : ∀ decl, node ≠ .classDecl decl

namespace Covers

theorem uses_of_parts {computation : Tracked α}
    (h : Covers (node.recordedIds role) course computation) (hseen : course.seen.Perm node.resolved)
    (draft : TrackedDraft) (hdraft : draft.program.WellFormed) (id : NodeId)
    (hid : ¬Part.Reached [⟨role, node⟩] id) :
    (computation.run draft).2.program.use? id = draft.program.use? id := by
  rw [Part.Reached.singleton_iff] at hid
  refine h.uses draft hdraft id (fun hmem => hid (.here hmem)) fun ⟨part, hpart, hreaches⟩ => ?_
  obtain ⟨hpart', hrole⟩ := TreeNode.mem_parts_of_resolved hseen hpart
  exact hid (hreaches.of_part hpart' hrole)

theorem receivers_of_parts {computation : Tracked α}
    (h : Covers (node.recordedIds role) course computation) (hseen : course.seen.Perm node.resolved)
    (draft : TrackedDraft) (id : NodeId) (hid : ¬Part.Reached [⟨role, node⟩] id) :
    (computation.run draft).2.receiver? id = draft.receiver? id := by
  rw [Part.Reached.singleton_iff] at hid
  refine h.receivers draft id (fun hmem => hid (.here hmem)) fun ⟨part, hpart, hreaches⟩ => ?_
  obtain ⟨hpart', hrole⟩ := TreeNode.mem_parts_of_resolved hseen hpart
  exact hid (hreaches.of_part hpart' hrole)

private theorem sites_one {part : Part} :
    (Course.one part).SitesIn ([] ++ TreeNode.numbersOf (Course.one part).parts) :=
  (Course.SitesIn.one part).mono fun _ hid =>
    TreeNode.mem_numbersOf_of_mem (List.mem_singleton_self _) hid

private theorem of_parts {computation : Tracked α} (hseen : course.seen.Perm node.resolved)
    (hleaves : course.leaves = (⟨role, node⟩ : Part).declared) (hrole : role ≠ .nested)
    (hexpr : ∀ expr, node ≠ .expr expr) (hclass : ∀ decl, node ≠ .classDecl decl)
    (hrun : ∀ draft, node.isEntered → ((resolveNode node).run draft).2 = (computation.run draft).2)
    (h : Covers (node.recordedIds role) course computation) :
    Covers [] (.one ⟨role, node⟩) computation := by
  refine ⟨fun draft hdraft => (h.grows draft hdraft).mono (nests_of_parts hseen), ?_,
    fun draft hdraft id _ => h.uses_of_parts hseen draft hdraft id,
    fun draft id _ => h.receivers_of_parts hseen draft id, sites_one, fun draft hready => ?_⟩
  · rw [Course.leaves_one, ← hleaves]
    exact h.scopes
  · exact (h.covered draft (hready.of_parts hseen hrole hclass)).of_parts hseen hclass hleaves hexpr
      (hrun draft)

/-- Going through the parts of a construct is going through the construct, unless that is an
expression, a statement or a class. -/
theorem unfold {computation : Tracked α} {ids : List NodeId} (hunfolds : Unfolds role node ids course)
    (h : Covers ids course computation) : Covers [] (.one ⟨role, node⟩) computation := by
  obtain ⟨rfl, hseen, hleaves, hrole, hnode, hclass⟩ := hunfolds
  refine of_parts hseen hleaves hrole ?_ hclass (fun _ hentered => ?_) h
  · rintro expr rfl
    cases hnode
  · rw [hnode] at hentered
    cases hentered

/-- A statement is gone through when its parts are. -/
theorem stmt {id : NodeId} {kind : StmtKind} {span : Span} (role : PartRole) (hrole : role ≠ .nested)
    (h : Covers [id] (kind.course id) (resolveStmt ⟨id, kind, span⟩)) :
    Covers [] (.one ⟨role, .stmt ⟨id, kind, span⟩⟩) (resolveStmt ⟨id, kind, span⟩) :=
  of_parts (.of_eq (TreeNode.resolved_stmt ⟨id, kind, span⟩).symm) (kind.leaves_course id span) hrole nofun
    nofun (fun _ _ => rfl) h

/-- An expression is visited and then its parts are gone through. -/
theorem expr {id : NodeId} {kind : ExprKind} {span : Span} (role : PartRole)
    (hrole : role ≠ .nested) (h : Covers [id] (kind.course span) (resolveExprKind id span kind)) :
    Covers [] (.one ⟨role, .expr ⟨id, kind, span⟩⟩) (resolveExpr ⟨id, kind, span⟩) := by
  have hseen : (kind.course span).seen.Perm (TreeNode.expr ⟨id, kind, span⟩).resolved :=
    .of_eq (TreeNode.resolved_expr ⟨id, kind, span⟩).symm
  have hdeclared : (⟨role, .expr ⟨id, kind, span⟩⟩ : Part).declared = [] := rfl
  have hclass : ∀ decl, TreeNode.expr ⟨id, kind, span⟩ ≠ .classDecl decl := fun _ h => nomatch h
  have hrun := run_resolveExpr id kind span
  refine ⟨fun draft hdraft => ?_, fun draft => ?_,
    fun draft hdraft number _ hnumber => ?_, fun draft number _ hnumber => ?_, sites_one,
    fun draft hready => ?_⟩
  · rw [hrun]
    exact (h.grows (visiting draft id) hdraft).mono (nests_of_parts hseen)
  · rw [hrun]
    refine (h.scopes (visiting draft id)).imp fun _ ⟨hbinds, hnone⟩ => ⟨hbinds, fun _ => ?_⟩
    exact hnone (kind.leaves_course span)
  · have h' : Covers ((TreeNode.expr ⟨id, kind, span⟩).recordedIds role) (kind.course span)
        (resolveExprKind id span kind) := h
    rw [hrun]
    exact h'.uses_of_parts hseen (visiting draft id) hdraft number hnumber
  · have h' : Covers ((TreeNode.expr ⟨id, kind, span⟩).recordedIds role) (kind.course span)
        (resolveExprKind id span kind) := h
    rw [hrun]
    exact h'.receivers_of_parts hseen (visiting draft id) number hnumber
  · have hready' := hready.of_parts hseen hrole hclass
    have hcovered := h.covered (visiting draft id) { hready' with }
    rw [← hrun draft] at hcovered
    obtain ⟨visits, hvisits, hvisit⟩ := hcovered.visits_under hseen hclass
    refine ⟨⟨visits ++ [(id, draft.scopes.currentClass?)], ?_, fun visit hmem =>
      ⟨_, List.mem_singleton_self _, ?_⟩⟩, ?_, ?_, ?_,
      fun _ _ _ => hcovered.introduced_under hseen, ?_, hcovered.retained⟩
    · rw [hvisits, List.append_assoc]
      rfl
    · rcases List.mem_append.mp hmem with hmem | hmem
      · exact hvisit visit hmem
      · obtain rfl := List.mem_singleton.mp hmem
        exact ⟨[], _, .here _, fun _ h => absurd h List.not_mem_nil, rfl⟩
    · intro seen hmem path inner hwithin hnode hpath
      obtain rfl := List.mem_singleton.mp hmem
      cases path with
      | nil =>
          cases hwithin with
          | here =>
              refine .inr ⟨draft, .refl _ _, .refl _ _, hcovered.retained, .refl _ _,
                fun _ => rfl, fun _ _ => rfl, fun _ _ => rfl, rfl, fun h => h, ⟨[], .nil, rfl⟩, ?_⟩
              intro expr hexpr
              obtain rfl := TreeNode.expr.inj hexpr
              rw [hvisits]
              exact List.mem_append_right _ List.mem_cons_self
      | cons step path =>
          have hentered := hcovered.enters_under role hseen hclass hwithin hnode hpath
          rw [← List.append_nil (TreeNode.marks _ _)] at hentered
          exact hentered.imp_right fun ⟨entry, hentry⟩ => ⟨entry, { hentry with }⟩
    · intro part hpart path decl hwithin _ hpath
      obtain rfl := List.mem_singleton.mp hpart
      exact hcovered.resolves_under hseen hclass hwithin hpath
    · intro part hpart decl hdecl
      obtain rfl := List.mem_singleton.mp hpart
      cases hdecl
    · rw [Course.leaves_one, hdeclared, ← kind.leaves_course span]
      exact hcovered.declaring

end Covers

end Resolving
end LockDiscipline
