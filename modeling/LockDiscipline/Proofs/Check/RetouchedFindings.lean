import LockDiscipline.Proofs.Check.Monitors
import LockDiscipline.Proofs.Lock.Roots
import LockDiscipline.Proofs.Program.RetouchedBodies
/-!
# Findings in retouched code

A retouch that moves places and changes nothing else moves the places in the reports and changes nothing else
there: the findings of both rules and the problems with names are the same ones at their new places, and they
come in the same order if the new places do. Places are looked at in two ways only. A declaration is shown if
its span is not empty, and findings are sorted by where they begin; a retouch that respects this for spans of
constructs is said to be orderly.
-/

namespace LockDiscipline

/-- A label at another place. -/
def Label.displace (move : Span → Span) (label : Label) : Label :=
  { label with span := move label.span }

/-- A finding with its labels at other places. -/
def Diagnostic.displace (move : Span → Span) (finding : Diagnostic) : Diagnostic :=
  { finding with labels := finding.labels.map (·.displace move) }

/-- All places that a finding shows cover tokens. -/
def Diagnostic.Covers (tokens : List Token) (finding : Diagnostic) : Prop :=
  ∀ label ∈ finding.labels, label.span.Covers tokens

/-- A retouch that only moves constructs, keeps them from being empty, and keeps the order in which they
begin. -/
structure Retouch.Orderly (retouch : Retouch) (tokens : List Token) : Prop where
  keywords : ∀ id keywords, retouch.keywords id keywords = keywords
  lt : ∀ span : Span, span.Covers tokens → (retouch.span span).start < (retouch.span span).stop
  le_iff : ∀ first second : Span, first.Covers tokens → second.Covers tokens →
    ((retouch.span first).start ≤ (retouch.span second).start ↔ first.start ≤ second.start)

theorem Retouch.Orderly.regular {retouch : Retouch} {tokens : List Token} (h : retouch.Orderly tokens) :
    retouch.Regular := by
  intro id keywords
  rw [h.keywords]

/-! ### Places in findings -/

section Places

variable {tokens : List Token} {unit : CompilationUnit} (h : unit.SpansNest tokens)
include h

/-- A member with a guard is declared where a construct stands. -/
theorem CodeUnit.covers_member {visiting : CodeUnit} {access : Access}
    (haccess : access ∈ visiting.accesses (.ofUnit unit)) : access.member.span.Covers tokens := by
  have hregular : (Retouch.dislodge tokens).Regular := fun _ _ => rfl
  obtain ⟨text, -, -, hmember, -⟩ := guarded_of_mem_accesses haccess
  have haccessed := Viewpoint.accessed_of_guardedMember? hmember
  obtain ⟨id, -, hsymbol⟩ := Option.bind_eq_some_iff.mp haccessed.use_eq
  apply Program.covers_of_own h _ hsymbol
  apply (Program.matches_ofUnit hregular unit).apart.guarded hsymbol
  rw [haccessed.guard_eq]
  nofun

/-- What is accessed stands in the tree. -/
theorem CompilationUnit.SpansNest.covers_of_visits {visiting : CodeUnit} (hvisiting : visiting ∈ unit.bodies)
    {expr : Expr} (hvisits : visiting.Visits expr) : expr.span.Covers tokens := by
  obtain ⟨outer, inner, houter, -, hinner, -⟩ := CompilationUnit.exists_hasAt_of_visits hvisiting hvisits
  exact h.covers _ _ (houter.trans hinner) expr.span (List.mem_singleton_self _)

/-- The annotation that declares a guard stands on a member. -/
theorem CompilationUnit.SpansNest.covers_of_declaredGuard {declaring : ClassUnit}
    (hdeclaring : declaring ∈ (CodeUnits.ofUnit (.ofUnit unit) unit).classes) {declared : DeclaredGuard}
    (hdeclared : declared ∈ declaring.guards (.ofUnit unit)) :
    declared.declaration.span.Covers tokens := by
  obtain ⟨outer, houter, path, hwithin, -⟩ := CompilationUnit.mem_classes.mp hdeclaring
  obtain ⟨⟨number, kind, span⟩, hmember, hdeclared⟩ := List.mem_filterMap.mp hdeclared
  obtain ⟨modifiers, node, hcarrier, huse, -⟩ := DeclaredGuard.ofMember?_eq_some.mp hdeclared
  have hpart : (⟨.member declaring.decl.id, .member ⟨number, kind, span⟩⟩ : Part) ∈
      (TreeNode.classDecl declaring.decl).parts :=
    List.mem_append_right _ (List.mem_map_of_mem hmember)
  obtain ⟨step, hstep⟩ := TreeNode.exists_within_of_mem hpart
  obtain ⟨path, hat⟩ := CompilationUnit.exists_hasAt houter (hwithin.trans hstep)
  have hannotation : declared.declaration ∈ modifiers.annotations := List.mem_of_find?_eq_some huse
  apply (h.annotated _ _ hat declared.declaration _).1
  cases kind with
  | field known type declarators =>
      cases declarators with
      | nil => cases hcarrier
      | cons declarator rest =>
          obtain ⟨rfl, -⟩ := Prod.mk.inj (Option.some.inj hcarrier)
          exact hannotation
  | method decl =>
      obtain ⟨rfl, -⟩ := Prod.mk.inj (Option.some.inj hcarrier)
      exact hannotation
  | _ => cases hcarrier

end Places

/-! ### Accesses without their lock -/

/-- An access is reported at its new place, with the same locks, and it shows its declaration if it did
before. -/
theorem Access.Matches.diagnostic_eq {retouch : Retouch} {access access' : Access}
    (h : Access.Matches retouch (· = ·) access access')
    (hshown : (retouch.span access.member.span).isEmpty = access.member.span.isEmpty) :
    access'.diagnostic = access.diagnostic.displace retouch.span := by
  obtain ⟨hexpr, hmember, hrequired, hheld⟩ := h
  have hlabels : access'.guardLabels = access.guardLabels.map (·.displace retouch.span) := by
    simp only [Access.guardLabels, hmember.span_eq, hmember.guard_eq, hshown]
    split <;> rfl
  have hplace : access'.expr.span = retouch.span access.expr.span := by
    rw [hexpr, Expr.span_retouch]
  simp only [Access.diagnostic, Access.word, Access.memberText, Access.heldNote, hlabels, hplace,
    hmember.name_eq, hmember.isMethod_eq, hrequired, ← hheld]
  rfl

theorem Span.isEmpty_eq_false {span : Span} (h : span.start < span.stop) : span.isEmpty = false :=
  decide_eq_false (Nat.not_le_of_lt h)

section Findings

variable {tokens : List Token} {unit : CompilationUnit} (hnodup : unit.numbers.Nodup)
  (hspans : unit.SpansNest tokens) {retouch : Retouch} [retouch.KeepsNames] (horderly : retouch.Orderly tokens)
include hnodup hspans horderly

/-- The findings in a unit of code are the same ones at their new places. -/
theorem CodeUnit.findings_retouch {visiting : CodeUnit} (hvisiting : visiting ∈ unit.bodies) :
    (visiting.retouch retouch).findings (.ofUnit (unit.retouch retouch)) =
      (visiting.findings (.ofUnit unit)).map (·.displace retouch.span) := by
  have hmatches := Program.matches_ofUnit horderly.regular unit
  have hentry := CompilationUnit.entryLocks_retouch hnodup horderly.regular hvisiting fun _ _ => by
    rw [horderly.keywords]
  have haccesses : List.Forall₂ (Access.Matches retouch (· = ·)) (visiting.accesses (.ofUnit unit))
      ((visiting.retouch retouch).accesses (.ofUnit (unit.retouch retouch))) :=
    visiting.accesses_retouch hmatches fun path => by rw [hentry]
  have hcovers : ∀ access ∈ visiting.accesses (.ofUnit unit), access.member.span.Covers tokens :=
    fun _ haccess => covers_member hspans haccess
  simp only [findings]
  generalize visiting.accesses (.ofUnit unit) = accesses at haccesses hcovers ⊢
  generalize (visiting.retouch retouch).accesses (.ofUnit (unit.retouch retouch)) = accesses' at haccesses ⊢
  induction haccesses with
  | nil => rfl
  | @cons access access' rest rest' haccess hrest ih =>
      have hplace := hcovers access List.mem_cons_self
      have hdiagnostic := haccess.diagnostic_eq <| by
        rw [Span.isEmpty_eq_false hplace.lt, Span.isEmpty_eq_false (horderly.lt _ hplace)]
      have hsatisfied : access'.isSatisfied = access.isSatisfied := by
        rw [Access.isSatisfied, haccess.required, ← haccess.held, Access.isSatisfied]
      have htail := ih fun access hmem => hcovers access (List.mem_cons_of_mem _ hmem)
      rw [List.filter_cons, List.filter_cons, hsatisfied]
      cases access.isSatisfied
      · simpa [hdiagnostic] using htail
      · simpa using htail

end Findings

/-! ### Guards that name no lock -/

/-- A declared guard retouched. -/
def DeclaredGuard.retouch (retouch : Retouch) (declared : DeclaredGuard) : DeclaredGuard :=
  { declared with declaration := declared.declaration.retouch retouch }

namespace DeclaredGuard

/-- What carries a guard carries the retouched annotations of it. -/
theorem carrier?_cases (retouch : Retouch) (kind : MemberKind) :
    (carrier? kind = none ∧ carrier? (kind.retouch retouch) = none) ∨
      ∃ modifiers modifiers' node, carrier? kind = some (modifiers, node) ∧
        carrier? (kind.retouch retouch) = some (modifiers', node) ∧
          modifiers'.annotations = modifiers.annotations.map (·.retouch retouch) := by
  cases kind with
  | field modifiers type declarators =>
      cases declarators with
      | nil => exact .inl ⟨rfl, rfl⟩
      | cons declarator rest =>
          refine .inr ⟨modifiers, modifiers.retouch retouch, declarator.id, rfl, ?_,
            modifiers.annotations_retouch retouch⟩
          simp only [MemberKind.retouch, retouchDeclarators, carrier?, Declarator.id_retouch]
  | method decl =>
      obtain ⟨id, name, modifiers, typeParams, returnType, params, throws, body, span⟩ := decl
      exact .inr ⟨modifiers, _, id, rfl, rfl, modifiers.annotations_retouch retouch⟩
  | initializer isStatic body | classDecl decl | enumConstant name args body => exact .inl ⟨rfl, rfl⟩

variable {retouch : Retouch} {program program' : Program}

theorem ofMember?_retouch (h : program.Matches retouch.span program') (member : Member) :
    ofMember? program' (member.retouch retouch) = (ofMember? program member).map (·.retouch retouch) := by
  simp only [ofMember?, Member.kind_retouch]
  rcases carrier?_cases retouch member.kind with
    ⟨hnone, hnone'⟩ | ⟨modifiers, modifiers', node, hsome, hsome', hannotations⟩
  · rw [hnone, hnone']
    rfl
  · simp only [hsome, hsome', Option.bind_eq_bind, Option.bind_some,
      Retouch.guardUse?_of_annotations retouch hannotations, h.use?_eq]
    cases modifiers.guardUse? with
    | none => rfl
    | some use =>
        simp only [Option.map_some, Option.bind_some, Retouch.value?_use]
        cases use.value? with
        | none => rfl
        | some guard =>
            simp only [Option.bind_some]
            split <;> rfl

end DeclaredGuard

/-- What is selected from numbered items and told of them does not depend on a change that concerns neither. -/
private theorem map_filter_mapIdx {α β : Type} {test : α → Bool} {tell : α → β} (items : List α)
    {change : Nat → α → α} (htest : ∀ index item, test (change index item) = test item)
    (htell : ∀ index item, tell (change index item) = tell item) :
    ((items.mapIdx change).filter test).map tell = (items.filter test).map tell := by
  induction items generalizing change with
  | nil => rfl
  | cons item rest ih =>
      have hrest : ((rest.mapIdx fun index => change (index + 1)).filter test).map tell =
          (rest.filter test).map tell := ih (fun _ => htest _) fun _ => htell _
      rw [List.mapIdx_cons, List.filter_cons, List.filter_cons, htest]
      split
      · rw [List.map_cons, List.map_cons, htell, hrest]
      · exact hrest

namespace Viewpoint.Matches

variable {move : Span → Span} {view view' : Viewpoint} (h : view.Matches move view')
include h

/-- The names for a suggestion do not depend on places. -/
theorem fieldNames_eq : view'.fieldNames = view.fieldNames := by
  have hnames := h.program.congr (fun program => Viewpoint.fieldNames ⟨program, view.self⟩) <| by
    intro move program
    simp only [fieldNames, enclosing, Program.enclosing_recast]
    rw [Program.recast, Array.toList_mapIdx]
    apply map_filter_mapIdx
    · intro index symbol
      rw [NamedSymbol.isField_recast, NamedSymbol.owner?_recast]
    · intro index symbol
      rw [NamedSymbol.name_recast]
  obtain ⟨program', self'⟩ := view'
  obtain rfl : self' = view.self := h.self
  exact hnames

theorem guardAdvice?_eq {retouch : Retouch} (declared : DeclaredGuard) :
    view'.guardAdvice? (declared.retouch retouch) = view.guardAdvice? declared := by
  simp only [guardAdvice?, h.fieldNames_eq]
  rfl

end Viewpoint.Matches

namespace ClassUnit

variable {retouch : Retouch} {program program' : Program} (h : program.Matches retouch.span program')
include h

theorem guards_retouch (unit : ClassUnit) :
    (unit.retouch retouch).guards program' = (unit.guards program).map (·.retouch retouch) := by
  have hmembers : (unit.retouch retouch).decl.members = unit.decl.members.map (·.retouch retouch) :=
    unit.decl.members_retouch retouch
  rw [guards, hmembers, List.filterMap_map, guards, List.map_filterMap]
  congr 1
  funext member
  exact DeclaredGuard.ofMember?_retouch h member

theorem name_retouch (unit : ClassUnit) : (unit.retouch retouch).name program' = unit.name program := by
  have hsymbol := congrArg (Option.map (·.name)) (h.symbol?_map unit.id)
  simp only [Option.map_map, Function.comp_def, NamedSymbol.name_recast] at hsymbol
  show ((program'.symbol? unit.id).map (·.name)).getD (unit.decl.retouch retouch).name = unit.name program
  rw [hsymbol, ClassDecl.name_retouch, name]

/-- The findings on the guards of a class are the same ones at their new places. -/
theorem guardFindings_retouch (severity : Severity) (unit : ClassUnit) :
    (unit.retouch retouch).guardFindings program' severity =
      (unit.guardFindings program severity).map (·.displace retouch.span) := by
  have hview : (unit.view program).Matches retouch.span ((unit.retouch retouch).view program') := ⟨h, rfl⟩
  rw [guardFindings, guards_retouch h, List.filterMap_map, guardFindings, List.map_filterMap]
  congr 1
  funext declared
  have hguard : (declared.retouch retouch).guard = declared.guard := rfl
  have hplace : (declared.retouch retouch).declaration.span = retouch.span declared.declaration.span :=
    declared.declaration.span_retouch retouch
  simp only [Function.comp_def, hguard, hview.bindGuard_eq]
  cases (unit.view program).bindGuard declared.guard with
  | ok lock => rfl
  | error error =>
      simp only [guardDiagnostic, hview.guardAdvice?_eq, name_retouch h, hplace]
      rfl

end ClassUnit

/-! ### All findings -/

/-- A problem with names is reported at its new places. -/
theorem NameProblem.diagnostic_recast (move : Span → Span) (problem : NameProblem) :
    (problem.recast move).diagnostic = problem.diagnostic.displace move := by
  cases problem <;> rfl

/-- The problems with names in a retouched unit are those in the unit at their new places. -/
theorem Program.Matches.problems_eq {move : Span → Span} {program program' : Program}
    (h : program.Matches move program') :
    program'.problems = program.problems.map (·.recast move) := by
  have hproblems : program'.problems.map (·.recast id) = program.problems.map (·.recast move) :=
    congrArg (·.problems) h.recast_eq
  have hself : NameProblem.recast id = id := by
    funext problem
    cases problem <;> rfl
  rwa [hself, List.map_id] at hproblems

namespace CheckSubject

section Order

variable {tokens : List Token} {retouch : Retouch} (h : retouch.Orderly tokens)
include h

/-- Findings come in the order of their places, new or old. -/
theorem sortKey_displace_le {first second : Diagnostic} (hfirst : first.Covers tokens)
    (hsecond : second.Covers tokens) :
    (sortKey (first.displace retouch.span) ≤ sortKey (second.displace retouch.span) ↔
      sortKey first ≤ sortKey second) := by
  have hprimary (finding : Diagnostic) : (finding.displace retouch.span).primarySpan? =
      finding.primarySpan?.map retouch.span := by
    simp only [Diagnostic.primarySpan?, Diagnostic.displace, List.find?_map, List.head?_map,
      ← Option.map_or, Option.map_map]
    rfl
  have hcovers {finding : Diagnostic} (hfinding : finding.Covers tokens) {span : Span}
      (hspan : finding.primarySpan? = some span) : span.Covers tokens := by
    obtain ⟨label, hlabel, rfl⟩ := Option.map_eq_some_iff.mp hspan
    rcases Option.or_eq_some_iff.mp hlabel with hfound | ⟨-, hhead⟩
    · exact hfinding label (List.mem_of_find?_eq_some hfound)
    · exact hfinding label (List.mem_of_mem_head? hhead)
  simp only [sortKey, hprimary]
  cases hone : first.primarySpan? with
  | none => simp
  | some span =>
      cases hother : second.primarySpan? with
      | none => simp
      | some span' =>
          have hle := h.le_iff span span' (hcovers hfirst hone) (hcovers hsecond hother)
          simp only [Option.map_some, Nat.add_le_add_iff_right, hle]

theorem mergeSort_displace {findings : List Diagnostic}
    (hcovers : ∀ finding ∈ findings, finding.Covers tokens) :
    (findings.map (·.displace retouch.span)).mergeSort (sortKey · ≤ sortKey ·) =
      (findings.mergeSort (sortKey · ≤ sortKey ·)).map (·.displace retouch.span) := by
  refine (List.map_mergeSort fun first hfirst second hsecond => ?_).symm
  exact decide_eq_decide.mpr (sortKey_displace_le h (hcovers first hfirst) (hcovers second hsecond)).symm

end Order

variable {tokens : List Token} {unit : CompilationUnit}

/-- What the rules show are constructs. -/
theorem covers_of_mem_findings (hspans : unit.SpansNest tokens) {options : CheckOptions} {rule : CheckRule}
    {finding : Diagnostic} (hfinding : finding ∈ (ofUnit unit).findings options rule) :
    finding.Covers tokens := by
  cases rule with
  | unguardedAccess =>
      obtain ⟨visiting, hvisiting, hfinding⟩ := List.mem_flatMap.mp hfinding
      obtain ⟨access, haccess, rfl⟩ := List.mem_map.mp hfinding
      have haccess := List.mem_of_mem_filter haccess
      intro label hlabel
      rcases List.mem_cons.mp hlabel with rfl | hguard
      · exact hspans.covers_of_visits hvisiting (CodeUnit.visits_of_mem_accesses haccess)
      · rw [Access.guardLabels] at hguard
        split at hguard
        · cases hguard
        · obtain rfl := List.mem_singleton.mp hguard
          exact CodeUnit.covers_member hspans haccess
  | invalidGuard =>
      obtain ⟨declaring, hdeclaring, hfinding⟩ := List.mem_flatMap.mp hfinding
      obtain ⟨declared, hdeclared, hfinding⟩ := List.mem_filterMap.mp hfinding
      split at hfinding
      · cases hfinding
      · obtain rfl := Option.some.inj hfinding
        intro label hlabel
        obtain rfl := List.mem_singleton.mp hlabel
        exact hspans.covers_of_declaredGuard hdeclaring hdeclared

/-- What is wrong with names is shown where constructs stand. -/
theorem covers_of_mem_problems (hspans : unit.SpansNest tokens) {problem : NameProblem}
    (hproblem : problem ∈ (Program.ofUnit unit).problems) : problem.diagnostic.Covers tokens := by
  have hcovers := Program.covers_of_problem hspans hproblem
  intro label hlabel
  apply hcovers
  cases problem with
  | cyclicInheritance name span =>
      obtain rfl := List.mem_singleton.mp hlabel
      exact List.mem_singleton_self _
  | duplicateClass name span previous | duplicateField name span previous =>
      rcases List.mem_cons.mp hlabel with rfl | hlabel
      · exact List.mem_cons_self
      · obtain rfl := List.mem_singleton.mp hlabel
        exact List.mem_cons_of_mem _ List.mem_cons_self

variable (hnodup : unit.numbers.Nodup) (hspans : unit.SpansNest tokens) {retouch : Retouch}
  [retouch.KeepsNames] (horderly : retouch.Orderly tokens)
include hnodup hspans horderly

/-- What a rule finds in a retouched unit is what it finds in the unit, at its new places. -/
theorem findings_retouch (options : CheckOptions) (rule : CheckRule) :
    (ofUnit (unit.retouch retouch)).findings options rule =
      ((ofUnit unit).findings options rule).map (·.displace retouch.span) := by
  have hmatches := Program.matches_ofUnit horderly.regular unit
  cases rule with
  | unguardedAccess =>
      simp only [findings, ofUnit, CodeUnits.bodies_retouch retouch hmatches.use?_eq, List.flatMap_map,
        List.map_flatMap]
      apply List.flatMap_congr
      intro visiting hvisiting
      exact CodeUnit.findings_retouch hnodup hspans horderly hvisiting
  | invalidGuard =>
      simp only [findings, ofUnit, CodeUnits.classes_retouch retouch hmatches.use?_eq, List.flatMap_map,
        List.map_flatMap, ClassUnit.guardFindings_retouch hmatches]

/-- The rules find the same in a retouched unit, at the new places and in the same order. -/
theorem ruleFindings_retouch (options : CheckOptions) :
    (ofUnit (unit.retouch retouch)).ruleFindings options =
      ((ofUnit unit).ruleFindings options).map (·.displace retouch.span) := by
  have hfindings : (ofUnit (unit.retouch retouch)).findings options =
      fun rule => ((ofUnit unit).findings options rule).map (·.displace retouch.span) :=
    funext (findings_retouch hnodup hspans horderly options)
  rw [ruleFindings, hfindings, ← List.map_flatMap]
  apply mergeSort_displace horderly
  intro finding hfinding
  obtain ⟨rule, -, hfinding⟩ := List.mem_flatMap.mp hfinding
  exact covers_of_mem_findings hspans hfinding

end CheckSubject
end LockDiscipline
