import LockDiscipline.Program.Resolve
import LockDiscipline.Proofs.Program.Growth
/-!
# The steps of the resolver

What the resolver does to the symbols of a program it does in steps of three kinds: it leaves them alone, it
declares one, or it learns something of a class, which stays inside the class around it. `Resolving.Built` says
that a computation is made of such steps, one behind the other, and every function of the resolver is.
`Resolving.Reaches` are the drafts between the steps of a computation: what holds of all of them holds in the
middle of a body too, where a local class is just being declared.

No step takes a class out of the class around it, so from each draft that is reached up to the end of the
computation the classes around a class are the same. And no step looks at the notes that are taken, so the
resolver makes the same of a program whether it takes any or not.
-/

namespace LockDiscipline

namespace Program

/-- The classes that have a class around them have the same one in a later program. -/
def KeepsOuter (program later : Program) : Prop :=
  ∀ ⦃id outer⦄, program.outerClass? id = some outer → later.outerClass? id = some outer

namespace KeepsOuter

variable {program later latest : Program}

theorem refl (program : Program) : KeepsOuter program program := fun _ _ haround => haround

theorem trans (hfirst : KeepsOuter program later) (hsecond : KeepsOuter later latest) :
    KeepsOuter program latest := fun _ _ haround => hsecond (hfirst haround)

theorem of_symbols_eq (hsame : later.symbols = program.symbols) : KeepsOuter program later := by
  intro id outer haround
  rwa [outerClass?, classInfo?, symbol?, hsame]

theorem declare (program : Program) (name : String) (kind : SymbolKind) (type guard : Option String)
    (span : Span) : KeepsOuter program (program.declare name kind type guard span).2 := by
  intro id outer haround
  obtain ⟨info, hknown, -⟩ := Option.bind_eq_some_iff.mp haround
  have hold : id ≠ program.symbols.size := Nat.ne_of_lt (lt_size_of_classInfo?_eq_some hknown)
  rwa [outerClass?, classInfo?_declare, if_neg hold]

theorem updateClass (program : Program) (id : SymbolId) {change : ClassInfo → ClassInfo}
    (hkept : ∀ info, (change info).outer = info.outer) : KeepsOuter program (program.updateClass id change) := by
  intro type outer haround
  obtain ⟨info, hknown, hinside⟩ := Option.bind_eq_some_iff.mp haround
  rw [outerClass?, classInfo?_updateClass, hknown, Option.map_some, Option.bind_some]
  split
  · rw [hkept, hinside]
  · exact hinside

end KeepsOuter

end Program

/-- The draft with other notes, which may be of another kind. -/
def Draft.withNotes {M N : Type} (draft : Draft M) (notes : N) : Draft N :=
  { draft with notes }

/-- A computation that extends a program, whatever notes are taken. -/
abbrev Resolver (α : Type) :=
  ∀ (Notes : Type) [NoteTaking Notes], Resolving Notes α

namespace Resolving

open Program (KeepsOuter)

/-- What the resolver does to the symbols of a program at once. -/
inductive Step : {α : Type} → Resolver α → Prop where
  /-- The symbols are left alone, and what is done does not depend on the notes. -/
  | record {α : Type} {computation : Resolver α}
      (hkept : ∀ (N : Type) [NoteTaking N] (draft : Draft N),
        ((computation N).run draft).2.program.symbols = draft.program.symbols)
      (hsame : ∀ (M N : Type) [NoteTaking M] [NoteTaking N] (draft : Draft M) (notes : N),
        ∃ later, (computation N).run (draft.withNotes notes) =
          (((computation M).run draft).1, ((computation M).run draft).2.withNotes later)) :
      Step computation
  | declare (name : String) (kind : SymbolKind) (type guard : Option String) (span : Span) :
      Step fun _ => Resolving.declare name kind type guard span
  /-- Something is learned of a class, which stays inside the class around it. -/
  | learn (id : SymbolId) (change : ClassInfo → ClassInfo)
      (hkept : ∀ info, (change info).outer = info.outer) :
      Step fun _ => update fun program => program.updateClass id change

/-- A computation is made of steps, one behind the other. -/
inductive Built : {α : Type} → Resolver α → Prop where
  | step {α : Type} {computation : Resolver α} (hstep : Step computation) : Built computation
  | bind {α β : Type} {first : Resolver α} {second : α → Resolver β} (hbefore : Built first)
      (hbehind : ∀ value, Built (second value)) : Built fun N => first N >>= fun value => second value N

section Reaching

variable {N : Type} [NoteTaking N]

/-- A draft is reached while a computation runs: it is there before or after a part that the computation is
built of. -/
inductive Reaches : {α : Type} → Resolver α → Draft N → Draft N → Prop where
  | start {α : Type} {computation : Resolver α} (draft : Draft N) : Reaches computation draft draft
  | done {α : Type} {computation : Resolver α} (draft : Draft N) :
      Reaches computation draft ((computation N).run draft).2
  | first {α β : Type} {first : Resolver α} {second : α → Resolver β} {draft reached : Draft N}
      (hbefore : Built first) (hbehind : ∀ value, Built (second value)) (hinside : Reaches first draft reached) :
      Reaches (fun N => first N >>= fun value => second value N) draft reached
  | second {α β : Type} {first : Resolver α} {second : α → Resolver β} {draft reached : Draft N}
      (hbefore : Built first) (hbehind : ∀ value, Built (second value))
      (hinside : Reaches (second ((first N).run draft).1) ((first N).run draft).2 reached) :
      Reaches (fun N => first N >>= fun value => second value N) draft reached

/-! ### The classes around a class -/

theorem Step.keepsOuter {α : Type} {computation : Resolver α} (hstep : Step computation) (draft : Draft N) :
    KeepsOuter draft.program ((computation N).run draft).2.program := by
  cases hstep with
  | record hkept => exact .of_symbols_eq (hkept N draft)
  | declare name kind type guard span => exact .declare draft.program name kind type guard span
  | learn id change hkept => exact .updateClass draft.program id hkept

theorem Built.keepsOuter {α : Type} {computation : Resolver α} (hbuilt : Built computation) (draft : Draft N) :
    KeepsOuter draft.program ((computation N).run draft).2.program := by
  induction hbuilt generalizing draft with
  | step hstep => exact hstep.keepsOuter draft
  | bind _ _ hbefore hbehind => exact (hbefore draft).trans (hbehind _ _)

/-- From a draft that is reached to the end the classes keep the classes around them. -/
theorem Reaches.keepsOuter {α : Type} {computation : Resolver α} {draft reached : Draft N}
    (hinside : Reaches computation draft reached) (hbuilt : Built computation) :
    KeepsOuter reached.program ((computation N).run draft).2.program := by
  induction hinside with
  | start draft => exact hbuilt.keepsOuter draft
  | done draft => exact .refl _
  | first hbefore hbehind _ ih => exact (ih hbefore).trans ((hbehind _).keepsOuter _)
  | second hbefore hbehind _ ih => exact ih (hbehind _)

end Reaching

/-! ### Other notes -/

section Notes

variable {M N : Type} [NoteTaking M] [NoteTaking N]

theorem Step.run_withNotes {α : Type} {computation : Resolver α} (hstep : Step computation) (draft : Draft M)
    (notes : N) : ∃ later, (computation N).run (draft.withNotes notes) =
      (((computation M).run draft).1, ((computation M).run draft).2.withNotes later) := by
  cases hstep with
  | record _ hsame => exact hsame M N draft notes
  | declare | learn => exact ⟨notes, rfl⟩

/-- With other notes, a computation does the same to a draft up to its notes. -/
theorem Built.run_withNotes {α : Type} {computation : Resolver α} (hbuilt : Built computation) (draft : Draft M)
    (notes : N) : ∃ later, (computation N).run (draft.withNotes notes) =
      (((computation M).run draft).1, ((computation M).run draft).2.withNotes later) := by
  induction hbuilt generalizing draft notes with
  | step hstep => exact hstep.run_withNotes draft notes
  | @bind _ _ first second _ _ hbefore hbehind =>
      obtain ⟨between, hbetween⟩ := hbefore draft notes
      have hrun : (first N >>= fun value => second value N).run (draft.withNotes notes) =
          (second ((first M).run draft).1 N).run (((first M).run draft).2.withNotes between) :=
        congrArg (fun result : _ × Draft N => (second result.1 N).run result.2) hbetween
      obtain ⟨later, hlater⟩ := hbehind ((first M).run draft).1 ((first M).run draft).2 between
      exact ⟨later, hrun.trans hlater⟩

end Notes

/-! ### Declaring and linking classes -/

namespace Built

variable {α : Type}

theorem pure (value : α) : Built fun _ => Pure.pure value :=
  .step (.record (fun _ _ _ => rfl) fun _ _ _ _ _ notes => ⟨notes, rfl⟩)

theorem ask (question : Program → α) : Built fun _ => Resolving.ask question :=
  .step (.record (fun _ _ _ => rfl) fun _ _ _ _ _ notes => ⟨notes, rfl⟩)

theorem tell (event : TraceEvent) : Built fun _ => Resolving.tell event :=
  .step (.record (fun _ _ _ => rfl) fun _ _ _ _ _ notes => ⟨notes, rfl⟩)

/-- The program may change as long as its symbols do not. -/
theorem update {change : Program → Program} (hkept : ∀ program, (change program).symbols = program.symbols) :
    Built fun _ => Resolving.update change :=
  .step (.record (fun _ _ draft => hkept draft.program) fun _ _ _ _ _ notes => ⟨notes, rfl⟩)

theorem setUse (node : NodeId) (id : SymbolId) : Built fun _ => Resolving.setUse node id :=
  .update fun _ => rfl

theorem addProblem (problem : Program → NameProblem) :
    Built fun _ => Resolving.update fun program => program.addProblem (problem program) :=
  .update fun _ => rfl

theorem declare (name : String) (kind : SymbolKind) (type guard : Option String) (span : Span) :
    Built fun _ => Resolving.declare name kind type guard span :=
  .step (.declare name kind type guard span)

theorem updateMembers (owner : SymbolId) (change : MemberTable → MemberTable) :
    Built fun _ => Resolving.update fun program => program.updateMembers owner change :=
  .step (.learn owner _ fun _ => rfl)

theorem declareField (owner : SymbolId) (name : String) (type guard : Option String)
    (isStatic : Bool) (node : NodeId) (span : Span) :
    Built fun _ => Resolving.declareField owner name type guard isStatic node span := by
  refine (declare ..).bind fun id => (setUse node id).bind fun _ => (ask _).bind fun fields => ?_
  split
  · exact addProblem _
  · exact updateMembers owner _

theorem declareFields (owner : SymbolId) (modifiers : Modifiers) (type : String) (isStatic : Bool)
    (declarators : List Declarator) : Built fun _ => Resolving.declareFields owner modifiers type isStatic declarators := by
  induction declarators with
  | nil => exact pure ()
  | cons declarator rest ih => exact (declareField ..).bind fun _ => ih

theorem declareMethod (owner : SymbolId) (method : MethodDecl) (inInterface : Bool) :
    Built fun _ => Resolving.declareMethod owner method inInterface :=
  (declare ..).bind fun _ => (setUse ..).bind fun _ => updateMembers owner _

theorem enterMemberClass (owner : SymbolId) (name : String) (id : SymbolId) :
    Built fun _ => Resolving.enterMemberClass owner name id :=
  (ask _).bind fun _ => (updateMembers owner _).bind fun _ => pure _

theorem declareClassSymbol (node : NodeId) (name : String) (kind : ClassKind) (outer : Option SymbolId)
    (qualifiedName : String) (isStatic : Bool) (span : Span) :
    Built fun _ => Resolving.declareClassSymbol node name kind outer qualifiedName isStatic span :=
  (declare ..).bind fun _ => (setUse ..).bind fun _ => (update fun _ => by rfl).bind fun _ => pure _

theorem findSupertype (scope : SymbolId) (type : String) : Built fun _ => Resolving.findSupertype scope type := by
  refine (ask _).bind fun found => ?_
  cases found with
  | some id => exact pure _
  | none => exact (tell _).bind fun _ => pure _

theorem findSupertypes (scope : SymbolId) (types : List String) :
    Built fun _ => Resolving.findSupertypes scope types := by
  induction types with
  | nil => exact pure _
  | cons type rest ih => exact (findSupertype scope type).bind fun _ => ih.bind fun _ => pure _

theorem setSupertypes (id : SymbolId) (superclass : Option SymbolId) (interfaces : List SymbolId)
    (span : Span) : Built fun _ => Resolving.setSupertypes id superclass interfaces span := by
  refine (ask _).bind fun program => ?_
  have hlearned : Built fun _ => Resolving.update fun later => later.updateClass id fun info =>
      { info with
        superclass := superclass.filter fun supertype => !program.isSubclass supertype id
        interfaces := interfaces.filter fun supertype => !program.isSubclass supertype id } :=
    .step (.learn id _ fun _ => rfl)
  dsimp only
  split
  · exact (addProblem _).bind fun _ => hlearned
  · exact hlearned

theorem enterTopLevel (name : String) (id : SymbolId) (span : Span) :
    Built fun _ => Resolving.enterTopLevel name id span := by
  refine (ask _).bind fun topLevel => ?_
  split <;> exact update fun _ => rfl

end Built

mutual

theorem built_declareClass (outer : Option SymbolId) (name qualifiedName : String) (isStatic : Bool) :
    ∀ decl : ClassDecl, Built fun _ => declareClass outer name qualifiedName isStatic decl
  | ⟨_, _, _, _, _, _, _, members, _⟩ => by
    simp only [declareClass]
    exact (Built.declareClassSymbol ..).bind fun _ =>
      (built_declareMembers _ _ _ _ members).bind fun _ => .pure _

theorem built_declareMembers (owner : SymbolId) (qualifiedName className : String) (inInterface : Bool) :
    ∀ members : List Member, Built fun _ => declareMembers owner qualifiedName className inInterface members
  | [] => by
    simp only [declareMembers]
    exact .pure ()
  | ⟨_, kind, _⟩ :: rest => by
    simp only [declareMembers]
    exact (built_declareMember _ _ _ _ _ _ kind).bind fun _ => built_declareMembers _ _ _ _ rest

theorem built_declareMember (owner : SymbolId) (qualifiedName className : String) (inInterface : Bool)
    (node : NodeId) (span : Span) :
    ∀ kind : MemberKind, Built fun _ => declareMember owner qualifiedName className inInterface node span kind
  | .field .. => by
    simp only [declareMember]
    exact .declareFields ..
  | .enumConstant .. => by
    simp only [declareMember]
    exact .declareField ..
  | .method _ => by
    simp only [declareMember]
    exact .declareMethod ..
  | .initializer .. => by
    simp only [declareMember]
    exact .pure ()
  | .classDecl decl => by
    simp only [declareMember]
    refine (built_declareClass _ _ _ _ decl).bind fun id =>
      (Built.enterMemberClass owner decl.name id).bind fun previous? => ?_
    cases previous? with
    | some previous => exact .addProblem _
    | none => exact .pure ()

end

mutual

theorem built_linkClass (id : SymbolId) : ∀ decl : ClassDecl, Built fun _ => linkClass id decl
  | ⟨_, _, _, _, _, superclass, interfaces, members, span⟩ => by
    simp only [linkClass]
    have hlinked (scope : SymbolId) (found : Option SymbolId) : Built fun _ => (do
        let interfaces ← findSupertypes scope interfaces
        setSupertypes id found interfaces span
        linkMembers members) :=
      (Built.findSupertypes ..).bind fun _ => (Built.setSupertypes ..).bind fun _ => built_linkMembers members
    refine (Built.ask _).bind fun scope => ?_
    cases superclass with
    | some type => exact (Built.findSupertype scope type).bind (hlinked scope)
    | none => exact (Built.pure none).bind (hlinked scope)

theorem built_linkMembers : ∀ members : List Member, Built fun _ => linkMembers members
  | [] => by
    simp only [linkMembers]
    exact .pure ()
  | ⟨_, kind, _⟩ :: rest => by
    simp only [linkMembers]
    exact (built_linkMember kind).bind fun _ => built_linkMembers rest

theorem built_linkMember : ∀ kind : MemberKind, Built fun _ => linkMember kind
  | .classDecl decl => by
    simp only [linkMember]
    refine (Built.ask _).bind fun found => ?_
    cases found with
    | some id => exact built_linkClass id decl
    | none => exact .pure ()
  | .field .. | .method _ | .initializer .. | .enumConstant .. => by
    simp only [linkMember]
    exact .pure ()

end

theorem built_declareTopLevel (package : Option String) (types : List ClassDecl) :
    Built fun _ => declareTopLevel package types := by
  induction types with
  | nil => exact .pure _
  | cons decl rest ih =>
      exact (built_declareClass none _ _ _ decl).bind fun _ =>
        (Built.enterTopLevel ..).bind fun _ => ih.bind fun _ => .pure _

theorem built_linkTopLevel (classes : List (SymbolId × ClassDecl)) : Built fun _ => linkTopLevel classes := by
  induction classes with
  | nil => exact .pure ()
  | cons entry rest ih => exact (built_linkClass entry.1 entry.2).bind fun _ => ih

/-! ### Places and names -/

namespace Built

variable {α : Type}

theorem updateScopes (change : ScopeStack → ScopeStack) : Built fun _ => Resolving.updateScopes change :=
  .step (.record (fun _ _ _ => rfl) fun _ _ _ _ _ notes => ⟨notes, rfl⟩)

theorem inScope {body : Resolver α} (hbuilt : Built body) (kind : ScopeKind) :
    Built fun N => Resolving.inScope kind (body N) :=
  (updateScopes _).bind fun _ => hbuilt.bind fun _ => (updateScopes _).bind fun _ => pure _

theorem currentClass? : Built fun _ => Resolving.currentClass? :=
  .step (.record (fun _ _ _ => rfl) fun _ _ _ _ _ notes => ⟨notes, rfl⟩)

theorem visit (node : NodeId) : Built fun _ => Resolving.visit node :=
  .step (.record (fun _ _ _ => rfl) fun _ _ _ _ _ _ => ⟨_, rfl⟩)

theorem lookIn (node : NodeId) (type : Option SymbolId) : Built fun _ => Resolving.lookIn node type :=
  .step (.record (fun _ _ _ => rfl) fun _ _ _ _ _ _ => ⟨_, rfl⟩)

theorem declareVariable (name : String) (type : Option String) (node : Option NodeId) (span : Span)
    (isParameter : Bool) : Built fun _ => Resolving.declareVariable name type node span isParameter := by
  refine currentClass?.bind fun context => ?_
  cases context with
  | none => exact pure ()
  | some context =>
      refine (declare ..).bind fun id => (updateScopes _).bind fun _ => ?_
      cases node with
      | some node => exact setUse node id
      | none => exact pure ()

theorem declareParams (params : List Param) : Built fun _ => Resolving.declareParams params := by
  induction params with
  | nil => exact pure ()
  | cons param rest ih => exact (declareVariable ..).bind fun _ => ih

theorem declareLambdaParams (span : Span) (names : List String) :
    Built fun _ => Resolving.declareLambdaParams span names := by
  induction names with
  | nil => exact pure ()
  | cons name rest ih => exact (declareVariable ..).bind fun _ => ih

theorem findTypeHere (type : String) : Built fun _ => Resolving.findTypeHere type := by
  refine currentClass?.bind fun context => ?_
  cases context with
  | none => exact pure none
  | some context => exact ask _

theorem useValue (node : NodeId) (id : SymbolId) : Built fun _ => Resolving.useValue node id :=
  (setUse node id).bind fun _ => ask _

theorem useType (node : NodeId) (found : Option SymbolId) : Built fun _ => Resolving.useType node found := by
  cases found with
  | some id => exact (setUse node id).bind fun _ => pure _
  | none => exact pure _

theorem useMethod (node : NodeId) (found : Option SymbolId) : Built fun _ => Resolving.useMethod node found := by
  cases found with
  | some id => exact useValue node id
  | none => exact pure _

theorem findVariable (name : String) : Built fun _ => Resolving.findVariable name :=
  .step (.record (fun _ _ _ => rfl) fun _ _ _ _ _ notes => ⟨notes, rfl⟩)

theorem resolveName (node : NodeId) (name : String) : Built fun _ => Resolving.resolveName node name := by
  refine (findVariable name).bind fun found => ?_
  cases found with
  | some id => exact useValue node id
  | none => exact (findTypeHere name).bind fun found => useType node found

theorem resolveSelect (node : NodeId) (qualifier : Denotation) (name : String) (dotted : Option String) :
    Built fun _ => Resolving.resolveSelect node qualifier name dotted := by
  refine (lookIn node _).bind fun _ => ?_
  cases qualifier.memberClass? with
  | some owner =>
      refine (ask _).bind fun field => ?_
      cases field with
      | some field => exact useValue node field
      | none => exact (ask _).bind fun found => useType node found
  | none =>
      cases dotted with
      | some dotted => exact (findTypeHere dotted).bind fun found => useType node found
      | none => exact pure _

theorem findScopedMethod (method : String) (arity : Nat) : Built fun _ => Resolving.findScopedMethod method arity := by
  unfold Resolving.findScopedMethod
  split
  · exact pure none
  · exact .step (.record (fun _ _ _ => rfl) fun _ _ _ _ _ notes => ⟨notes, rfl⟩)

theorem localType (type : Option String) (init : Denotation) : Built fun _ => Resolving.localType type init := by
  unfold Resolving.localType
  split
  · exact pure _
  · exact ask _

/-- The variable of a declaration is declared behind its initial value. -/
theorem declareLocal {rest : Resolver Unit} (hbuilt : Built rest) (name : String) (type : Option String)
    (node : NodeId) (span : Span) (denoted : Denotation) : Built fun N => (do
      let declared ← Resolving.localType type denoted
      Resolving.declareVariable name declared (some node) span false
      rest N) :=
  (localType type denoted).bind fun _ => (declareVariable ..).bind fun _ => hbuilt

theorem findConstant (selector : Option SymbolId) (kind : ExprKind) :
    Built fun _ => Resolving.findConstant selector kind := by
  cases kind with
  | name name =>
      simp only [Resolving.findConstant]
      exact ask _
  | _ => exact pure none

theorem nextNested (outer : SymbolId) : Built fun _ => Resolving.nextNested outer :=
  .step (.record (fun _ _ _ => rfl) fun _ _ _ _ _ notes => ⟨notes, rfl⟩)

theorem declareInside (outer : SymbolId) (symbol : NamedSymbol) (decl : ClassDecl) :
    Built fun _ => Resolving.declareInside outer symbol decl := by
  refine (ask _).bind fun outerName => (nextNested outer).bind fun number => ?_
  dsimp only
  split
  · exact built_declareClass ..
  · exact (built_declareClass ..).bind fun _ => (enterMemberClass ..).bind fun _ => pure _

theorem declareNested (decl : ClassDecl) : Built fun _ => Resolving.declareNested decl := by
  refine currentClass?.bind fun outer? => ?_
  cases outer? with
  | none => exact pure none
  | some outer =>
      refine (ask _).bind fun symbol? => ?_
      cases symbol? with
      | none => exact pure none
      | some symbol =>
          exact (declareInside outer symbol decl).bind fun id => (built_linkClass id decl).bind fun _ => pure _

end Built

/-! ### Bodies -/

mutual

theorem built_resolveExpr : ∀ expr : Expr, Built fun _ => resolveExpr expr
  | ⟨node, kind, span⟩ => by
    simp only [resolveExpr]
    exact (Built.visit node).bind fun _ => built_resolveExprKind node span kind

theorem built_resolveExprKind (node : NodeId) (span : Span) :
    ∀ kind : ExprKind, Built fun _ => resolveExprKind node span kind
  | .name name => by
    simp only [resolveExprKind]
    exact .resolveName node name
  | .this => by
    simp only [resolveExprKind]
    exact Built.currentClass?.bind fun _ => .pure _
  | .super => by
    simp only [resolveExprKind]
    exact Built.currentClass?.bind fun _ => (Built.ask _).bind fun _ => .pure _
  | .qualifiedThis type => by
    simp only [resolveExprKind]
    refine (Built.findTypeHere type).bind fun found => ?_
    cases found with
    | some id => exact (Built.setUse node id).bind fun _ => .pure _
    | none => exact .pure _
  | .classLiteral type => by
    simp only [resolveExprKind]
    exact (Built.findTypeHere type).bind fun found => (Built.useType node found).bind fun _ => .pure _
  | .select object name => by
    simp only [resolveExprKind]
    exact (built_resolveExpr object).bind fun qualifier => .resolveSelect node qualifier name _
  | .call none method args => by
    simp only [resolveExprKind]
    exact (built_resolveExprs args).bind fun _ =>
      (Built.findScopedMethod method args.length).bind fun found => .useMethod node found
  | .call (some receiver) method args => by
    simp only [resolveExprKind]
    exact (built_resolveExprs args).bind fun _ => (built_resolveExpr receiver).bind fun target =>
      (Built.lookIn node target.memberClass?).bind fun _ => (Built.ask _).bind fun found => .useMethod node found
  | .new type args none => by
    simp only [resolveExprKind]
    exact (built_resolveExprs args).bind fun _ => (Built.findTypeHere type).bind fun created =>
      (Built.useType node created).bind fun _ => .pure _
  | .new type args (some body) => by
    simp only [resolveExprKind]
    exact (built_resolveExprs args).bind fun _ => (built_resolveNested body).bind fun created =>
      (Built.useType node created).bind fun _ => .pure _
  | .newArray element dims none => by
    simp only [resolveExprKind]
    exact (built_resolveExprs dims).bind fun _ => (Built.pure _).bind fun _ => .pure _
  | .newArray element dims (some items) => by
    simp only [resolveExprKind]
    exact (built_resolveExprs dims).bind fun _ => (built_resolveExprs items).bind fun _ => .pure _
  | .arrayInit items => by
    simp only [resolveExprKind]
    exact (built_resolveExprs items).bind fun _ => .pure _
  | .index left right | .binary _ left right => by
    simp only [resolveExprKind]
    exact (built_resolveExpr left).bind fun _ => (built_resolveExpr right).bind fun _ => .pure _
  | .unary _ expr | .instanceOf expr _ | .methodRef expr _ => by
    simp only [resolveExprKind]
    exact (built_resolveExpr expr).bind fun _ => .pure _
  | .assign op target value => by
    simp only [resolveExprKind]
    exact (built_resolveExpr target).bind fun _ => (built_resolveExpr value).bind fun _ => .pure _
  | .conditional cond whenTrue whenFalse => by
    simp only [resolveExprKind]
    exact (built_resolveExpr cond).bind fun _ => (built_resolveExpr whenTrue).bind fun _ =>
      (built_resolveExpr whenFalse).bind fun _ => .pure _
  | .cast type expr => by
    simp only [resolveExprKind]
    exact (built_resolveExpr expr).bind fun _ => (Built.findTypeHere type).bind fun _ => .pure _
  | .lambda params body => by
    simp only [resolveExprKind]
    have hinside : Built fun _ => (do
        declareLambdaParams span params
        resolveLambdaBody body) :=
      (Built.declareLambdaParams span params).bind fun _ => built_resolveLambdaBody body
    exact (hinside.inScope .lambda).bind fun _ => .pure _
  | .paren inner => by
    simp only [resolveExprKind]
    exact built_resolveExpr inner
  | .int _ | .float _ | .string _ | .char _ | .bool _ | .null => by
    simp only [resolveExprKind]
    exact .pure _

theorem built_resolveExprs : ∀ exprs : List Expr, Built fun _ => resolveExprs exprs
  | [] => by
    simp only [resolveExprs]
    exact .pure ()
  | expr :: rest => by
    simp only [resolveExprs]
    exact (built_resolveExpr expr).bind fun _ => built_resolveExprs rest

theorem built_resolveLambdaBody : ∀ body : LambdaBody, Built fun _ => resolveLambdaBody body
  | .expr value => by
    simp only [resolveLambdaBody]
    exact (built_resolveExpr value).bind fun _ => .pure ()
  | .block body => by
    simp only [resolveLambdaBody]
    exact (built_resolveStmts body).inScope .block

theorem built_resolveStmts : ∀ stmts : List Stmt, Built fun _ => resolveStmts stmts
  | [] => by
    simp only [resolveStmts]
    exact .pure ()
  | stmt :: rest => by
    simp only [resolveStmts]
    exact (built_resolveStmt stmt).bind fun _ => built_resolveStmts rest

theorem built_resolveStmt : ∀ stmt : Stmt, Built fun _ => resolveStmt stmt
  | ⟨_, .expr value, _⟩ | ⟨_, .throw value, _⟩ | ⟨_, .return (some value), _⟩ |
    ⟨_, .assert value none, _⟩ => by
    simp only [resolveStmt]
    exact (built_resolveExpr value).bind fun _ => .pure ()
  | ⟨_, .localVars type declarators, _⟩ => by
    simp only [resolveStmt]
    exact built_resolveDeclarators type declarators
  | ⟨_, .block body, _⟩ => by
    simp only [resolveStmt]
    exact (built_resolveStmts body).inScope .block
  | ⟨_, .ifElse cond whenTrue none, _⟩ => by
    simp only [resolveStmt]
    exact (built_resolveExpr cond).bind fun _ => (built_resolveStmt whenTrue).bind fun _ => .pure ()
  | ⟨_, .ifElse cond whenTrue (some whenFalse), _⟩ => by
    simp only [resolveStmt]
    exact (built_resolveExpr cond).bind fun _ => (built_resolveStmt whenTrue).bind fun _ =>
      built_resolveStmt whenFalse
  | ⟨_, .whileLoop cond body, _⟩ | ⟨_, .doWhile body cond, _⟩ => by
    simp only [resolveStmt]
    exact (built_resolveExpr cond).bind fun _ => built_resolveStmt body
  | ⟨_, .forLoop init none update body, _⟩ => by
    simp only [resolveStmt]
    have hinside := (built_resolveStmts init).bind fun _ => (Built.pure ()).bind fun _ =>
      (built_resolveExprs update).bind fun _ => built_resolveStmt body
    exact hinside.inScope .block
  | ⟨_, .forLoop init (some cond) update body, _⟩ => by
    simp only [resolveStmt]
    have hinside := (built_resolveStmts init).bind fun _ => (built_resolveExpr cond).bind fun _ =>
      (built_resolveExprs update).bind fun _ => built_resolveStmt body
    exact hinside.inScope .block
  | ⟨node, .forEach type name iterated body, span⟩ => by
    simp only [resolveStmt]
    have hinside := (Built.declareVariable name (if type == "var" then none else some type) (some node) span
      false).bind fun _ => built_resolveStmt body
    exact (built_resolveExpr iterated).bind fun _ => hinside.inScope .block
  | ⟨_, .tryCatch resources body catches none, _⟩ => by
    simp only [resolveStmt]
    have hinside := (built_resolveResources resources).bind fun _ => (built_resolveStmts body).inScope .block
    exact (hinside.inScope .block).bind fun _ => (built_resolveCatches catches).bind fun _ => .pure ()
  | ⟨_, .tryCatch resources body catches (some finallyBody), _⟩ => by
    simp only [resolveStmt]
    have hinside := (built_resolveResources resources).bind fun _ => (built_resolveStmts body).inScope .block
    exact (hinside.inScope .block).bind fun _ => (built_resolveCatches catches).bind fun _ =>
      (built_resolveStmts finallyBody).inScope .block
  | ⟨_, .synchronized lock body, _⟩ => by
    simp only [resolveStmt]
    exact (built_resolveExpr lock).bind fun _ => (built_resolveStmts body).inScope .block
  | ⟨_, .switch selector cases, _⟩ => by
    simp only [resolveStmt]
    exact (built_resolveExpr selector).bind fun denoted => (built_resolveCases _ cases).inScope .block
  | ⟨_, .labeled _ body, _⟩ => by
    simp only [resolveStmt]
    exact built_resolveStmt body
  | ⟨_, .localClass decl, _⟩ => by
    simp only [resolveStmt]
    exact (built_resolveNested decl).bind fun _ => .pure ()
  | ⟨_, .assert cond (some message), _⟩ => by
    simp only [resolveStmt]
    exact (built_resolveExpr cond).bind fun _ => (built_resolveExpr message).bind fun _ => .pure ()
  | ⟨_, .return none, _⟩ | ⟨_, .break _, _⟩ | ⟨_, .continue _, _⟩ | ⟨_, .empty, _⟩ => by
    simp only [resolveStmt]
    exact .pure ()

theorem built_resolveDeclarators (type : String) :
    ∀ declarators : List Declarator, Built fun _ => resolveDeclarators type declarators
  | [] => by
    simp only [resolveDeclarators]
    exact .pure ()
  | ⟨node, name, none, span⟩ :: rest => by
    simp only [resolveDeclarators]
    exact (Built.pure Denotation.unknown).bind
      ((built_resolveDeclarators type rest).declareLocal name (some type) node span)
  | ⟨node, name, some init, span⟩ :: rest => by
    simp only [resolveDeclarators]
    exact (built_resolveExpr init).bind
      ((built_resolveDeclarators type rest).declareLocal name (some type) node span)

theorem built_resolveResources : ∀ resources : List Resource, Built fun _ => resolveResources resources
  | [] => by
    simp only [resolveResources]
    exact .pure ()
  | ⟨node, type, none, init⟩ :: rest => by
    simp only [resolveResources]
    exact (built_resolveExpr init).bind fun _ => (Built.pure ()).bind fun _ => built_resolveResources rest
  | ⟨node, type, some name, init⟩ :: rest => by
    simp only [resolveResources]
    exact (built_resolveExpr init).bind
      ((built_resolveResources rest).declareLocal name type node init.span)

theorem built_resolveCatches : ∀ catches : List CatchClause, Built fun _ => resolveCatches catches
  | [] => by
    simp only [resolveCatches]
    exact .pure ()
  | ⟨node, types, name, body, span⟩ :: rest => by
    simp only [resolveCatches]
    have hinside (type : Option String) :=
      (Built.declareVariable name type (some node) span true).bind fun _ => built_resolveStmts body
    exact ((hinside _).inScope .block).bind fun _ => built_resolveCatches rest

theorem built_resolveCases (selector : Option SymbolId) :
    ∀ cases : List SwitchCase, Built fun _ => resolveCases selector cases
  | [] => by
    simp only [resolveCases]
    exact .pure ()
  | ⟨labels, _, body⟩ :: rest => by
    simp only [resolveCases]
    exact (built_resolveLabels selector labels).bind fun _ => (built_resolveStmts body).bind fun _ =>
      built_resolveCases selector rest

theorem built_resolveLabels (selector : Option SymbolId) :
    ∀ labels : List Expr, Built fun _ => resolveLabels selector labels
  | [] => by
    simp only [resolveLabels]
    exact .pure ()
  | label :: rest => by
    simp only [resolveLabels]
    refine (Built.findConstant selector label.kind).bind fun constant? => ?_
    cases constant? with
    | some constant => exact (Built.setUse label.id constant).bind fun _ => built_resolveLabels selector rest
    | none => exact (built_resolveExpr label).bind fun _ => built_resolveLabels selector rest

theorem built_resolveNested : ∀ decl : ClassDecl, Built fun _ => resolveNested decl
  | ⟨_, _, _, _, _, _, _, members, _⟩ => by
    simp only [resolveNested]
    refine (Built.declareNested _).bind fun id? => ?_
    cases id? with
    | some id => exact ((built_resolveMembers members).inScope _).bind fun _ => .pure _
    | none => exact .pure none

theorem built_resolveMembers : ∀ members : List Member, Built fun _ => resolveMembers members
  | [] => by
    simp only [resolveMembers]
    exact .pure ()
  | ⟨_, kind, _⟩ :: rest => by
    simp only [resolveMembers]
    exact (built_resolveMember kind).bind fun _ => built_resolveMembers rest

theorem built_resolveMember : ∀ kind : MemberKind, Built fun _ => resolveMember kind
  | .field _ _ declarators => by
    simp only [resolveMember]
    exact built_resolveInits declarators
  | .enumConstant _ args none => by
    simp only [resolveMember]
    exact (built_resolveExprs args).bind fun _ => .pure ()
  | .enumConstant _ args (some body) => by
    simp only [resolveMember]
    exact (built_resolveExprs args).bind fun _ => (built_resolveNested body).bind fun _ => .pure ()
  | .method method => by
    simp only [resolveMember]
    exact built_resolveMethod method
  | .initializer _ body => by
    simp only [resolveMember]
    exact (built_resolveStmts body).inScope _
  | .classDecl decl => by
    simp only [resolveMember]
    exact built_resolveMemberClass decl

theorem built_resolveInits : ∀ declarators : List Declarator, Built fun _ => resolveInits declarators
  | [] => by
    simp only [resolveInits]
    exact .pure ()
  | ⟨_, _, none, _⟩ :: rest => by
    simp only [resolveInits]
    exact (Built.pure ()).bind fun _ => built_resolveInits rest
  | ⟨_, _, some init, _⟩ :: rest => by
    simp only [resolveInits]
    exact (built_resolveExpr init).bind fun _ => built_resolveInits rest

theorem built_resolveMethod : ∀ method : MethodDecl, Built fun _ => resolveMethod method
  | ⟨node, _, _, _, _, params, _, none, _⟩ => by
    simp only [resolveMethod]
    have hinside := (Built.declareParams params).bind fun _ => Built.pure ()
    exact (Built.ask _).bind fun symbol => hinside.inScope (.method symbol)
  | ⟨node, _, _, _, _, params, _, some body, _⟩ => by
    simp only [resolveMethod]
    have hinside := (Built.declareParams params).bind fun _ => built_resolveStmts body
    exact (Built.ask _).bind fun symbol => hinside.inScope (.method symbol)

theorem built_resolveMemberClass : ∀ decl : ClassDecl, Built fun _ => resolveMemberClass decl
  | ⟨node, _, _, _, _, _, _, members, _⟩ => by
    simp only [resolveMemberClass]
    refine (Built.ask _).bind fun id? => ?_
    cases id? with
    | some id => exact (built_resolveMembers members).inScope _
    | none => exact .pure ()

end

theorem built_resolveTopLevel (classes : List (SymbolId × ClassDecl)) : Built fun _ => resolveTopLevel classes := by
  induction classes with
  | nil => exact .pure ()
  | cons entry rest ih => exact ((built_resolveMembers entry.2.members).inScope _).bind fun _ => ih

/-- The resolution of a unit is made of steps. -/
theorem built_resolveUnit (unit : CompilationUnit) : Built fun _ => resolveUnit unit :=
  (built_declareTopLevel unit.package unit.types).bind fun _ => (built_linkTopLevel _).bind fun _ =>
    (built_resolveTopLevel _).bind fun _ => (Built.ask _).bind fun _ => .tell _

end Resolving
end LockDiscipline
