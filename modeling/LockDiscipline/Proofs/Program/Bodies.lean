import LockDiscipline.Proofs.Program.InStep
import LockDiscipline.Proofs.Program.Settling
/-!
# The resolver goes through everything

Every function of the resolver covers the construct that it is called on: expressions, statements,
members and the classes that are declared where they stand. This is shown of each thing that the resolver does on
its way; the recursion itself is followed by `Resolving.InStep`.
-/

namespace LockDiscipline

namespace Resolving

open Program (Grows)

/-- What is gone through after a class was declared and linked. The expressions in the class are not
concerned by that, and what was declared stays so. -/
private theorem Covered.after_declares {decl : ClassDecl} {before middle after : TrackedDraft}
    (h : Covered (.one (nestedPart decl)) middle after)
    (hdeclares : Declares decl.declaring before middle) (hplace : SamePlace before middle)
    (hretains : before.program.Retains middle.program)
    (hnodup : (TreeNode.classDecl decl).numbers.Nodup)
    (huse : ∀ id ∈ decl.declaring, after.program.use? id = middle.program.use? id) :
    Covered (.one (nestedPart decl)) before after where
  visits := by
    rw [← hplace.visits, ← hplace.scopes]
    exact h.visits
  enters seen hseen path node hwithin hnode hpath := by
    refine (h.enters seen hseen path node hwithin hnode hpath).imp_right fun ⟨entry, hentry⟩ => ⟨entry, ?_⟩
    obtain rfl := List.mem_singleton.mp hseen
    have hnests : ∃ part ∈ [nestedPart decl], part.Nests := ⟨_, List.mem_singleton_self _, .inl rfl⟩
    have hbinds : ScopeStack.Binds [] before.scopes middle.scopes :=
      .of_eq (congrArg ScopeStack.toList hplace.scopes)
    have hshows : List.Forall₂ after.program.Shows (([] : List VariableSite).map .variable)
        (([] : List (String × SymbolId)).map .ofBinding) := .nil
    have hentered := hentry.prepend (fun h => h) (hdeclares.grows.mono fun _ => hnests) hbinds hshows
      fun hinner => hdeclares.uses _
        (ClassDecl.not_mem_declaring_of_expr hnodup (hwithin.trans hinner))
    rwa [List.map_nil, List.append_nil] at hentered
  resolves := h.resolves
  declared := hplace.scopes ▸ h.declared
  introduced id owner symbol hsymbol howner := by
    refine (h.introduced id owner symbol hsymbol howner).elim (fun hmiddle => ?_) .inr
    rcases Nat.lt_or_ge id before.program.symbols.size with hlt | hle
    · exact .inl (hdeclares.grows.symbol?_of_lt_size hmiddle
        (symbol.classInfo?_eq_none_of_owner? howner) hlt)
    · obtain ⟨node, hnode, hid⟩ := hdeclares.recorded
        (hnodup.sublist decl.declaring_sublist_numbers) id hle
        (Program.lt_size_of_symbol?_eq_some hmiddle)
      exact .inr ⟨_, List.mem_singleton_self _, (h.declared _ (List.mem_singleton_self _) decl
        rfl).declaredIn hnode ((huse node hnode).trans hid) hsymbol howner⟩
  declaring := by
    rw [Declaring, ← hplace.scopes]
    exact h.declaring
  retained := hretains.trans h.retained

/-- The draft after it is kept in which class a member is looked up. -/
def looking (draft : TrackedDraft) (node : NodeId) (type : Option SymbolId) : TrackedDraft :=
  { draft with notes := NoteTaking.lookedIn node type draft.notes }

theorem run_lookIn (node : NodeId) (type : Option SymbolId) (draft : TrackedDraft) :
    (lookIn node type).run draft = ((), looking draft node type) := rfl

@[simp] theorem program_looking (draft : TrackedDraft) (node : NodeId) (type : Option SymbolId) :
    (looking draft node type).program = draft.program := rfl

theorem receivers_looking (draft : TrackedDraft) (node : NodeId) (type : Option SymbolId) :
    (looking draft node type).receivers = (node, type) :: draft.receivers := rfl

@[simp] theorem receiver?_looking (draft : TrackedDraft) (node : NodeId) (type : Option SymbolId) :
    (looking draft node type).receiver? node = some type := by
  rw [Draft.receiver?, receivers_looking, List.lookup_cons, beq_self_eq_true]

/-- The members of a class that is declared where it stands are gone through in its scope. -/
theorem run_resolveNested (decl : ClassDecl) (draft : TrackedDraft) : (resolveNested decl).run draft =
    ((declareNested decl).run draft).1.elim (none, ((declareNested decl).run draft).2) fun id =>
      (some id, ((inScope (.classBody id) (resolveMembers decl.members)).run
        ((declareNested decl).run draft).2).2) := by
  obtain ⟨node, name, kind, modifiers, typeParams, superclass, interfaces, members, span⟩ := decl
  rw [resolveNested, run_bind]
  cases ((declareNested _).run draft).1 <;> rfl

namespace Covers

/-- A local or anonymous class is declared and linked, and then gone through in its scope. -/
theorem nested {decl : ClassDecl}
    (h : Covers [] (.ofParts (memberParts decl.members)) (resolveMembers decl.members)) :
    Covers [] (.one (nestedPart decl)) (resolveNested decl) := by
  have hnests : ∃ part ∈ [nestedPart decl], part.Nests :=
    ⟨_, List.mem_singleton_self _, .inl rfl⟩
  have hrun (draft : TrackedDraft) : ((resolveNested decl).run draft).2 =
      ((declareNested decl).run draft).1.elim ((declareNested decl).run draft).2 fun id =>
        ((Resolving.inScope (.classBody id) (resolveMembers decl.members)).run
          ((declareNested decl).run draft).2).2 := by
    rw [run_resolveNested]
    cases ((declareNested _).run draft).1 <;> rfl
  refine ⟨fun draft hdraft => ?_, fun draft => ⟨[], .of_eq ?_, fun _ => rfl⟩,
    fun draft hdraft number _ hnumber => ?_, fun draft number _ hnumber => ?_, sites_classDecl,
    fun draft hready => ?_⟩ <;> rw [hrun]
  · have hnested := declareNested_spec decl hdraft
    refine (hnested.declares.grows.mono fun _ => hnests).trans ?_
    cases ((declareNested decl).run draft).1 with
    | none => exact .refl _ _
    | some id => exact h.grows_classBody _ (hnested.declares.wellFormed hdraft)
  · rw [← ((keepsPlace_declareNested decl).samePlace draft).scopes]
    cases ((declareNested decl).run draft).1 with
    | none => rfl
    | some id => exact h.scopes_classBody _
  · have hnested := declareNested_spec decl hdraft
    rw [Course.parts_one, nestedPart, Part.Reached.singleton_iff] at hnumber
    rw [← hnested.declares.uses number fun hmem => hnumber (.here hmem)]
    cases ((declareNested decl).run draft).1 with
    | none => rfl
    | some id => exact h.uses_classBody _ (hnested.declares.wellFormed hdraft) hnumber
  · rw [Course.parts_one, nestedPart, Part.Reached.singleton_iff] at hnumber
    have hplace := (keepsPlace_declareNested decl).samePlace draft
    rw [← Draft.receiver?_congr hplace.receivers number]
    cases ((declareNested decl).run draft).1 with
    | none => rfl
    | some id => exact h.receivers_classBody _ hnumber
  · have hnested := declareNested_spec decl hready.wellFormed
    have hnodup : (TreeNode.classDecl decl).numbers.Nodup := by
      simpa [nestedPart, TreeNode.numbersOf] using hready.nodup
    obtain ⟨self, info, hself, hinfo⟩ := hready.current
    obtain ⟨id, hid⟩ := Option.isSome_iff_exists.mp (hnested.some self info hself hinfo)
    obtain ⟨huse, hdeclared⟩ := hnested.declared hnodup id hid
    rw [hid]
    have hplace := (keepsPlace_declareNested decl).samePlace draft
    have hmiddle := hnested.declares.wellFormed hready.wellFormed
    refine Covered.after_declares ?_ hnested.declares hplace
      (declareNested_retains hready.wellFormed hnodup) hnodup fun number hnumber =>
        h.uses_classBody _ hmiddle (ClassDecl.not_reaches_of_declaring hnodup hnumber)
    exact .classBody hmiddle hnodup huse (by rwa [hplace.scopes]) h

section Names

theorem findTypeHere (type : String) : Covers [] .nil (Resolving.findTypeHere type) := by
  unfold Resolving.findTypeHere
  refine currentClass?.finish fun context => ?_
  cases context with
  | none => exact pure none
  | some context => exact ask _

/-- That a member is looked up may be kept before what is recorded for the same node. -/
theorem lookIn {node : NodeId} {course : Course} {rest : Tracked Denotation}
    (h : Covers [node] course rest) (type : Option SymbolId) :
    Covers [node] course (do
      Resolving.lookIn node type
      rest) := by
  refine ⟨fun draft => h.grows (looking draft node type),
    fun draft => h.scopes (looking draft node type),
    fun draft => h.uses (looking draft node type), fun draft number hnumber hparts => ?_, h.sites,
    fun draft hready => ?_⟩
  · refine (h.receivers (looking draft node type) number hnumber hparts).trans ?_
    rw [Draft.receiver?, receivers_looking, List.lookup_cons,
      beq_false_of_ne fun heq => hnumber (List.mem_singleton.mpr heq)]
    rfl
  · have hcovered := h.covered (looking draft node type)
      ⟨hready.wellFormed, hready.current, hready.nodup, hready.declared⟩
    exact hcovered.congr rfl rfl rfl rfl rfl rfl rfl hcovered.declaring

theorem useValue (node : NodeId) (id : SymbolId) :
    Covers [node] .nil (Resolving.useValue node id) :=
  (setUse node id).finish fun _ => ask _

theorem useType (node : NodeId) (found : Option SymbolId) :
    Covers [node] .nil (Resolving.useType node found) := by
  cases found with
  | none => exact (pure _).idle
  | some id => exact (setUse node id).finish fun _ => pure _

theorem useMethod (node : NodeId) (found : Option SymbolId) :
    Covers [node] .nil (Resolving.useMethod node found) := by
  cases found with
  | none => exact (pure _).idle
  | some id => exact useValue node id

theorem findVariable (name : String) : Covers [] .nil (Resolving.findVariable name) :=
  get.finish fun _ => pure _

theorem resolveName (node : NodeId) (name : String) :
    Covers [node] .nil (Resolving.resolveName node name) := by
  refine (findVariable name).finish fun found => ?_
  cases found with
  | some id => exact useValue node id
  | none => exact (findTypeHere name).finish fun found => useType node found

theorem resolveSelect (node : NodeId) (qualifier : Denotation) (name : String)
    (dotted : Option String) :
    Covers [node] .nil (Resolving.resolveSelect node qualifier name dotted) := by
  unfold Resolving.resolveSelect
  refine lookIn ?_ qualifier.memberClass?
  cases qualifier.memberClass? with
  | some owner =>
      refine (ask _).finish fun field => ?_
      cases field with
      | some field => exact useValue node field
      | none => exact (ask _).finish fun found => useType node found
  | none =>
      cases dotted with
      | some dotted => exact (findTypeHere dotted).finish fun found => useType node found
      | none => exact (pure _).idle

theorem findScopedMethod (method : String) (arity : Nat) :
    Covers [] .nil (Resolving.findScopedMethod method arity) := by
  unfold Resolving.findScopedMethod
  split
  · exact pure none
  · exact get.finish fun _ => pure _

end Names

/-! ### Labels -/

/-- Nothing is recorded where a constant is looked up. -/
theorem run_findConstant (selector : Option SymbolId) (kind : ExprKind) (draft : TrackedDraft) :
    (Resolving.findConstant selector kind).run draft =
      (((Resolving.findConstant selector kind).run draft).1, draft) := by
  cases kind <;> rfl

/-- A label names a field that is found under a bare name, or is resolved as an expression. -/
theorem run_resolveLabel (selector : Option SymbolId) (label : Expr) (draft : TrackedDraft) :
    ((Resolving.resolveLabel selector label).run draft).2 =
      (((Resolving.findConstant selector label.kind).run draft).1.elim
        ((resolveExpr label).run draft).2 fun id => ((Resolving.setUse label.id id).run draft).2) := by
  rw [Resolving.resolveLabel, run_bind, run_findConstant]
  cases ((Resolving.findConstant selector label.kind).run draft).1 <;> rfl

/-- What a label is found to name is a field of its name. -/
theorem exists_of_findConstant {selector : Option SymbolId} {kind : ExprKind} {draft : TrackedDraft}
    {id : SymbolId} (h : ((Resolving.findConstant selector kind).run draft).1 = some id) :
    ∃ name type, kind = .name name ∧ draft.program.findField? type name = some id := by
  cases kind with
  | name name =>
      obtain ⟨type, -, h⟩ := Option.bind_eq_some_iff.mp h
      obtain ⟨info, -, h⟩ := Option.bind_eq_some_iff.mp h
      split at h
      · exact ⟨name, type, rfl, h⟩
      · cases h
  | _ => cases h

/-- A label is gone through as an expression unless it names a constant. -/
theorem label {label : Expr} (selector : Option SymbolId)
    (h : Covers [] (.one ⟨.label, .expr label⟩) (resolveExpr label)) :
    Covers [] (.one ⟨.label, .expr label⟩) (Resolving.resolveLabel selector label) := by
  have hrun := run_resolveLabel selector label
  refine ⟨fun draft hdraft => ?_, fun draft => ?_, fun draft hdraft number hids hnumber => ?_,
    fun draft number hids hnumber => ?_, h.sites, fun draft hready => ?_⟩
  · rw [hrun]
    cases ((Resolving.findConstant selector label.kind).run draft).1 with
    | none => exact h.grows draft hdraft
    | some id => exact .of_change (.use label.id id)
  · rw [hrun]
    cases ((Resolving.findConstant selector label.kind).run draft).1 with
    | none => exact h.scopes draft
    | some id => exact ⟨[], .refl _, fun _ => rfl⟩
  · rw [hrun]
    cases ((Resolving.findConstant selector label.kind).run draft).1 with
    | none => exact h.uses draft hdraft number hids hnumber
    | some id =>
        refine (draft.program.use?_setUse label.id id number).trans (if_neg ?_)
        rintro rfl
        exact hnumber (Part.Reached.singleton_iff.mpr (.here (List.mem_singleton_self _)))
  · rw [hrun]
    cases ((Resolving.findConstant selector label.kind).run draft).1 with
    | none => exact h.receivers draft number hids hnumber
    | some id => rfl
  · rw [hrun]
    cases hfound : ((Resolving.findConstant selector label.kind).run draft).1 with
    | none => exact h.covered draft hready
    | some id =>
        obtain ⟨name, type, hname, hfield⟩ := exists_of_findConstant hfound
        obtain ⟨symbol, hsymbol, hsymbolName, hisField⟩ := hready.wellFormed.findField?_name hfield
        refine ⟨⟨[], rfl, fun _ hmem => absurd hmem List.not_mem_nil⟩, ?_, ?_, ?_,
          fun _ _ _ hsymbol _ => .inl hsymbol, ⟨[], .refl _, .nil⟩,
          .of_grows (.of_change (.use _ _))⟩
        · intro seen hseen path node hwithin _ _
          obtain rfl := List.mem_singleton.mp hseen
          cases hwithin with
          | here =>
              exact .inl ⟨label, rfl, ⟨rfl, name, hname⟩, name, id, symbol, hname,
                (draft.program.use?_setUse label.id id label.id).trans (if_pos rfl), hsymbol,
                hsymbolName, hisField⟩
          | part hindex =>
              rw [TreeNode.parts, hname] at hindex
              cases hindex
        · intro part hpart path decl _ hrole
          obtain rfl := List.mem_singleton.mp hpart
          cases hrole
        · intro part hpart decl hdecl
          obtain rfl := List.mem_singleton.mp hpart
          cases hdecl

end Covers

/-! ### The recursion of the resolver -/

/-- A local variable has the declared type or that of its initial value. -/
theorem Covers.localType (type : Option String) (init : Denotation) : Covers [] .nil (localType type init) := by
  unfold Resolving.localType
  split
  · exact .pure _
  · exact .ask _

/-- What is gone through in step is covered. -/
theorem InStep.covers {shedding : Shedding} {α : Type} {ids : List NodeId} {course : Course}
    {build build' : Tracked α} (h : InStep shedding ids course build build') : Covers ids course build := by
  induction h with
  | pure value => exact .pure value
  | bind _ _ hfirst hsecond => exact hfirst.bind hsecond
  | weaken _ hids hseen hleaves ih => exact ih.weaken hids hseen hleaves
  | inScope kind hkind _ ih => exact ih.inScope kind hkind
  | currentClass? => exact .currentClass?
  | superclass | used => exact .ask _
  | findTypeHere type => exact .findTypeHere type
  | setUse node id => exact .setUse node id
  | useType node found => exact .useType node found
  | useMethod node found => exact .useMethod node found
  | findScopedMethod method arity => exact .findScopedMethod method arity
  | useMethodOf node type method arity => exact .lookIn ((Covers.ask _).finish fun found => .useMethod node found) type
  | resolveName node => exact .resolveName node _
  | resolveSelect _ qualifier => exact .resolveSelect _ qualifier _ _
  | localType type init => exact .localType type init
  | localVariable name type node span => exact .declareVariable name type node span false
  | parameter name type node span => exact .declareVariable name type node span true
  | lambdaParams span names => exact .declareLambdaParams span names
  | unfold hunfolds _ ih => exact .unfold hunfolds ih
  | expr role hrole _ ih => exact .expr role hrole ih
  | stmt role hrole _ ih => exact .stmt role hrole ih
  | label selector _ ih => exact .label selector (.expr .label nofun ih)
  | nested _ ih => exact .nested ih
  | memberClass _ ih => exact .memberClass ih

theorem covers_resolveExpr (role : PartRole) (hrole : role ≠ .nested) (expr : Expr) :
    Covers [] (.one ⟨role, .expr expr⟩) (resolveExpr expr) :=
  (inStep_resolveExpr role hrole expr (Shedding.admits_idle _)).covers

theorem covers_resolveExprKind (id : NodeId) (span : Span) (kind : ExprKind) :
    Covers (kind.referring id) (kind.course span) (resolveExprKind id span kind) :=
  (inStep_resolveExprKind id span kind (Shedding.admits_idle _)).covers

theorem covers_resolveExprs (role : PartRole) (hrole : role ≠ .nested) (exprs : List Expr) :
    Covers [] (.ofParts (exprParts role exprs)) (resolveExprs exprs) :=
  (inStep_resolveExprs role hrole exprs fun _ _ => Shedding.admits_idle _).covers

theorem covers_resolveStmts (role : PartRole) (hrole : role ≠ .nested) (stmts : List Stmt) :
    Covers [] (.ofParts (stmtParts role stmts)) (resolveStmts stmts) :=
  (inStep_resolveStmts role hrole stmts fun _ _ => Shedding.admits_idle _).covers

theorem covers_resolveStmt (role : PartRole) (hrole : role ≠ .nested) (stmt : Stmt) :
    Covers [] (.one ⟨role, .stmt stmt⟩) (resolveStmt stmt) :=
  (inStep_resolveStmt role hrole stmt (Shedding.admits_idle _)).covers

theorem covers_resolveDeclarators (type : String) (declarators : List Declarator) :
    Covers [] (.ofParts (declarators.map fun declarator => ⟨.plain, .declarator declarator⟩))
      (resolveDeclarators type declarators) :=
  (inStep_resolveDeclarators type declarators fun _ _ => Shedding.admits_idle _).covers

theorem covers_resolveResources (resources : List Resource) :
    Covers [] (.ofParts (resources.map fun resource => ⟨.plain, .resource resource⟩))
      (resolveResources resources) :=
  (inStep_resolveResources resources fun _ _ => Shedding.admits_idle _).covers

theorem covers_resolveCatches (role : PartRole) (hrole : role ≠ .nested) (catches : List CatchClause) :
    Covers [] (.ofParts (catches.map fun clause => ⟨role, .catchClause clause⟩)) (resolveCatches catches) :=
  (inStep_resolveCatches role hrole catches fun _ _ => Shedding.admits_idle _).covers

theorem covers_resolveNested (decl : ClassDecl) : Covers [] (.one (nestedPart decl)) (resolveNested decl) :=
  (inStep_resolveNested decl (Shedding.admits_idle _)).covers

theorem covers_resolveMembers (members : List Member) :
    Covers [] (.ofParts (memberParts members)) (resolveMembers members) :=
  (inStep_resolveMembers members fun _ _ => Shedding.admits_idle _).covers

theorem covers_resolveMemberClass (decl : ClassDecl) :
    Covers [] (.one ⟨.declared, .classDecl decl⟩) (resolveMemberClass decl) :=
  (inStep_resolveMemberClass decl (Shedding.admits_idle _)).covers

end Resolving
end LockDiscipline
