import LockDiscipline.Proofs.Program.RetouchedNames
import LockDiscipline.Proofs.Program.WholeNames
import LockDiscipline.Proofs.Tree.Untouched
/-!
# Names in the bodies of retouched trees

The second part of the resolver goes through the bodies of classes, and here as well a retouched tree makes no
difference. Nor does it make one when parentheses are taken away from the retouched tree: the resolver sees
through them everywhere but where it asks for a dotted name, and such a name may then be found as a whole. So
it is assumed that the run on the tree without parentheses finds none of the names that they hide. The
recursion of the resolver is followed by `Resolving.InStep`, so this is shown of each thing that the resolver does.
What comes of it is `Program.matches_ofUnit_strip`, and `Program.matches_ofUnit` where no parentheses are
taken away: the names of a retouched unit mean what they mean in the unit.
-/

namespace LockDiscipline
namespace Resolving

/-! ### Declaring and linking classes without extra parentheses -/

section Classes

variable {Notes : Type} (extra : NodeId → Bool)

theorem declareFields_strip (owner : SymbolId) (modifiers : Modifiers) (type : String) (isStatic : Bool)
    (declarators : List Declarator) :
    declareFields owner modifiers type isStatic (stripDeclarators extra declarators) =
      (declareFields owner modifiers type isStatic declarators : Resolving Notes Unit) := by
  induction declarators with
  | nil => rfl
  | cons declarator rest ih =>
      obtain ⟨id, name, init, span⟩ := declarator
      rw [stripDeclarators, declareFields, ih, declareFields]

mutual

theorem declareClass_strip (outer : Option SymbolId) (name qualifiedName : String) (isStatic : Bool) :
    ∀ decl : ClassDecl, declareClass outer name qualifiedName isStatic (decl.strip extra) =
      (declareClass outer name qualifiedName isStatic decl : Resolving Notes SymbolId)
  | ⟨_, _, _, _, _, _, _, members, _⟩ => by
      simp only [ClassDecl.strip, declareClass, declareMembers_strip _ _ _ _ members]

theorem declareMembers_strip (owner : SymbolId) (qualifiedName className : String) (inInterface : Bool) :
    ∀ members : List Member,
      declareMembers owner qualifiedName className inInterface (stripMembers extra members) =
        (declareMembers owner qualifiedName className inInterface members : Resolving Notes Unit)
  | [] => rfl
  | ⟨_, kind, _⟩ :: rest => by
      simp only [stripMembers, declareMembers, declareMember_strip _ _ _ _ _ _ kind,
        declareMembers_strip _ _ _ _ rest]

theorem declareMember_strip (owner : SymbolId) (qualifiedName className : String) (inInterface : Bool)
    (node : NodeId) (span : Span) : ∀ kind : MemberKind,
      declareMember owner qualifiedName className inInterface node span (kind.strip extra) =
        (declareMember owner qualifiedName className inInterface node span kind : Resolving Notes Unit)
  | .field modifiers type declarators => declareFields_strip extra owner modifiers type _ declarators
  | .method ⟨_, _, _, _, _, _, _, _, _⟩ | .initializer _ _ | .enumConstant _ _ _ => rfl
  | .classDecl decl => by
      simp only [MemberKind.strip, declareMember, ClassDecl.modifiers_strip, ClassDecl.kind_strip,
        ClassDecl.name_strip, ClassDecl.span_strip, declareClass_strip _ _ _ _ decl]

end

mutual

theorem linkClass_strip (id : SymbolId) : ∀ decl : ClassDecl,
    linkClass id (decl.strip extra) = (linkClass id decl : Resolving Notes Unit)
  | ⟨_, _, _, _, _, _, _, members, _⟩ => by simp only [ClassDecl.strip, linkClass, linkMembers_strip members]

theorem linkMembers_strip : ∀ members : List Member,
    linkMembers (stripMembers extra members) = (linkMembers members : Resolving Notes Unit)
  | [] => rfl
  | ⟨_, kind, _⟩ :: rest => by
      simp only [stripMembers, linkMembers, linkMember_strip kind, linkMembers_strip rest]

theorem linkMember_strip : ∀ kind : MemberKind,
    linkMember (kind.strip extra) = (linkMember kind : Resolving Notes Unit)
  | .field _ _ _ | .method _ | .initializer _ _ | .enumConstant _ _ _ => rfl
  | .classDecl decl => by
      simp only [MemberKind.strip, linkMember, ClassDecl.id_strip]
      congr 1
      funext found
      cases found with
      | none => rfl
      | some id => exact linkClass_strip id decl

end

/-- What is inside a class does not matter where the class is declared and linked. -/
theorem declareNested_strip (decl : ClassDecl) :
    declareNested (decl.strip extra) = (declareNested decl : Resolving Notes (Option SymbolId)) := by
  simp only [declareNested, declareInside, ClassDecl.kind_strip, ClassDecl.name_strip, declareClass_strip,
    linkClass_strip]

end Classes

/-! ### Two runs -/

/-- A computation does to a draft what the other one does to a draft that it matches, unless that one finds a
hidden name as a whole. -/
structure Follows (shedding : Shedding) {α : Type} (build build' : Tracked α) : Prop where
  gathers : Gathers build'
  mirrors : ∀ draft draft', draft.Matches shedding.retouch.span draft' →
    (∀ node, shedding.hidden node → ¬(build'.run draft').2.NamesWhole node) →
      MirrorsAt shedding.retouch.span build build' draft draft'

variable {α β : Type} {shedding : Shedding}

/-- A computation that mirrors the other one follows it. -/
theorem Mirrors.follows {build build' : Tracked α} (h : Mirrors shedding.retouch.span build build')
    (hgathers : Gathers build') : Follows shedding build build' :=
  ⟨hgathers, fun draft draft' hmatches _ => h draft draft' hmatches⟩

namespace Follows

theorem pure (value : α) : Follows shedding (Pure.pure value) (Pure.pure value) :=
  (Mirrors.pure value).follows (.pure value)

theorem bind {build build' : Tracked α} {next next' : α → Tracked β} (hbuild : Follows shedding build build')
    (hnext : ∀ value, Follows shedding (next value) (next' value)) :
    Follows shedding (build >>= next) (build' >>= next') where
  gathers := hbuild.gathers.bind fun value => (hnext value).gathers
  mirrors draft draft' h hspared := by
    have hat : MirrorsAt shedding.retouch.span build build' draft draft' :=
      hbuild.mirrors draft draft' h fun node hnode hnames =>
        hspared node hnode ((hnext _).gathers _ node hnames)
    refine hat.bind ((hnext _).mirrors _ _ hat.matches_run ?_)
    rw [← hat.value_eq]
    exact hspared

theorem andThen {build build' : Tracked α} {next next' : Tracked β} (hbuild : Follows shedding build build')
    (hnext : Follows shedding next next') :
    Follows shedding (build >>= fun _ => next) (build' >>= fun _ => next') :=
  hbuild.bind fun _ => hnext

theorem inScope {build build' : Tracked α} (kind : ScopeKind) (h : Follows shedding build build') :
    Follows shedding (inScope kind build) (inScope kind build') :=
  ((Mirrors.updateScopes _).follows (.updateScopes _)).andThen
    (h.bind fun value => ((Mirrors.updateScopes _).follows (.updateScopes _)).andThen (.pure value))

theorem ask {question : Program → α}
    (hquestion : ∀ move program, question (program.recast move) = question program) :
    Follows shedding (ask question) (ask question) :=
  (Mirrors.ask hquestion).follows (.of_keepsPlace (.ask question))

theorem setUse (node : NodeId) (id : SymbolId) : Follows shedding (setUse node id) (setUse node id) :=
  (mirrors_setUse node id).follows (.of_keepsPlace (.setUse node id))

theorem currentClass? : Follows shedding currentClass? currentClass? :=
  Mirrors.currentClass?.follows (.of_keepsPlace keepsPlace_currentClass?)

theorem findTypeHere (type : String) : Follows shedding (findTypeHere type) (findTypeHere type) :=
  (mirrors_findTypeHere type).follows (.of_keepsPlace (keepsPlace_findTypeHere type))

theorem useType (node : NodeId) (found : Option SymbolId) :
    Follows shedding (useType node found) (useType node found) :=
  (mirrors_useType node found).follows (.of_keepsPlace (keepsPlace_useType node found))

theorem useMethod (node : NodeId) (found : Option SymbolId) :
    Follows shedding (useMethod node found) (useMethod node found) :=
  (mirrors_useMethod node found).follows (.of_keepsPlace (keepsPlace_useMethod node found))

theorem localType (type : Option String) (init : Denotation) :
    Follows shedding (localType type init) (localType type init) :=
  (mirrors_localType type init).follows (.of_keepsPlace (keepsPlace_localType type init))

theorem declareVariable (name : String) (type : Option String) (node : Option NodeId) (span : Span)
    (isParameter : Bool) : Follows shedding (declareVariable name type node span isParameter)
      (declareVariable name type node (shedding.retouch.span span) isParameter) :=
  (mirrors_declareVariable name type node span isParameter).follows (gathers_declareVariable _ _ _ _ _)

/-- Parentheses that are taken away are gone through as expressions of their own, which changes nothing else. -/
theorem visit {build build' : Tracked α} (node : NodeId) (h : Follows shedding build build') :
    Follows shedding (Resolving.visit node >>= fun _ => build) build' where
  gathers := h.gathers
  mirrors draft draft' hmatches hspared := by
    have hvisited : ((Resolving.visit node).run draft).2.Matches shedding.retouch.span draft' :=
      { hmatches with }
    have hat := h.mirrors _ _ hvisited hspared
    exact ⟨hat.value_eq, hat.matches_run, hat.size_le⟩

/-- An expression is resolved like what is left of it when extra parentheses around it are gone. -/
theorem shed {node : NodeId} {kind kind' : ExprKind} {span : Span}
    (h : Follows shedding (resolveExprKind node span kind)
      (resolveExprKind node (shedding.retouch.span span) kind')) :
    Follows shedding (resolveExpr ⟨node, kind, span⟩)
      (resolveExpr (Expr.shed shedding.extra ⟨node, kind', shedding.retouch.span span⟩)) := by
  have hkept : Follows shedding (resolveExpr ⟨node, kind, span⟩)
      (resolveExpr ⟨node, kind', shedding.retouch.span span⟩) :=
    ((Mirrors.visit node).follows (.visit node)).andThen h
  cases kind' with
  | paren inner =>
      by_cases hextra : shedding.extra node
      · rw [Expr.shed, if_pos hextra]
        exact visit node h
      · rw [Expr.shed, if_neg hextra]
        exact hkept
  | _ => exact hkept

/-- A selection is resolved alike whether or not its dotted name is hidden, as long as the name is not found. -/
theorem resolveSelect (node : NodeId) (qualifier : Denotation) (name : String) {dotted dotted' : Option String}
    (hdotted : dotted = dotted' ∨ dotted = none ∧ shedding.hidden node) :
    Follows shedding (resolveSelect node qualifier name dotted) (resolveSelect node qualifier name dotted') where
  gathers := gathers_resolveSelect node qualifier name dotted'
  mirrors draft draft' h hspared := by
    obtain rfl | ⟨rfl, hhidden⟩ := hdotted
    · exact mirrors_resolveSelect node qualifier name dotted draft draft' h
    · have hat := mirrors_resolveSelect node qualifier name none draft draft' h
      cases dotted' with
      | none => exact hat
      | some dotted =>
          have hrun : (Resolving.resolveSelect node qualifier name (some dotted)).run draft' =
              (Resolving.resolveSelect node qualifier name none).run draft' := by
            cases hclass : qualifier.memberClass? with
            | some owner => rw [Resolving.resolveSelect, Resolving.resolveSelect, hclass]
            | none => exact run_resolveSelect_of_not_namesWhole hclass (hspared node hhidden)
          exact ⟨hrun ▸ hat.value_eq, hrun ▸ hat.matches_run, hat.size_le⟩

/-- A label is resolved alike, for the constants of an enum are looked up by bare names, which stay bare. -/
theorem resolveLabel (selector : Option SymbolId) {id : NodeId} {kind kind' : ExprKind} {span : Span}
    (hconstant : Follows shedding (findConstant selector kind) (findConstant selector kind'))
    (h : Follows shedding (resolveExprKind id span kind) (resolveExprKind id (shedding.retouch.span span) kind')) :
    Follows shedding (resolveLabel selector ⟨id, kind, span⟩)
      (resolveLabel selector ⟨id, kind', shedding.retouch.span span⟩) := by
  apply Follows.bind hconstant
  intro constant?
  cases constant? with
  | some constant => exact .setUse id constant
  | none =>
      -- The parentheses around a label stay, so nothing is shed here.
      have hlabel : Follows shedding (resolveExpr ⟨id, kind, span⟩)
          (resolveExpr ⟨id, kind', shedding.retouch.span span⟩) :=
        ((Mirrors.visit id).follows (.visit id)).andThen h
      exact hlabel.andThen (.pure ())

theorem useMethodOf (node : NodeId) (type : Option SymbolId) (method : String) (arity : Nat) :
    Follows shedding (useMethodOf node type method arity) (useMethodOf node type method arity) := by
  apply ((Mirrors.lookIn node type).follows (.lookIn node type)).andThen
  apply Follows.bind
  · apply Follows.ask
    intro move program
    simp only [Program.findMethod?_recast]
  · intro found
    exact .useMethod node found

theorem superclass (context : Option SymbolId) : Follows shedding
    (Resolving.ask fun program => context.bind program.superclass?)
    (Resolving.ask fun program => context.bind program.superclass?) := by
  apply Follows.ask
  intro move program
  have hsuper : (program.recast move).superclass? = program.superclass? :=
    funext (program.superclass?_recast move)
  rw [hsuper]

theorem used (node : NodeId) : Follows shedding (Resolving.ask (·.use? node)) (Resolving.ask (·.use? node)) :=
  .ask fun move program => program.use?_recast move node

end Follows

/-! ### Bodies -/

end Resolving

/-- What a selection is taken from spells the same name without extra parentheses, or no name with them. -/
theorem Shedding.Admits.dottedName {shedding : Shedding} [shedding.retouch.KeepsNames] {id : NodeId} {object : Expr}
    {name : String} {span : Span} (h : shedding.Admits (.expr ⟨id, .select object name, span⟩)) :
    object.dottedName?.map (· ++ "." ++ name) =
        ((object.retouch shedding.retouch).strip shedding.extra).dottedName?.map (· ++ "." ++ name) ∨
      object.dottedName?.map (· ++ "." ++ name) = none ∧ shedding.hidden id := by
  rw [Expr.dottedName?_strip_retouch]
  by_cases hhides : object.HidesName shedding.extra
  · obtain hnone | hsame := object.dottedName?_strip shedding.extra
    · exact .inr ⟨by rw [hnone, Option.map_none], h.hides (.here _) hhides⟩
    · exact absurd hsame hhides
  · exact .inl (by rw [not_not.mp hhides])

namespace Resolving

section Bodies

variable {shedding : Shedding} [shedding.retouch.KeepsNames]

theorem follows_findConstant (selector : Option SymbolId) (id : NodeId) (kind : ExprKind) :
    Follows shedding (findConstant selector kind) (findConstant selector
      (((kind.retouch shedding.retouch).respell (shedding.retouch.name id)).strip shedding.extra)) := by
  rw [ExprKind.respell_of_id (shedding.retouch.name_eq id)]
  refine Mirrors.follows ?_ (.of_keepsPlace (keepsPlace_findConstant selector _))
  cases kind with
  | name name => exact mirrors_findConstant selector (.name name)
  | _ => exact .pure none

variable (hregular : shedding.retouch.Regular)
include hregular

theorem follows_declareNested (decl : ClassDecl) : Follows shedding (declareNested decl)
    (declareNested ((decl.retouch shedding.retouch).strip shedding.extra)) := by
  rw [declareNested_strip]
  exact (mirrors_declareNested hregular decl).follows (.of_keepsPlace (keepsPlace_declareNested _))

/-- What is done in step mirrors what is done on the unchanged tree, as long as no name is hidden. -/
theorem InStep.follows {α : Type} {ids : List NodeId} {course : Course} {build build' : Tracked α}
    (h : InStep shedding ids course build build') : Follows shedding build build' := by
  induction h with
  | pure value => exact .pure value
  | bind _ _ hfirst hsecond => exact hfirst.bind hsecond
  | weaken _ _ _ _ ih | unfold _ _ ih | stmt _ _ _ ih => exact ih
  | inScope kind _ _ ih => exact ih.inScope kind
  | currentClass? => exact .currentClass?
  | superclass context => exact .superclass context
  | used node => exact .used node
  | findTypeHere type => exact .findTypeHere type
  | setUse node id => exact .setUse node id
  | useType node found => exact .useType node found
  | useMethod node found => exact .useMethod node found
  | findScopedMethod method arity =>
      exact (mirrors_findScopedMethod method arity).follows (.of_keepsPlace (keepsPlace_findScopedMethod ..))
  | useMethodOf node type method arity => exact .useMethodOf node type method arity
  | resolveName node =>
      rw [shedding.retouch.name_eq]
      exact (mirrors_resolveName node _).follows (.of_keepsPlace (keepsPlace_resolveName node _))
  | resolveSelect hadmits qualifier => exact .resolveSelect _ qualifier _ hadmits.dottedName
  | localType type init => exact .localType type init
  | localVariable name type node span =>
      rw [shedding.retouch.name_eq]
      exact .declareVariable name type (some node) span false
  | parameter name type node span => exact .declareVariable name type (some node) span true
  | lambdaParams span names =>
      exact (mirrors_declareLambdaParams span names).follows (gathers_declareLambdaParams _ _)
  | expr _ _ _ ih => exact .shed ih
  | label selector _ ih => exact .resolveLabel selector (follows_findConstant selector _ _) ih
  | @nested decl _ ih =>
      obtain ⟨node, name, kind, modifiers, typeParams, superclass, interfaces, members, span⟩ := decl
      apply Follows.bind (follows_declareNested hregular _)
      intro inner?
      cases inner? with
      | none => exact .pure none
      | some inner => exact (ih.inScope (.classBody inner)).andThen (.pure _)
  | @memberClass decl _ ih =>
      obtain ⟨node, name, kind, modifiers, typeParams, superclass, interfaces, members, span⟩ := decl
      apply Follows.bind (.used node)
      intro symbol?
      cases symbol? with
      | none => exact .pure ()
      | some symbol => exact ih.inScope (.classBody symbol)

end Bodies

/-! ### Units -/

section Units

theorem mirrors_enterTopLevel {move : Span → Span} (name : String) (symbol : SymbolId) (span : Span) :
    MirrorsGiven move symbol (enterTopLevel name symbol span) (enterTopLevel name symbol (move span)) := by
  intro draft draft' h hown
  apply MirrorsAt.ask_bind
  have hentries : draft'.program.topLevel = draft.program.topLevel :=
    congrArg (·.topLevel) h.program.recast_eq
  have hentered := own_enterOnce name h.program.apart.topLevel hown
  rw [hentries]
  cases hresult : enterOnce name symbol draft.program.topLevel with
  | mk previous? topLevel =>
      rw [hresult] at hentered
      cases previous? with
      | some previous =>
          exact mirrors_addDuplicate (by intro _; rfl) previous draft draft' h (hentered.1 _ rfl)
      | none => exact ⟨rfl, { h with program := h.program.withTopLevel hentered.2 }, Nat.le_refl _⟩

theorem mirrors_declareTopLevel {retouch : Retouch} [retouch.KeepsNames] (hregular : retouch.Regular)
    (package : Option String) (decls : List ClassDecl) :
    Mirrors retouch.span (declareTopLevel package decls)
      (declareTopLevel package (decls.map (·.retouch retouch))) := by
  induction decls with
  | nil => exact .pure []
  | cons decl rest ih =>
      simp only [List.map_cons, declareTopLevel, ClassDecl.name_retouch, ClassDecl.span_retouch]
      apply MirrorsNew.bind (mirrors_declareClass hregular none decl.name _ false decl)
      intro symbol draft draft' h hown
      have hat := mirrors_enterTopLevel decl.name symbol decl.span draft draft' h hown
      apply hat.bind
      apply Mirrors.bind ih _ _ _ hat.matches_run
      intro symbols
      exact .pure _

theorem mirrors_linkTopLevel {retouch : Retouch} (classes : List (SymbolId × ClassDecl)) :
    Mirrors retouch.span (linkTopLevel classes)
      (linkTopLevel (classes.map fun entry => (entry.1, entry.2.retouch retouch))) := by
  induction classes with
  | nil => exact .pure ()
  | cons entry rest ih => exact (mirrors_linkClass entry.1 entry.2).andThen ih

theorem declareTopLevel_strip {Notes : Type} (extra : NodeId → Bool) (package : Option String)
    (decls : List ClassDecl) :
    declareTopLevel package (decls.map (·.strip extra)) =
      (declareTopLevel package decls : Resolving Notes (List SymbolId)) := by
  induction decls with
  | nil => rfl
  | cons decl rest ih =>
      simp only [List.map_cons, declareTopLevel, ClassDecl.name_strip, ClassDecl.span_strip,
        declareClass_strip, ih]

theorem linkTopLevel_strip {Notes : Type} (extra : NodeId → Bool) (classes : List (SymbolId × ClassDecl)) :
    linkTopLevel (classes.map fun entry => (entry.1, entry.2.strip extra)) =
      (linkTopLevel classes : Resolving Notes Unit) := by
  induction classes with
  | nil => rfl
  | cons entry rest ih => simp only [List.map_cons, linkTopLevel, linkClass_strip, ih]

variable {shedding : Shedding} [shedding.retouch.KeepsNames] (hregular : shedding.retouch.Regular)
include hregular

theorem follows_resolveTopLevel (classes : List (SymbolId × ClassDecl))
    (h : ∀ entry ∈ classes, shedding.Admits (.classDecl entry.2)) :
    Follows shedding (resolveTopLevel classes) (resolveTopLevel
      (classes.map fun entry => (entry.1, (entry.2.retouch shedding.retouch).strip shedding.extra))) := by
  induction classes with
  | nil => exact .pure ()
  | cons entry rest ih =>
      obtain ⟨hentry, hrest⟩ := List.forall_mem_cons.mp h
      have hmembers : Follows shedding (resolveMembers entry.2.members)
          (resolveMembers ((entry.2.retouch shedding.retouch).strip shedding.extra).members) := by
        rw [ClassDecl.members_strip, ClassDecl.members_retouch, ← retouchMembers_eq]
        exact (inStep_resolveMembers entry.2.members fun member hmember =>
          hentry.child (by simp [TreeNode.parts, hmember])).follows hregular
      exact (Follows.inScope _ hmembers).andThen (ih hrest)

theorem follows_resolveUnit (unit : CompilationUnit) (h : ∀ decl ∈ unit.types, shedding.Admits (.classDecl decl)) :
    Follows shedding (resolveUnit unit) (resolveUnit ((unit.retouch shedding.retouch).strip shedding.extra)) := by
  have hdeclare : Follows shedding (declareTopLevel unit.package unit.types)
      (declareTopLevel unit.package ((unit.types.map (·.retouch shedding.retouch)).map
        (·.strip shedding.extra))) := by
    rw [declareTopLevel_strip]
    exact (mirrors_declareTopLevel hregular unit.package unit.types).follows
      (.of_keepsPlace (keepsPlace_declareTopLevel _ _))
  apply Follows.bind hdeclare
  intro symbols
  have hclasses : symbols.zip ((unit.retouch shedding.retouch).strip shedding.extra).types =
      ((symbols.zip unit.types).map fun entry => (entry.1, entry.2.retouch shedding.retouch)).map
        fun entry => (entry.1, entry.2.strip shedding.extra) := by
    simp only [CompilationUnit.strip, CompilationUnit.retouch, List.zip_map_right]
    rfl
  have hlink : Follows shedding (linkTopLevel (symbols.zip unit.types))
      (linkTopLevel (((symbols.zip unit.types).map fun entry => (entry.1, entry.2.retouch shedding.retouch)).map
        fun entry => (entry.1, entry.2.strip shedding.extra))) := by
    rw [linkTopLevel_strip]
    exact (mirrors_linkTopLevel _).follows (.of_keepsPlace (keepsPlace_linkTopLevel _))
  have hbodies := follows_resolveTopLevel hregular (symbols.zip unit.types) fun entry hentry =>
    h entry.2 (List.of_mem_zip hentry).2
  dsimp only
  rw [hclasses]
  apply hlink.andThen
  rw [List.map_map]
  apply hbodies.andThen
  refine ⟨.of_keepsPlace (.bind (.ask id) fun _ => .tell _), fun draft draft' hmatches _ => ?_⟩
  apply Mirrors.get_bind _ draft draft' hmatches
  intro draft draft' h
  have hproblems : draft'.program.problems.length = draft.program.problems.length := by
    have hmap := congrArg (·.problems.length) h.program.recast_eq
    simpa [Program.recast] using hmap
  have huses : draft'.program.uses = draft.program.uses := congrArg (·.uses) h.program.recast_eq
  rw [id_eq, id_eq, h.program.size_eq, huses, hproblems]
  exact .tell _

end Units
end Resolving

namespace Program

/-- A program without symbols of the unit looks the same wherever its spans are moved. -/
theorem recast_of_size_le (move : Span → Span) {program : Program}
    (hsize : program.symbols.size ≤ Library.size) (hproblems : program.problems = []) :
    program.recast id = program.recast move := by
  simp only [recast, Program.mk.injEq, hproblems, List.map_nil, and_true]
  apply Array.ext_getElem?
  intro index
  simp only [Array.getElem?_mapIdx]
  by_cases hindex : index < program.symbols.size
  · have hlibrary : moveAt move index = id := if_pos (Nat.lt_of_lt_of_le hindex hsize)
    rw [hlibrary, moveAt_id]
  · rw [Array.getElem?_eq_none (Nat.le_of_not_lt hindex)]
    rfl

theorem problems_declareAll (package : Option String) :
    (Library.declareAll (.empty package)).problems = [] := by
  refine List.foldlRecOn (motive := fun program : Program => program.problems = [])
    Library.classes _ rfl fun program hprogram decl _ => ?_
  exact List.foldlRecOn (motive := fun program : Program => program.problems = []) decl.methods _
    hprogram fun _ h _ _ => h

variable {retouch : Retouch}

theorem matches_start (unit : CompilationUnit) :
    (startDraft unit).Matches retouch.span (startDraft (unit.retouch retouch)) := by
  have hsize : (startDraft unit).program.symbols.size = Library.size := by
    simp only [program_startDraft, Library.size_declareAll]
  have hproblems : (startDraft unit).program.problems = [] := by
    simp only [program_startDraft, problems_declareAll]
  rw [start_retouch]
  refine ⟨⟨?_, Nat.le_of_eq hsize.symm, setApart_start unit⟩, rfl, rfl, rfl, rfl⟩
  exact recast_of_size_le retouch.span (Nat.le_of_eq hsize) hproblems

section Shedding

variable {shedding : Shedding} [shedding.retouch.KeepsNames] (hregular : shedding.retouch.Regular)
include hregular

/-- The names of a unit mean what they mean in a retouched unit without extra parentheses, as long as no name that
the parentheses hide is found as a whole in there. -/
theorem matches_draftOf_strip (unit : CompilationUnit)
    (hadmits : ∀ decl ∈ unit.types, shedding.Admits (.classDecl decl))
    (hspared : ∀ node, shedding.hidden node →
      ¬(draftOf ((unit.retouch shedding.retouch).strip shedding.extra)).NamesWhole node) :
    (draftOf unit).Matches shedding.retouch.span
      (draftOf ((unit.retouch shedding.retouch).strip shedding.extra)) := by
  have hfollows := Resolving.follows_resolveUnit hregular unit hadmits
  exact (hfollows.mirrors _ _ (matches_start unit) hspared).matches_run

theorem matches_ofUnit_strip (unit : CompilationUnit)
    (hadmits : ∀ decl ∈ unit.types, shedding.Admits (.classDecl decl))
    (hspared : ∀ node, shedding.hidden node →
      ¬(draftOf ((unit.retouch shedding.retouch).strip shedding.extra)).NamesWhole node) :
    (ofUnit unit).Matches shedding.retouch.span
      (ofUnit ((unit.retouch shedding.retouch).strip shedding.extra)) := by
  have hmatches := (matches_draftOf_strip hregular unit hadmits hspared).program
  rwa [program_draftOf, program_draftOf] at hmatches

end Shedding

variable [retouch.KeepsNames] (hregular : retouch.Regular)
include hregular

/-- The names of a retouched unit mean what they mean in the unit. -/
theorem matches_draftOf (unit : CompilationUnit) :
    (draftOf unit).Matches retouch.span (draftOf (unit.retouch retouch)) := by
  let shedding : Shedding :=
    { retouch, hidden := fun _ => False, extra := fun _ => false, span_strip := by simp }
  have hnames : shedding.retouch.KeepsNames := ‹retouch.KeepsNames›
  have hadmits : ∀ decl ∈ unit.types, shedding.Admits (.classDecl decl) :=
    fun decl _ => ⟨.of_none (.classDecl decl), fun _ _ _ _ _ => trivial⟩
  have hmatches := matches_draftOf_strip hregular unit hadmits fun _ hnode => hnode.elim
  rwa [CompilationUnit.strip_none] at hmatches

theorem matches_ofUnit (unit : CompilationUnit) :
    (ofUnit unit).Matches retouch.span (ofUnit (unit.retouch retouch)) := by
  have hmatches := (matches_draftOf hregular unit).program
  rwa [program_draftOf, program_draftOf] at hmatches

end Program

/-! ### Where names are declared

Every place that the program of a unit tells is one of the tree: the symbols of the unit and the problems with
names stand where constructs do, so their spans cover tokens. The reason is that places pass through the
resolver unseen. A retouch that moves only what covers no tokens leaves the tree as it is, hence the program as
well, and what it leaves alone covers tokens. -/

/-- The places that a problem tells. -/
def NameProblem.spans : NameProblem → List Span
  | .duplicateClass _ span previous | .duplicateField _ span previous => [span, previous]
  | .cyclicInheritance _ span => [span]

theorem NameProblem.spans_recast (move : Span → Span) (problem : NameProblem) :
    (problem.recast move).spans = problem.spans.map move := by
  cases problem <;> rfl

open Classical in
/-- Whatever covers no tokens is moved. -/
noncomputable def Retouch.dislodge (tokens : List Token) : Retouch where
  span span := if span.Covers tokens then span else ⟨span.start + 1, span.stop⟩
  keywords _ keywords := keywords

instance Retouch.keepsNames_dislodge (tokens : List Token) : (dislodge tokens).KeepsNames :=
  ⟨fun _ _ => rfl⟩

theorem Retouch.span_dislodge_eq_self_iff {tokens : List Token} {span : Span} :
    (dislodge tokens).span span = span ↔ span.Covers tokens := by
  by_cases hcovers : span.Covers tokens
  · exact iff_of_true (if_pos hcovers) hcovers
  · refine iff_of_false (fun heq => ?_) hcovers
    have hmoved : (dislodge tokens).span span = ⟨span.start + 1, span.stop⟩ := if_neg hcovers
    have hstart := congrArg Span.start (hmoved.symm.trans heq)
    exact Nat.succ_ne_self _ hstart

/-- A unit whose spans cover tokens is left as it is by what moves only other spans. -/
theorem CompilationUnit.SpansNest.types_dislodge {tokens : List Token} {unit : CompilationUnit}
    (h : unit.SpansNest tokens) : unit.types.map (·.retouch (.dislodge tokens)) = unit.types := by
  have hdecl : ∀ decl ∈ unit.types, decl.retouch (.dislodge tokens) = decl := by
    intro decl hdecl
    apply TreeNode.untouched_classDecl.mp
    apply TreeNode.untouched_of_spares fun _ _ => rfl
    intro path inner hwithin
    obtain ⟨path, hat⟩ := exists_hasAt hdecl hwithin
    exact ⟨fun span hspan => Retouch.span_dislodge_eq_self_iff.mpr (h.covers _ _ hat span hspan),
      fun use huse => Retouch.span_dislodge_eq_self_iff.mpr (h.annotated _ _ hat use huse).1⟩
  rw [List.map_congr_left hdecl, List.map_id']

namespace Program

variable {tokens : List Token} {unit : CompilationUnit} (h : unit.SpansNest tokens)
include h

/-- The program of a unit is left as it is, too. -/
theorem matches_dislodge : (ofUnit unit).Matches (Retouch.dislodge tokens).span (ofUnit unit) := by
  have hregular : (Retouch.dislodge tokens).Regular := fun _ _ => rfl
  have hstart : startDraft (unit.retouch (.dislodge tokens)) = startDraft unit := start_retouch _ unit
  have hsame : ofUnit (unit.retouch (.dislodge tokens)) = ofUnit unit := by
    have htypes : (unit.retouch (.dislodge tokens)).types = unit.types := h.types_dislodge
    have hresolve : Resolving.resolveUnit (unit.retouch (.dislodge tokens)) =
        (Resolving.resolveUnit unit : Tracked Unit) := by
      rw [Resolving.resolveUnit, htypes]
      rfl
    rw [← program_draftOf, draftOf, hresolve, hstart, ← draftOf, program_draftOf]
  have hmatches := matches_ofUnit hregular unit
  rwa [hsame] at hmatches

/-- A symbol of the unit is declared where a construct stands. -/
theorem covers_of_own {id : SymbolId} {symbol : NamedSymbol} (hid : Library.size ≤ id)
    (hsymbol : (ofUnit unit).symbol? id = some symbol) : symbol.span.Covers tokens := by
  have hmap := (matches_dislodge h).symbol?_map id
  rw [hsymbol, moveAt_of_le _ hid, Option.map_some, Option.map_some] at hmap
  have hspan := congrArg NamedSymbol.span (Option.some.inj hmap)
  exact Retouch.span_dislodge_eq_self_iff.mp hspan.symm

/-- Problems with names are told of places where constructs stand. -/
theorem covers_of_problem {problem : NameProblem} (hproblem : problem ∈ (ofUnit unit).problems) :
    ∀ span ∈ problem.spans, span.Covers tokens := by
  have hproblems : (ofUnit unit).problems.map (·.recast id) =
      (ofUnit unit).problems.map (·.recast (Retouch.dislodge tokens).span) :=
    congrArg (·.problems) (matches_dislodge h).recast_eq
  have hspans := congrArg NameProblem.spans (List.map_inj_left.mp hproblems problem hproblem)
  rw [NameProblem.spans_recast, NameProblem.spans_recast] at hspans
  intro span hspan
  exact Retouch.span_dislodge_eq_self_iff.mp (List.map_inj_left.mp hspans span hspan).symm

end Program
end LockDiscipline
