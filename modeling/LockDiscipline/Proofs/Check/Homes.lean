import LockDiscipline.Proofs.Check.Sites
import LockDiscipline.Proofs.Check.Units
import LockDiscipline.Proofs.Grammar.DeclarationNumbers
import LockDiscipline.Proofs.Program.Unit
/-!
# The home of an expression

Three traversals go through a compilation unit and none of them knows of the others: the resolver,
the search for units of code, and the analysis of each unit. The home of an expression is the
innermost body around it. Here it is shown that an expression in code is looked at by the unit of its
home and by no other one, and that the class of this unit is the class in which the resolver resolved
the expression. The argument is one about paths: the path to an expression can be split in only one
way at the body that is its home, and nodes at different paths bear different numbers.
-/

namespace LockDiscipline

/-! ### Homes -/

namespace PartRole

/-- Whether a part stands in a body of its own: of a class, a method, an initializer or a lambda. -/
def isBody : PartRole → Bool
  | .member _ | .code => true
  | _ => false

/-- Whether a part is a class that is declared where it stands, or a body of code. -/
def isInnerCode : PartRole → Bool
  | .nested | .code => true
  | _ => false

/-- Whether a part is evaluated with its construct, and the analysis passes over it all the same. -/
def isPassedOver : PartRole → Bool
  | .operand | .label => true
  | _ => false

/-- Whether a part is an argument of an annotation. -/
def isAnnotationArg : PartRole → Bool
  | .annotationArg => true
  | _ => false

end PartRole

/-- Whether no class and no code is declared behind a label on a path. -/
def plainBehindLabels : List PathStep → Bool
  | [] => true
  | step :: rest =>
      (!step.role.isLabel || rest.all (!·.role.isInnerCode)) && plainBehindLabels rest

/-- No label of a case contains a class body or a lambda. -/
def CompilationUnit.PlainLabels (unit : CompilationUnit) : Prop :=
  ∀ decl ∈ unit.types, ∀ path node, Within (.classDecl decl) path node → plainBehindLabels path

instance (unit : CompilationUnit) : Decidable unit.PlainLabels :=
  decidable_of_iff (∀ decl ∈ unit.types, ∀ place ∈ (TreeNode.classDecl decl).places,
    plainBehindLabels place.path) ⟨fun h decl hdecl path node hwithin =>
      h decl hdecl ⟨path, node⟩ (TreeNode.mem_places.mpr hwithin), fun h decl hdecl place hplace =>
        h decl hdecl place.path place.node (TreeNode.mem_places.mp hplace)⟩

/-- A body of code is the home of an expression: no other body lies between them. -/
structure IsHome (decl : ClassDecl) (outer : List PathStep) (body : UnitBody)
    (inner : List PathStep) (expr : Expr) : Prop where
  outside : Within (.classDecl decl) outer (.code body)
  inside : Within (.code body) inner (.expr expr)
  innermost : ∀ step ∈ inner, step.role.isBody = false

/-- An expression at a path in a class is evaluated by a body of code: the body is its home, no
operand of `synchronized` and no label lies between them, and no annotation around it. -/
structure IsEvaluatedBy (decl : ClassDecl) (path : List PathStep) (expr : Expr) (body : UnitBody) :
    Prop where
  home : ∃ outer inner, path = outer ++ inner ∧ IsHome decl outer body inner expr ∧
    ∀ step ∈ inner, step.role.isPassedOver = false
  annotations : ∀ step ∈ path, step.role.isAnnotationArg = false

/-- The analysis of a unit looks at an expression. -/
def CodeUnit.Visits (unit : CodeUnit) (expr : Expr) : Prop :=
  ∃ path, unit.IsSite ⟨path, .expr expr⟩

/-- The units of code of a compilation unit, as the resolved unit has them. -/
def CompilationUnit.bodies (unit : CompilationUnit) : List CodeUnit :=
  (CodeUnits.ofUnit (.ofUnit unit) unit).bodies

/-- The units of code of a compilation unit look at what is at home in them. -/
structure CompilationUnit.VisitsHomes (unit : CompilationUnit) : Prop where
  /-- An expression that is evaluated by a body is visited by the unit of this body and by no other
  one, in the class that was the current one when the expression was resolved. -/
  visited : ∀ decl ∈ unit.types, ∀ path expr body, IsEvaluatedBy decl path expr body →
    Viewpoint.mayAccess expr.kind → ∃ (index : Nat) (visiting : CodeUnit),
      unit.bodies[index]? = some visiting ∧ visiting.body = body ∧ visiting.Visits expr ∧
        (∀ (other : Nat) (visiting' : CodeUnit), unit.bodies[other]? = some visiting' →
          visiting'.Visits expr → other = index) ∧
        ∀ type, (expr.id, type) ∈ (Program.draftOf unit).visits ↔ type = some visiting.self
  /-- Any other expression is visited by no unit. -/
  unvisited : ∀ decl ∈ unit.types, ∀ path expr, Within (.classDecl decl) path (.expr expr) →
    (∀ body, ¬ IsEvaluatedBy decl path expr body) →
      ∀ visiting ∈ unit.bodies, ¬ visiting.Visits expr
  /-- No guarded access is reported twice. -/
  once : ((unit.bodies.flatMap (·.accesses (.ofUnit unit))).map (·.expr.id)).Nodup
  /-- A guarded access is reported for the class in which it was resolved. -/
  attributed : ∀ visiting ∈ unit.bodies, ∀ access ∈ visiting.accesses (.ofUnit unit), ∀ type,
    (access.expr.id, type) ∈ (Program.draftOf unit).visits ↔ type = some visiting.self

/-! ### Paths to homes -/

namespace PartRole

theorem isBody_of_isOpen {role : PartRole} (h : role.isOpen) : role.isBody = false := by
  cases role with
  | plain | holding lock | protectedBy finallyBody => rfl
  | _ => cases h

theorem isCertain_of_isOpen {role : PartRole} (h : role.isOpen) : role.isCertain := by
  cases role with
  | plain | holding lock | protectedBy finallyBody => rfl
  | _ => cases h

theorem isPassedOver_of_isOpen {role : PartRole} (h : role.isOpen) : role.isPassedOver = false := by
  cases role with
  | plain | holding lock | protectedBy finallyBody => rfl
  | _ => cases h

theorem isAnnotationArg_of_isCertain {role : PartRole} (h : role.isCertain) :
    role.isAnnotationArg = false := by
  cases role with
  | annotationArg => cases h
  | _ => rfl

end PartRole

/-- A path can be split in one way at the last body of code on it. -/
theorem eq_of_append_eq_append {outer outer' inner inner' : List PathStep}
    (houter : ∃ front step, outer = front ++ [step] ∧ step.role = .code)
    (houter' : ∃ front step, outer' = front ++ [step] ∧ step.role = .code)
    (hinner : ∀ step ∈ inner, step.role.isBody = false)
    (hinner' : ∀ step ∈ inner', step.role.isBody = false)
    (heq : outer ++ inner = outer' ++ inner') : outer = outer' ∧ inner = inner' := by
  -- If one of the bodies were further in, it would stand behind the other one.
  have hlast {middle front : List PathStep} {step : PathStep} {before : List PathStep}
      (hbody : step.role = .code) (h : before ++ middle = front ++ [step])
      (hmiddle : ∀ step ∈ middle, step.role.isBody = false) : middle = [] := by
    by_contra hne
    have hmem : step ∈ middle := by
      have hlast := congrArg List.getLast? h
      rw [List.getLast?_append_of_ne_nil _ hne, List.getLast?_concat] at hlast
      exact List.mem_of_getLast? hlast
    have hclosed := hmiddle step hmem
    rw [hbody] at hclosed
    cases hclosed
  obtain ⟨front, step, hfront, hbody⟩ := houter
  obtain ⟨front', step', hfront', hbody'⟩ := houter'
  rcases List.append_eq_append_iff.mp heq with ⟨middle, h, h'⟩ | ⟨middle, h, h'⟩
  · have hnil := hlast hbody' (h.symm.trans hfront') fun step hstep =>
      hinner step (h' ▸ List.mem_append_left _ hstep)
    subst hnil
    simp_all
  · have hnil := hlast hbody (h.symm.trans hfront) fun step hstep =>
      hinner' step (h' ▸ List.mem_append_left _ hstep)
    subst hnil
    simp_all

/-- The parts of a class are its annotations and its members. -/
theorem TreeNode.role_of_classDecl {decl : ClassDecl} {part : Part}
    (h : part ∈ (TreeNode.classDecl decl).parts) :
    part.role = .annotationArg ∨ part.role = .member decl.id := by
  rcases List.mem_append.mp h with h | h
  · exact .inl (Modifiers.role_eq_of_mem_parts h)
  · obtain ⟨member, -, rfl⟩ := List.mem_map.mp h
    exact .inr rfl

namespace Within

/-- The path to a body of code ends with the step to it. -/
theorem ends_with_body {decl : ClassDecl} {path : List PathStep} {body : UnitBody}
    (h : Within (.classDecl decl) path (.code body)) :
    ∃ front step, path = front ++ [step] ∧ step.role = .code := by
  rcases List.eq_nil_or_concat path with rfl | ⟨front, step, rfl⟩
  · cases h
  · rw [List.concat_eq_append] at h ⊢
    obtain ⟨middle, -, hlast⟩ := h.split
    refine ⟨front, step, rfl, ?_⟩
    cases hlast with
    | part hpart hinner =>
        cases hinner with
        | here => exact TreeNode.role_eq_code (List.mem_of_getElem? hpart) rfl

/-- In code that is not interrupted by another body, by an operand, a label or an annotation, all
parts on a path are open. -/
theorem isOpen_of_innermost {node : TreeNode} {path : List PathStep} {expr : Expr}
    (h : Within node path (.expr expr)) (hnode : node.isCode)
    (hbody : ∀ step ∈ path, step.role.isBody = false)
    (hevaluated : ∀ step ∈ path, step.role.isPassedOver = false)
    (hargument : ∀ step ∈ path, step.role.isAnnotationArg = false) :
    ∀ step ∈ path, step.role.isOpen := by
  generalize hinner : TreeNode.expr expr = inner at h
  induction h with
  | here => exact fun step hstep => absurd hstep List.not_mem_nil
  | @part node child inner step path hpart hwithin ih =>
      obtain ⟨hbody, hbodies⟩ := List.forall_mem_cons.mp hbody
      obtain ⟨hevaluated, hevaluateds⟩ := List.forall_mem_cons.mp hevaluated
      obtain ⟨hargument, harguments⟩ := List.forall_mem_cons.mp hargument
      obtain ⟨index, role⟩ := step
      have hfits := Fits.of_mem_parts (List.mem_of_getElem? hpart)
      cases hfits with
      | inCode _ hrole hchild _ =>
          refine List.forall_mem_cons.mpr ⟨?_, ih hchild hbodies hevaluateds harguments hinner⟩
          cases role with
          | operand | label => cases hevaluated
          | plain | holding lock | protectedBy finallyBody => rfl
          | _ => cases hrole
      | body => cases hbody
      | nested decl =>
          -- Behind a class there are only its annotations and its members.
          subst hinner
          cases hwithin with
          | part hpart' _ =>
              have hbody' := hbodies _ List.mem_cons_self
              have hargument' := harguments _ List.mem_cons_self
              rcases TreeNode.role_of_classDecl (List.mem_of_getElem? hpart') with hrole | hrole
              all_goals dsimp only at hrole
              · rw [hrole] at hargument'
                cases hargument'
              · rw [hrole] at hbody'
                cases hbody'
      | annotationArg => cases hargument
      | declared => cases hnode
      | member => cases hnode

end Within

/-- An access is reported for an expression that its unit looks at. -/
theorem CodeUnit.visits_of_mem_accesses {unit : CodeUnit} {program : Program} {access : Access}
    (h : access ∈ unit.accesses program) : unit.Visits access.expr := by
  rw [accesses_eq_filterMap_sites] at h
  obtain ⟨place, hplace, haccess⟩ := List.mem_filterMap.mp h
  exact ⟨place.path, node_of_accessAt? haccess ▸ mem_sites.mp hplace⟩

/-! ### The class that the search carries along -/

namespace CodeUnits

variable {program : Program}

/-- The search for units goes only into parts that the resolver goes into, and it carries along the
innermost class on the path. -/
theorem follow_eq_some {self inside : SymbolId} {path : List PathStep}
    (h : TreeNode.follow (enterClass program) self path = some inside) :
    (∀ step ∈ path, step.role.isCertain) ∧
      inside = (classesAlong program.use? path).head?.getD self := by
  induction path generalizing self with
  | nil => exact ⟨fun _ hstep => absurd hstep List.not_mem_nil, (Option.some.inj h).symm⟩
  | cons step rest ih =>
      rw [TreeNode.follow_cons] at h
      obtain ⟨entered, henter, hrest⟩ := Option.bind_eq_some_iff.mp h
      obtain ⟨hcertain, hinside⟩ := ih hrest
      rw [classesAlong, List.head?_append, Option.getD_or, hinside]
      have hstep : step.role.isCertain ∧
          entered = (step.role.selfIn program.use?).head?.getD self := by
        cases hrole : step.role with
        | annotationArg | label =>
            rw [hrole] at henter
            cases henter
        | member classNode =>
            rw [hrole] at henter
            have huse : program.use? classNode = some entered := henter
            exact ⟨rfl, by rw [PartRole.selfIn, huse]; rfl⟩
        | _ =>
            rw [hrole] at henter
            exact ⟨rfl, (Option.some.inj henter).symm⟩
      exact ⟨List.forall_mem_cons.mpr ⟨hstep.1, hcertain⟩, by rw [hstep.2]⟩

/-- The search goes to the end of a path if nothing on it is an annotation or a label and all classes
on it have symbols. -/
theorem exists_follow_eq_some {path : List PathStep} (self : SymbolId)
    (hcertain : ∀ step ∈ path, step.role.isCertain)
    (hclasses : ∀ step ∈ path, ∀ classNode, step.role = .member classNode →
      ∃ id, program.use? classNode = some id) :
    ∃ inside, TreeNode.follow (enterClass program) self path = some inside := by
  induction path generalizing self with
  | nil => exact ⟨self, rfl⟩
  | cons step rest ih =>
      obtain ⟨hcertain, hcertains⟩ := List.forall_mem_cons.mp hcertain
      obtain ⟨hclass, hclasses⟩ := List.forall_mem_cons.mp hclasses
      have henter : ∃ entered, enterClass program self step.role = some entered := by
        cases hrole : step.role with
        | annotationArg | label =>
            rw [hrole] at hcertain
            cases hcertain
        | member classNode => exact hclass classNode hrole
        | _ => exact ⟨self, rfl⟩
      obtain ⟨entered, henter⟩ := henter
      obtain ⟨inside, hinside⟩ := ih entered hcertains hclasses
      exact ⟨inside, by rw [TreeNode.follow_cons, henter]; exact hinside⟩

theorem unitAt?_eq_some {place : Place} {unit : CodeUnit} (h : unitAt? program place = some unit) :
    place.node = .code unit.body ∧
      TreeNode.follow (enterClass program) 0 place.path = some unit.self := by
  obtain ⟨path, node⟩ := place
  cases node with
  | code body =>
      obtain ⟨self, hself, h⟩ := Option.bind_eq_some_iff.mp h
      obtain rfl := Option.some.inj h
      exact ⟨rfl, hself⟩
  | _ => cases h

end CodeUnits

namespace CompilationUnit

variable {unit : CompilationUnit}

/-- A unit of code stands somewhere in a class. -/
theorem mem_bodies {visiting : CodeUnit} :
    visiting ∈ unit.bodies ↔ ∃ decl ∈ unit.types, ∃ outer,
      Within (.classDecl decl) outer (.code visiting.body) ∧
        TreeNode.follow (CodeUnits.enterClass (.ofUnit unit)) 0 outer = some visiting.self := by
  rw [bodies, CodeUnits.bodies_ofUnit]
  simp only [List.mem_flatMap, List.mem_filterMap]
  constructor
  · rintro ⟨decl, hdecl, place, hplace, hunit⟩
    obtain ⟨hnode, hfollow⟩ := CodeUnits.unitAt?_eq_some hunit
    exact ⟨decl, hdecl, place.path, hnode ▸ TreeNode.mem_places.mp hplace, hfollow⟩
  · rintro ⟨decl, hdecl, outer, hwithin, hfollow⟩
    refine ⟨decl, hdecl, ⟨outer, .code visiting.body⟩, TreeNode.mem_places.mpr hwithin, ?_⟩
    simp [CodeUnits.unitAt?, hfollow]

variable (hnodup : unit.numbers.Nodup)
include hnodup

/-- Where no number occurs twice, an expression is told by its number. -/
theorem path_eq_of_id_eq {decl decl' : ClassDecl} (hdecl : decl ∈ unit.types)
    (hdecl' : decl' ∈ unit.types) {path path' : List PathStep} {expr expr' : Expr}
    (hwithin : Within (.classDecl decl) path (.expr expr))
    (hwithin' : Within (.classDecl decl') path' (.expr expr')) (hid : expr.id = expr'.id) :
    decl = decl' ∧ path = path' :=
  path_eq_of_numbers_nodup hnodup hdecl hdecl' hwithin hwithin' (List.mem_singleton_self _)
    (hid ▸ List.mem_singleton_self _)

/-- Two bodies at whose places one expression is at home are at one place. -/
private theorem outer_eq_of_id_eq {decl decl' : ClassDecl} (hdecl : decl ∈ unit.types)
    (hdecl' : decl' ∈ unit.types) {outer outer' inner inner' : List PathStep}
    {body body' : UnitBody} {expr expr' : Expr} (hhome : IsHome decl outer body inner expr)
    (hhome' : IsHome decl' outer' body' inner' expr') (hid : expr.id = expr'.id) :
    decl = decl' ∧ outer = outer' ∧ inner = inner' := by
  obtain ⟨rfl, hpath⟩ := path_eq_of_id_eq hnodup hdecl hdecl'
    (hhome.outside.trans hhome.inside) (hhome'.outside.trans hhome'.inside) hid
  exact ⟨rfl, eq_of_append_eq_append hhome.outside.ends_with_body hhome'.outside.ends_with_body
    hhome.innermost hhome'.innermost hpath⟩

/-- No two units look at expressions with one number. -/
theorem pairwise_bodies : unit.bodies.Pairwise fun first second => ∀ expr expr',
    first.Visits expr → second.Visits expr' → expr.id ≠ expr'.id := by
  have hhome {decl : ClassDecl} {place : Place} {visiting : CodeUnit} {expr : Expr}
      (hplace : place ∈ (TreeNode.classDecl decl).places)
      (hunit : CodeUnits.unitAt? (.ofUnit unit) place = some visiting)
      (hvisits : visiting.Visits expr) :
      ∃ inner, IsHome decl place.path visiting.body inner expr := by
    obtain ⟨inner, hinner, hopen, -⟩ := hvisits
    obtain ⟨hnode, -⟩ := CodeUnits.unitAt?_eq_some hunit
    exact ⟨inner, hnode ▸ TreeNode.mem_places.mp hplace, hinner,
      fun step hstep => PartRole.isBody_of_isOpen (hopen step hstep)⟩
  rw [bodies, CodeUnits.bodies_ofUnit, List.pairwise_flatMap]
  constructor
  · intro decl hdecl
    rw [List.pairwise_filterMap]
    refine (TreeNode.pairwise_places _).imp_of_mem fun {place place'} hplace hplace' hbefore => ?_
    intro visiting hunit visiting' hunit' expr expr' hvisits hvisits' hid
    obtain ⟨inner, hinner⟩ := hhome hplace hunit hvisits
    obtain ⟨inner', hinner'⟩ := hhome hplace' hunit' hvisits'
    obtain ⟨-, hpath, -⟩ := outer_eq_of_id_eq hnodup hdecl hdecl hinner hinner' hid
    rw [Place.Before, Place.position, hpath] at hbefore
    exact List.lex_irrefl Nat.lt_irrefl _ hbefore
  · have hdisjoint : unit.types.Pairwise (Function.onFun List.Disjoint ClassDecl.numbers) := by
      rw [numbers, parts, TreeNode.numbersOf_map, List.nodup_flatMap] at hnodup
      exact hnodup.2
    refine hdisjoint.imp fun {decl decl'} hdisjoint => ?_
    intro visiting hvisiting visiting' hvisiting' expr expr' hvisits hvisits' hid
    obtain ⟨place, hplace, hunit⟩ := List.mem_filterMap.mp hvisiting
    obtain ⟨place', hplace', hunit'⟩ := List.mem_filterMap.mp hvisiting'
    obtain ⟨inner, hinner⟩ := hhome hplace hunit hvisits
    obtain ⟨inner', hinner'⟩ := hhome hplace' hunit' hvisits'
    refine hdisjoint (a := expr.id) ?_ ?_
    · exact (hinner.outside.trans hinner.inside).numbers_subset
        (TreeNode.ownIds_subset_numbers (List.mem_singleton_self _))
    · exact (hinner'.outside.trans hinner'.inside).numbers_subset
        (TreeNode.ownIds_subset_numbers (hid ▸ List.mem_singleton_self _))

/-! ### The class in which an expression was resolved -/

/-- The resolver visits an expression outside annotations and labels in one class, the innermost one
on the path to it. -/
theorem mem_visits_iff {decl : ClassDecl} (hdecl : decl ∈ unit.types) {path : List PathStep}
    {expr : Expr} (hwithin : Within (.classDecl decl) path (.expr expr))
    (hcertain : ∀ step ∈ path, step.role.isCertain) (type : Option SymbolId) :
    (expr.id, type) ∈ (Program.draftOf unit).visits ↔
      type = (classesAlong (Program.ofUnit unit).use? path).head? := by
  rw [← Program.program_draftOf]
  have hcovered := Program.covered_draftOf hnodup
  have hpart : (⟨.declared, .classDecl decl⟩ : Part) ∈ unit.parts :=
    List.mem_map.mpr ⟨decl, hdecl, rfl⟩
  have houtside : (Program.linkedDraft unit).scopes.enclosingClasses = [] := by
    rw [Program.scopes_linkedDraft]
    rfl
  constructor
  · intro hvisit
    obtain ⟨visits, hvisits, hall⟩ := hcovered.visits
    rw [hvisits, Program.visits_linkedDraft, List.append_nil] at hvisit
    obtain ⟨part, hpart', path', expr', hwithin', -, heq⟩ := hall _ hvisit
    rw [Course.parts_ofParts] at hpart'
    obtain ⟨decl', hdecl', rfl⟩ := List.mem_map.mp hpart'
    obtain ⟨hid, htype⟩ := Prod.mk.inj heq
    obtain ⟨-, rfl⟩ := path_eq_of_id_eq hnodup hdecl hdecl' hwithin hwithin' hid
    rw [htype, houtside, List.append_nil]
  · rintro rfl
    obtain ⟨⟨_, visible⟩, hseen, rfl⟩ :=
      Course.mem_parts.mp ((Course.parts_ofParts unit.parts).symm ▸ hpart)
    obtain ⟨entry, hentry⟩ := (hcovered.enters_expr hseen hwithin
      fun step hstep => PartRole.isResolved_of_isCertain (hcertain step hstep)).resolve_left
      fun ⟨hlabel, _⟩ => not_isLabelName_of_isCertain expr rfl hcertain hlabel
    have hvisited := hentry.visited expr rfl
    rw [ScopeStack.currentClass?, hentry.classes, houtside, List.append_nil] at hvisited
    exact hvisited

omit hnodup in
/-- The class of a unit is the innermost one on the path to anything at home in it. -/
theorem head?_classesAlong {decl : ClassDecl} {outer inner : List PathStep} {body : UnitBody}
    {expr : Expr} {self : SymbolId} (hhome : IsHome decl outer body inner expr)
    (hfollow : TreeNode.follow (CodeUnits.enterClass (.ofUnit unit)) 0 outer = some self) :
    (classesAlong (Program.ofUnit unit).use? (outer ++ inner)).head? = some self := by
  have hinner : classesAlong (Program.ofUnit unit).use? inner = [] := by
    have hinnermost := hhome.innermost
    generalize inner = path at hinnermost
    induction path with
    | nil => rfl
    | cons step rest ih =>
        obtain ⟨hstep, hrest⟩ := List.forall_mem_cons.mp hinnermost
        rw [classesAlong, ih hrest]
        cases hrole : step.role with
        | member classNode =>
            rw [hrole] at hstep
            cases hstep
        | _ => rfl
  rw [classesAlong_append, hinner, List.nil_append]
  -- The path begins with a member of the top-level class, so there is a class on it.
  obtain ⟨-, hself⟩ := CodeUnits.follow_eq_some hfollow
  have hne : (classesAlong (Program.ofUnit unit).use? outer).head? ≠ none := by
    cases hhome.outside with
    | @part _ child _ step rest hpart _ =>
        obtain ⟨entered, henter, -⟩ := Option.bind_eq_some_iff.mp
          ((TreeNode.follow_cons _ 0 step rest).symm.trans hfollow)
        rcases TreeNode.role_of_classDecl (List.mem_of_getElem? hpart) with hrole | hrole
        all_goals
          dsimp only at hrole
          rw [hrole] at henter
        · cases henter
        · have huse : (Program.ofUnit unit).use? decl.id = some entered := henter
          rw [classesAlong, hrole, PartRole.selfIn, huse]
          simp
  cases hhead : (classesAlong (Program.ofUnit unit).use? outer).head? with
  | none => exact absurd hhead hne
  | some id => rw [hself, hhead]; rfl

/-! ### Units and what is at home in them -/

/-- What a unit looks at is evaluated by its body and was resolved in its class. -/
theorem isEvaluatedBy_of_visits {visiting : CodeUnit} (hvisiting : visiting ∈ unit.bodies)
    {expr : Expr} (hvisits : visiting.Visits expr) :
    ∃ decl ∈ unit.types, ∃ path, Within (.classDecl decl) path (.expr expr) ∧
      IsEvaluatedBy decl path expr visiting.body ∧
        ∀ type, (expr.id, type) ∈ (Program.draftOf unit).visits ↔ type = some visiting.self := by
  obtain ⟨decl, hdecl, outer, houter, hfollow⟩ := mem_bodies.mp hvisiting
  obtain ⟨inner, hinner, hopen, -⟩ := hvisits
  have hhome : IsHome decl outer visiting.body inner expr :=
    ⟨houter, hinner, fun step hstep => PartRole.isBody_of_isOpen (hopen step hstep)⟩
  have hcertain : ∀ step ∈ outer ++ inner, step.role.isCertain :=
    List.forall_mem_append.mpr ⟨(CodeUnits.follow_eq_some hfollow).1,
      fun step hstep => PartRole.isCertain_of_isOpen (hopen step hstep)⟩
  have hwithin := houter.trans hinner
  refine ⟨decl, hdecl, outer ++ inner, hwithin, ⟨⟨outer, inner, rfl, hhome, ?_⟩, ?_⟩, ?_⟩
  · exact fun step hstep => PartRole.isPassedOver_of_isOpen (hopen step hstep)
  · exact fun step hstep => PartRole.isAnnotationArg_of_isCertain (hcertain step hstep)
  · intro type
    rw [mem_visits_iff hnodup hdecl hwithin hcertain, head?_classesAlong hhome hfollow]

omit hnodup in
private theorem not_isLabel_of_plainBehindLabels {front : List PathStep} {last : PathStep}
    (h : plainBehindLabels (front ++ [last])) (hlast : last.role = .code) :
    ∀ step ∈ front ++ [last], step.role.isLabel = false := by
  induction front with
  | nil =>
      intro step hstep
      obtain rfl := List.mem_singleton.mp hstep
      rw [hlast]
      rfl
  | cons step rest ih =>
      obtain ⟨hstep, hrest⟩ := Bool.and_eq_true_iff.mp h
      refine List.forall_mem_cons.mpr ⟨?_, ih hrest⟩
      by_contra hlabel
      rw [Bool.not_eq_false] at hlabel
      rw [hlabel, Bool.not_true, Bool.false_or, List.all_eq_true] at hstep
      have hcode := hstep last (List.mem_append_right _ (List.mem_singleton_self _))
      rw [hlast] at hcode
      cases hcode

/-- The search for units comes to whatever is behind no annotation and no label. -/
theorem exists_follow_of_isCertain {decl : ClassDecl} (hdecl : decl ∈ unit.types)
    {path : List PathStep} {node : TreeNode} (hwithin : Within (.classDecl decl) path node)
    (hcertain : ∀ step ∈ path, step.role.isCertain) :
    ∃ self, TreeNode.follow (CodeUnits.enterClass (.ofUnit unit)) 0 path = some self := by
  refine CodeUnits.exists_follow_eq_some 0 hcertain fun step hstep classNode hrole => ?_
  obtain ⟨before, after, rfl⟩ := List.append_of_mem hstep
  obtain ⟨middle, hbefore, hafter⟩ := hwithin.split
  cases hafter with
  | part hpart _ =>
      obtain ⟨inner, -, rfl, rfl, -, -⟩ :=
        TreeNode.eq_classDecl_of_role_eq_member (List.mem_of_getElem? hpart) hrole
      obtain ⟨around, hdeclared⟩ := Program.exists_declared_ofUnit hnodup hdecl hbefore
        fun step hstep => hcertain step (List.mem_append_left _ hstep)
      exact hdeclared.exists_use?

/-- An expression that is evaluated by a body is visited by a unit with this body. -/
theorem exists_visits_of_isEvaluatedBy (hlabels : unit.PlainLabels) {decl : ClassDecl}
    (hdecl : decl ∈ unit.types) {path : List PathStep} {expr : Expr} {body : UnitBody}
    (h : IsEvaluatedBy decl path expr body) (haccess : Viewpoint.mayAccess expr.kind) :
    ∃ visiting ∈ unit.bodies, visiting.body = body ∧ visiting.Visits expr := by
  obtain ⟨⟨outer, inner, rfl, hhome, hevaluated⟩, harguments⟩ := h
  obtain ⟨hargument, hargument'⟩ := List.forall_mem_append.mp harguments
  have hcertain : ∀ step ∈ outer, step.role.isCertain := by
    intro step hstep
    obtain ⟨front, last, rfl, hlast⟩ := hhome.outside.ends_with_body
    have hlabel := not_isLabel_of_plainBehindLabels
      (hlabels decl hdecl _ _ hhome.outside) hlast step hstep
    have hargument := hargument step hstep
    cases hrole : step.role with
    | annotationArg => rw [hrole] at hargument; cases hargument
    | label => rw [hrole] at hlabel; cases hlabel
    | _ => rfl
  obtain ⟨self, hself⟩ := exists_follow_of_isCertain hnodup hdecl hhome.outside hcertain
  refine ⟨⟨body, self⟩, mem_bodies.mpr ⟨decl, hdecl, outer, hhome.outside, hself⟩, rfl, inner,
    hhome.inside, ?_, expr, rfl, haccess⟩
  exact hhome.inside.isOpen_of_innermost rfl hhome.innermost hevaluated hargument'

/-- A unit reports no two accesses for one number. -/
private theorem nodup_accesses {visiting : CodeUnit} (hvisiting : visiting ∈ unit.bodies)
    (program : Program) : ((visiting.accesses program).map (·.expr.id)).Nodup := by
  obtain ⟨decl, hdecl, outer, houter, -⟩ := mem_bodies.mp hvisiting
  rw [CodeUnit.accesses_eq_filterMap_sites, List.nodup_iff_pairwise_ne, List.pairwise_map,
    List.pairwise_filterMap]
  refine visiting.pairwise_sites.imp_of_mem fun {place place'} hplace hplace' hbefore => ?_
  intro access haccess access' haccess' hid
  have hwithin := (CodeUnit.mem_sites.mp hplace).1
  have hwithin' := (CodeUnit.mem_sites.mp hplace').1
  rw [CodeUnit.node_of_accessAt? haccess] at hwithin
  rw [CodeUnit.node_of_accessAt? haccess'] at hwithin'
  obtain ⟨-, hpath⟩ := path_eq_of_id_eq hnodup hdecl hdecl (houter.trans hwithin)
    (houter.trans hwithin') hid
  rw [Place.Before, Place.position, List.append_cancel_left hpath] at hbefore
  exact List.lex_irrefl Nat.lt_irrefl _ hbefore

end CompilationUnit

/-- The units of code of any compilation unit look at what is at home in them, as long as no label of
a case contains a class body or a lambda. -/
theorem ParsedUnit.visitsHomes_ofTokens (tokens : List Token)
    (hlabels : (ofTokens tokens).unit.PlainLabels) : (ofTokens tokens).unit.VisitsHomes := by
  have hnodup := nodup_numbers_ofTokens tokens
  generalize (ofTokens tokens).unit = unit at hlabels hnodup
  have hpairwise := CompilationUnit.pairwise_bodies hnodup
  refine ⟨?_, ?_, ?_, ?_⟩
  · intro decl hdecl path expr body hevaluated haccess
    obtain ⟨visiting, hvisiting, hbody, hvisits⟩ :=
      CompilationUnit.exists_visits_of_isEvaluatedBy hnodup hlabels hdecl hevaluated haccess
    obtain ⟨index, hindex⟩ := List.mem_iff_getElem?.mp hvisiting
    obtain ⟨-, -, -, -, -, htype⟩ :=
      CompilationUnit.isEvaluatedBy_of_visits hnodup hvisiting hvisits
    refine ⟨index, visiting, hindex, hbody, hvisits, fun other visiting' hother hvisits' => ?_,
      htype⟩
    by_contra hne
    rw [List.pairwise_iff_getElem] at hpairwise
    obtain ⟨hlt, rfl⟩ := List.getElem?_eq_some_iff.mp hindex
    obtain ⟨hlt', rfl⟩ := List.getElem?_eq_some_iff.mp hother
    rcases Nat.lt_or_gt_of_ne hne with h | h
    · exact hpairwise other index hlt' hlt h expr expr hvisits' hvisits rfl
    · exact hpairwise index other hlt hlt' h expr expr hvisits hvisits' rfl
  · intro decl hdecl path expr hwithin hnot visiting hvisiting hvisits
    obtain ⟨decl', hdecl', path', hwithin', hevaluated, -⟩ :=
      CompilationUnit.isEvaluatedBy_of_visits hnodup hvisiting hvisits
    obtain ⟨rfl, rfl⟩ := CompilationUnit.path_eq_of_id_eq hnodup hdecl hdecl' hwithin hwithin' rfl
    exact hnot _ hevaluated
  · rw [List.map_flatMap, List.nodup_flatMap]
    refine ⟨fun visiting hvisiting =>
      CompilationUnit.nodup_accesses hnodup hvisiting _, hpairwise.imp ?_⟩
    intro visiting visiting' hdifferent id hid hid'
    obtain ⟨access, haccess, rfl⟩ := List.mem_map.mp hid
    obtain ⟨access', haccess', heq⟩ := List.mem_map.mp hid'
    exact hdifferent _ _ (CodeUnit.visits_of_mem_accesses haccess)
      (CodeUnit.visits_of_mem_accesses haccess') heq.symm
  · intro visiting hvisiting access haccess
    obtain ⟨-, -, -, -, -, htype⟩ := CompilationUnit.isEvaluatedBy_of_visits hnodup hvisiting
      (CodeUnit.visits_of_mem_accesses haccess)
    exact htype

/-- A method with an access and with a local class that bears an annotation. -/
def annotatedTokens : List Token :=
  (Lexer.tokenize ("class A \x7b @GuardedBy(\"this\") int x; " ++
    "void f() \x7b x = 1; @B(x) class C \x7b \x7d \x7d \x7d").toList).tokens

private theorem annotated_plainLabels : (ParsedUnit.ofTokens annotatedTokens).unit.PlainLabels := by
  decide +kernel

theorem visitsHomes_annotatedTokens :
    (ParsedUnit.ofTokens annotatedTokens).unit.PlainLabels ∧
      (ParsedUnit.ofTokens annotatedTokens).unit.VisitsHomes :=
  ⟨annotated_plainLabels,
    ParsedUnit.visitsHomes_ofTokens annotatedTokens annotated_plainLabels⟩

namespace TreeNode

/-- The construct as a body of code. -/
def body? : TreeNode → Option UnitBody
  | .code body => some body
  | _ => none

theorem eq_code_of_body? {node : TreeNode} {body : UnitBody} (h : node.body? = some body) :
    node = .code body := by
  cases node with
  | code body' => rw [Option.some.inj h]
  | _ => cases h

end TreeNode

private theorem annotated_home :
    ∃ decl ∈ (ParsedUnit.ofTokens annotatedTokens).unit.types,
      ∃ home ∈ (TreeNode.classDecl decl).places, ∃ body ∈ home.node.body?.toList,
        ∃ place ∈ (TreeNode.code body).places, ∃ expr ∈ place.node.expr?.toList,
          (place.path.all fun step => !step.role.isBody && !step.role.isPassedOver) ∧
            place.path.any (·.role.isAnnotationArg) ∧ Viewpoint.mayAccess expr.kind := by
  decide +kernel

/-- An argument of the annotation of a local class is at home in the code around the class, and yet
no unit looks at it. -/
theorem exists_isHome_not_visits :
    (ParsedUnit.ofTokens annotatedTokens).unit.PlainLabels ∧
      ∃ decl ∈ (ParsedUnit.ofTokens annotatedTokens).unit.types, ∃ outer body inner expr,
        IsHome decl outer body inner expr ∧ (∀ step ∈ inner, step.role.isPassedOver = false) ∧
          Viewpoint.mayAccess expr.kind ∧
            ∀ visiting ∈ (ParsedUnit.ofTokens annotatedTokens).unit.bodies,
              ¬ visiting.Visits expr := by
  have hnodup := ParsedUnit.nodup_numbers_ofTokens annotatedTokens
  obtain ⟨decl, hdecl, ⟨outer, node⟩, houter, body, hbody, ⟨inner, node'⟩, hinner, expr, hexpr,
    hsteps, hannotated, haccess⟩ := annotated_home
  obtain ⟨step, hstep, hargument⟩ := List.any_eq_true.mp hannotated
  simp only [List.all_eq_true, Bool.and_eq_true, Bool.not_eq_true'] at hsteps
  obtain rfl := TreeNode.eq_code_of_body? (Option.mem_toList.mp hbody)
  obtain rfl := TreeNode.eq_expr_of_expr? (Option.mem_toList.mp hexpr)
  have hhome : IsHome decl outer body inner expr :=
    ⟨TreeNode.mem_places.mp houter, TreeNode.mem_places.mp hinner, fun step h => (hsteps step h).1⟩
  refine ⟨annotated_plainLabels, decl, hdecl, outer, body, inner, expr, hhome,
    fun step h => (hsteps step h).2, haccess, fun visiting hvisiting hvisits => ?_⟩
  obtain ⟨decl', hdecl', path, hwithin, hevaluated, -⟩ :=
    CompilationUnit.isEvaluatedBy_of_visits hnodup hvisiting hvisits
  obtain ⟨rfl, rfl⟩ := CompilationUnit.path_eq_of_id_eq hnodup hdecl hdecl'
    (hhome.outside.trans hhome.inside) hwithin rfl
  rw [hevaluated.annotations step (List.mem_append_right _ hstep)] at hargument
  cases hargument

end LockDiscipline
