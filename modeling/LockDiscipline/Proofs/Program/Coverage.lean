import LockDiscipline.Proofs.Program.Footprints
import LockDiscipline.Proofs.Program.Retention
import LockDiscipline.Proofs.Program.Scoping
/-!
# What a resolution covers

A computation of the resolver goes through some parts of a tree. `Resolving.Covers` says what that
means for any computation: the program only grows, the scopes are left as they were found but for the
variables that the parts leave, uses are recorded only for the numbers of the parts, and every
expression in the parts is entered with the scopes that it sees, once the classes on the path to it are
around it. Annotations are not entered, and of the labels of cases those are not that name a constant.
Computations in sequence cover what both cover, so that the recursion of the resolver can be followed
function by function.
-/

namespace LockDiscipline

/-! ### Paths and classes -/

namespace PartRole

/-- Whether the resolver always goes into a part because of its role. -/
def isCertain : PartRole → Bool
  | .annotationArg | .label => false
  | _ => true

theorem isResolved_of_isCertain {role : PartRole} (h : role.isCertain) : role.isResolved := by
  cases role <;> trivial

theorem lastOf_isCertain {role : PartRole} {path : List PathStep} (hrole : role.isCertain)
    (hpath : ∀ step ∈ path, step.role.isCertain) : (lastOf role path).isCertain := by
  induction path generalizing role with
  | nil => exact hrole
  | cons step rest ih =>
      obtain ⟨hstep, hrest⟩ := List.forall_mem_cons.mp hpath
      exact ih hstep hrest

/-- The class of which a part is a member, by the symbols of the nodes. -/
def selfIn (use? : NodeId → Option SymbolId) : PartRole → List SymbolId
  | .member classNode => (use? classNode).toList
  | _ => []

end PartRole

/-- Whether the expression at the end of a path is a bare name as a label of a case, which may name a
constant and is not resolved as an expression then. -/
def IsLabelName (role : PartRole) (path : List PathStep) (expr : Expr) : Prop :=
  role.lastOf path = .label ∧ ∃ name, expr.kind = .name name

theorem not_isLabelName_of_isCertain {role : PartRole} {path : List PathStep} (expr : Expr)
    (hrole : role.isCertain) (hpath : ∀ step ∈ path, step.role.isCertain) :
    ¬IsLabelName role path expr := by
  rintro ⟨hlabel, -⟩
  have hcertain := PartRole.lastOf_isCertain hrole hpath
  rw [hlabel] at hcertain
  cases hcertain

/-- The classes that a path goes into, innermost first, by the symbols of the nodes. -/
def classesAlong (use? : NodeId → Option SymbolId) : List PathStep → List SymbolId
  | [] => []
  | step :: rest => classesAlong use? rest ++ step.role.selfIn use?

theorem classesAlong_append (use? : NodeId → Option SymbolId) (first second : List PathStep) :
    classesAlong use? (first ++ second) = classesAlong use? second ++ classesAlong use? first := by
  induction first with
  | nil => simp [classesAlong]
  | cons step rest ih =>
      rw [List.cons_append, classesAlong, ih, classesAlong, List.append_assoc]

/-- The classes on a path depend only on the symbols of nodes inside the construct. -/
theorem Within.classesAlong_congr {outer inner : TreeNode} {path : List PathStep}
    (h : Within outer path inner) {use? use?' : NodeId → Option SymbolId}
    (huse : ∀ id ∈ outer.numbers, use?' id = use? id) :
    classesAlong use?' path = classesAlong use? path := by
  induction h with
  | here => rfl
  | @part node child inner step path hpart hinner ih =>
      have hchild : ∀ id ∈ child.numbers, use?' id = use? id := fun id hid =>
        huse id (TreeNode.mem_numbers_of_part (List.mem_of_getElem? hpart) hid)
      rw [classesAlong, classesAlong, ih hchild]
      congr 1
      cases hrole : step.role with
      | member classNode =>
          rw [PartRole.selfIn, PartRole.selfIn, huse classNode
            ((Within.part hpart hinner).mem_numbers_of_member List.mem_cons_self hrole)]
      | _ => rfl

/-! ### Declared classes -/

/-- The class that a part declares, by itself or as a member. -/
def Part.classDecl? (part : Part) : Option ClassDecl :=
  match part.node with
  | .classDecl decl => some decl
  | .member ⟨_, .classDecl decl, _⟩ => some decl
  | _ => none

theorem Part.numbers_of_classDecl? {part : Part} {decl : ClassDecl}
    (h : part.classDecl? = some decl) {id : NodeId}
    (hid : id ∈ (TreeNode.classDecl decl).numbers) : id ∈ part.node.numbers := by
  obtain ⟨role, node⟩ := part
  cases node with
  | classDecl decl' =>
      obtain rfl : decl' = decl := Option.some.inj h
      exact hid
  | member member =>
      obtain ⟨number, kind, span⟩ := member
      cases kind with
      | classDecl decl' =>
          obtain rfl : decl' = decl := Option.some.inj h
          have hpart : (⟨.declared, .classDecl decl'⟩ : Part) ∈
              (TreeNode.member ⟨number, .classDecl decl', span⟩).parts :=
            List.mem_singleton_self _
          exact TreeNode.mem_numbers_of_part hpart hid
      | _ => cases h
  | _ => cases h

/-- Each class of a list lies in the next one, and the last one in none. -/
def Program.Chain (program : Program) : List SymbolId → Prop
  | [] => True
  | id :: rest =>
      (∃ info, program.classInfo? id = some info ∧ info.outer = rest.head?) ∧ program.Chain rest

namespace Program.Chain

variable {program later : Program}

theorem mono {classes : Prop} {ids : List SymbolId} (h : program.Chain ids)
    (hgrows : Grows classes program later) : later.Chain ids := by
  induction ids with
  | nil => trivial
  | cons id rest ih =>
      obtain ⟨⟨info, hinfo, houter⟩, hrest⟩ := h
      obtain ⟨info', hinfo', houter'⟩ := hgrows.classInfo? hinfo
      exact ⟨⟨info', hinfo', houter'.trans houter⟩, ih hrest⟩

theorem isClass {ids : List SymbolId} (h : program.Chain ids) : ∀ id ∈ ids, program.IsClass id := by
  induction ids with
  | nil => exact fun _ hid => absurd hid List.not_mem_nil
  | cons id rest ih => exact List.forall_mem_cons.mpr ⟨⟨_, h.1.choose_spec.1⟩, ih h.2⟩

private theorem enclosing_eq_cons (hprogram : program.WellFormed) {id : SymbolId}
    {rest : List SymbolId} (h : program.Chain (id :: rest)) : program.enclosing id = id :: rest := by
  suffices hsteps : ∀ steps, id < steps → program.enclosingUpTo steps id = id :: rest by
    exact hsteps _ (Nat.lt_succ_of_lt (h.isClass id List.mem_cons_self).lt_size)
  induction rest generalizing id with
  | nil =>
      obtain ⟨⟨info, hinfo, houter⟩, -⟩ := h
      intro steps hid
      obtain ⟨steps, rfl⟩ := Nat.exists_eq_add_of_lt hid
      rw [enclosingUpTo, outerClass?, hinfo, Option.bind_some, houter]
      rfl
  | cons outer rest ih =>
      obtain ⟨⟨info, hinfo, houter⟩, hrest⟩ := h
      have houter' : program.outerClass? id = some outer := by
        rw [outerClass?, hinfo, Option.bind_some, houter]
        rfl
      intro steps hid
      obtain ⟨steps, rfl⟩ := Nat.exists_eq_add_of_lt hid
      rw [enclosingUpTo, houter']
      have hlt := hprogram.outer_lt id houter'
      exact congrArg (id :: ·) (ih hrest _ (Nat.lt_of_lt_of_le hlt (Nat.le_add_right ..)))

/-- A chain of classes is a class with those around it. -/
theorem enclosing_eq {ids : List SymbolId} (h : program.Chain ids) (hprogram : program.WellFormed)
    {self : SymbolId} (hself : ids.head? = some self) : program.enclosing self = ids := by
  cases ids with
  | nil => cases hself
  | cons id rest =>
      obtain rfl := Option.some.inj hself
      exact h.enclosing_eq_cons hprogram

end Program.Chain

/-- What modifiers and a node of a member declare in a class is a symbol of this class and has the guard
that the modifiers name. It takes its monitor if it is a method that is declared so outside of an interface.
If it is a field then it has the name that the member declares, and the table of the class has one of this
name. -/
def Program.Carries (program : Program) (owner : SymbolId) (inInterface : Bool) (member : Member)
    (carrier : Modifiers × NodeId) : Prop :=
  ∃ id symbol, program.use? carrier.2 = some id ∧ program.symbol? id = some symbol ∧
    symbol.owner? = some owner ∧ symbol.guard = carrier.1.guardedBy? ∧
      symbol.isSynchronized = (symbol.isMethod && (carrier.1.has .synchronized && !inInterface)) ∧
        (symbol.isField → (symbol.name, carrier.2) ∈ member.fieldNames ∧
          ∃ entry ∈ (program.members owner).fields, entry.1 = symbol.name)

theorem Program.Carries.mono {program later : Program} {classes : Prop} {owner : SymbolId}
    {inInterface : Bool} {member : Member} {carrier : Modifiers × NodeId}
    (h : program.Carries owner inInterface member carrier)
    (hgrows : Grows classes program later) (hfields : program.KeepsFields later)
    (huse : later.use? carrier.2 = program.use? carrier.2) :
    later.Carries owner inInterface member carrier := by
  obtain ⟨id, symbol, hid, hsymbol, howner, hguard, hmonitor, hfield⟩ := h
  refine ⟨id, symbol, huse.trans hid, hgrows.symbol?_of_not_class hsymbol
    (symbol.classInfo?_eq_none_of_owner? howner), howner, hguard, hmonitor, fun his => ?_⟩
  obtain ⟨hname, entry, hentry, heq⟩ := hfield his
  exact ⟨hname, entry, hfields.subset owner hentry, heq⟩

/-- A class and its member classes have symbols, which know the classes around them, and so have their
fields and methods. -/
inductive Program.Declared (program : Program) : Option SymbolId → ClassDecl → Prop where
  | intro {outer : Option SymbolId} {decl : ClassDecl} {id : SymbolId} {info : ClassInfo}
      (huse : program.use? decl.id = some id) (hinfo : program.classInfo? id = some info)
      (houter : info.outer = outer)
      (hcarriers : ∀ member ∈ decl.members, ∀ carrier ∈ member.carriers,
        program.Carries id (decl.kind == .interface) member carrier)
      (hmembers : ∀ member ∈ decl.members, ∀ inner, member.kind = .classDecl inner →
        Declared program (some id) inner) : Declared program outer decl

/-- A field or method with a symbol is declared by a member in a construct, outside annotations. -/
def Program.DeclaredIn (program : Program) (node : TreeNode) (id : SymbolId) : Prop :=
  ∃ path member, Within node path (.member member) ∧ (∀ step ∈ path, step.role.isResolved) ∧
    ∃ carrier ∈ member.carriers, program.use? carrier.2 = some id ∧
      ∃ owner inInterface, program.Carries owner inInterface member carrier

namespace Program.DeclaredIn

variable {program later : Program} {node : TreeNode} {id : SymbolId}

theorem of_part {role : PartRole} {child : TreeNode} (h : program.DeclaredIn child id)
    (hpart : (⟨role, child⟩ : Part) ∈ node.parts) (hrole : role.isResolved) :
    program.DeclaredIn node id := by
  obtain ⟨path, member, hwithin, hpath, hcarrier⟩ := h
  obtain ⟨index, hindex⟩ := List.getElem?_of_mem hpart
  exact ⟨⟨index, role⟩ :: path, member, .part hindex hwithin,
    List.forall_mem_cons.mpr ⟨hrole, hpath⟩, hcarrier⟩

theorem mono {classes : Prop} (h : program.DeclaredIn node id) (hgrows : Grows classes program later)
    (hfields : program.KeepsFields later)
    (huse : ∀ number ∈ node.numbers, later.use? number = program.use? number) :
    later.DeclaredIn node id := by
  obtain ⟨path, member, hwithin, hpath, carrier, hcarrier, hid, owner, inInterface, hcarries⟩ := h
  have hnode : carrier.2 ∈ node.numbers := by
    obtain ⟨number, kind, span⟩ := member
    exact hwithin.numbers_subset
      ((kind.declaring_sublist number span).subset (Member.mem_declaring_of_carriers hcarrier))
  exact ⟨path, member, hwithin, hpath, carrier, hcarrier, (huse _ hnode).trans hid, owner, inInterface,
    hcarries.mono hgrows hfields (huse _ hnode)⟩

end Program.DeclaredIn

namespace Program.Declared

variable {program later : Program} {classes : Prop} {outer : Option SymbolId} {decl : ClassDecl}

theorem mono (h : program.Declared outer decl) (hgrows : Grows classes program later)
    (hfields : program.KeepsFields later)
    (huse : ∀ id ∈ decl.declaring, later.use? id = program.use? id) :
    later.Declared outer decl := by
  induction h with
  | @intro outer decl id info hid hinfo houter hcarriers hmembers ih =>
      obtain ⟨info', hinfo', houter'⟩ := hgrows.classInfo? hinfo
      refine .intro ((huse decl.id decl.id_mem_declaring).trans hid) hinfo' (houter'.trans houter)
        ?_ ?_
      · intro member hmember carrier hcarrier
        exact (hcarriers member hmember carrier hcarrier).mono hgrows hfields
          (huse _ (ClassDecl.mem_declaring_of_carriers hmember hcarrier))
      · intro member hmember inner hkind
        exact ih member hmember inner hkind fun number hnumber =>
          huse number (ClassDecl.declaring_subset_of_member hmember hkind hnumber)

theorem exists_use? (h : program.Declared outer decl) : ∃ id, program.use? decl.id = some id := by
  obtain ⟨huse, -⟩ := h
  exact ⟨_, huse⟩

/-- A field or method whose node is among those that declare a class and its members is declared by a
member there. -/
theorem declaredIn (h : program.Declared outer decl) {node : NodeId} (hnode : node ∈ decl.declaring)
    {id owner : SymbolId} {symbol : NamedSymbol} (huse : program.use? node = some id)
    (hsymbol : program.symbol? id = some symbol) (howner : symbol.owner? = some owner) :
    program.DeclaredIn (.classDecl decl) id := by
  induction h with
  | @intro outer decl self info hself hinfo houter hcarriers hmembers ih =>
      rw [decl.declaring_eq] at hnode
      rcases List.mem_cons.mp hnode with rfl | hnode
      · -- The node of the class itself declares a class.
        obtain rfl := Option.some.inj (huse.symm.trans hself)
        rw [classInfo?, hsymbol, Option.bind_some,
          symbol.classInfo?_eq_none_of_owner? howner] at hinfo
        cases hinfo
      · obtain ⟨member, hmember, hnode⟩ := mem_declaringMembers.mp hnode
        have hpart : (⟨.member decl.id, .member member⟩ : Part) ∈
            (TreeNode.classDecl decl).parts :=
          List.mem_append_right _ (List.mem_map.mpr ⟨_, hmember, rfl⟩)
        refine DeclaredIn.of_part ?_ hpart rfl
        by_cases hkind : ∃ inner, member.kind = .classDecl inner
        · obtain ⟨inner, hkind⟩ := hkind
          rw [hkind, MemberKind.declaring] at hnode
          obtain ⟨number, kind, span⟩ := member
          obtain rfl : kind = .classDecl inner := hkind
          have hinner : (⟨.declared, .classDecl inner⟩ : Part) ∈
              (TreeNode.member ⟨number, .classDecl inner, span⟩).parts := List.mem_singleton_self _
          exact (ih _ hmember inner rfl hnode).of_part hinner rfl
        · rw [← member.map_carriers fun inner h => hkind ⟨inner, h⟩] at hnode
          obtain ⟨carrier, hcarrier, rfl⟩ := List.mem_map.mp hnode
          exact ⟨[], member, .here _, fun _ h => absurd h List.not_mem_nil, carrier, hcarrier, huse, self, _,
            hcarriers member hmember carrier hcarrier⟩

end Program.Declared

/-- A part is, or holds, a class that is declared where it stands. -/
def Part.Nests (part : Part) : Prop :=
  part.role = .nested ∨
    ∃ path inner, Within part.node path inner ∧ ∃ step ∈ path, step.role = .nested

/-- An expression is a bare name that is used for a field of this name. -/
def Program.NamesConstant (program : Program) (expr : Expr) : Prop :=
  ∃ name id symbol, expr.kind = .name name ∧ program.use? expr.id = some id ∧
    program.symbol? id = some symbol ∧ symbol.name = name ∧ symbol.isField

theorem Program.NamesConstant.mono {program later : Program} {classes : Prop} {expr : Expr}
    (h : program.NamesConstant expr) (hgrows : Grows classes program later)
    (huse : later.use? expr.id = program.use? expr.id) : later.NamesConstant expr := by
  obtain ⟨name, id, symbol, hkind, hid, hsymbol, hname, hfield⟩ := h
  exact ⟨name, id, symbol, hkind, huse.trans hid, hgrows.symbol?_of_not_class hsymbol
    (symbol.classInfo?_eq_none_of_isField hfield), hname, hfield⟩

/-! ### Computations -/

/-- The resolver comes to expressions and statements by themselves. -/
def TreeNode.isEntered : TreeNode → Bool
  | .expr _ | .stmt _ => true
  | _ => false

namespace Resolving

open Program (Grows)

theorem run_bind {α β : Type} (first : Tracked α) (second : α → Tracked β) (draft : TrackedDraft) :
    (first >>= second).run draft = (second (first.run draft).1).run (first.run draft).2 := rfl

theorem run_ask {α : Type} (question : Program → α) (draft : TrackedDraft) :
    (ask question).run draft = (question draft.program, draft) := rfl

/-- What the resolver does with an expression or a statement. It does not come to other constructs by
themselves. -/
def resolveNode : TreeNode → Tracked Unit
  | .expr expr => do
      let _ ← resolveExpr expr
      return ()
  | .stmt stmt => resolveStmt stmt
  | _ => return ()

/-- The resolver goes into the expression or statement at the end of a path with `entry` as its draft.
The classes on the path are around it then and are settled, the scopes hold what the marks stand for,
nothing new was recorded for the expressions in it before, and what is recorded then stays recorded. -/
structure Enters (nests : Prop) (before after : TrackedDraft) (path : List PathStep)
    (marks : List ScopeMark) (node : TreeNode) (entry : TrackedDraft) : Prop where
  earlier : Grows nests before.program entry.program
  later : Grows nests ((resolveNode node).run entry).2.program after.program
  retained : entry.program.Retains after.program
  kept : ((resolveNode node).run entry).2.program.Retains after.program
  fresh : ∀ {path inner}, Within node path (.expr inner) →
    entry.program.use? inner.id = before.program.use? inner.id
  uses : ∀ id ∈ node.numbers, after.program.use? id = ((resolveNode node).run entry).2.program.use? id
  receivers : ∀ id ∈ node.numbers,
    after.receiver? id = ((resolveNode node).run entry).2.receiver? id
  classes : entry.scopes.enclosingClasses =
    classesAlong after.program.use? path ++ before.scopes.enclosingClasses
  chained : before.program.Chain before.scopes.enclosingClasses →
    entry.program.Chain entry.scopes.enclosingClasses
  sees : ∃ items, List.Forall₂ after.program.Shows marks items ∧
    entry.scopes.items = items ++ before.scopes.items
  visited : ∀ expr, node = .expr expr → (expr.id, entry.scopes.currentClass?) ∈ after.visits

/-- The variables at some places are bound between two drafts, and no other ones. -/
def Declaring (sites : List VariableSite) (before after : TrackedDraft) : Prop :=
  ∃ bindings, ScopeStack.Binds bindings before.scopes after.scopes ∧
    List.Forall₂ after.program.Shows (sites.map .variable) (bindings.map .ofBinding)

/-- What is known when the resolver has gone through parts. -/
structure Covered (course : Course) (before after : TrackedDraft) : Prop where
  /-- Only expressions in the parts were visited, each in the innermost class on its path. -/
  visits : ∃ visits, after.visits = visits ++ before.visits ∧ ∀ visit ∈ visits,
    ∃ part ∈ course.parts, ∃ path expr, Within part.node path (.expr expr) ∧
      (∀ step ∈ path, step.role.isResolved) ∧ visit = (expr.id,
        (classesAlong after.program.use? path ++ before.scopes.enclosingClasses).head?)
  /-- All expressions and statements in the parts were entered with what they see, outside annotations and
  except for labels that name constants. -/
  enters : ∀ seen ∈ course.seen, ∀ path node, Within seen.part.node path node → node.isEntered →
    (∀ step ∈ path, step.role.isResolved) →
    (∃ expr, node = .expr expr ∧ IsLabelName seen.part.role path expr ∧
      after.program.NamesConstant expr) ∨
    ∃ entry, Enters (∃ part ∈ course.parts, part.Nests) before after path
      (seen.part.node.marks path ++ seen.visible.map .variable) node entry
  /-- All classes in the parts are declared, outside annotations and labels. -/
  resolves : ∀ part ∈ course.parts, ∀ path decl, Within part.node path (.classDecl decl) →
    part.role.isCertain → (∀ step ∈ path, step.role.isCertain) →
    ∃ outer, after.program.Declared outer decl
  /-- The classes that the parts themselves are lie in the class around the parts. -/
  declared : ∀ part ∈ course.parts, ∀ decl, part.classDecl? = some decl →
    after.program.Declared before.scopes.currentClass? decl
  /-- All fields and methods that are new are declared in the parts. -/
  introduced : ∀ id owner symbol, after.program.symbol? id = some symbol →
    symbol.owner? = some owner → before.program.symbol? id = some symbol ∨
      ∃ part ∈ course.parts, after.program.DeclaredIn part.node id
  /-- The variables that the parts leave are bound. -/
  declaring : Declaring course.leaves before after
  /-- The classes that there were before are settled. -/
  retained : before.program.Retains after.program

namespace Covered

variable {course : Course} {before after : TrackedDraft} (h : Covered course before after) {seen : SeenPart}
  (hseen : seen ∈ course.seen) {path : List PathStep}
include h hseen

/-- Every expression in the parts was entered unless it is a label that names a constant. -/
theorem enters_expr {expr : Expr} (hwithin : Within seen.part.node path (.expr expr))
    (hpath : ∀ step ∈ path, step.role.isResolved) :
    (IsLabelName seen.part.role path expr ∧ after.program.NamesConstant expr) ∨
    ∃ entry, Enters (∃ part ∈ course.parts, part.Nests) before after path
      (seen.part.node.marks path ++ seen.visible.map .variable) (.expr expr) entry := by
  refine (h.enters seen hseen path _ hwithin rfl hpath).imp_left ?_
  rintro ⟨_, ⟨⟩, hconstant⟩
  exact hconstant

/-- Every statement in the parts was entered. -/
theorem enters_stmt {stmt : Stmt} (hwithin : Within seen.part.node path (.stmt stmt))
    (hpath : ∀ step ∈ path, step.role.isResolved) :
    ∃ entry, Enters (∃ part ∈ course.parts, part.Nests) before after path
      (seen.part.node.marks path ++ seen.visible.map .variable) (.stmt stmt) entry := by
  refine (h.enters seen hseen path _ hwithin rfl hpath).resolve_left ?_
  rintro ⟨_, ⟨⟩, -⟩

end Covered

/-- What has to hold before the resolver goes through parts and records uses for some more
numbers. -/
structure Ready (ids : List NodeId) (parts : List Part) (draft : TrackedDraft) :
    Prop where
  wellFormed : draft.program.WellFormed
  current : ∃ self info, draft.scopes.currentClass? = some self ∧
    draft.program.classInfo? self = some info
  nodup : (ids ++ TreeNode.numbersOf parts).Nodup
  /-- Member classes were declared before. -/
  declared : ∀ part ∈ parts, part.role ≠ .nested → ∀ decl, part.classDecl? = some decl →
    draft.program.Declared draft.scopes.currentClass? decl

/-- A computation goes through parts and records uses only for these and for some more numbers. -/
structure Covers {α : Type} (ids : List NodeId) (course : Course)
    (computation : Tracked α) : Prop where
  grows : ∀ draft : TrackedDraft, draft.program.WellFormed →
    Grows (∃ part ∈ course.parts, part.Nests) draft.program (computation.run draft).2.program
  scopes : ∀ draft : TrackedDraft, ∃ bindings,
    ScopeStack.Binds bindings draft.scopes (computation.run draft).2.scopes ∧
      (course.leaves = [] → bindings = [])
  uses : ∀ draft : TrackedDraft, draft.program.WellFormed → ∀ id, id ∉ ids →
    ¬Part.Reached course.parts id →
    (computation.run draft).2.program.use? id = draft.program.use? id
  receivers : ∀ (draft : TrackedDraft) (id : NodeId), id ∉ ids → ¬Part.Reached course.parts id →
    (computation.run draft).2.receiver? id = draft.receiver? id
  sites : course.SitesIn (ids ++ TreeNode.numbersOf course.parts)
  covered : ∀ draft, Ready ids course.parts draft →
    Covered course draft (computation.run draft).2

namespace Ready

variable {ids ids' : List NodeId} {parts parts' : List Part} {draft : TrackedDraft}

theorem left (h : Ready (ids ++ ids') (parts ++ parts') draft) :
    Ready ids parts draft where
  wellFormed := h.wellFormed
  current := h.current
  nodup := by
    have hnodup := h.nodup
    rw [TreeNode.numbersOf_append] at hnodup
    refine hnodup.sublist ?_
    exact (List.sublist_append_left _ _).append (List.sublist_append_left _ _)
  declared part hpart := h.declared part (List.mem_append_left _ hpart)

theorem right_nodup (h : Ready (ids ++ ids') (parts ++ parts') draft) :
    (ids' ++ TreeNode.numbersOf parts').Nodup := by
  have hnodup := h.nodup
  rw [TreeNode.numbersOf_append] at hnodup
  refine hnodup.sublist ?_
  exact (List.sublist_append_right _ _).append (List.sublist_append_right _ _)

theorem disjoint (h : Ready (ids ++ ids') (parts ++ parts') draft) {id : NodeId}
    (hfirst : id ∈ ids ++ TreeNode.numbersOf parts) :
    id ∉ ids' ∧ id ∉ TreeNode.numbersOf parts' := by
  have hnodup := h.nodup
  rw [TreeNode.numbersOf_append] at hnodup
  have hdisjoint : List.Disjoint (ids ++ TreeNode.numbersOf parts)
      (ids' ++ TreeNode.numbersOf parts') := by
    refine List.disjoint_of_nodup_append (hnodup.perm ?_)
    simp only [List.append_assoc]
    refine List.Perm.append_left ids ?_
    rw [← List.append_assoc, ← List.append_assoc]
    exact List.perm_append_comm.append_right _
  exact ⟨fun hid => hdisjoint hfirst (List.mem_append_left _ hid),
    fun hid => hdisjoint hfirst (List.mem_append_right _ hid)⟩

/-- The order of the parts does not matter, nor does it when uses are recorded for fewer numbers. -/
theorem weaken (h : Ready ids' parts' draft) (hids : ids.Sublist ids') (hparts : parts.Perm parts') :
    Ready ids parts draft where
  wellFormed := h.wellFormed
  current := h.current
  nodup := (h.nodup.perm ((hparts.symm.flatMap_right _).append_left ids')).sublist (hids.append_right _)
  declared part hpart := h.declared part (hparts.mem_iff.mp hpart)

end Ready

namespace Enters

variable {nests nests' : Prop} {before middle after : TrackedDraft} {path : List PathStep}
  {marks : List ScopeMark} {node : TreeNode} {entry : TrackedDraft}

/-- What was entered stays so while the resolver goes through other parts. -/
theorem extend {part : Part} (h : Enters nests before middle path marks node entry)
    (hwithin : Within part.node path node) (hnests : nests → nests')
    (hgrows : Grows nests' middle.program after.program)
    (hretains : middle.program.Retains after.program)
    (huse : ∀ id ∈ part.node.numbers, after.program.use? id = middle.program.use? id)
    (hreceivers : ∀ id ∈ part.node.numbers, after.receiver? id = middle.receiver? id)
    (hmarks : ∀ mark ∈ marks, ∀ id ∈ mark.nodes, after.program.use? id = middle.program.use? id)
    (hvisits : ∃ visits, after.visits = visits ++ middle.visits) :
    Enters nests' before after path marks node entry where
  earlier := h.earlier.mono hnests
  later := (h.later.mono hnests).trans hgrows
  retained := h.retained.trans hretains
  kept := h.kept.trans hretains
  fresh := h.fresh
  uses id hid := (huse id (hwithin.numbers_subset hid)).trans (h.uses id hid)
  receivers id hid := (hreceivers id (hwithin.numbers_subset hid)).trans (h.receivers id hid)
  classes := by rw [h.classes, hwithin.classesAlong_congr huse]
  chained := h.chained
  sees := by
    obtain ⟨items, hshows, hitems⟩ := h.sees
    exact ⟨items, Program.shows_mono hshows hgrows hmarks, hitems⟩
  visited expr hnode := by
    obtain ⟨visits, hvisits⟩ := hvisits
    rw [hvisits]
    exact List.mem_append_right _ (h.visited expr hnode)

/-- What is entered is so as well if the resolver went through other parts before. It sees the variables
that these left. -/
theorem prepend {bindings : List (String × SymbolId)} {sites : List VariableSite}
    (h : Enters nests middle after path marks node entry) (hnests : nests → nests')
    (hgrows : Grows nests' before.program middle.program)
    (hbinds : ScopeStack.Binds bindings before.scopes middle.scopes)
    (hshows : List.Forall₂ after.program.Shows (sites.map .variable) (bindings.map .ofBinding))
    (hfresh : ∀ {path inner}, Within node path (.expr inner) →
      middle.program.use? inner.id = before.program.use? inner.id) :
    Enters nests' before after path (marks ++ sites.map .variable) node entry where
  earlier := hgrows.trans (h.earlier.mono hnests)
  later := h.later.mono hnests
  retained := h.retained
  kept := h.kept
  fresh hinner := (h.fresh hinner).trans (hfresh hinner)
  uses := h.uses
  receivers := h.receivers
  classes := by rw [h.classes, hbinds.enclosingClasses_eq]
  chained hbefore := h.chained (by
    rw [hbinds.enclosingClasses_eq]
    exact hbefore.mono hgrows)
  sees := by
    obtain ⟨items, hitems, hentry⟩ := h.sees
    refine ⟨items ++ bindings.map .ofBinding, List.rel_append hitems hshows, ?_⟩
    rw [hentry, hbinds.items_eq, List.append_assoc]
  visited := h.visited

end Enters

/-- Parts that are gone through one after the other are gone through together. -/
theorem Covered.append {before middle after : TrackedDraft} {course course' : Course}
    {ids : List NodeId}
    (hfirst : Covered course before middle) (hsecond : Covered course' middle after)
    (hgrows : Grows (∃ part ∈ course.parts, part.Nests) before.program middle.program)
    (hgrows' : Grows (∃ part ∈ course'.parts, part.Nests) middle.program after.program)
    (hsites : course.SitesIn (ids ++ TreeNode.numbersOf course.parts))
    (hfresh : ∀ id ∈ TreeNode.numbersOf course'.parts,
      middle.program.use? id = before.program.use? id)
    (huse : ∀ id ∈ ids ++ TreeNode.numbersOf course.parts,
      after.program.use? id = middle.program.use? id)
    (hreceivers : ∀ id ∈ TreeNode.numbersOf course.parts, after.receiver? id = middle.receiver? id) :
    Covered (course ++ course') before after := by
  have hleft {part : Part} (hpart : part ∈ course.parts) : part ∈ (course ++ course').parts :=
    Course.parts_append ▸ List.mem_append_left _ hpart
  have hright {part : Part} (hpart : part ∈ course'.parts) : part ∈ (course ++ course').parts :=
    Course.parts_append ▸ List.mem_append_right _ hpart
  have hnests : (∃ part ∈ course.parts, part.Nests) → ∃ part ∈ (course ++ course').parts, part.Nests :=
    Exists.imp fun _ => And.imp_left hleft
  have hnests' : (∃ part ∈ course'.parts, part.Nests) →
      ∃ part ∈ (course ++ course').parts, part.Nests :=
    Exists.imp fun _ => And.imp_left hright
  have huse' {part : Part} (hpart : part ∈ course.parts) :
      ∀ id ∈ part.node.numbers, after.program.use? id = middle.program.use? id :=
    fun id hid => huse id (List.mem_append_right _ (TreeNode.mem_numbersOf_of_mem hpart hid))
  obtain ⟨bindings, hbinds, hshows⟩ := hfirst.declaring
  obtain ⟨bindings', hbinds', hshows'⟩ := hsecond.declaring
  have hclasses := hbinds.enclosingClasses_eq
  have hshows := Program.shows_mono hshows hgrows' (List.forall_mem_map.mpr fun site hsite node hnode =>
    huse node (hsites.leaves site hsite hnode))
  obtain ⟨visits, hvisits, hvisit⟩ := hfirst.visits
  obtain ⟨visits', hvisits', hvisit'⟩ := hsecond.visits
  refine ⟨⟨visits' ++ visits, ?_, ?_⟩, ?_, ?_, ?_, ?_, ⟨_, hbinds.trans hbinds', ?_⟩,
    hfirst.retained.trans hsecond.retained⟩
  · rw [hvisits', hvisits, List.append_assoc]
  · intro visit hmem
    rcases List.mem_append.mp hmem with hmem | hmem
    · obtain ⟨part, hpart, path, expr, hwithin, hpath, rfl⟩ := hvisit' visit hmem
      refine ⟨part, hright hpart, path, expr, hwithin, hpath, ?_⟩
      rw [hclasses]
    · obtain ⟨part, hpart, path, expr, hwithin, hpath, rfl⟩ := hvisit visit hmem
      refine ⟨part, hleft hpart, path, expr, hwithin, hpath, ?_⟩
      rw [hwithin.classesAlong_congr (huse' hpart)]
  · intro seen hseen path node hwithin hnode hpath
    rcases List.mem_append.mp hseen with hseen | hseen
    · have hpart := Course.mem_parts.mpr ⟨seen, hseen, rfl⟩
      refine (hfirst.enters seen hseen path node hwithin hnode hpath).imp
        (fun ⟨expr, hexpr, hlabel, hconstant⟩ => ⟨expr, hexpr, hlabel, hconstant.mono hgrows' ?_⟩)
        (Exists.imp fun entry hentry => hentry.extend hwithin hnests (hgrows'.mono hnests')
          hsecond.retained (huse' hpart)
          (fun id hid => hreceivers id (TreeNode.mem_numbersOf_of_mem hpart hid)) ?_
          ⟨visits', hvisits'⟩)
      · subst hexpr
        exact huse' hpart expr.id hwithin.id_mem_numbers
      · refine List.forall_mem_append.mpr ⟨fun mark hmark node hnode => ?_,
          List.forall_mem_map.mpr fun site hsite node hnode => ?_⟩
        · exact huse' hpart node (hwithin.nodes_marks mark hmark hnode)
        · exact huse node (hsites.visible seen hseen site hsite hnode)
    · obtain ⟨inner, hinner, rfl⟩ := List.mem_map.mp hseen
      have hpart := Course.mem_parts.mpr ⟨inner, hinner, rfl⟩
      refine (hsecond.enters inner hinner path node hwithin hnode hpath).imp_right
        (Exists.imp fun entry hentry => ?_)
      rw [SeenPart.behind, List.map_append, ← List.append_assoc]
      refine hentry.prepend hnests' (hgrows.mono hnests) hbinds hshows fun hinner => ?_
      exact hfresh _ (TreeNode.mem_numbersOf_of_mem hpart (hwithin.trans hinner).id_mem_numbers)
  · intro part hpart path decl hwithin hrole hpath
    rw [Course.parts_append] at hpart
    rcases List.mem_append.mp hpart with hpart | hpart
    · obtain ⟨outer, hdeclared⟩ := hfirst.resolves part hpart path decl hwithin hrole hpath
      refine ⟨outer, hdeclared.mono hgrows' hsecond.retained.keepsFields fun id hid => huse' hpart id ?_⟩
      exact hwithin.numbers_subset (decl.declaring_subset_numbers hid)
    · exact hsecond.resolves part hpart path decl hwithin hrole hpath
  · intro part hpart decl hdecl
    rw [Course.parts_append] at hpart
    rcases List.mem_append.mp hpart with hpart | hpart
    · exact (hfirst.declared part hpart decl hdecl).mono hgrows' hsecond.retained.keepsFields fun id hid =>
        huse' hpart id (Part.numbers_of_classDecl? hdecl (decl.declaring_subset_numbers hid))
    · rw [← hbinds.currentClass?_eq]
      exact hsecond.declared part hpart decl hdecl
  · intro id owner symbol hsymbol howner
    rcases hsecond.introduced id owner symbol hsymbol howner with hmiddle | ⟨part, hpart, hdeclared⟩
    · rcases hfirst.introduced id owner symbol hmiddle howner with hbefore | ⟨part, hpart, hdeclared⟩
      · exact .inl hbefore
      · exact .inr ⟨part, hleft hpart, hdeclared.mono hgrows' hsecond.retained.keepsFields (huse' hpart)⟩
    · exact .inr ⟨part, hright hpart, hdeclared⟩
  · rw [Course.leaves_append, List.map_append, List.map_append]
    exact List.rel_append hshows' hshows

namespace Covers

variable {α β : Type} {ids ids' : List NodeId} {course course' : Course}

/-- The draft is ready for the parts behind others when these were gone through. -/
theorem ready_next {first : Tracked α} (hfirst : Covers ids course first) {draft : TrackedDraft}
    (hready : Ready (ids ++ ids') (course.parts ++ course'.parts) draft) :
    Ready ids' course'.parts (first.run draft).2 := by
  have hgrows := hfirst.grows draft hready.wellFormed
  obtain ⟨bindings, hbinds, -⟩ := hfirst.scopes draft
  have hcurrent := hbinds.currentClass?_eq
  refine ⟨hgrows.wellFormed hready.wellFormed, ?_, hready.right_nodup,
    fun part hpart hrole decl hdecl => ?_⟩
  · obtain ⟨self, info, hself, hinfo⟩ := hready.current
    obtain ⟨info', hinfo', -⟩ := hgrows.classInfo? hinfo
    exact ⟨self, info', hcurrent.trans hself, hinfo'⟩
  · rw [hcurrent]
    refine (hready.declared part (List.mem_append_right _ hpart) hrole decl hdecl).mono hgrows
      (hfirst.covered draft hready.left).retained.keepsFields ?_
    intro id hid
    have hmem : id ∈ TreeNode.numbersOf course'.parts := TreeNode.mem_numbersOf_of_mem hpart
      (Part.numbers_of_classDecl? hdecl (decl.declaring_subset_numbers hid))
    exact hfirst.uses draft hready.wellFormed id
      (fun h => (hready.disjoint (List.mem_append_left _ h)).2 hmem)
      fun h => (hready.disjoint (List.mem_append_right _ h.mem_numbersOf)).2 hmem

theorem bind {first : Tracked α} {second : α → Tracked β}
    (hfirst : Covers ids course first)
    (hsecond : ∀ value, Covers ids' course' (second value)) :
    Covers (ids ++ ids') (course ++ course') (first >>= second) where
  grows draft hdraft := by
    have hgrows := hfirst.grows draft hdraft
    rw [Course.parts_append]
    refine (hgrows.mono ?_).trans (((hsecond _).grows _ (hgrows.wellFormed hdraft)).mono ?_)
    · exact fun ⟨part, hpart, h⟩ => ⟨part, List.mem_append_left _ hpart, h⟩
    · exact fun ⟨part, hpart, h⟩ => ⟨part, List.mem_append_right _ hpart, h⟩
  scopes draft := by
    obtain ⟨bindings, hbinds, hnone⟩ := hfirst.scopes draft
    obtain ⟨bindings', hbinds', hnone'⟩ := (hsecond _).scopes (first.run draft).2
    refine ⟨_, hbinds.trans hbinds', fun hleaves => ?_⟩
    obtain ⟨hleaves', hleaves⟩ := List.append_eq_nil_iff.mp hleaves
    rw [hnone hleaves, hnone' hleaves', List.append_nil]
  uses draft hdraft id hid hparts := by
    rw [List.mem_append, not_or] at hid
    rw [Course.parts_append, Part.Reached.append_iff, not_or] at hparts
    exact ((hsecond _).uses _ ((hfirst.grows draft hdraft).wellFormed hdraft) id hid.2
      hparts.2).trans (hfirst.uses draft hdraft id hid.1 hparts.1)
  receivers draft id hid hparts := by
    rw [List.mem_append, not_or] at hid
    rw [Course.parts_append, Part.Reached.append_iff, not_or] at hparts
    exact ((hsecond _).receivers _ id hid.2 hparts.2).trans
      (hfirst.receivers draft id hid.1 hparts.1)
  sites := by
    rw [Course.parts_append, TreeNode.numbersOf_append]
    refine (hfirst.sites.mono fun id => ?_).append
      ((hsecond (first.run (Program.startDraft ⟨none, [], []⟩)).1).sites.mono fun id => ?_)
    · simp only [List.mem_append]
      exact fun h => h.imp .inl .inl
    · simp only [List.mem_append]
      exact fun h => h.imp .inr .inr
  covered draft hready := by
    rw [Course.parts_append] at hready
    have hgrows := hfirst.grows draft hready.wellFormed
    have huse {id : NodeId} (hid : id ∉ ids) (hparts : id ∉ TreeNode.numbersOf course.parts) :=
      hfirst.uses draft hready.wellFormed id hid fun h => hparts h.mem_numbersOf
    have hmiddle := hfirst.ready_next hready
    rw [run_bind]
    refine (hfirst.covered draft hready.left).append ((hsecond _).covered _ hmiddle) hgrows
      ((hsecond _).grows _ hmiddle.wellFormed) hfirst.sites (fun id hid => ?_) (fun id hid => ?_)
      fun id hid => ?_
    · exact huse (fun h => (hready.disjoint (List.mem_append_left _ h)).2 hid)
        fun h => (hready.disjoint (List.mem_append_right _ h)).2 hid
    · have hdisjoint := hready.disjoint hid
      exact (hsecond _).uses _ hmiddle.wellFormed id hdisjoint.1
        fun h => hdisjoint.2 h.mem_numbersOf
    · have hdisjoint := hready.disjoint (List.mem_append_right _ hid)
      exact (hsecond _).receivers _ id hdisjoint.1 fun h => hdisjoint.2 h.mem_numbersOf

theorem enclosingClasses_eq {computation : Tracked α} (h : Covers ids course computation)
    (draft : TrackedDraft) :
    (computation.run draft).2.scopes.enclosingClasses = draft.scopes.enclosingClasses := by
  obtain ⟨bindings, hbinds, -⟩ := h.scopes draft
  exact hbinds.enclosingClasses_eq

/-- A computation may go on without going through more parts. -/
theorem finish {first : Tracked α} {second : α → Tracked β}
    (hfirst : Covers ids course first)
    (hsecond : ∀ value, Covers ids' .nil (second value)) :
    Covers (ids ++ ids') course (first >>= second) := by
  simpa using hfirst.bind hsecond

/-- A computation may begin with something that goes through no parts. -/
theorem prepare {first : Tracked α} {second : α → Tracked β}
    (hfirst : Covers ids .nil first)
    (hsecond : ∀ value, Covers ids' course (second value)) :
    Covers (ids ++ ids') course (first >>= second) := by
  simpa using hfirst.bind hsecond

/-- A computation that visits no expression covers no parts. It may declare variables. -/
theorem of_visits_eq {computation : Tracked α} {sites : List VariableSite}
    (hgrows : ∀ draft : TrackedDraft, draft.program.WellFormed →
      Grows False draft.program (computation.run draft).2.program)
    (hscopes : ∀ draft : TrackedDraft, ∃ bindings,
      ScopeStack.Binds bindings draft.scopes (computation.run draft).2.scopes ∧
        (sites = [] → bindings = []))
    (huses : ∀ (draft : TrackedDraft) (id : NodeId), id ∉ ids →
      (computation.run draft).2.program.use? id = draft.program.use? id)
    (hreceivers : ∀ (draft : TrackedDraft) (id : NodeId), id ∉ ids →
      (computation.run draft).2.receiver? id = draft.receiver? id)
    (hvisits : ∀ draft : TrackedDraft, (computation.run draft).2.visits = draft.visits)
    (hsites : ∀ site ∈ sites, site.nodes ⊆ ids)
    (hdeclaring : ∀ draft : TrackedDraft, draft.program.WellFormed →
      (∃ self, draft.scopes.currentClass? = some self) →
        Declaring sites draft (computation.run draft).2) :
    Covers ids (.declares sites) computation where
  grows draft hdraft := (hgrows draft hdraft).mono False.elim
  scopes := hscopes
  uses draft _ id hid _ := huses draft id hid
  receivers draft id hid _ := hreceivers draft id hid
  sites := (Course.SitesIn.declares hsites).mono (List.subset_append_left _ _)
  covered draft hready :=
    { visits := ⟨[], hvisits draft, fun _ h => absurd h List.not_mem_nil⟩
      enters := fun _ h => absurd h List.not_mem_nil
      resolves := fun _ h => absurd h List.not_mem_nil
      declared := fun _ h => absurd h List.not_mem_nil
      introduced := fun _ _ _ hsymbol howner =>
        .inl ((hgrows draft hready.wellFormed).symbol?_of_owner? hsymbol howner)
      declaring := hdeclaring draft hready.wellFormed
        (hready.current.imp fun _ ⟨_, hself, _⟩ => hself)
      retained := .of_grows (hgrows draft hready.wellFormed) }

/-- A computation that visits no expression and declares no variables covers nothing. -/
theorem of_scopes_eq {computation : Tracked α}
    (hgrows : ∀ draft : TrackedDraft, draft.program.WellFormed →
      Grows False draft.program (computation.run draft).2.program)
    (hscopes : ∀ draft : TrackedDraft, (computation.run draft).2.scopes = draft.scopes)
    (huses : ∀ (draft : TrackedDraft) (id : NodeId), id ∉ ids →
      (computation.run draft).2.program.use? id = draft.program.use? id)
    (hreceivers : ∀ (draft : TrackedDraft) (id : NodeId), id ∉ ids →
      (computation.run draft).2.receiver? id = draft.receiver? id)
    (hvisits : ∀ draft : TrackedDraft, (computation.run draft).2.visits = draft.visits) :
    Covers ids .nil computation :=
  have hbinds (draft : TrackedDraft) : ScopeStack.Binds [] draft.scopes (computation.run draft).2.scopes :=
    .of_eq (congrArg ScopeStack.toList (hscopes draft))
  of_visits_eq hgrows (fun draft => ⟨[], hbinds draft, fun _ => rfl⟩) huses hreceivers hvisits
    (List.forall_mem_nil _) fun draft _ _ => ⟨[], hbinds draft, .nil⟩

/-- A computation that leaves the names and the scopes alone covers nothing. -/
theorem quiet {computation : Tracked α}
    (hprogram : ∀ draft : TrackedDraft, (computation.run draft).2.program = draft.program)
    (hplace : KeepsPlace computation) : Covers [] .nil computation := by
  refine of_scopes_eq (fun draft _ => ?_) (fun draft => (hplace.samePlace draft).scopes)
    (fun draft id _ => ?_) (fun draft id _ => ?_) fun draft => (hplace.samePlace draft).visits
  · rw [hprogram]; exact .refl _ _
  · rw [hprogram]
  · exact Draft.receiver?_congr (hplace.samePlace draft).receivers id

theorem pure (value : α) : Covers [] .nil (Pure.pure value : Tracked α) :=
  quiet (fun _ => rfl) (.pure value)

theorem ask (question : Program → α) : Covers [] .nil (Resolving.ask question) :=
  quiet (fun _ => rfl) (.ask question)

theorem get : Covers [] .nil (MonadState.get : Tracked TrackedDraft) :=
  quiet (fun _ => rfl) .get

/-- The order in which parts are gone through does not matter as long as each sees the same, and a
computation may record fewer uses than is said of it. -/
theorem weaken {computation : Tracked α} (h : Covers ids course computation)
    (hids : ids.Sublist ids') (hseen : course.seen.Perm course'.seen)
    (hleaves : course.leaves = course'.leaves) : Covers ids' course' computation := by
  have hparts : course.parts.Perm course'.parts := hseen.map _
  have hnumbers : ids ++ TreeNode.numbersOf course.parts ⊆ ids' ++ TreeNode.numbersOf course'.parts :=
    List.append_subset.mpr ⟨List.subset_append_of_subset_left _ hids.subset,
      List.subset_append_of_subset_right _ (hparts.flatMap_right _).subset⟩
  refine ⟨fun draft hdraft => ?_, fun draft => ?_, fun draft hdraft id hid hid' => ?_,
    fun draft id hid hid' => ?_, ⟨fun seen hmem => ?_, ?_⟩, fun draft hready => ?_⟩
  · exact (h.grows draft hdraft).mono fun ⟨part, hpart, hnests⟩ =>
      ⟨part, hparts.mem_iff.mp hpart, hnests⟩
  · exact hleaves ▸ h.scopes draft
  · exact h.uses draft hdraft id (fun hmem => hid (hids.subset hmem)) fun ⟨part, hpart, hreaches⟩ =>
      hid' ⟨part, hparts.mem_iff.mp hpart, hreaches⟩
  · exact h.receivers draft id (fun hmem => hid (hids.subset hmem)) fun ⟨part, hpart, hreaches⟩ =>
      hid' ⟨part, hparts.mem_iff.mp hpart, hreaches⟩
  · exact (h.sites.mono hnumbers).visible seen (hseen.mem_iff.mpr hmem)
  · exact hleaves ▸ (h.sites.mono hnumbers).leaves
  · have hcovered := h.covered draft (hready.weaken hids hparts)
    obtain ⟨visits, hvisits, hvisit⟩ := hcovered.visits
    refine ⟨⟨visits, hvisits, fun visit hmem => ?_⟩,
      fun seen hmem path node hwithin hnode hpath => ?_,
      fun part hpart => hcovered.resolves part (hparts.mem_iff.mpr hpart),
      fun part hpart => hcovered.declared part (hparts.mem_iff.mpr hpart),
      fun id owner symbol hsymbol howner => (hcovered.introduced id owner symbol hsymbol
        howner).imp_right fun ⟨part, hpart, h⟩ => ⟨part, hparts.mem_iff.mp hpart, h⟩,
      hleaves ▸ hcovered.declaring, hcovered.retained⟩
    · obtain ⟨part, hpart, hrest⟩ := hvisit visit hmem
      exact ⟨part, hparts.mem_iff.mp hpart, hrest⟩
    · have hiff : (∃ part ∈ course.parts, part.Nests) = ∃ part ∈ course'.parts, part.Nests := by
        simp only [hparts.mem_iff]
      rw [← hiff]
      exact hcovered.enters seen (hseen.mem_iff.mpr hmem) path node hwithin hnode hpath

/-- A computation that records no uses of its own may be said to record some. -/
theorem idle {computation : Tracked α} (h : Covers [] course computation) :
    Covers ids course computation :=
  h.weaken (List.nil_sublist _) (List.Perm.refl _) rfl

theorem of_eq {computation : Tracked α} (h : Covers ids course computation)
    (hcourse : course = course') : Covers ids course' computation :=
  hcourse ▸ h

end Covers

end Resolving
end LockDiscipline
