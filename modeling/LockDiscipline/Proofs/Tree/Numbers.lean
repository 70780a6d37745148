import LockDiscipline.Proofs.Tree.Places
import Mathlib.Data.List.Flatten
import Mathlib.Data.List.Nodup
import Mathlib.Data.List.Pairwise
import Mathlib.Data.List.Perm.Subperm
/-!
# The numbers in a tree

The nodes of a construct bear numbers; `TreeNode.numbers` lists all of them. If no number occurs
twice, a number tells the place of its node, and what is recorded for the numbers of one part is
never mixed up with what is recorded for those of another.
-/

namespace LockDiscipline

namespace TreeNode

/-- The numbers that a construct itself bears. A method bears one as a member and one as a method. -/
def ownIds : TreeNode → List NodeId
  | .expr node => [node.id]
  | .stmt node => [node.id]
  | .declarator node => [node.id]
  | .resource node => [node.id]
  | .catchClause node => [node.id]
  | .switchCase _ => []
  | .classDecl node => [node.id]
  | .member ⟨id, .method decl, _⟩ => [id, decl.id]
  | .member node => [node.id]
  | .param node => [node.id]
  | .code _ => []

/-- The numbers of a construct and of everything in it. -/
def numbers (node : TreeNode) : List NodeId :=
  node.places.flatMap (·.node.ownIds)

/-- The numbers of the constructs in a list of parts. -/
def numbersOf (parts : List Part) : List NodeId :=
  parts.flatMap (·.node.numbers)

theorem mem_numbers {node : TreeNode} {id : NodeId} :
    id ∈ node.numbers ↔ ∃ path inner, Within node path inner ∧ id ∈ inner.ownIds := by
  rw [numbers, List.mem_flatMap]
  constructor
  · rintro ⟨place, hplace, hid⟩
    exact ⟨place.path, place.node, mem_places.mp hplace, hid⟩
  · rintro ⟨path, inner, hinner, hid⟩
    exact ⟨⟨path, inner⟩, mem_places.mpr hinner, hid⟩

theorem numbers_eq (node : TreeNode) :
    node.numbers = node.ownIds ++ numbersOf node.parts := by
  have hparts (parts : List Part) (index : Nat) :
      (placesFrom index parts).flatMap (·.node.ownIds) = numbersOf parts := by
    induction parts generalizing index with
    | nil => rfl
    | cons part rest ih =>
        rw [placesFrom_cons, List.flatMap_append, ih, List.flatMap_map, numbersOf, numbersOf,
          List.flatMap_cons]
        rfl
  rw [numbers, places_eq, List.flatMap_cons, hparts]

theorem numbersOf_nil : numbersOf [] = [] := rfl

theorem numbersOf_append (first second : List Part) :
    numbersOf (first ++ second) = numbersOf first ++ numbersOf second :=
  List.flatMap_append

theorem numbersOf_singleton (role : PartRole) (node : TreeNode) :
    numbersOf [⟨role, node⟩] = node.numbers := by
  rw [numbersOf, List.flatMap_singleton]

theorem mem_numbersOf {parts : List Part} {id : NodeId} :
    id ∈ numbersOf parts ↔ ∃ part ∈ parts, id ∈ part.node.numbers :=
  List.mem_flatMap

theorem mem_numbersOf_of_mem {parts : List Part} {part : Part} {id : NodeId} (hpart : part ∈ parts)
    (hid : id ∈ part.node.numbers) : id ∈ numbersOf parts :=
  mem_numbersOf.mpr ⟨part, hpart, hid⟩

theorem numbers_sublist_numbersOf {parts : List Part} {part : Part} (hpart : part ∈ parts) :
    part.node.numbers.Sublist (numbersOf parts) :=
  List.sublist_flatten_of_mem (List.mem_map.mpr ⟨part, hpart, rfl⟩)

theorem ownIds_subset_numbers {node : TreeNode} {id : NodeId} (h : id ∈ node.ownIds) :
    id ∈ node.numbers := by
  rw [numbers_eq]
  exact List.mem_append_left _ h

theorem mem_numbers_of_part {node : TreeNode} {part : Part} {id : NodeId}
    (hpart : part ∈ node.parts) (hid : id ∈ part.node.numbers) : id ∈ node.numbers := by
  rw [numbers_eq]
  exact List.mem_append_right _ (mem_numbersOf_of_mem hpart hid)

end TreeNode

namespace Within

theorem numbers_subset {outer inner : TreeNode} {path : List PathStep}
    (h : Within outer path inner) {id : NodeId} (hid : id ∈ inner.numbers) :
    id ∈ outer.numbers := by
  induction h with
  | here => exact hid
  | part hpart _ ih => exact TreeNode.mem_numbers_of_part (List.mem_of_getElem? hpart) (ih hid)

theorem numbers_sublist {outer inner : TreeNode} {path : List PathStep}
    (h : Within outer path inner) : inner.numbers.Sublist outer.numbers := by
  induction h with
  | here => exact List.Sublist.refl _
  | @part node child inner step path hpart _ ih =>
      refine ih.trans ?_
      rw [TreeNode.numbers_eq node]
      exact List.sublist_append_of_sublist_right
        (TreeNode.numbers_sublist_numbersOf (List.mem_of_getElem? hpart))

theorem id_mem_numbers {outer : TreeNode} {path : List PathStep} {expr : Expr}
    (h : Within outer path (.expr expr)) : expr.id ∈ outer.numbers :=
  h.numbers_subset (TreeNode.ownIds_subset_numbers (List.mem_singleton_self _))

/-- A construct whose members a path goes through bears its number inside the outer construct. -/
theorem mem_numbers_of_member {outer inner : TreeNode} {path : List PathStep}
    (h : Within outer path inner) {step : PathStep} (hstep : step ∈ path) {classNode : NodeId}
    (hrole : step.role = .member classNode) : classNode ∈ outer.numbers := by
  induction h with
  | here => cases hstep
  | @part node child inner step' path hpart _ ih =>
      rcases List.mem_cons.mp hstep with rfl | hstep
      · obtain ⟨decl, -, rfl, rfl, -⟩ :=
          TreeNode.eq_classDecl_of_role_eq_member (List.mem_of_getElem? hpart) hrole
        exact TreeNode.ownIds_subset_numbers (List.mem_singleton_self _)
      · exact TreeNode.mem_numbers_of_part (List.mem_of_getElem? hpart) (ih hstep)

/-- Where no number occurs twice, a number tells the path to its node. -/
theorem path_eq_of_numbers_nodup {outer first second : TreeNode} {path path' : List PathStep}
    (hnodup : outer.numbers.Nodup) (hfirst : Within outer path first)
    (hsecond : Within outer path' second) {id : NodeId} (hid : id ∈ first.ownIds)
    (hid' : id ∈ second.ownIds) : path = path' := by
  by_contra hne
  have hplace : (⟨path, first⟩ : Place) ∈ outer.places := TreeNode.mem_places.mpr hfirst
  have hplace' : (⟨path', second⟩ : Place) ∈ outer.places := TreeNode.mem_places.mpr hsecond
  have : Std.Symm (Function.onFun List.Disjoint fun place : Place => place.node.ownIds) :=
    ⟨fun _ _ h _ hsecond hfirst => h hfirst hsecond⟩
  refine (List.nodup_flatMap.mp hnodup).2.forall hplace hplace' ?_ hid hid'
  exact fun heq => hne (congrArg Place.path heq)

end Within

/-! ### Declarations -/

mutual

/-- The numbers of the nodes that declare a class, its members and its member classes. -/
def ClassDecl.declaring : ClassDecl → List NodeId
  | ⟨node, _, _, _, _, _, _, members, _⟩ => node :: declaringMembers members

/-- The numbers of the nodes that declare members and what is declared in these. -/
def declaringMembers : List Member → List NodeId
  | [] => []
  | ⟨node, kind, _⟩ :: rest => kind.declaring node ++ declaringMembers rest

/-- The numbers of the nodes that declare a member, whose own number is given. -/
def MemberKind.declaring (node : NodeId) : MemberKind → List NodeId
  | .field _ _ declarators => declarators.map (·.id)
  | .method decl => [decl.id]
  | .initializer _ _ => []
  | .classDecl decl => decl.declaring
  | .enumConstant _ _ _ => [node]

end

theorem ClassDecl.declaring_eq (decl : ClassDecl) :
    decl.declaring = decl.id :: declaringMembers decl.members := by
  obtain ⟨⟩ := decl
  rw [declaring]

theorem ClassDecl.id_mem_declaring (decl : ClassDecl) : decl.id ∈ decl.declaring := by
  rw [declaring_eq]
  exact List.mem_cons_self

theorem declaringMembers_cons (member : Member) (rest : List Member) :
    declaringMembers (member :: rest) =
      member.kind.declaring member.id ++ declaringMembers rest := by
  obtain ⟨node, kind, span⟩ := member
  rw [declaringMembers]

theorem mem_declaringMembers {members : List Member} {id : NodeId} :
    id ∈ declaringMembers members ↔ ∃ member ∈ members, id ∈ member.kind.declaring member.id := by
  induction members with
  | nil => simp [declaringMembers]
  | cons member rest ih =>
      simp only [declaringMembers_cons, List.mem_append, ih, List.mem_cons, or_and_right, exists_or,
        exists_eq_left]

/-- The fields and methods that a member declares, each by its node and with its modifiers. The
variables of one declaration share their modifiers, and a constant has none. -/
def Member.carriers : Member → List (Modifiers × NodeId)
  | ⟨_, .field modifiers _ declarators, _⟩ =>
      declarators.map fun declarator => (modifiers, declarator.id)
  | ⟨_, .method decl, _⟩ => [(decl.modifiers, decl.id)]
  | ⟨node, .enumConstant _ _ _, _⟩ => [(default, node)]
  | _ => []

/-- The fields that a member declares: the variables of a declaration, or a constant. Each has its name and its
node. -/
def Member.fieldNames : Member → List (String × NodeId)
  | ⟨_, .field _ _ declarators, _⟩ => declarators.map fun declarator => (declarator.name, declarator.id)
  | ⟨node, .enumConstant name _ _, _⟩ => [(name, node)]
  | _ => []

theorem Member.map_carriers (member : Member) (h : ∀ inner, member.kind ≠ .classDecl inner) :
    member.carriers.map (·.2) = member.kind.declaring member.id := by
  obtain ⟨node, kind, span⟩ := member
  cases kind with
  | field modifiers type declarators =>
      rw [carriers, MemberKind.declaring, List.map_map]
      rfl
  | classDecl inner => exact absurd rfl (h inner)
  | _ => rw [MemberKind.declaring]; rfl

theorem Member.mem_declaring_of_carriers {member : Member} {carrier : Modifiers × NodeId}
    (h : carrier ∈ member.carriers) : carrier.2 ∈ member.kind.declaring member.id := by
  rw [← member.map_carriers fun inner hinner => ?_]
  · exact List.mem_map_of_mem h
  · obtain ⟨node, kind, span⟩ := member
    obtain rfl : kind = .classDecl inner := hinner
    cases h

theorem ClassDecl.mem_declaring_of_carriers {decl : ClassDecl} {member : Member}
    (hmember : member ∈ decl.members) {carrier : Modifiers × NodeId}
    (h : carrier ∈ member.carriers) : carrier.2 ∈ decl.declaring := by
  rw [decl.declaring_eq]
  exact List.mem_cons_of_mem _
    (mem_declaringMembers.mpr ⟨member, hmember, Member.mem_declaring_of_carriers h⟩)

theorem ClassDecl.declaring_subset_of_member {decl inner : ClassDecl} {member : Member}
    (hmember : member ∈ decl.members) (hkind : member.kind = .classDecl inner) :
    inner.declaring ⊆ decl.declaring := by
  intro id hid
  rw [decl.declaring_eq]
  refine List.mem_cons_of_mem _ (mem_declaringMembers.mpr ⟨member, hmember, ?_⟩)
  rwa [hkind, MemberKind.declaring]

/-- Whether a part is declared by a class or a member, outside of all code. -/
def PartRole.isDeclared : PartRole → Bool
  | .member _ | .declared => true
  | _ => false

/-- Whether a construct is a class, a member or a variable. -/
def TreeNode.isDeclaration : TreeNode → Bool
  | .classDecl _ | .member _ | .declarator _ => true
  | _ => false

/-- A number in a construct that a class, a member or a variable bears, outside of all code. -/
def TreeNode.BearsDeclared (node : TreeNode) (id : NodeId) : Prop :=
  ∃ path inner, Within node path inner ∧ (∀ step ∈ path, step.role.isDeclared) ∧
    id ∈ inner.ownIds ∧ inner.isDeclaration

namespace TreeNode.BearsDeclared

variable {node : TreeNode} {id : NodeId}

theorem here (hid : id ∈ node.ownIds) (hnode : node.isDeclaration) : node.BearsDeclared id :=
  ⟨[], node, .here node, fun _ hstep => absurd hstep List.not_mem_nil, hid, hnode⟩

theorem of_part {role : PartRole} {child : TreeNode} (h : child.BearsDeclared id)
    (hpart : (⟨role, child⟩ : Part) ∈ node.parts) (hrole : role.isDeclared) :
    node.BearsDeclared id := by
  obtain ⟨path, inner, hwithin, hpath, hid, hinner⟩ := h
  obtain ⟨index, hindex⟩ := List.getElem?_of_mem hpart
  exact ⟨⟨index, role⟩ :: path, inner, .part hindex hwithin,
    List.forall_mem_cons.mpr ⟨hrole, hpath⟩, hid, hinner⟩

end TreeNode.BearsDeclared

mutual

/-- The nodes that declare a class and its members bear their numbers outside of all code. -/
theorem ClassDecl.bearsDeclared : ∀ (decl : ClassDecl) {id : NodeId},
    id ∈ decl.declaring → (TreeNode.classDecl decl).BearsDeclared id
  | ⟨node, name, kind, modifiers, typeParams, superclass, interfaces, members, span⟩, id, hid => by
    rw [ClassDecl.declaring] at hid
    rcases List.mem_cons.mp hid with rfl | hid
    · exact .here (List.mem_singleton_self _) rfl
    · obtain ⟨member, hmember, h⟩ := bearsDeclared_of_declaringMembers members hid
      exact h.of_part (List.mem_append_right _ (List.mem_map.mpr ⟨member, hmember, rfl⟩)) rfl

theorem bearsDeclared_of_declaringMembers : ∀ (members : List Member) {id : NodeId},
    id ∈ declaringMembers members → ∃ member ∈ members, (TreeNode.member member).BearsDeclared id
  | [], id, hid => by
    rw [declaringMembers] at hid
    cases hid
  | ⟨node, kind, span⟩ :: rest, id, hid => by
    rw [declaringMembers] at hid
    rcases List.mem_append.mp hid with hid | hid
    · exact ⟨_, List.mem_cons_self, kind.bearsDeclared node span hid⟩
    · obtain ⟨member, hmember, h⟩ := bearsDeclared_of_declaringMembers rest hid
      exact ⟨member, List.mem_cons_of_mem _ hmember, h⟩

theorem MemberKind.bearsDeclared (node : NodeId) (span : Span) :
    ∀ (kind : MemberKind) {id : NodeId}, id ∈ kind.declaring node →
      (TreeNode.member ⟨node, kind, span⟩).BearsDeclared id
  | .field modifiers type declarators, id, hid => by
    rw [MemberKind.declaring] at hid
    obtain ⟨declarator, hdeclarator, rfl⟩ := List.mem_map.mp hid
    have h : (TreeNode.declarator declarator).BearsDeclared declarator.id :=
      .here (List.mem_singleton_self _) rfl
    exact h.of_part (List.mem_append_right _ (List.mem_map.mpr ⟨declarator, hdeclarator, rfl⟩)) rfl
  | .method decl, id, hid => by
    rw [MemberKind.declaring] at hid
    exact .here (List.mem_cons_of_mem _ hid) rfl
  | .initializer isStatic body, id, hid => by
    rw [MemberKind.declaring] at hid
    cases hid
  | .classDecl decl, id, hid => by
    rw [MemberKind.declaring] at hid
    exact (decl.bearsDeclared hid).of_part (List.mem_singleton_self _) rfl
  | .enumConstant name args body, id, hid => by
    rw [MemberKind.declaring] at hid
    exact .here hid rfl

end

theorem ClassDecl.declaring_subset_numbers (decl : ClassDecl) :
    decl.declaring ⊆ (TreeNode.classDecl decl).numbers := by
  intro id hid
  obtain ⟨path, inner, hwithin, -, hid, -⟩ := decl.bearsDeclared hid
  exact TreeNode.mem_numbers.mpr ⟨path, inner, hwithin, hid⟩

mutual

/-- The nodes that declare a class and its members occur in the order of their declaration. -/
theorem ClassDecl.declaring_sublist_numbers : ∀ decl : ClassDecl,
    decl.declaring.Sublist (TreeNode.classDecl decl).numbers
  | ⟨node, name, kind, modifiers, typeParams, superclass, interfaces, members, span⟩ => by
    rw [ClassDecl.declaring, TreeNode.numbers_eq, TreeNode.parts, TreeNode.numbersOf_append]
    exact (List.sublist_append_of_sublist_right
      (declaringMembers_sublist (.member node) members)).cons_cons node

theorem declaringMembers_sublist (role : PartRole) : ∀ members : List Member,
    (declaringMembers members).Sublist
      (TreeNode.numbersOf (members.map fun member => ⟨role, .member member⟩))
  | [] => by
    rw [declaringMembers]
    exact List.nil_sublist _
  | ⟨node, kind, span⟩ :: rest => by
    rw [declaringMembers]
    exact (kind.declaring_sublist node span).append (declaringMembers_sublist role rest)

theorem MemberKind.declaring_sublist (node : NodeId) (span : Span) : ∀ kind : MemberKind,
    (kind.declaring node).Sublist (TreeNode.member ⟨node, kind, span⟩).numbers
  | .field modifiers type declarators => by
    rw [MemberKind.declaring, TreeNode.numbers_eq, TreeNode.parts, MemberKind.parts,
      TreeNode.numbersOf_append]
    refine List.sublist_append_of_sublist_right (List.sublist_append_of_sublist_right ?_)
    induction declarators with
    | nil => exact List.nil_sublist _
    | cons declarator rest ih =>
        have hfirst : [declarator.id].Sublist (TreeNode.declarator declarator).numbers := by
          rw [TreeNode.numbers_eq]
          exact List.sublist_append_left _ _
        exact hfirst.append ih
  | .method decl => by
    rw [MemberKind.declaring, TreeNode.numbers_eq]
    exact List.sublist_append_of_sublist_left (List.sublist_cons_self _ _)
  | .initializer isStatic body => by
    rw [MemberKind.declaring]
    exact List.nil_sublist _
  | .classDecl decl => by
    rw [MemberKind.declaring, TreeNode.numbers_eq, TreeNode.parts, MemberKind.parts,
      TreeNode.numbersOf_singleton]
    exact List.sublist_append_of_sublist_right decl.declaring_sublist_numbers
  | .enumConstant name args body => by
    rw [MemberKind.declaring, TreeNode.numbers_eq]
    exact List.sublist_append_left _ _

end

/-- No expression in a class bears the number of a declaration, if no number occurs twice. -/
theorem ClassDecl.not_mem_declaring_of_expr {decl : ClassDecl}
    (hnodup : (TreeNode.classDecl decl).numbers.Nodup) {path : List PathStep} {expr : Expr}
    (hwithin : Within (.classDecl decl) path (.expr expr)) : expr.id ∉ decl.declaring := by
  intro hid
  obtain ⟨path', inner, hinner, -, hid', hdeclaration⟩ := decl.bearsDeclared hid
  obtain rfl := hwithin.path_eq_of_numbers_nodup hnodup hinner (List.mem_singleton_self _) hid'
  obtain rfl := hinner.unique hwithin
  cases hdeclaration

/-! ### Parts that are resolved -/

namespace PartRole

/-- Whether the resolver may go into a part because of its role. -/
def isResolved : PartRole → Bool
  | .annotationArg => false
  | _ => true

theorem isResolved_of_isDeclared {role : PartRole} (h : role.isDeclared) : role.isResolved := by
  cases role <;> first | rfl | cases h

theorem not_isNested_of_isDeclared {role : PartRole} (h : role.isDeclared) : ¬role.isNested := by
  cases role <;> first | exact Bool.false_ne_true | cases h

/-- The role of the last part on a path, or else of the construct that the path starts from. -/
def lastOf (role : PartRole) : List PathStep → PartRole
  | [] => role
  | step :: rest => lastOf step.role rest

theorem lastOf_isDeclared {role : PartRole} {path : List PathStep} (hrole : role.isDeclared)
    (hpath : ∀ step ∈ path, step.role.isDeclared) : (lastOf role path).isDeclared := by
  induction path generalizing role with
  | nil => exact hrole
  | cons step rest ih =>
      obtain ⟨hstep, hrest⟩ := List.forall_mem_cons.mp hpath
      exact ih hstep hrest

end PartRole

/-- The numbers for which the resolver records something when it comes to a construct in a role.
What is declared along with a class around it is not recorded again. -/
def TreeNode.recordedIds (role : PartRole) : TreeNode → List NodeId
  | .classDecl decl => if role.isNested then decl.declaring else []
  | .member _ => []
  | .declarator node => if role.isDeclared then [] else [node.id]
  | node => node.ownIds

theorem TreeNode.recordedIds_sublist {role : PartRole} {node : TreeNode}
    (hclass : ∀ decl, node ≠ .classDecl decl) : (node.recordedIds role).Sublist node.ownIds := by
  cases node with
  | classDecl decl => exact absurd rfl (hclass decl)
  | member member => exact List.nil_sublist _
  | declarator node =>
      rw [recordedIds]
      split
      · exact List.nil_sublist _
      · exact List.Sublist.refl _
  | _ => exact List.Sublist.refl _

/-- A number in a part for which the resolver records something when it goes through the part. -/
def Part.Reaches (part : Part) (id : NodeId) : Prop :=
  ∃ path inner, Within part.node path inner ∧ (∀ step ∈ path, step.role.isResolved) ∧
    id ∈ inner.recordedIds (part.role.lastOf path)

/-- A number in parts for which the resolver records something when it goes through them. -/
def Part.Reached (parts : List Part) (id : NodeId) : Prop :=
  ∃ part ∈ parts, part.Reaches id

namespace Part.Reaches

variable {role : PartRole} {node : TreeNode} {id : NodeId}

theorem here (h : id ∈ node.recordedIds role) : (⟨role, node⟩ : Part).Reaches id :=
  ⟨[], node, .here node, fun _ hstep => absurd hstep List.not_mem_nil, h⟩

theorem of_part {inside : PartRole} {child : TreeNode} (h : (⟨inside, child⟩ : Part).Reaches id)
    (hpart : (⟨inside, child⟩ : Part) ∈ node.parts) (hrole : inside.isResolved) :
    (⟨role, node⟩ : Part).Reaches id := by
  obtain ⟨path, inner, hwithin, hpath, hid⟩ := h
  obtain ⟨index, hindex⟩ := List.getElem?_of_mem hpart
  exact ⟨⟨index, inside⟩ :: path, inner, .part hindex hwithin,
    List.forall_mem_cons.mpr ⟨hrole, hpath⟩, hid⟩

/-- What is recorded is recorded for a node outside annotations. -/
theorem exists_ownIds {part : Part} (h : part.Reaches id) :
    ∃ path inner, Within part.node path inner ∧ (∀ step ∈ path, step.role.isResolved) ∧
      id ∈ inner.ownIds := by
  obtain ⟨path, inner, hwithin, hpath, hid⟩ := h
  cases inner with
  | classDecl nested =>
      rw [TreeNode.recordedIds] at hid
      split at hid
      case isTrue =>
        obtain ⟨path', inner', hwithin', hpath', hid', -⟩ := nested.bearsDeclared hid
        exact ⟨path ++ path', inner', hwithin.trans hwithin', List.forall_mem_append.mpr
          ⟨hpath, fun step hstep => PartRole.isResolved_of_isDeclared (hpath' step hstep)⟩, hid'⟩
      case isFalse => cases hid
  | _ =>
      exact ⟨path, _, hwithin, hpath, (TreeNode.recordedIds_sublist (by nofun)).subset hid⟩

theorem mem_numbers {part : Part} (h : part.Reaches id) : id ∈ part.node.numbers := by
  obtain ⟨path, inner, hwithin, -, hid⟩ := h.exists_ownIds
  exact TreeNode.mem_numbers.mpr ⟨path, inner, hwithin, hid⟩

end Part.Reaches

namespace Part.Reached

variable {parts parts' : List Part} {id : NodeId}

theorem mem_numbersOf (h : Reached parts id) : id ∈ TreeNode.numbersOf parts := by
  obtain ⟨part, hpart, h⟩ := h
  exact TreeNode.mem_numbersOf_of_mem hpart h.mem_numbers

theorem append_iff : Reached (parts ++ parts') id ↔ Reached parts id ∨ Reached parts' id := by
  simp only [Reached, List.mem_append, or_and_right, exists_or]

theorem singleton_iff {part : Part} : Reached [part] id ↔ part.Reaches id := by
  simp only [Reached, List.mem_singleton, exists_eq_left]

end Part.Reached

/-- Nothing is recorded again for what a class declares when the resolver goes through the class. -/
theorem ClassDecl.not_reaches_of_declaring {decl : ClassDecl}
    (hnodup : (TreeNode.classDecl decl).numbers.Nodup) {id : NodeId} (hid : id ∈ decl.declaring) :
    ¬(⟨.declared, .classDecl decl⟩ : Part).Reaches id := by
  obtain ⟨path, inner, hwithin, hpath, hown, hdeclaration⟩ := decl.bearsDeclared hid
  have hlast : (PartRole.declared.lastOf path).isDeclared := PartRole.lastOf_isDeclared rfl hpath
  rintro ⟨path', inner', hwithin', -, hrecorded⟩
  have hown' (h : id ∈ inner'.ownIds) : False := by
    obtain rfl := hwithin.path_eq_of_numbers_nodup hnodup hwithin' hown h
    obtain rfl := hwithin.unique hwithin'
    cases inner with
    | classDecl inner =>
        rw [TreeNode.recordedIds, if_neg] at hrecorded
        · cases hrecorded
        · exact PartRole.not_isNested_of_isDeclared hlast
    | member member => cases hrecorded
    | declarator node =>
        rw [TreeNode.recordedIds, if_pos hlast] at hrecorded
        cases hrecorded
    | _ => cases hdeclaration
  cases inner' with
  | classDecl nested =>
      rw [TreeNode.recordedIds] at hrecorded
      split at hrecorded
      case isTrue hnested =>
        -- The class would be nested on the way to a declaration that is not in code.
        obtain ⟨path'', inner'', hwithin'', -, hown'', -⟩ := nested.bearsDeclared hrecorded
        obtain rfl := hwithin.path_eq_of_numbers_nodup hnodup (hwithin'.trans hwithin'') hown hown''
        exact PartRole.not_isNested_of_isDeclared (PartRole.lastOf_isDeclared rfl fun step hstep =>
          hpath step (List.mem_append_left _ hstep)) hnested
      case isFalse => cases hrecorded
  | _ => exact hown' ((TreeNode.recordedIds_sublist (by nofun)).subset hrecorded)

/-- The top-level classes of a unit as parts. -/
def CompilationUnit.parts (unit : CompilationUnit) : List Part :=
  unit.types.map fun decl => ⟨.declared, .classDecl decl⟩

/-- The numbers of all nodes in a unit. -/
def CompilationUnit.numbers (unit : CompilationUnit) : List NodeId :=
  TreeNode.numbersOf unit.parts

theorem CompilationUnit.numbers_sublist (unit : CompilationUnit) {decl : ClassDecl}
    (hdecl : decl ∈ unit.types) : (TreeNode.classDecl decl).numbers.Sublist unit.numbers := by
  have hpart : (⟨.declared, .classDecl decl⟩ : Part) ∈ unit.parts :=
    List.mem_map.mpr ⟨decl, hdecl, rfl⟩
  exact TreeNode.numbers_sublist_numbersOf hpart

/-- The nodes of a unit that declare top-level classes and their members occur in the order of their
declaration. -/
theorem CompilationUnit.declaring_sublist_numbers (unit : CompilationUnit) :
    (unit.types.flatMap ClassDecl.declaring).Sublist unit.numbers := by
  rw [numbers, parts, TreeNode.numbersOf, List.flatMap_map]
  exact List.Sublist.flatMap_right _ fun decl _ => decl.declaring_sublist_numbers

/-- Where no number occurs twice in a unit, a number tells the class and the path to its node. -/
theorem CompilationUnit.path_eq_of_numbers_nodup {unit : CompilationUnit}
    (hnodup : unit.numbers.Nodup) {decl decl' : ClassDecl} (hdecl : decl ∈ unit.types)
    (hdecl' : decl' ∈ unit.types) {path path' : List PathStep} {first second : TreeNode}
    (hfirst : Within (.classDecl decl) path first)
    (hsecond : Within (.classDecl decl') path' second) {id : NodeId} (hid : id ∈ first.ownIds)
    (hid' : id ∈ second.ownIds) : decl = decl' ∧ path = path' := by
  rw [numbers, TreeNode.numbersOf, parts, List.flatMap_map, List.nodup_flatMap] at hnodup
  have hmem := hfirst.numbers_subset (TreeNode.ownIds_subset_numbers hid)
  have hmem' := hsecond.numbers_subset (TreeNode.ownIds_subset_numbers hid')
  have hsame : decl = decl' := by
    by_contra hne
    have : Std.Symm (Function.onFun List.Disjoint fun decl : ClassDecl =>
        (TreeNode.classDecl decl).numbers) := ⟨fun _ _ h _ hsecond hfirst => h hfirst hsecond⟩
    exact hnodup.2.forall hdecl hdecl' hne hmem hmem'
  subst hsame
  exact ⟨rfl, hfirst.path_eq_of_numbers_nodup (hnodup.1 _ hdecl) hsecond hid hid'⟩

/-! ### Places in a unit

What is in a compilation unit stands in one of its top-level classes, so the first step of a path
through a unit leads to a class and the others lead on inside of it. A place is told by its path
alone, and where no number occurs twice it is told by any number of its construct as well. -/

/-- A construct stands in one of some parts at the end of a path. -/
def Part.HasAt (parts : List Part) : List PathStep → TreeNode → Prop
  | [], _ => False
  | step :: path, node =>
      ∃ child, parts[step.index]? = some ⟨step.role, child⟩ ∧ Within child path node

/-- A construct stands in a unit at the end of a path. -/
def CompilationUnit.HasAt (unit : CompilationUnit) (path : List PathStep) (node : TreeNode) : Prop :=
  Part.HasAt unit.parts path node

/-- What holds of any two members of a list, whichever comes first, holds of those at two positions. -/
theorem rel_of_index_ne {α : Type} {related : α → α → Prop} {list : List α}
    (h : list.Pairwise related) (hsymm : ∀ {first second}, related first second → related second first)
    {first second : α} {index index' : Nat} (hfirst : list[index]? = some first)
    (hsecond : list[index']? = some second) (hne : index ≠ index') : related first second := by
  obtain ⟨hlt, rfl⟩ := List.getElem?_eq_some_iff.mp hfirst
  obtain ⟨hlt', rfl⟩ := List.getElem?_eq_some_iff.mp hsecond
  rw [List.pairwise_iff_getElem] at h
  rcases Nat.lt_or_gt_of_ne hne with hless | hmore
  · exact h index index' hlt hlt' hless
  · exact hsymm (h index' index hlt' hlt hmore)

/-- Steps with one index lead to one part. -/
theorem PathStep.eq_of_index_eq {parts : List Part} {step step' : PathStep} {child child' : TreeNode}
    (h : parts[step.index]? = some ⟨step.role, child⟩)
    (h' : parts[step'.index]? = some ⟨step'.role, child'⟩) (heq : step.index = step'.index) :
    step = step' ∧ child = child' := by
  rw [heq, h'] at h
  obtain ⟨hrole, rfl⟩ := Part.mk.inj (Option.some.inj h)
  obtain ⟨index, role⟩ := step
  obtain ⟨index', role'⟩ := step'
  cases heq
  cases hrole
  exact ⟨rfl, rfl⟩

namespace CompilationUnit

variable {unit : CompilationUnit} {path path' : List PathStep} {node node' : TreeNode}

/-- What stands in a top-level class stands in the unit. -/
theorem exists_hasAt {decl : ClassDecl} (hdecl : decl ∈ unit.types) (h : Within (.classDecl decl) path node) :
    ∃ path, unit.HasAt path node := by
  obtain ⟨index, hindex⟩ := List.getElem?_of_mem hdecl
  exact ⟨⟨index, .declared⟩ :: path, _, by rw [parts, List.getElem?_map, hindex]; rfl, h⟩

/-- A path through a unit leads to a single construct. -/
theorem HasAt.unique (h : unit.HasAt path node) (h' : unit.HasAt path node') : node = node' := by
  cases path with
  | nil => exact h.elim
  | cons step rest =>
      obtain ⟨child, hchild, hwithin⟩ := h
      obtain ⟨child', hchild', hwithin'⟩ := h'
      obtain ⟨-, rfl⟩ := Part.mk.inj (Option.some.inj (hchild.symm.trans hchild'))
      exact hwithin.unique hwithin'

/-- The numbers of a unit are those that the constructs in it bear. -/
theorem mem_numbers_iff {id : NodeId} :
    id ∈ unit.numbers ↔ ∃ path node, unit.HasAt path node ∧ id ∈ node.ownIds := by
  rw [numbers, TreeNode.mem_numbersOf]
  constructor
  · rintro ⟨⟨role, child⟩, hpart, hid⟩
    obtain ⟨index, hindex⟩ := List.getElem?_of_mem hpart
    obtain ⟨path, node, hwithin, hid⟩ := TreeNode.mem_numbers.mp hid
    exact ⟨⟨index, role⟩ :: path, node, ⟨child, hindex, hwithin⟩, hid⟩
  · rintro ⟨path, node, h, hid⟩
    cases path with
    | nil => exact h.elim
    | cons step rest =>
        obtain ⟨child, hchild, hwithin⟩ := h
        exact ⟨_, List.mem_of_getElem? hchild, TreeNode.mem_numbers.mpr ⟨rest, node, hwithin, hid⟩⟩

/-- Where no number occurs twice, a number tells the path to its construct. -/
theorem HasAt.path_eq (hnodup : unit.numbers.Nodup) (h : unit.HasAt path node)
    (h' : unit.HasAt path' node') {id : NodeId} (hid : id ∈ node.ownIds)
    (hid' : id ∈ node'.ownIds) : path = path' := by
  cases path with
  | nil => exact h.elim
  | cons step rest =>
  cases path' with
  | nil => exact h'.elim
  | cons step' rest' =>
  obtain ⟨child, hchild, hwithin⟩ := h
  obtain ⟨child', hchild', hwithin'⟩ := h'
  obtain ⟨hinside, hacross⟩ := List.nodup_flatMap.mp hnodup
  have hmem := hwithin.numbers_subset (TreeNode.ownIds_subset_numbers hid)
  have hmem' := hwithin'.numbers_subset (TreeNode.ownIds_subset_numbers hid')
  by_cases heq : step.index = step'.index
  · obtain ⟨rfl, rfl⟩ := PathStep.eq_of_index_eq hchild hchild' heq
    have hnodup' := hinside _ (List.mem_of_getElem? hchild)
    rw [hwithin.path_eq_of_numbers_nodup hnodup' hwithin' hid hid']
  · have hdisjoint := rel_of_index_ne hacross (fun h _ hfirst hsecond => h hsecond hfirst) hchild
      hchild' heq
    exact (hdisjoint hmem hmem').elim

/-- Where no number occurs twice in a unit, no construct in it bears one twice. -/
theorem HasAt.nodup_ownIds (hnodup : unit.numbers.Nodup) (h : unit.HasAt path node) :
    node.ownIds.Nodup := by
  cases path with
  | nil => exact h.elim
  | cons step rest =>
      obtain ⟨child, hchild, hwithin⟩ := h
      have hchildNodup := (List.nodup_flatMap.mp hnodup).1 _ (List.mem_of_getElem? hchild)
      have hnodeNodup := hchildNodup.sublist hwithin.numbers_sublist
      rw [TreeNode.numbers_eq] at hnodeNodup
      exact hnodeNodup.of_append_left

end CompilationUnit
end LockDiscipline
