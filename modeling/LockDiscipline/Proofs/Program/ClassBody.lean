import LockDiscipline.Proofs.Program.Constructs
/-!
# Going through class bodies

The members of a class are gone through in a scope of the class, so every path through them goes into
the class and sees its body. That holds wherever the class stands, as long as it was declared in the class around it.
-/

namespace LockDiscipline

/-- The members of a class as parts. -/
def memberParts (members : List Member) : List Part :=
  members.map fun member => ⟨.declared, .member member⟩

theorem numbersOf_memberParts (decl : ClassDecl) :
    (TreeNode.numbersOf (memberParts decl.members)).Sublist
      (TreeNode.numbersOf (TreeNode.classDecl decl).parts) := by
  have heq : TreeNode.numbersOf (memberParts decl.members) = TreeNode.numbersOf
      (decl.members.map fun member => ⟨.member decl.id, .member member⟩) := by
    simp only [TreeNode.numbersOf, memberParts, List.flatMap_map]
  rw [heq, TreeNode.parts, TreeNode.numbersOf_append]
  exact List.sublist_append_right _ _

theorem not_mem_numbersOf_memberParts {decl : ClassDecl}
    (hnodup : (TreeNode.classDecl decl).numbers.Nodup) :
    decl.id ∉ TreeNode.numbersOf (memberParts decl.members) := by
  intro hmem
  rw [TreeNode.numbers_eq] at hnodup
  exact List.disjoint_of_nodup_append hnodup (List.mem_singleton_self _)
    ((numbersOf_memberParts decl).subset hmem)

/-- What is recorded in the members of a class is recorded in the class. -/
theorem reaches_of_memberParts {role : PartRole} {decl : ClassDecl} {id : NodeId}
    (h : Part.Reached (memberParts decl.members) id) :
    (⟨role, .classDecl decl⟩ : Part).Reaches id := by
  obtain ⟨part, hpart, path, inner, hwithin, hpath, hid⟩ := h
  obtain ⟨member, hmember, rfl⟩ := List.mem_map.mp hpart
  have hpart' : (⟨.member decl.id, .member member⟩ : Part) ∈ (TreeNode.classDecl decl).parts :=
    List.mem_append_right _ (List.mem_map.mpr ⟨member, hmember, rfl⟩)
  refine Part.Reaches.of_part ?_ hpart' rfl
  refine ⟨path, inner, hwithin, hpath, ?_⟩
  -- Nothing is recorded for the member itself, and behind it the role does not matter.
  cases hwithin with
  | here => cases hid
  | part => exact hid

theorem declaringMembers_subset_numbers (members : List Member) :
    declaringMembers members ⊆ TreeNode.numbersOf (memberParts members) :=
  (declaringMembers_sublist .declared members).subset

theorem Part.Nests.of_member {role : PartRole} {decl : ClassDecl} :
    (∃ part ∈ memberParts decl.members, part.Nests) →
      ∃ part ∈ [(⟨role, .classDecl decl⟩ : Part)], part.Nests := by
  rintro ⟨part, hpart, hnests⟩
  obtain ⟨member, hmember, rfl⟩ := List.mem_map.mp hpart
  have hmem : (⟨.member decl.id, .member member⟩ : Part) ∈ (TreeNode.classDecl decl).parts :=
    List.mem_append_right _ (List.mem_map.mpr ⟨member, hmember, rfl⟩)
  refine ⟨_, List.mem_singleton_self _, Part.Nests.of_part hmem (.inr ?_)⟩
  exact hnests.resolve_left nofun

theorem seen_memberParts (members : List Member) :
    (Course.ofParts (memberParts members)).seen = (memberParts members).map (⟨·, []⟩) :=
  Course.seen_ofParts (List.forall_mem_map.mpr fun _ _ => rfl)

/-- Behind a step to a member the body of the class is seen. -/
theorem TreeNode.marks_member {decl : ClassDecl} {step : PathStep} {child : TreeNode}
    (hindex : (TreeNode.classDecl decl).parts[step.index]? = some ⟨step.role, child⟩)
    (hrole : step.role = .member decl.id) (path : List PathStep) :
    (TreeNode.classDecl decl).marks (step :: path) = child.marks path ++ [.classBody decl.id] := by
  obtain ⟨⟨part, visible⟩, hmem, rfl⟩ := exists_seen_of_parts hindex
  have hseen : (TreeNode.classDecl decl).course.seen =
      (TreeNode.classDecl decl).parts.map (⟨·, []⟩) := by
    refine Course.seen_ofParts (List.forall_mem_append.mpr ⟨?_, List.forall_mem_map.mpr fun _ _ => rfl⟩)
    exact List.forall_mem_map.mpr fun _ _ => rfl
  obtain ⟨-, hvisible⟩ := SeenPart.mk.inj (Option.some.inj
    ((by rw [hseen, List.getElem?_map, hindex]; rfl :
      (TreeNode.classDecl decl).course.seen[step.index]? = some ⟨⟨step.role, child⟩, []⟩).symm.trans hmem))
  rw [marks_cons hmem, ← hvisible, hrole]
  exact List.append_nil _

namespace Resolving

open Program (Grows)

variable {decl : ClassDecl} {id : SymbolId} {role : PartRole}

/-- The members of a class that has a symbol are gone through in the scope of the class. -/
theorem run_resolveMemberClass (decl : ClassDecl) (draft : TrackedDraft) : (resolveMemberClass decl).run draft =
    (draft.program.use? decl.id).elim ((), draft) fun id =>
      (inScope (.classBody id) (resolveMembers decl.members)).run draft := by
  obtain ⟨node, name, kind, modifiers, typeParams, superclass, interfaces, members, span⟩ := decl
  rw [resolveMemberClass, run_bind, run_ask]
  dsimp only
  cases draft.program.use? node <;> rfl

/-- The draft inside the body of a class. -/
def inside (draft : TrackedDraft) (id : SymbolId) : TrackedDraft :=
  { draft with scopes := draft.scopes.push (.classBody id) }

/-- The parts of a class that are gone through are its members. -/
theorem eq_member_of_isResolved {step : PathStep} {child : TreeNode}
    (hindex : (TreeNode.classDecl decl).parts[step.index]? = some ⟨step.role, child⟩)
    (hrole : step.role.isResolved) :
    ∃ member ∈ decl.members, step.role = .member decl.id ∧ child = .member member := by
  rcases List.mem_append.mp (List.mem_of_getElem? hindex) with hmem | hmem
  · have hstep : step.role = .annotationArg := Modifiers.role_eq_of_mem_parts hmem
    rw [hstep] at hrole
    cases hrole
  · obtain ⟨member, hmember, heq⟩ := List.mem_map.mp hmem
    obtain ⟨hrole', hchild⟩ := Part.mk.inj heq
    exact ⟨member, hmember, hrole'.symm, hchild.symm⟩

/-- A path through a member that ends at a name as a label in the member does so as well from
outside. -/
private theorem isLabelName_member {step : PathStep} {path : List PathStep} {expr : Expr}
    (h : IsLabelName .declared path expr) : IsLabelName role (step :: path) expr := by
  obtain ⟨hlabel, hname⟩ := h
  cases path with
  | nil => cases hlabel
  | cons step' path => exact ⟨hlabel, hname⟩

section Body

variable {draft : TrackedDraft} (hdraft : draft.program.WellFormed)
  (hnodup : (TreeNode.classDecl decl).numbers.Nodup)
  (huse : draft.program.use? decl.id = some id)
  (hdeclared : draft.program.Declared draft.scopes.currentClass? decl)
include hdraft hnodup huse hdeclared

theorem ready_inside : Ready [] (memberParts decl.members) (inside draft id) := by
  have hcurrent : (inside draft id).scopes.currentClass? = some id := by
    change (draft.scopes.push (.classBody id)).enclosingClasses.head? = some id
    rw [ScopeStack.enclosingClasses_push]
    rfl
  obtain ⟨huse', hinfo, -, -, hmembers⟩ := hdeclared
  obtain rfl := Option.some.inj (huse.symm.trans huse')
  refine ⟨hdraft, ⟨id, _, hcurrent, hinfo⟩, ?_, ?_⟩
  · rw [TreeNode.numbers_eq] at hnodup
    exact hnodup.sublist (List.sublist_append_of_sublist_right (numbersOf_memberParts decl))
  · intro part hpart _ inner hinner
    obtain ⟨member, hmember, rfl⟩ := List.mem_map.mp hpart
    rw [hcurrent]
    refine hmembers member hmember inner ?_
    obtain ⟨number, kind, span⟩ := member
    cases kind <;> cases hinner
    rfl

/-- A class that is declared is gone through when its members are, inside its scope. -/
theorem Covered.classBody
    (h : Covers [] (.ofParts (memberParts decl.members)) (resolveMembers decl.members)) :
    Covered (.one ⟨role, .classDecl decl⟩) draft
      ((inScope (.classBody id) (resolveMembers decl.members)).run draft).2 := by
  have hready := ready_inside hdraft hnodup huse hdeclared
  rw [← Course.parts_ofParts (memberParts decl.members)] at hready
  have hcovered := h.covered (inside draft id) hready
  have hgrows := h.grows (inside draft id) hdraft
  obtain ⟨bindings, hbinds, -⟩ := h.scopes (inside draft id)
  have huses : ∀ number ∈ decl.declaring,
      ((resolveMembers decl.members).run (inside draft id)).2.program.use? number =
        draft.program.use? number := fun number hnumber =>
    h.uses (inside draft id) hdraft number List.not_mem_nil fun hreached =>
      ClassDecl.not_reaches_of_declaring hnodup hnumber
        (reaches_of_memberParts (Course.parts_ofParts (memberParts decl.members) ▸ hreached))
  have huse' := (huses decl.id decl.id_mem_declaring).trans huse
  generalize hafter : ((resolveMembers decl.members).run (inside draft id)).2 = after at *
  have hrun : ((inScope (.classBody id) (resolveMembers decl.members)).run draft).2 =
      { after with scopes := after.scopes.pop } := by
    rw [← hafter]; rfl
  have hclasses : (inside draft id).scopes.enclosingClasses =
      id :: draft.scopes.enclosingClasses :=
    ScopeStack.enclosingClasses_push draft.scopes (.classBody id)
  have halong {step : PathStep} {path : List PathStep} (hstep : step.role = .member decl.id) :
      classesAlong after.program.use? (step :: path) ++ draft.scopes.enclosingClasses =
        classesAlong after.program.use? path ++ (inside draft id).scopes.enclosingClasses := by
    rw [classesAlong, hstep, PartRole.selfIn, huse', hclasses, List.append_assoc]
    rfl
  have hmember {member : Member} (hmember : member ∈ decl.members) :
      (⟨.declared, .member member⟩ : Part) ∈ (Course.ofParts (memberParts decl.members)).parts :=
    Course.parts_ofParts _ ▸ List.mem_map.mpr ⟨member, hmember, rfl⟩
  have hnests : (∃ part ∈ (Course.ofParts (memberParts decl.members)).parts, part.Nests) →
      ∃ part ∈ [(⟨role, .classDecl decl⟩ : Part)], part.Nests :=
    Course.parts_ofParts _ ▸ Part.Nests.of_member
  rw [hrun]
  obtain ⟨visits, hvisits, hvisit⟩ := hcovered.visits
  have hdeclared' := hdeclared.mono hgrows hcovered.retained.keepsFields huses
  refine ⟨⟨visits, hvisits, fun visit hmem => ⟨_, List.mem_singleton_self _, ?_⟩⟩, ?_, ?_, ?_, ?_,
    ⟨[], .of_eq hbinds.pop, .nil⟩, hcovered.retained⟩
  · obtain ⟨part, hpart, path, expr, hwithin, hpath, rfl⟩ := hvisit visit hmem
    rw [Course.parts_ofParts] at hpart
    obtain ⟨member, hmember, rfl⟩ := List.mem_map.mp hpart
    have hpart' : (⟨.member decl.id, .member member⟩ : Part) ∈ (TreeNode.classDecl decl).parts :=
      List.mem_append_right _ (List.mem_map.mpr ⟨member, hmember, rfl⟩)
    obtain ⟨index, hindex⟩ := List.getElem?_of_mem hpart'
    refine ⟨⟨index, .member decl.id⟩ :: path, expr, .part hindex hwithin,
      List.forall_mem_cons.mpr ⟨rfl, hpath⟩, ?_⟩
    rw [halong rfl]
  · intro seen hmem path node hwithin hnode hpath
    obtain rfl := List.mem_singleton.mp hmem
    cases hwithin with
    | here => cases hnode
    | @part _ child _ step path hindex hinner =>
        obtain ⟨hrole, hpath⟩ := List.forall_mem_cons.mp hpath
        obtain ⟨member, hmember', hstep, rfl⟩ := eq_member_of_isResolved hindex hrole
        have hseen : (⟨⟨.declared, .member member⟩, []⟩ : SeenPart) ∈
            (Course.ofParts (memberParts decl.members)).seen := by
          rw [seen_memberParts]
          exact List.mem_map.mpr ⟨_, List.mem_map.mpr ⟨member, hmember', rfl⟩, rfl⟩
        rw [TreeNode.marks_member hindex hstep]
        refine (hcovered.enters _ hseen path node hinner hnode hpath).imp
          (Exists.imp fun _ => And.imp_right (And.imp_left isLabelName_member))
          (Exists.imp fun entry hentry => ?_)
        refine ⟨hentry.earlier.mono hnests, hentry.later.mono hnests, hentry.retained, hentry.kept,
          hentry.fresh, hentry.uses, hentry.receivers, ?_, fun hchain => hentry.chained ?_, ?_, hentry.visited⟩
        · rw [halong hstep]
          exact hentry.classes
        · rw [hclasses]
          obtain ⟨huse'', hinfo, houter, -⟩ := hdeclared
          obtain rfl := Option.some.inj (huse.symm.trans huse'')
          exact ⟨⟨_, hinfo, houter⟩, hchain⟩
        · obtain ⟨items, hshows, hitems⟩ := hentry.sees
          rw [List.map_nil, List.append_nil] at hshows ⊢
          refine ⟨items ++ [.classBody id], List.rel_append hshows (.cons (.classBody huse') .nil), ?_⟩
          rw [hitems, List.append_assoc]
          rfl
  · intro part hpart path inner hwithin _ hpath
    obtain rfl := List.mem_singleton.mp hpart
    cases hwithin with
    | here => exact ⟨_, hdeclared'⟩
    | @part _ child _ step path hindex hinner =>
        obtain ⟨hrole, hpath⟩ := List.forall_mem_cons.mp hpath
        obtain ⟨member, hmember', hstep, rfl⟩ :=
          eq_member_of_isResolved hindex (PartRole.isResolved_of_isCertain hrole)
        exact hcovered.resolves _ (hmember hmember') path inner hinner rfl hpath
  · intro part hpart inner hinner
    obtain rfl := List.mem_singleton.mp hpart
    obtain rfl : decl = inner := Option.some.inj hinner
    exact hdeclared'
  · intro number owner symbol hsymbol howner
    refine (hcovered.introduced number owner symbol hsymbol howner).imp_right ?_
    rintro ⟨part, hpart, hintroduced⟩
    refine ⟨_, List.mem_singleton_self _, ?_⟩
    rw [Course.parts_ofParts] at hpart
    obtain ⟨member, hmember, rfl⟩ := List.mem_map.mp hpart
    have hpart' : (⟨.member decl.id, .member member⟩ : Part) ∈ (TreeNode.classDecl decl).parts :=
      List.mem_append_right _ (List.mem_map.mpr ⟨member, hmember, rfl⟩)
    exact hintroduced.of_part hpart' rfl

end Body

namespace Covers

variable (h : Covers [] (.ofParts (memberParts decl.members)) (resolveMembers decl.members))
include h

/-- What holds of the members of any class in its scope holds of a draft on the way there. -/
theorem grows_classBody (draft : TrackedDraft) (hdraft : draft.program.WellFormed) :
    Grows (∃ part ∈ [(⟨role, .classDecl decl⟩ : Part)], part.Nests) draft.program
      ((Resolving.inScope (.classBody id) (resolveMembers decl.members)).run draft).2.program :=
  (h.grows (inside draft id) hdraft).mono (Course.parts_ofParts _ ▸ Part.Nests.of_member)

theorem scopes_classBody (draft : TrackedDraft) :
    ((Resolving.inScope (.classBody id) (resolveMembers decl.members)).run draft).2.scopes.toList =
      draft.scopes.toList := by
  obtain ⟨bindings, hbinds, -⟩ := h.scopes (inside draft id)
  exact hbinds.pop

theorem uses_classBody (draft : TrackedDraft) (hdraft : draft.program.WellFormed) {number : NodeId}
    (hnumber : ¬(⟨role, .classDecl decl⟩ : Part).Reaches number) :
    ((Resolving.inScope (.classBody id) (resolveMembers decl.members)).run draft).2.program.use? number =
      draft.program.use? number :=
  h.uses (inside draft id) hdraft number List.not_mem_nil fun hreached => by
    rw [Course.parts_ofParts] at hreached
    exact hnumber (reaches_of_memberParts hreached)

theorem receivers_classBody (draft : TrackedDraft) {number : NodeId}
    (hnumber : ¬(⟨role, .classDecl decl⟩ : Part).Reaches number) :
    ((Resolving.inScope (.classBody id) (resolveMembers decl.members)).run draft).2.receiver? number =
      draft.receiver? number :=
  h.receivers (inside draft id) number List.not_mem_nil fun hreached => by
    rw [Course.parts_ofParts] at hreached
    exact hnumber (reaches_of_memberParts hreached)

omit h in
theorem sites_classDecl : (Course.one ⟨role, .classDecl decl⟩).SitesIn
    ([] ++ TreeNode.numbersOf (Course.one ⟨role, .classDecl decl⟩).parts) where
  visible := List.forall_mem_singleton.mpr (List.forall_mem_nil _)
  leaves := List.forall_mem_nil _

/-- A member class is gone through in its scope. -/
theorem memberClass :
    Covers [] (.one ⟨.declared, .classDecl decl⟩) (resolveMemberClass decl) := by
  refine ⟨fun draft hdraft => ?_, fun draft => ⟨[], .of_eq ?_, fun _ => rfl⟩,
    fun draft hdraft number _ hnumber => ?_, fun draft number _ hnumber => ?_, sites_classDecl,
    fun draft hready => ?_⟩ <;> rw [run_resolveMemberClass]
  · cases draft.program.use? decl.id with
    | none => exact .refl _ _
    | some id => exact h.grows_classBody draft hdraft
  · cases draft.program.use? decl.id with
    | none => rfl
    | some id => exact h.scopes_classBody draft
  · rw [Course.parts_one, Part.Reached.singleton_iff] at hnumber
    cases draft.program.use? decl.id with
    | none => rfl
    | some id => exact h.uses_classBody draft hdraft hnumber
  · rw [Course.parts_one, Part.Reached.singleton_iff] at hnumber
    cases draft.program.use? decl.id with
    | none => rfl
    | some id => exact h.receivers_classBody draft hnumber
  · have hdeclared := hready.declared _ (List.mem_singleton_self _) nofun decl rfl
    have hnodup : (TreeNode.classDecl decl).numbers.Nodup := by
      simpa [TreeNode.numbersOf] using hready.nodup
    obtain ⟨id, huse⟩ : ∃ id, draft.program.use? decl.id = some id := by
      cases hdeclared with
      | intro huse => exact ⟨_, huse⟩
    rw [huse]
    exact .classBody hready.wellFormed hnodup huse hdeclared h

end Covers

end Resolving
end LockDiscipline
