import LockDiscipline.Proofs.Program.Tables
/-!
# Linking classes to their supertypes

Once all classes are declared, they are linked one after the other, each before its member classes.
-/

namespace LockDiscipline

namespace Program

/-! ### Linking one class -/

/-- The class that a supertype clause of a class names, as the program stands. -/
def clause? (program : Program) (id : SymbolId) (type : String) : Option SymbolId :=
  (TypeName.base? type).bind (program.findType? ((program.outerClass? id).getD id))

/-- Whether a class may become a supertype of another. -/
def isAcyclic (program : Program) (id supertype : SymbolId) : Bool :=
  !program.isSubclass supertype id

/-- The program with supertypes for a class, except for those that would close a cycle. -/
def withSupertypes (program : Program) (id : SymbolId) (superclass : Option SymbolId)
    (interfaces : List SymbolId) (span : Span) : Program :=
  let name := ((program.symbol? id).map (·.name)).getD ""
  let problems :=
    if (superclass.toList ++ interfaces).all (program.isAcyclic id) then program.problems
    else program.problems ++ [.cyclicInheritance name span]
  { program with problems }.updateClass id fun info =>
    { info with
      superclass := superclass.filter (program.isAcyclic id)
      interfaces := interfaces.filter (program.isAcyclic id) }

/-- The program in which a class is linked, without its member classes. -/
def linkOne (program : Program) (id : SymbolId) (decl : ClassDecl) : Program :=
  program.withSupertypes id (decl.superclass.bind (program.clause? id))
    (decl.interfaces.filterMap (program.clause? id)) decl.span

/-- The program in which classes are linked one after the other. -/
def linkAll (program : Program) (places : List ClassPlace) : Program :=
  places.foldl (fun program place =>
    (program.use? place.decl.id).elim program fun id => program.linkOne id place.decl) program

end Program

namespace Program

variable {program : Program} {id : SymbolId}

theorem use?_withSupertypes (superclass : Option SymbolId) (interfaces : List SymbolId)
    (span : Span) (node : NodeId) :
    (program.withSupertypes id superclass interfaces span).use? node = program.use? node := rfl

theorem linkAll_cons {place : ClassPlace} (huse : program.use? place.decl.id = some id)
    (rest : List ClassPlace) : program.linkAll (place :: rest) =
      (program.linkOne id place.decl).linkAll rest := by
  rw [linkAll, List.foldl_cons, huse]
  rfl

theorem linkAll_append (first second : List ClassPlace) :
    program.linkAll (first ++ second) = (program.linkAll first).linkAll second :=
  List.foldl_append

theorem use?_linkAll (places : List ClassPlace) (node : NodeId) :
    (program.linkAll places).use? node = program.use? node := by
  induction places generalizing program with
  | nil => rfl
  | cons place rest ih =>
      cases huse : program.use? place.decl.id with
      | none =>
          rw [linkAll, List.foldl_cons, huse]
          exact ih
      | some id =>
          rw [linkAll_cons huse]
          exact ih

end Program

namespace Resolving

open Program (use?_linkAll linkAll_cons linkAll_append)

theorem fst_findSupertype (scope : SymbolId) (type : String) (draft : TrackedDraft) :
    ((findSupertype scope type).run draft).1 =
      (TypeName.base? type).bind (draft.program.findType? scope) := by
  have hrun : (findSupertype scope type).run draft =
      (do
        if ((TypeName.base? type).bind (draft.program.findType? scope)).isNone then
          tell (.supertypeUnknown type)
        return (TypeName.base? type).bind (draft.program.findType? scope) : Tracked _).run draft :=
    rfl
  rw [hrun]
  cases (TypeName.base? type).bind (draft.program.findType? scope) <;> rfl

theorem program_findSupertype (scope : SymbolId) (type : String) (draft : TrackedDraft) :
    ((findSupertype scope type).run draft).2.program = draft.program := by
  have hrun : (findSupertype scope type).run draft =
      (do
        if ((TypeName.base? type).bind (draft.program.findType? scope)).isNone then
          tell (.supertypeUnknown type)
        return (TypeName.base? type).bind (draft.program.findType? scope) : Tracked _).run draft :=
    rfl
  rw [hrun]
  cases (TypeName.base? type).bind (draft.program.findType? scope) <;> rfl

theorem findSupertypes_eq (scope : SymbolId) (types : List String) (draft : TrackedDraft) :
    ((findSupertypes scope types).run draft).1 =
      types.filterMap (fun type => (TypeName.base? type).bind (draft.program.findType? scope)) ∧
        ((findSupertypes scope types).run draft).2.program = draft.program := by
  induction types generalizing draft with
  | nil => exact ⟨rfl, rfl⟩
  | cons type rest ih =>
      rw [findSupertypes, run_bind, run_bind]
      obtain ⟨hrest, hprogram⟩ := ih ((findSupertype scope type).run draft).2
      rw [program_findSupertype] at hrest hprogram
      refine ⟨?_, hprogram⟩
      change ((findSupertype scope type).run draft).1.toList ++ ((findSupertypes scope rest).run
        ((findSupertype scope type).run draft).2).1 = _
      rw [hrest, fst_findSupertype, List.filterMap_cons]
      cases (TypeName.base? type).bind (draft.program.findType? scope) <;> rfl

theorem program_setSupertypes (id : SymbolId) (superclass : Option SymbolId)
    (interfaces : List SymbolId) (span : Span) (draft : TrackedDraft) :
    ((setSupertypes id superclass interfaces span).run draft).2.program =
      draft.program.withSupertypes id superclass interfaces span := by
  have hrun : (setSupertypes id superclass interfaces span).run draft =
      (do
        if !(superclass.toList ++ interfaces).all (draft.program.isAcyclic id) then
          update (·.addProblem
            (.cyclicInheritance (((draft.program.symbol? id).map (·.name)).getD "") span))
        update (·.updateClass id fun info =>
          { info with
            superclass := superclass.filter (draft.program.isAcyclic id)
            interfaces := interfaces.filter (draft.program.isAcyclic id) }) : Tracked Unit).run
              draft := rfl
  rw [hrun, Program.withSupertypes]
  cases (superclass.toList ++ interfaces).all (draft.program.isAcyclic id) <;> rfl

mutual

/-- A class is linked, and then its member classes in order. -/
theorem program_linkClass (around : List ClassDecl) (id : SymbolId) : ∀ (decl : ClassDecl)
    {draft : TrackedDraft}, draft.program.use? decl.id = some id →
      (∀ place ∈ decl.classPlaces around, (draft.program.use? place.decl.id).isSome) →
      ((linkClass id decl).run draft).2.program = draft.program.linkAll (decl.classPlaces around)
  | ⟨node, name, kind, modifiers, typeParams, superclass, interfaces, members, span⟩, draft, huse,
      hplaces => by
    rw [ClassDecl.classPlaces_eq] at hplaces ⊢
    let decl : ClassDecl :=
      ⟨node, name, kind, modifiers, typeParams, superclass, interfaces, members, span⟩
    let scope := (draft.program.outerClass? id).getD id
    have hrest (found : Option SymbolId) {middle : TrackedDraft} (hmiddle : middle.program = draft.program) :
        ((do
          let interfaces ← findSupertypes scope interfaces
          setSupertypes id found interfaces span
          linkMembers members : Tracked Unit).run middle).2.program =
        (draft.program.withSupertypes id found (interfaces.filterMap (draft.program.clause? id))
          span).linkAll (memberPlaces (decl :: around) members) := by
      obtain ⟨hinterfaces, hprogram⟩ := findSupertypes_eq scope interfaces middle
      rw [run_bind, run_bind]
      have hset : ((setSupertypes id found ((findSupertypes scope interfaces).run middle).1 span).run
          ((findSupertypes scope interfaces).run middle).2).2.program = draft.program.withSupertypes id
            found (interfaces.filterMap (draft.program.clause? id)) span := by
        rw [program_setSupertypes, hprogram, hinterfaces, hmiddle]
        rfl
      rw [← hset]
      refine program_linkMembers (decl :: around) members fun place hplace => ?_
      rw [hset, Program.use?_withSupertypes]
      exact hplaces place (List.mem_cons_of_mem _ hplace)
    rw [linkAll_cons huse, linkClass, run_bind, run_ask]
    cases superclass with
    | some type =>
        rw [run_bind]
        dsimp only
        rw [fst_findSupertype]
        exact hrest _ (program_findSupertype scope type draft)
    | none =>
        rw [run_bind]
        exact hrest none rfl

theorem program_linkMembers (around : List ClassDecl) : ∀ (members : List Member) {draft : TrackedDraft},
    (∀ place ∈ memberPlaces around members, (draft.program.use? place.decl.id).isSome) →
      ((linkMembers members).run draft).2.program =
        draft.program.linkAll (memberPlaces around members)
  | [], draft, _ => by
    rw [linkMembers, memberPlaces]
    rfl
  | ⟨node, kind, span⟩ :: rest, draft, hplaces => by
    rw [memberPlaces] at hplaces ⊢
    have hfirst : ((linkMember kind).run draft).2.program =
        draft.program.linkAll (kind.classPlaces around) :=
      program_linkMember around kind fun place hplace => hplaces place (List.mem_append_left _ hplace)
    rw [linkMembers, linkAll_append, ← hfirst]
    refine program_linkMembers around rest fun place hplace => ?_
    change (((linkMember kind).run draft).2.program.use? place.decl.id).isSome
    rw [hfirst, use?_linkAll]
    exact hplaces place (List.mem_append_right _ hplace)

theorem program_linkMember (around : List ClassDecl) : ∀ (kind : MemberKind) {draft : TrackedDraft},
    (∀ place ∈ kind.classPlaces around, (draft.program.use? place.decl.id).isSome) →
      ((linkMember kind).run draft).2.program = draft.program.linkAll (kind.classPlaces around)
  | .classDecl decl, draft, hplaces => by
    rw [MemberKind.classPlaces] at hplaces ⊢
    obtain ⟨id, huse⟩ := Option.isSome_iff_exists.mp (hplaces _ (decl.mem_classPlaces around))
    have hfound (found : Option SymbolId) : found = some id → ((match found with
        | some id => linkClass id decl
        | none => Pure.pure () : Tracked Unit).run draft).2.program =
          draft.program.linkAll (decl.classPlaces around) := by
      rintro rfl
      exact program_linkClass around id decl huse hplaces
    rw [linkMember]
    exact hfound _ huse
  | .field .., draft, _ | .method _, draft, _ | .initializer .., draft, _
  | .enumConstant .., draft, _ => by
    rw [linkMember, MemberKind.classPlaces]
    · rfl
    all_goals nofun

end

/-- Top-level classes are linked in order, each followed by its member classes. -/
theorem program_linkTopLevel (classes : List (SymbolId × ClassDecl)) {draft : TrackedDraft}
    (huse : ∀ entry ∈ classes, draft.program.use? entry.2.id = some entry.1)
    (hplaces : ∀ place ∈ classes.flatMap (·.2.classPlaces []),
      (draft.program.use? place.decl.id).isSome) :
    ((linkTopLevel classes).run draft).2.program =
      draft.program.linkAll (classes.flatMap (·.2.classPlaces [])) := by
  induction classes generalizing draft with
  | nil => rfl
  | cons entry rest ih =>
      rw [List.flatMap_cons] at hplaces ⊢
      obtain ⟨hentry, hrest⟩ := List.forall_mem_cons.mp huse
      have hfirst : ((linkClass entry.1 entry.2).run draft).2.program =
          draft.program.linkAll (entry.2.classPlaces []) :=
        program_linkClass [] entry.1 entry.2 hentry fun place hplace =>
          hplaces place (List.mem_append_left _ hplace)
      rw [linkTopLevel, run_bind, linkAll_append, ← hfirst]
      refine ih (fun other hother => ?_) fun place hplace => ?_
      · rw [hfirst, use?_linkAll]
        exact hrest other hother
      · rw [hfirst, use?_linkAll]
        exact hplaces place (List.mem_append_right _ hplace)

end Resolving

end LockDiscipline
