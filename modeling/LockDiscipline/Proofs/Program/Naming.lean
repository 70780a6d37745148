import LockDiscipline.Proofs.Program.Footprints
import LockDiscipline.Proofs.Tree.Numbers
/-!
# What supertype clauses name

A supertype clause is a name, and which class it is the name of can be read off the declarations of a
unit, as long as no class has to inherit it. `CompilationUnit.namedClass?` says which class that is,
and `CompilationUnit.isPlain` says of a class that all its clauses are read in this way. Neither
depends on the order of the top-level classes, if all classes have names of their own.
-/

namespace LockDiscipline

/-! ### The classes of a unit -/

/-- A class with the classes around it, innermost first. -/
structure ClassPlace where
  around : List ClassDecl
  decl : ClassDecl

/-- The class that a member is. -/
def Member.classDecl? (member : Member) : Option ClassDecl :=
  match member.kind with
  | .classDecl decl => some decl
  | _ => none

/-- The classes among the members of a class. -/
def memberClasses (members : List Member) : List ClassDecl :=
  members.filterMap Member.classDecl?

/-- The member class of a name, the first of several. -/
def ClassDecl.memberClass? (decl : ClassDecl) (name : String) : Option ClassDecl :=
  (memberClasses decl.members).find? (·.name == name)

mutual

/-- A class, then its member classes, each followed by its own. -/
def ClassDecl.classPlaces (around : List ClassDecl) : ClassDecl → List ClassPlace
  | decl@⟨_, _, _, _, _, _, _, members, _⟩ =>
      ⟨around, decl⟩ :: memberPlaces (decl :: around) members

/-- The classes among members, each followed by its own. -/
def memberPlaces (around : List ClassDecl) : List Member → List ClassPlace
  | [] => []
  | ⟨_, kind, _⟩ :: rest => kind.classPlaces around ++ memberPlaces around rest

/-- The class that a member is, if it is one, followed by its member classes. -/
def MemberKind.classPlaces (around : List ClassDecl) : MemberKind → List ClassPlace
  | .classDecl decl => decl.classPlaces around
  | _ => []

end

theorem ClassDecl.classPlaces_eq (decl : ClassDecl) (around : List ClassDecl) :
    decl.classPlaces around = ⟨around, decl⟩ :: memberPlaces (decl :: around) decl.members := by
  obtain ⟨⟩ := decl
  rw [classPlaces]

theorem ClassDecl.mem_classPlaces (decl : ClassDecl) (around : List ClassDecl) :
    ⟨around, decl⟩ ∈ decl.classPlaces around := by
  rw [classPlaces_eq]
  exact List.mem_cons_self

theorem memberPlaces_eq (around : List ClassDecl) (members : List Member) :
    memberPlaces around members = (memberClasses members).flatMap (·.classPlaces around) := by
  induction members with
  | nil => rw [memberPlaces]; rfl
  | cons member rest ih =>
      obtain ⟨node, kind, span⟩ := member
      rw [memberPlaces, ih]
      cases kind with
      | classDecl decl => rw [MemberKind.classPlaces]; rfl
      | _ =>
          rw [MemberKind.classPlaces]
          · rfl
          · nofun

mutual

/-- What passes from every class to its member classes holds of all classes in a class if it holds of
the class itself. -/
theorem ClassDecl.classPlaces_induction {motive : ClassPlace → Prop}
    (hmember : ∀ {place inner}, inner ∈ memberClasses place.decl.members → motive place →
      motive ⟨place.decl :: place.around, inner⟩) (around : List ClassDecl) :
    ∀ decl : ClassDecl, motive ⟨around, decl⟩ → ∀ place ∈ decl.classPlaces around, motive place
  | ⟨node, name, kind, modifiers, typeParams, superclass, interfaces, members, span⟩, hdecl, place,
      hplace => by
    rw [ClassDecl.classPlaces] at hplace
    rcases List.mem_cons.mp hplace with rfl | hplace
    · exact hdecl
    · exact memberPlaces_induction hmember _ members (fun inner hinner => hmember hinner hdecl) place
        hplace

theorem memberPlaces_induction {motive : ClassPlace → Prop}
    (hmember : ∀ {place inner}, inner ∈ memberClasses place.decl.members → motive place →
      motive ⟨place.decl :: place.around, inner⟩) (around : List ClassDecl) :
    ∀ members : List Member, (∀ inner ∈ memberClasses members, motive ⟨around, inner⟩) →
      ∀ place ∈ memberPlaces around members, motive place
  | [], _, place, hplace => by
    rw [memberPlaces] at hplace
    cases hplace
  | ⟨node, .classDecl decl, span⟩ :: rest, hmembers, place, hplace => by
    obtain ⟨hdecl, hrest⟩ := List.forall_mem_cons.mp hmembers
    rw [memberPlaces, MemberKind.classPlaces] at hplace
    rcases List.mem_append.mp hplace with hplace | hplace
    · exact decl.classPlaces_induction hmember around hdecl place hplace
    · exact memberPlaces_induction hmember around rest hrest place hplace
  | ⟨node, .field .., span⟩ :: rest, hmembers, place, hplace
  | ⟨node, .method _, span⟩ :: rest, hmembers, place, hplace
  | ⟨node, .initializer .., span⟩ :: rest, hmembers, place, hplace
  | ⟨node, .enumConstant .., span⟩ :: rest, hmembers, place, hplace => by
    rw [memberPlaces, MemberKind.classPlaces] at hplace
    · exact memberPlaces_induction hmember around rest hmembers place hplace
    · nofun

end

mutual

/-- The classes in a class come in the order of their declaration. -/
theorem ClassDecl.map_id_classPlaces_sublist (around : List ClassDecl) : ∀ decl : ClassDecl,
    ((decl.classPlaces around).map (·.decl.id)).Sublist decl.declaring
  | ⟨node, name, kind, modifiers, typeParams, superclass, interfaces, members, span⟩ => by
    rw [ClassDecl.classPlaces, ClassDecl.declaring, List.map_cons]
    exact (map_id_memberPlaces_sublist _ members).cons_cons node

theorem map_id_memberPlaces_sublist (around : List ClassDecl) : ∀ members : List Member,
    ((memberPlaces around members).map (·.decl.id)).Sublist (declaringMembers members)
  | [] => by
    rw [memberPlaces]
    exact List.nil_sublist _
  | ⟨node, .classDecl decl, span⟩ :: rest => by
    rw [memberPlaces, declaringMembers, MemberKind.classPlaces, MemberKind.declaring, List.map_append]
    exact (decl.map_id_classPlaces_sublist around).append (map_id_memberPlaces_sublist around rest)
  | ⟨node, .field .., span⟩ :: rest | ⟨node, .method _, span⟩ :: rest
  | ⟨node, .initializer .., span⟩ :: rest | ⟨node, .enumConstant .., span⟩ :: rest => by
    rw [memberPlaces, declaringMembers, MemberKind.classPlaces, List.nil_append]
    · exact List.sublist_append_of_sublist_right (map_id_memberPlaces_sublist around rest)
    · nofun

end

/-- The classes in a class are among those in any class around it. -/
theorem ClassDecl.classPlaces_subset {decl : ClassDecl} {around : List ClassDecl} {place : ClassPlace}
    (hplace : place ∈ decl.classPlaces around) :
    place.decl.classPlaces place.around ⊆ decl.classPlaces around := by
  refine decl.classPlaces_induction (motive := fun place =>
    place.decl.classPlaces place.around ⊆ decl.classPlaces around) (fun {place inner} hinner h => ?_)
      around (List.Subset.refl _) place hplace
  refine List.Subset.trans (fun other hother => ?_) h
  rw [classPlaces_eq, memberPlaces_eq]
  exact List.mem_cons_of_mem _ (List.mem_flatMap.mpr ⟨inner, hinner, hother⟩)

/-- The nodes that tell how a class is declared: those of its declarations, and that of the class around
it. -/
def ClassPlace.nodes (place : ClassPlace) : List NodeId :=
  (place.around.head?.map (·.id)).toList ++ place.decl.declaring

theorem declaring_subset_declaringMembers {members : List Member} {inner : ClassDecl}
    (h : inner ∈ memberClasses members) : inner.declaring ⊆ declaringMembers members := by
  induction members with
  | nil => cases h
  | cons member rest ih =>
      rw [declaringMembers_cons]
      obtain ⟨node, kind, span⟩ := member
      cases kind with
      | classDecl decl =>
          rcases List.mem_cons.mp h with rfl | h
          · rw [MemberKind.declaring]
            exact List.subset_append_left _ _
          · exact List.subset_append_of_subset_right _ (ih h)
      | _ => exact List.subset_append_of_subset_right _ (ih h)

/-- The node of a member class is among those that declare the class. -/
theorem ClassDecl.memberClass?_mem {decl inner : ClassDecl} {name : String}
    (h : decl.memberClass? name = some inner) : inner.id ∈ decl.declaring := by
  rw [declaring_eq]
  exact List.mem_cons_of_mem _
    (declaring_subset_declaringMembers (List.mem_of_find?_eq_some h) inner.id_mem_declaring)

theorem ClassDecl.nodes_subset {decl : ClassDecl} {around : List ClassDecl} {place : ClassPlace}
    (hplace : place ∈ decl.classPlaces around) : place.nodes ⊆ (⟨around, decl⟩ : ClassPlace).nodes := by
  refine decl.classPlaces_induction (motive := fun place =>
    place.nodes ⊆ (⟨around, decl⟩ : ClassPlace).nodes) (fun {place inner} hinner h => ?_) around
      (List.Subset.refl _) place hplace
  refine List.Subset.trans (fun node hnode => ?_) h
  refine List.mem_append_right _ ?_
  rcases List.mem_cons.mp hnode with rfl | hnode
  · exact place.decl.id_mem_declaring
  · rw [ClassDecl.declaring_eq]
    exact List.mem_cons_of_mem _ (declaring_subset_declaringMembers hinner hnode)

theorem nodes_subset_of_memberPlaces {outer : ClassDecl} {around : List ClassDecl}
    {members : List Member} {place : ClassPlace}
    (hplace : place ∈ memberPlaces (outer :: around) members) :
    place.nodes ⊆ outer.id :: declaringMembers members := by
  rw [memberPlaces_eq] at hplace
  obtain ⟨inner, hinner, hplace⟩ := List.mem_flatMap.mp hplace
  exact List.Subset.trans (ClassDecl.nodes_subset hplace)
    (List.cons_subset_cons _ (declaring_subset_declaringMembers hinner))

/-- The name of a class with the names of those around it and of the package. -/
def qualifiedNameIn (package : Option String) (name : String) : List ClassDecl → String
  | [] => Resolving.topLevelName package name
  | outer :: around => qualifiedNameIn package outer.name around ++ "." ++ name

namespace ClassPlace

/-- The qualified name of a class. -/
def qualifiedName (package : Option String) (place : ClassPlace) : String :=
  qualifiedNameIn package place.decl.name place.around

/-- The classes in which the clauses of a class are looked up, innermost first: those around it, or
the class itself if there are none. -/
def scopes (place : ClassPlace) : List ClassDecl :=
  if place.around.isEmpty then [place.decl] else place.around

/-- The types that a class is declared with as its supertypes. -/
def clauses (place : ClassPlace) : List String :=
  place.decl.superclass.toList ++ place.decl.interfaces

end ClassPlace

namespace CompilationUnit

/-- The classes of a unit, without the local and anonymous ones. -/
def classPlaces (unit : CompilationUnit) : List ClassPlace :=
  unit.types.flatMap (·.classPlaces [])

/-- The qualified names of the classes of a unit. -/
def classNames (unit : CompilationUnit) : List String :=
  unit.classPlaces.map (·.qualifiedName unit.package)

variable {unit : CompilationUnit} {place : ClassPlace}

/-- The member classes of a class of the unit are classes of the unit. -/
theorem member_mem (hplace : place ∈ unit.classPlaces) {inner : ClassDecl}
    (hinner : inner ∈ memberClasses place.decl.members) :
    ⟨place.decl :: place.around, inner⟩ ∈ unit.classPlaces := by
  obtain ⟨decl, hdecl, hplace⟩ := List.mem_flatMap.mp hplace
  refine List.mem_flatMap.mpr ⟨decl, hdecl, ClassDecl.classPlaces_subset hplace ?_⟩
  rw [ClassDecl.classPlaces_eq, memberPlaces_eq]
  exact List.mem_cons_of_mem _ (List.mem_flatMap.mpr ⟨inner, hinner, inner.mem_classPlaces _⟩)

theorem nodup_map_id_classPlaces (unit : CompilationUnit) (hnodup : unit.numbers.Nodup) :
    (unit.classPlaces.map (·.decl.id)).Nodup := by
  rw [classPlaces, List.map_flatMap]
  refine hnodup.sublist (List.Sublist.trans ?_ unit.declaring_sublist_numbers)
  exact List.Sublist.flatMap_right _ fun decl _ => decl.map_id_classPlaces_sublist []

/-- The class around a class of the unit is a class of the unit. -/
theorem outer_mem (hplace : place ∈ unit.classPlaces) {outer : ClassDecl} {rest : List ClassDecl}
    (haround : place.around = outer :: rest) : ⟨rest, outer⟩ ∈ unit.classPlaces := by
  obtain ⟨decl, hdecl, hmem⟩ := List.mem_flatMap.mp hplace
  have hplaces := decl.classPlaces_induction (motive := fun place => place ∈ unit.classPlaces ∧
    ∀ outer rest, place.around = outer :: rest → ⟨rest, outer⟩ ∈ unit.classPlaces)
      (fun {place inner} hinner h => ?_) [] ?_ place hmem
  · exact hplaces.2 outer rest haround
  · refine ⟨member_mem h.1 hinner, fun outer rest haround => ?_⟩
    obtain ⟨rfl, rfl⟩ := List.cons.inj haround
    exact h.1
  · exact ⟨List.mem_flatMap.mpr ⟨decl, hdecl, decl.mem_classPlaces []⟩, fun _ _ h => by cases h⟩

theorem exists_mem_of_mem_scopes (hplace : place ∈ unit.classPlaces) :
    ∀ decl ∈ place.scopes, ∃ around, ⟨around, decl⟩ ∈ unit.classPlaces := by
  obtain ⟨around, decl⟩ := place
  have haround : ∀ outer ∈ around, ∃ rest, ⟨rest, outer⟩ ∈ unit.classPlaces := by
    induction around generalizing decl with
    | nil => exact fun _ h => absurd h List.not_mem_nil
    | cons outer rest ih =>
        have houter := outer_mem hplace rfl
        exact List.forall_mem_cons.mpr ⟨⟨rest, houter⟩, ih outer houter⟩
  cases around with
  | nil => exact List.forall_mem_singleton.mpr ⟨[], hplace⟩
  | cons outer rest => exact haround

end CompilationUnit

/-! ### Names of classes -/

/-- A class to which a unit can refer, by the node that declares it or by its symbol in the library.
-/
inductive ClassRef where
  | declared (node : NodeId)
  | library (id : SymbolId)
deriving DecidableEq, Repr

/-- The symbol of a class. -/
def ClassRef.id? (use? : NodeId → Option SymbolId) : ClassRef → Option SymbolId
  | .declared node => use? node
  | .library id => some id

/-- What a class makes of a name by its own declaration: itself, or a member class of it. -/
def ClassDecl.within? (name : String) (decl : ClassDecl) : Option ClassDecl :=
  if decl.name == name then some decl else decl.memberClass? name

theorem CompilationUnit.exists_mem_of_within? {unit : CompilationUnit} {place : ClassPlace}
    (hplace : place ∈ unit.classPlaces) {name : String} {inner : ClassDecl}
    (h : place.decl.within? name = some inner) : ∃ around, ⟨around, inner⟩ ∈ unit.classPlaces := by
  rw [ClassDecl.within?] at h
  split at h
  · obtain rfl := Option.some.inj h
    exact ⟨place.around, hplace⟩
  · exact ⟨_, member_mem hplace (List.mem_of_find?_eq_some h)⟩

/-- Whether a name can be looked up in classes without regard to what they inherit: those before the
one that knows the name have no supertypes. -/
def isSeenPlainly (name : String) : List ClassDecl → Bool
  | [] => true
  | decl :: around => (decl.within? name).isSome ||
      (decl.superclass.isNone && decl.interfaces.isEmpty && isSeenPlainly name around)

namespace CompilationUnit

variable (unit : CompilationUnit)

/-- The class with a qualified name. -/
def qualifiedClass? (name : String) : Option ClassRef :=
  (((Program.startDraft unit).program.qualified.lookup name).map .library).or <|
    (unit.classPlaces.find? (·.qualifiedName unit.package == name)).map (.declared ·.decl.id)

/-- The class with a qualified name, from which the package may be left out. -/
def packageClass? (name : String) : Option ClassRef :=
  (unit.qualifiedClass? name).or <|
    unit.package.bind fun package => unit.qualifiedClass? (package ++ "." ++ name)

/-- The class that a simple name means in a supertype clause. -/
def simpleClass? (place : ClassPlace) (name : String) : Option ClassRef :=
  ((place.scopes.findSome? (·.within? name)).map (.declared ·.id)).or <|
    ((unit.types.find? (·.name == name)).map (.declared ·.id)).or <|
      (((Program.typeImports unit.imports).lookup name).bind unit.qualifiedClass?).or <|
        (((Program.startDraft unit).program.library.lookup name).map .library).or
          (unit.qualifiedClass? name)

/-- The class that a supertype clause names. -/
def namedClass? (place : ClassPlace) (type : String) : Option ClassRef :=
  (TypeName.base? type).bind fun name =>
    match Text.segments name with
    | _ :: _ :: _ => unit.packageClass? name
    | _ => unit.simpleClass? place name

/-- Whether a type is a qualified name of a class, or a simple name that is seen without regard to
what the classes around inherit. -/
def namesPlainly (place : ClassPlace) (type : String) : Bool :=
  (TypeName.base? type).all fun name =>
    match Text.segments name with
    | _ :: _ :: _ => (unit.packageClass? name).isSome
    | _ => isSeenPlainly name place.around

/-- Whether all supertypes of a class are named in this way. -/
def isPlain (place : ClassPlace) : Bool :=
  place.clauses.all (unit.namesPlainly place)

end CompilationUnit

/-! ### The order of the classes -/

/-- Two lookups one after the other are one, if what the first finds has a value for both. -/
theorem bind_or_bind {α β : Type} {first second : Option α} {f g : α → Option β}
    (h : ∀ a, first = some a → f a = g a ∧ (g a).isSome) :
    (first.bind f).or (second.bind g) = (first.or second).bind g := by
  cases first with
  | none => rfl
  | some a =>
      obtain ⟨heq, hsome⟩ := h a rfl
      obtain ⟨b, hb⟩ := Option.isSome_iff_exists.mp hsome
      rw [Option.bind_some, heq, hb, Option.some_or, Option.some_or, Option.bind_some, hb]

/-- What is found does not depend on the order if there is only one to be found. -/
theorem find?_eq_of_perm {α : Type} {first second : List α} (hperm : first.Perm second)
    {p : α → Bool} (hunique : ∀ a ∈ first, ∀ b ∈ first, p a → p b → a = b) :
    first.find? p = second.find? p := by
  cases hfirst : first.find? p with
  | none =>
      rw [List.find?_eq_none] at hfirst
      exact (List.find?_eq_none.mpr fun a ha => hfirst a (hperm.mem_iff.mpr ha)).symm
  | some a =>
      have ha := List.mem_of_find?_eq_some hfirst
      cases hsecond : second.find? p with
      | none =>
          exact absurd (List.find?_some hfirst)
            (List.find?_eq_none.mp hsecond a (hperm.mem_iff.mp ha))
      | some b =>
          have hb := hperm.mem_iff.mpr (List.mem_of_find?_eq_some hsecond)
          rw [hunique a ha b hb (List.find?_some hfirst) (List.find?_some hsecond)]

namespace CompilationUnit

variable {unit : CompilationUnit} {types : List ClassDecl} (hperm : unit.types.Perm types)
include hperm

theorem classPlaces_perm :
    unit.classPlaces.Perm { unit with types : CompilationUnit }.classPlaces :=
  hperm.flatMap_right _

variable (hnames : unit.classNames.Nodup)
include hnames

private theorem qualifiedClass?_perm (name : String) :
    { unit with types : CompilationUnit }.qualifiedClass? name = unit.qualifiedClass? name := by
  have hfind : unit.classPlaces.find? (·.qualifiedName unit.package == name) =
      { unit with types : CompilationUnit }.classPlaces.find?
        (·.qualifiedName unit.package == name) := by
    refine find?_eq_of_perm (classPlaces_perm hperm) fun first hfirst second hsecond h h' => ?_
    exact List.inj_on_of_nodup_map hnames hfirst hsecond
      ((beq_iff_eq.mp h).trans (beq_iff_eq.mp h').symm)
  rw [qualifiedClass?, qualifiedClass?, hfind]
  rfl

private theorem packageClass?_perm (name : String) :
    { unit with types : CompilationUnit }.packageClass? name = unit.packageClass? name := by
  simp only [packageClass?, qualifiedClass?_perm hperm hnames]

/-- Top-level classes have simple names of their own if they have qualified names of their own. -/
private theorem find?_types_perm (name : String) :
    unit.types.find? (·.name == name) = types.find? (·.name == name) := by
  have hplace {decl : ClassDecl} (hdecl : decl ∈ unit.types) : ⟨[], decl⟩ ∈ unit.classPlaces :=
    List.mem_flatMap.mpr ⟨decl, hdecl, decl.mem_classPlaces []⟩
  refine find?_eq_of_perm hperm fun first hfirst second hsecond h h' => ?_
  have hname : first.name = second.name := (beq_iff_eq.mp h).trans (beq_iff_eq.mp h').symm
  refine (ClassPlace.mk.inj (List.inj_on_of_nodup_map hnames (hplace hfirst) (hplace hsecond) ?_)).2
  rw [ClassPlace.qualifiedName, ClassPlace.qualifiedName, hname]

theorem namedClass?_perm (place : ClassPlace) (type : String) :
    { unit with types : CompilationUnit }.namedClass? place type = unit.namedClass? place type := by
  have hsimple (name : String) :
      { unit with types : CompilationUnit }.simpleClass? place name = unit.simpleClass? place name := by
    have hqualified : { unit with types : CompilationUnit }.qualifiedClass? = unit.qualifiedClass? :=
      funext (qualifiedClass?_perm hperm hnames)
    rw [simpleClass?, simpleClass?, find?_types_perm hperm hnames, hqualified]
    rfl
  simp only [namedClass?, hsimple, packageClass?_perm hperm hnames]

theorem isPlain_perm (place : ClassPlace) :
    { unit with types : CompilationUnit }.isPlain place = unit.isPlain place := by
  rw [isPlain, isPlain]
  refine congrArg (List.all _) (funext fun type => ?_)
  simp only [namesPlainly, packageClass?_perm hperm hnames]

end CompilationUnit

end LockDiscipline
