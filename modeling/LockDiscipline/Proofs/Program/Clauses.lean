import LockDiscipline.Proofs.Program.Linking
import LockDiscipline.Proofs.Program.Supertypes
/-!
# What clauses name in a tabled program

A program with the tables of a unit finds what the declarations of the unit tell, wherever no
supertypes come into play: in classes without any, and in a class that declares the name itself.
-/

namespace LockDiscipline

/-! ### Classes that a unit knows -/

namespace CompilationUnit

/-- A class to which a unit can refer is one of its own or one of the library. -/
inductive Knows (unit : CompilationUnit) : ClassRef → Prop where
  | declared {place : ClassPlace} (hplace : place ∈ unit.classPlaces) :
      Knows unit (.declared place.decl.id)
  | library {id : SymbolId} (hid : id < (Program.startDraft unit).program.symbols.size) :
      Knows unit (.library id)

variable {unit : CompilationUnit} {place : ClassPlace} {name : String} {ref : ClassRef}

theorem knows_of_library (h : ((Program.startDraft unit).program.library.lookup name).map .library =
    some ref) : unit.Knows ref := by
  have hstart : (Program.startDraft unit).program.WellFormed := .library _ _
  obtain ⟨id, hid, rfl⟩ := Option.map_eq_some_iff.mp h
  exact .library (hstart.library_class _ (Program.mem_of_lookup_eq_some hid)).lt_size

theorem knows_qualifiedClass? (h : unit.qualifiedClass? name = some ref) : unit.Knows ref := by
  have hstart : (Program.startDraft unit).program.WellFormed := .library _ _
  rw [qualifiedClass?, Option.or_eq_some_iff] at h
  rcases h with h | ⟨-, h⟩
  · obtain ⟨id, hid, rfl⟩ := Option.map_eq_some_iff.mp h
    exact .library (hstart.qualified_class _ (Program.mem_of_lookup_eq_some hid)).lt_size
  · obtain ⟨place, hplace, rfl⟩ := Option.map_eq_some_iff.mp h
    exact .declared (List.mem_of_find?_eq_some hplace)

theorem knows_packageClass? (h : unit.packageClass? name = some ref) : unit.Knows ref := by
  rw [packageClass?, Option.or_eq_some_iff] at h
  rcases h with h | ⟨-, h⟩
  · exact knows_qualifiedClass? h
  · obtain ⟨package, -, h⟩ := Option.bind_eq_some_iff.mp h
    exact knows_qualifiedClass? h

theorem knows_of_import (h : ((Program.typeImports unit.imports).lookup name).bind
    unit.qualifiedClass? = some ref) : unit.Knows ref := by
  obtain ⟨full, -, hfull⟩ := Option.bind_eq_some_iff.mp h
  exact knows_qualifiedClass? hfull

theorem knows_of_types (h : (unit.types.find? (·.name == name)).map (.declared ·.id) = some ref) :
    unit.Knows ref := by
  obtain ⟨decl, hdecl, rfl⟩ := Option.map_eq_some_iff.mp h
  have hplace : ⟨[], decl⟩ ∈ unit.classPlaces :=
    List.mem_flatMap.mpr ⟨decl, List.mem_of_find?_eq_some hdecl, decl.mem_classPlaces []⟩
  exact .declared hplace

theorem knows_of_scopes (hplace : place ∈ unit.classPlaces)
    (h : (place.scopes.findSome? (·.within? name)).map (.declared ·.id) = some ref) :
    unit.Knows ref := by
  obtain ⟨inner, hinner, rfl⟩ := Option.map_eq_some_iff.mp h
  obtain ⟨decl, hdecl, hwithin⟩ := List.exists_of_findSome?_eq_some hinner
  obtain ⟨around, hscope⟩ := exists_mem_of_mem_scopes hplace decl hdecl
  obtain ⟨around', hmem⟩ := exists_mem_of_within? hscope hwithin
  exact .declared hmem

theorem knows_namedClass? (hplace : place ∈ unit.classPlaces) {type : String}
    (h : unit.namedClass? place type = some ref) : unit.Knows ref := by
  obtain ⟨name, -, h⟩ := Option.bind_eq_some_iff.mp h
  split at h
  · exact knows_packageClass? h
  · simp only [simpleClass?, Option.or_eq_some_iff] at h
    rcases h with h | ⟨-, h | ⟨-, h | ⟨-, h | ⟨-, h⟩⟩⟩⟩
    · exact knows_of_scopes hplace h
    · exact knows_of_types h
    · exact knows_of_import h
    · exact knows_of_library h
    · exact knows_qualifiedClass? h

end CompilationUnit

namespace Program

variable {program : Program}

/-! ### Tabled programs -/

namespace Tabled

variable {unit : CompilationUnit} (h : program.Tabled unit) {place : ClassPlace}
  (hplace : place ∈ unit.classPlaces)
include h hplace

theorem isSome_use? : (program.use? place.decl.id).isSome :=
  (h.lays place hplace).isSome_use?

variable {id : SymbolId} (huse : program.use? place.decl.id = some id)
include huse

theorem exists_lays : ∃ symbol info, program.Lays place id symbol info := by
  obtain ⟨id', symbol, info, -, hlays⟩ := h.lays place hplace
  obtain rfl := Option.some.inj (hlays.use_eq.symm.trans huse)
  exact ⟨symbol, info, hlays⟩

theorem outerClass?_eq : program.outerClass? id =
    place.around.head?.bind fun outer => program.use? outer.id := by
  obtain ⟨symbol, info, hlays⟩ := h.exists_lays hplace huse
  rw [outerClass?, classInfo?, hlays.symbol_eq, Option.bind_some, hlays.info_eq, Option.bind_some,
    hlays.outer_eq]

theorem lookup_classes (name : String) : (program.members id).classes.lookup name =
    (place.decl.memberClass? name).bind fun inner => program.use? inner.id := by
  obtain ⟨symbol, info, hlays⟩ := h.exists_lays hplace huse
  rw [members, classInfo?, hlays.symbol_eq, Option.bind_some, hlays.info_eq]
  exact hlays.classes_eq name

theorem any_name (name : String) :
    (program.symbol? id).any (·.name == name) = (place.decl.name == name) := by
  obtain ⟨symbol, info, hlays⟩ := h.exists_lays hplace huse
  rw [hlays.symbol_eq, Option.any_some, hlays.name_eq]

/-- What a class declares is found in it, whatever it inherits. -/
theorem typeWithin?_of_some {name : String} {inner : ClassDecl}
    (hinner : place.decl.within? name = some inner) :
    program.typeWithin? name id = program.use? inner.id ∧ (program.use? inner.id).isSome := by
  obtain ⟨around, hmem⟩ := CompilationUnit.exists_mem_of_within? hplace hinner
  have hsome := h.isSome_use? hmem
  refine ⟨?_, hsome⟩
  rw [ClassDecl.within?] at hinner
  rw [typeWithin?, h.any_name hplace huse]
  split at hinner
  case isTrue hname =>
    obtain rfl := Option.some.inj hinner
    rw [if_pos hname, huse]
  case isFalse hname =>
    obtain ⟨more, hancestors⟩ := exists_ancestors_eq program id
    obtain ⟨found, hfound⟩ := Option.isSome_iff_exists.mp hsome
    rw [if_neg hname, memberClass?, hancestors, List.findSome?_cons, h.lookup_classes hplace huse,
      hinner, Option.bind_some, hfound]

/-- In a class without supertypes nothing is found that it does not declare. -/
theorem typeWithin?_of_none {name : String} (hinner : place.decl.within? name = none)
    (hbare : program.supertypes id = []) : program.typeWithin? name id = none := by
  rw [ClassDecl.within?] at hinner
  rw [typeWithin?, h.any_name hplace huse]
  split at hinner
  case isTrue => cases hinner
  case isFalse hname =>
    rw [if_neg hname, memberClass?, ancestors_eq_of_supertypes_eq_nil hbare, List.findSome?_cons,
      h.lookup_classes hplace huse, hinner]
    rfl

end Tabled

/-- The classes that a unit declares without supertypes have none. -/
def LeavesBare (unit : CompilationUnit) (program : Program) : Prop :=
  ∀ place ∈ unit.classPlaces, place.clauses = [] →
    ∀ id, program.use? place.decl.id = some id → program.supertypes id = []

namespace Tabled

variable {unit : CompilationUnit} (h : program.Tabled unit) (hbare : program.LeavesBare unit)
include h hbare

/-! ### Simple names -/

omit h in
private theorem isPlain_outer {name : String} {outer : ClassDecl} {around : List ClassDecl}
    {id : SymbolId} (hplace : ⟨around, outer⟩ ∈ unit.classPlaces)
    (huse : program.use? outer.id = some id) (hplain : isSeenPlainly name (outer :: around)) :
    (outer.within? name).isSome ∨ program.supertypes id = [] ∧ isSeenPlainly name around := by
  rw [isSeenPlainly, Bool.or_eq_true, Bool.and_eq_true, Bool.and_eq_true] at hplain
  refine hplain.imp_right fun ⟨⟨hsuperclass, hinterfaces⟩, hrest⟩ => ⟨?_, hrest⟩
  refine hbare _ hplace ?_ id huse
  rw [ClassPlace.clauses, Option.isNone_iff_eq_none.mp hsuperclass, List.isEmpty_iff.mp hinterfaces]
  rfl

/-- A name is looked up in a class and then in those around it, where none before the one that knows
it has supertypes. -/
private theorem findSome?_enclosingUpTo {name : String} (steps : Nat) {around : List ClassDecl}
    {decl : ClassDecl} {id : SymbolId} (hplace : ⟨around, decl⟩ ∈ unit.classPlaces)
    (huse : program.use? decl.id = some id) (hsteps : id < steps)
    (hplain : (decl.within? name).isSome ∨
      program.supertypes id = [] ∧ isSeenPlainly name around) :
    (program.enclosingUpTo steps id).findSome? (program.typeWithin? name) =
      ((decl :: around).findSome? (·.within? name)).bind fun inner => program.use? inner.id := by
  induction steps generalizing around decl id with
  | zero => exact absurd hsteps (Nat.not_lt_zero id)
  | succ steps ih =>
      rw [enclosingUpTo, List.findSome?_cons, List.findSome?_cons]
      cases hinner : decl.within? name with
      | some inner =>
          obtain ⟨heq, hsome⟩ := h.typeWithin?_of_some hplace huse hinner
          obtain ⟨found, hfound⟩ := Option.isSome_iff_exists.mp hsome
          rw [heq, hfound]
          exact hfound.symm
      | none =>
          rw [hinner] at hplain
          obtain ⟨hsupertypes, hrest⟩ := hplain.resolve_left Bool.false_ne_true
          rw [h.typeWithin?_of_none hplace huse hinner hsupertypes, h.outerClass?_eq hplace huse]
          cases around with
          | nil => rfl
          | cons outer around =>
              have houter := CompilationUnit.outer_mem hplace rfl
              obtain ⟨outerId, huse'⟩ := Option.isSome_iff_exists.mp (h.isSome_use? houter)
              have hlt := h.wellFormed.outer_lt id ((h.outerClass?_eq hplace huse).trans huse')
              dsimp only [List.head?_cons, Option.bind_some]
              rw [huse']
              exact ih houter huse' (Nat.lt_of_lt_of_le hlt (Nat.lt_succ_iff.mp hsteps))
                (isPlain_outer hbare houter huse' hrest)

/-! ### Qualified names -/

omit hbare in
theorem isSome_id? {ref : ClassRef} (href : unit.Knows ref) : (ref.id? program.use?).isSome := by
  cases href with
  | declared hplace => exact h.isSome_use? hplace
  | library => rfl

omit hbare in
theorem lookup_qualified (name : String) : program.qualified.lookup name =
    (unit.qualifiedClass? name).bind (·.id? program.use?) := by
  rw [h.qualified, CompilationUnit.qualifiedClass?, Resolving.namedAmong]
  cases (startDraft unit).program.qualified.lookup name with
  | some id => rfl
  | none => cases unit.classPlaces.find? (·.qualifiedName unit.package == name) <;> rfl

omit hbare in
theorem findQualified?_eq (name : String) : program.findQualified? name =
    (unit.packageClass? name).bind (·.id? program.use?) := by
  rw [findQualified?, CompilationUnit.packageClass?, h.lookup_qualified, h.package,
    ← bind_or_bind fun ref href => ⟨rfl, h.isSome_id? (CompilationUnit.knows_qualifiedClass? href)⟩]
  refine congrArg _ ?_
  cases unit.package with
  | none => rfl
  | some package => exact h.lookup_qualified _

/-! ### Clauses -/

omit hbare in
private theorem or_eq_bind_or {first second : Option ClassRef} {a b : Option SymbolId}
    (hfirst : a = first.bind (·.id? program.use?)) (hknows : ∀ ref, first = some ref → unit.Knows ref)
    (hsecond : b = second.bind (·.id? program.use?)) :
    a.or b = (first.or second).bind (·.id? program.use?) := by
  rw [hfirst, hsecond]
  exact bind_or_bind fun ref href => ⟨rfl, h.isSome_id? (hknows ref href)⟩

theorem findSimpleType?_eq {place : ClassPlace} (hplace : place ∈ unit.classPlaces) {id : SymbolId}
    (huse : program.use? place.decl.id = some id)
    (hself : place.around = [] → program.supertypes id = []) {name : String}
    (hplain : isSeenPlainly name place.around) :
    program.findSimpleType? ((program.outerClass? id).getD id) name =
      (unit.simpleClass? place name).bind (·.id? program.use?) := by
  have hlt {around : List ClassDecl} {decl : ClassDecl} {id : SymbolId}
      (hplace : ⟨around, decl⟩ ∈ unit.classPlaces) (huse : program.use? decl.id = some id) :
      id < program.symbols.size + 1 := Nat.lt_succ_of_lt (h.usesOnce.lt_size huse)
  have hscopes : (program.enclosing ((program.outerClass? id).getD id)).findSome?
      (program.typeWithin? name) =
        (place.scopes.findSome? (·.within? name)).bind fun inner => program.use? inner.id := by
    obtain ⟨around, decl⟩ := place
    rw [h.outerClass?_eq hplace huse]
    cases around with
    | nil => exact h.findSome?_enclosingUpTo hbare _ hplace huse (hlt hplace huse) (.inr ⟨hself rfl, rfl⟩)
    | cons outer around =>
        have houter := CompilationUnit.outer_mem hplace rfl
        obtain ⟨outerId, huse'⟩ := Option.isSome_iff_exists.mp (h.isSome_use? houter)
        dsimp only [List.head?_cons, Option.bind_some]
        rw [huse']
        exact h.findSome?_enclosingUpTo hbare _ houter huse' (hlt houter huse')
          (isPlain_outer hbare houter huse' hplain)
  rw [findSimpleType?, CompilationUnit.simpleClass?, hscopes]
  refine h.or_eq_bind_or ?_ (fun _ => CompilationUnit.knows_of_scopes hplace) <|
    h.or_eq_bind_or ?_ (fun _ => CompilationUnit.knows_of_types) <|
      h.or_eq_bind_or ?_ (fun _ => CompilationUnit.knows_of_import) <|
        h.or_eq_bind_or ?_ (fun _ => CompilationUnit.knows_of_library) (h.lookup_qualified name)
  · cases place.scopes.findSome? (·.within? name) <;> rfl
  · rw [h.topLevel]
    cases unit.types.find? (·.name == name) <;> rfl
  · rw [h.imports]
    cases (typeImports unit.imports).lookup name with
    | none => rfl
    | some full => exact h.lookup_qualified full
  · rw [h.library]
    cases (startDraft unit).program.library.lookup name <;> rfl

theorem clause?_eq {place : ClassPlace} (hplace : place ∈ unit.classPlaces) {id : SymbolId}
    (huse : program.use? place.decl.id = some id)
    (hself : place.around = [] → program.supertypes id = []) {type : String}
    (hplain : unit.namesPlainly place type) :
    program.clause? id type = (unit.namedClass? place type).bind (·.id? program.use?) := by
  rw [clause?, CompilationUnit.namedClass?]
  rw [CompilationUnit.namesPlainly] at hplain
  cases hbase : TypeName.base? type with
  | none => rfl
  | some name =>
      rw [hbase] at hplain
      rw [Option.bind_some, Option.bind_some, findType?]
      rcases hsegments : Text.segments name with - | ⟨head, - | ⟨next, rest⟩⟩ <;>
        simp only [Option.all_some, hsegments] at hplain
      · exact h.findSimpleType?_eq hbare hplace huse hself hplain
      · exact h.findSimpleType?_eq hbare hplace huse hself hplain
      · obtain ⟨ref, href⟩ := Option.isSome_iff_exists.mp hplain
        obtain ⟨found, hfound⟩ := Option.isSome_iff_exists.mp
          (h.isSome_id? (CompilationUnit.knows_packageClass? href))
        dsimp only
        rw [h.findQualified?_eq, href, Option.bind_some, hfound, Option.some_or]

end Tabled

end Program

end LockDiscipline
