import LockDiscipline.Grammar.Program
import LockDiscipline.Proofs.Program.QualifiedNames
/-!
# What an import claims

An import of a single type is meant to claim its simple name wherever nothing nearer bears the name. It
does where the unit or the library has the imported class. Otherwise the lookup goes on behind the
imports, so that the name may mean a class of the library that only shares the simple name with the
imported one, or a class whose qualified name is the simple one. The claim is kept exactly where there are
no such classes.
-/

namespace LockDiscipline

/-- The simple name that an import of a single type claims. -/
def Import.simpleName (decl : Import) : String :=
  Text.lastSegment decl.path

/-- A unit imports a single type, and no other single type of the same simple name. -/
structure CompilationUnit.Claims (unit : CompilationUnit) (decl : Import) : Prop where
  mem : decl ∈ unit.imports
  isStatic_eq : decl.isStatic = false
  isWildcard_eq : decl.isWildcard = false
  unique : ∀ other ∈ unit.imports, other.isStatic = false → other.isWildcard = false →
    other.simpleName = decl.simpleName → other.path = decl.path

namespace Program

/-- No class around a class bears a name or has a member class of the name, and no top-level class bears
it. -/
structure Unclaimed (program : Program) (fromClass : SymbolId) (name : String) : Prop where
  enclosing : ∀ around ∈ program.enclosing fromClass,
    (program.symbol? around).map (·.name) ≠ some name
  member : ∀ around ∈ program.enclosing fromClass, program.memberClass? around name = none
  topLevel : program.topLevel.lookup name = none

/-- The import that claims a name is the one that is found under it. -/
theorem lookup_typeImports {unit : CompilationUnit} {decl : Import} (h : unit.Claims decl) :
    (typeImports unit.imports).lookup decl.simpleName = some decl.path := by
  have hsingle {other : Import} : other ∈ unit.imports.filter (fun decl =>
      !decl.isStatic && !decl.isWildcard) ↔
        other ∈ unit.imports ∧ other.isStatic = false ∧ other.isWildcard = false := by
    simp
  have hmem {path : String} : (decl.simpleName, path) ∈ typeImports unit.imports →
      path = decl.path := fun hentry => by
    obtain ⟨other, hother, heq⟩ := List.mem_map.mp (List.mem_reverse.mp hentry)
    obtain ⟨hname, rfl⟩ := Prod.mk.inj heq
    obtain ⟨hother, hstatic, hwildcard⟩ := hsingle.mp hother
    exact h.unique other hother hstatic hwildcard hname
  cases hlookup : (typeImports unit.imports).lookup decl.simpleName with
  | some path => rw [hmem (mem_of_lookup_eq_some hlookup)]
  | none =>
      have hentry : (decl.simpleName, decl.path) ∈ typeImports unit.imports :=
        List.mem_reverse.mpr (List.mem_map.mpr
          ⟨decl, hsingle.mpr ⟨h.mem, h.isStatic_eq, h.isWildcard_eq⟩, rfl⟩)
      have hne := List.lookup_eq_none_iff.mp hlookup _ hentry
      simp at hne

section

variable {unit : CompilationUnit} {decl : Import} {fromClass : SymbolId}
  (himport : unit.Claims decl) (hfree : (ofUnit unit).Unclaimed fromClass decl.simpleName)
include himport hfree

/-- What the name of an import means: the imported class, or else a class of the library, or else a class
with the simple name as its qualified one. -/
theorem findType?_of_claims : (ofUnit unit).findType? fromClass decl.simpleName =
    ((ofUnit unit).classNamed? decl.path).or
      (((ofUnit unit).library.lookup decl.simpleName).or
        ((ofUnit unit).classNamed? decl.simpleName)) := by
  have hwithin : ((ofUnit unit).enclosing fromClass).findSome?
      ((ofUnit unit).typeWithin? decl.simpleName) = none := by
    refine List.findSome?_eq_none_iff.mpr fun around haround => ?_
    have hany : ((ofUnit unit).symbol? around).any (·.name == decl.simpleName) = false := by
      have hname := hfree.enclosing around haround
      cases hsymbol : (ofUnit unit).symbol? around with
      | none => rfl
      | some symbol => simpa [hsymbol] using hname
    rw [typeWithin?, hany, if_neg Bool.false_ne_true, hfree.member around haround]
  have hsegment : Text.IsSegment decl.simpleName := Text.isSegment_lastSegment decl.path
  rw [findType?_of_isSegment hsegment, findSimpleType?, hwithin, hfree.topLevel, imports_ofUnit,
    lookup_typeImports himport, Option.none_or, Option.none_or, Option.bind_some, lookup_qualified_ofUnit,
    lookup_qualified_ofUnit]

/-- An import claims its simple name: the name means the imported class if there is one. If there is none,
the name means nothing exactly if the library has no class of the simple name and no class bears it as its
qualified name; otherwise it means another class. -/
theorem findType?_import :
    ((∃ id, (ofUnit unit).qualifiedName? id = some decl.path) →
      ∃ id, (ofUnit unit).findType? fromClass decl.simpleName = some id ∧
        (ofUnit unit).qualifiedName? id = some decl.path) ∧
    ((∀ id, (ofUnit unit).findType? fromClass decl.simpleName = some id →
        (ofUnit unit).qualifiedName? id = some decl.path) ↔
      (∃ id, (ofUnit unit).qualifiedName? id = some decl.path) ∨
        (∀ known ∈ Library.classes, Text.lastSegment known.name ≠ decl.simpleName) ∧
          ∀ id, (ofUnit unit).qualifiedName? id ≠ some decl.simpleName) := by
  have hfound := findType?_of_claims himport hfree
  cases hclass : (ofUnit unit).classNamed? decl.path with
  | some id =>
      have hname := qualifiedName?_of_classNamed? hclass
      rw [hclass, Option.some_or] at hfound
      refine ⟨fun _ => ⟨id, hfound, hname⟩, iff_of_true (fun other hother => ?_) (.inl ⟨id, hname⟩)⟩
      obtain rfl := Option.some.inj (hfound.symm.trans hother)
      exact hname
  | none =>
      have hnone : ¬∃ id, (ofUnit unit).qualifiedName? id = some decl.path := by
        rw [← isSome_classNamed?, hclass]
        exact Bool.false_ne_true
      rw [hclass, Option.none_or] at hfound
      refine ⟨fun h => absurd h hnone, ?_⟩
      -- Whatever is found is another class, so nothing may be found.
      have hclaim : (∀ id, (ofUnit unit).findType? fromClass decl.simpleName = some id →
          (ofUnit unit).qualifiedName? id = some decl.path) ↔
            (ofUnit unit).findType? fromClass decl.simpleName = none := by
        refine ⟨fun h => Option.eq_none_iff_forall_ne_some.mpr fun id hid => hnone ⟨id, h id hid⟩,
          fun h id hid => ?_⟩
        rw [h] at hid
        cases hid
      rw [hclaim, hfound, Option.or_eq_none_iff, or_iff_right hnone]
      refine and_congr ⟨fun h known hknown heq => ?_, fun h => ?_⟩ ⟨fun h id hid => ?_, fun h => ?_⟩
      · have hsome := isSome_lookup_library unit hknown
        rw [heq, h] at hsome
        cases hsome
      · refine Option.eq_none_iff_forall_ne_some.mpr fun id hid => ?_
        obtain ⟨known, hknown, hname, -⟩ := exists_of_lookup_library unit hid
        exact h known hknown hname
      · have hsome := isSome_classNamed?.mpr ⟨id, hid⟩
        rw [h] at hsome
        cases hsome
      · exact Option.eq_none_iff_forall_ne_some.mpr fun id hid => h id (qualifiedName?_of_classNamed? hid)

end

/-- A class, with the number 24 behind the library, in a unit that imports a type which there is not. -/
def missingImportUnit : CompilationUnit :=
  (ParsedUnit.ofSource "import com.foo.Lock; class A \x7b \x7d".toList).unit

/-- The import of a type that shares its simple name with a class of the library. -/
def missingImport : Import :=
  ⟨"com.foo.Lock", false, false, ⟨0, 20⟩⟩

/-- The import is the only one of the unit, and nothing in the class bears its simple name, which means the
class of the library with the number 1. -/
private theorem missingImport_names : missingImportUnit.imports = [missingImport] ∧
    (∀ around ∈ (ofUnit missingImportUnit).enclosing 24,
      ((ofUnit missingImportUnit).symbol? around).map (·.name) ≠ some missingImport.simpleName) ∧
    (∀ around ∈ (ofUnit missingImportUnit).enclosing 24,
      (ofUnit missingImportUnit).memberClass? around missingImport.simpleName = none) ∧
    (ofUnit missingImportUnit).topLevel.lookup missingImport.simpleName = none ∧
    (ofUnit missingImportUnit).findType? 24 missingImport.simpleName = some 1 ∧
    (ofUnit missingImportUnit).qualifiedName? 1 = some Library.lockName := by
  decide +kernel

private theorem claims_missingImport : missingImportUnit.Claims missingImport := by
  obtain ⟨himports, -⟩ := missingImport_names
  refine ⟨by rw [himports]; exact List.mem_singleton_self _, rfl, rfl, fun other hother _ _ _ => ?_⟩
  rw [himports] at hother
  rw [List.mem_singleton.mp hother]

private theorem unclaimed_missingImport :
    (ofUnit missingImportUnit).Unclaimed 24 missingImport.simpleName := by
  obtain ⟨-, henclosing, hmember, htopLevel, -⟩ := missingImport_names
  exact ⟨henclosing, hmember, htopLevel⟩

theorem findType?_import_missingImport :
    missingImportUnit.Claims missingImport ∧
      (ofUnit missingImportUnit).Unclaimed 24 missingImport.simpleName ∧
      ((∀ id, (ofUnit missingImportUnit).findType? 24 "Lock" = some id →
          (ofUnit missingImportUnit).qualifiedName? id = some "com.foo.Lock") ↔
        (∃ id, (ofUnit missingImportUnit).qualifiedName? id = some "com.foo.Lock") ∨
          (∀ known ∈ Library.classes, Text.lastSegment known.name ≠ "Lock") ∧
            ∀ id, (ofUnit missingImportUnit).qualifiedName? id ≠ some "Lock") := by
  have hname : missingImport.simpleName = "Lock" := by decide
  have himport := findType?_import claims_missingImport unclaimed_missingImport
  rw [hname] at himport
  exact ⟨claims_missingImport, unclaimed_missingImport, himport.2⟩

/-- The name of an imported type can mean a class of the library that is in another package. -/
theorem exists_findType?_import_ne :
    missingImportUnit.Claims missingImport ∧
      (ofUnit missingImportUnit).Unclaimed 24 missingImport.simpleName ∧
      ∃ id, (ofUnit missingImportUnit).findType? 24 missingImport.simpleName = some id ∧
        (ofUnit missingImportUnit).qualifiedName? id = some Library.lockName ∧
          Library.lockName ≠ missingImport.path := by
  obtain ⟨-, -, -, -, hfound, hname⟩ := missingImport_names
  exact ⟨claims_missingImport, unclaimed_missingImport, 1, hfound, hname, by decide⟩

end Program
end LockDiscipline
