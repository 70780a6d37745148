import LockDiscipline.Proofs.Grammar.Heads
import LockDiscipline.Proofs.Program.Around
import LockDiscipline.Proofs.Program.QualifiedNames
import LockDiscipline.Proofs.Text.Dotted
/-!
# Names that lead to no class

A name may belong to no class, and neither may any dotted name that begins with it. `Program.NamesNoType` says so by
the tables in which the classes of a program are entered. The tables only ever grow, so that what leads to no class
in the end has led to none before. Where a variable has such a name, a dotted name that begins with the variable is
not mistaken for the name of a class.
-/

namespace LockDiscipline

theorem Lexer.IsWord.isSegment {name : String} (h : IsWord name.toList) : Text.IsSegment name :=
  fun hmem => absurd (h.isWordPart _ hmem) (by decide)

namespace Program

/-- No class is found by a name, nor by a dotted name that begins with it. -/
@[mk_iff]
structure NamesNoType (program : Program) (name : String) : Prop where
  isWord : Lexer.IsWord name.toList
  classes : ∀ symbol ∈ program.symbols, ∀ info ∈ symbol.classInfo?,
    symbol.name ≠ name ∧ ∀ entry ∈ info.members.classes, entry.1 ≠ name
  topLevel : ∀ entry ∈ program.topLevel, entry.1 ≠ name
  library : ∀ entry ∈ program.library, entry.1 ≠ name
  imports : ∀ entry ∈ program.imports, entry.1 = name → ∀ known ∈ program.qualified, known.1 ≠ entry.2
  qualified : ∀ entry ∈ program.qualified, entry.1 ≠ name ∧ ¬(name ++ ".").toList <+: entry.1.toList
  package : ∀ package ∈ program.package, ∀ entry ∈ program.qualified,
    ¬(package ++ "." ++ name ++ ".").toList <+: entry.1.toList

instance (program : Program) (name : String) : Decidable (program.NamesNoType name) :=
  decidable_of_iff _ (program.namesNoType_iff name).symm

variable {program later latest : Program} {name : String}

private theorem lookup_eq_none {β : Type} {entries : List (String × β)} (h : ∀ entry ∈ entries, entry.1 ≠ name) :
    entries.lookup name = none :=
  List.lookup_eq_none_iff.mpr fun entry hentry => bne_iff_ne.mpr (h entry hentry).symm

/-! ### Looking up -/

namespace NamesNoType

theorem member_ne (h : program.NamesNoType name) (id : SymbolId) :
    ∀ entry ∈ (program.members id).classes, entry.1 ≠ name := by
  cases hinfo : program.classInfo? id with
  | none =>
      rw [members_eq_default hinfo]
      exact fun _ hentry => absurd hentry List.not_mem_nil
  | some info =>
      obtain ⟨symbol, hsymbol, hinfo'⟩ := Option.bind_eq_some_iff.mp hinfo
      rw [members_eq_of_classInfo? hinfo]
      exact (h.classes symbol (Array.mem_of_getElem? hsymbol) info hinfo').2

theorem memberClass?_eq_none (h : program.NamesNoType name) (id : SymbolId) : program.memberClass? id name = none :=
  List.findSome?_eq_none_iff.mpr fun ancestor _ => lookup_eq_none (h.member_ne ancestor)

theorem typeWithin?_eq_none (h : program.NamesNoType name) {type : SymbolId} (htype : program.IsClass type) :
    program.typeWithin? name type = none := by
  obtain ⟨info, hinfo⟩ := htype
  obtain ⟨symbol, hsymbol, hinfo⟩ := Option.bind_eq_some_iff.mp hinfo
  have hname := (h.classes symbol (Array.mem_of_getElem? hsymbol) info hinfo).1
  rw [typeWithin?, hsymbol, Option.any_some, beq_false_of_ne hname, if_neg Bool.false_ne_true,
    h.memberClass?_eq_none]

theorem findSimpleType?_eq_none (h : program.NamesNoType name) (hclasses : program.InClasses) {type : SymbolId}
    (htype : program.IsClass type) : program.findSimpleType? type name = none := by
  have haround : (program.enclosing type).findSome? (program.typeWithin? name) = none :=
    List.findSome?_eq_none_iff.mpr fun around hmem =>
      h.typeWithin?_eq_none (hclasses.isClass_of_mem_enclosing htype hmem)
  have himport : (program.imports.lookup name).bind (program.qualified.lookup ·) = none := by
    rw [Option.bind_eq_none_iff]
    intro full hfull
    exact lookup_eq_none (h.imports _ (mem_of_lookup_eq_some hfull) rfl)
  rw [findSimpleType?, haround, lookup_eq_none h.topLevel, himport, lookup_eq_none h.library,
    lookup_eq_none fun entry hentry => (h.qualified entry hentry).1]
  rfl

theorem findQualified?_eq_none (h : program.NamesNoType name) (rest : String) :
    program.findQualified? (name ++ "." ++ rest) = none := by
  have hprefix (head : String) : (head ++ ".").toList <+: (head ++ "." ++ rest).toList := by
    have htext : (head ++ "." ++ rest).toList = (head ++ ".").toList ++ rest.toList := String.toList_append
    exact htext ▸ List.prefix_append _ _
  rw [findQualified?, lookup_eq_none fun entry hentry heq => (h.qualified entry hentry).2 (heq ▸ hprefix name),
    Option.none_or, Option.bind_eq_none_iff]
  intro package hpackage
  refine lookup_eq_none fun entry hentry heq => h.package package hpackage entry hentry ?_
  rw [heq, ← String.append_assoc, ← String.append_assoc]
  exact hprefix (package ++ "." ++ name)

/-- From inside a class no type is found by a dotted name that begins with the name. -/
theorem findType?_eq_none (h : program.NamesNoType name) (hclasses : program.InClasses) {type : SymbolId}
    (htype : program.IsClass type) (rest : String) : program.findType? type (name ++ "." ++ rest) = none := by
  rw [findType?, Text.segments_append h.isWord.isSegment]
  cases hrest : Text.segments rest with
  | nil => exact absurd hrest (Text.segments_ne_nil rest)
  | cons next more =>
      dsimp only
      rw [h.findQualified?_eq_none, h.findSimpleType?_eq_none hclasses htype]
      rfl

/-- A declared type that begins with the name before a dot is no class. -/
theorem base?_bind_findType? (h : program.NamesNoType name) (hclasses : program.InClasses) {type : SymbolId}
    (htype : program.IsClass type) (rest : String) :
    (TypeName.base? (name ++ "." ++ rest)).bind (program.findType? type) = none := by
  rw [Option.bind_eq_none_iff]
  intro base hbase
  obtain ⟨rest', rfl⟩ : ∃ rest', base = name ++ "." ++ rest' := by
    have hword : ∀ c ∈ name.toList, decide (c ≠ '<') = true := fun c hc =>
      decide_eq_true fun heq => h.isWord.angle_not_mem (heq ▸ hc)
    have htext : (name ++ "." ++ rest).toList.takeWhile (· ≠ '<') =
        name.toList ++ '.' :: rest.toList.takeWhile (· ≠ '<') := by
      rw [String.toList_append, String.toList_append, List.append_assoc, List.takeWhile_append_of_pos hword]
      rfl
    rw [TypeName.base?, htext] at hbase
    dsimp only at hbase
    split at hbase
    · cases hbase
    · split at hbase
      · cases hbase
      · refine ⟨String.ofList (rest.toList.takeWhile (· ≠ '<')), ?_⟩
        rw [← Option.some.inj hbase, ← String.toList_inj]
        simp
  exact h.findType?_eq_none hclasses htype rest'

end NamesNoType

/-! ### Tables that grow -/

/-- No class is taken from the tables of top-level classes and of member classes. -/
structure KeepsClasses (program later : Program) : Prop where
  topLevel : program.topLevel ⊆ later.topLevel
  members : ∀ owner info, program.classInfo? owner = some info →
    info.members.classes ⊆ (later.members owner).classes

namespace KeepsClasses

theorem of_members_eq (htop : later.topLevel = program.topLevel)
    (hmembers : ∀ owner info, program.classInfo? owner = some info →
      (later.members owner).classes = info.members.classes) : program.KeepsClasses later :=
  ⟨htop ▸ List.Subset.refl _, fun owner info hinfo => hmembers owner info hinfo ▸ List.Subset.refl _⟩

theorem refl (program : Program) : program.KeepsClasses program :=
  of_members_eq rfl fun _ _ hinfo => by rw [members_eq_of_classInfo? hinfo]

theorem trans (hfirst : program.KeepsClasses later) (hsecond : later.KeepsClasses latest)
    (hclass : ∀ owner, program.IsClass owner → later.IsClass owner) : program.KeepsClasses latest where
  topLevel := List.Subset.trans hfirst.topLevel hsecond.topLevel
  members owner info hinfo := by
    obtain ⟨info', hinfo'⟩ := hclass owner ⟨info, hinfo⟩
    have hmembers := hfirst.members owner info hinfo
    rw [members_eq_of_classInfo? hinfo'] at hmembers
    exact List.Subset.trans hmembers (hsecond.members owner info' hinfo')

theorem declare (program : Program) (name : String) (kind : SymbolKind) (type guard : Option String) (span : Span) :
    program.KeepsClasses (program.declare name kind type guard span).2 :=
  of_members_eq rfl fun owner info hinfo => by
    rw [members_declare (lt_size_of_classInfo?_eq_some hinfo), members_eq_of_classInfo? hinfo]

theorem updateClass (program : Program) (owner : SymbolId) {change : ClassInfo → ClassInfo}
    (hchange : ∀ info, program.classInfo? owner = some info →
      info.members.classes ⊆ (change info).members.classes) :
    program.KeepsClasses (program.updateClass owner change) := by
  refine ⟨List.Subset.refl _, fun id info hinfo => ?_⟩
  have hlater := program.classInfo?_updateClass owner change id
  rw [hinfo, Option.map_some] at hlater
  rw [members_eq_of_classInfo? hlater]
  split
  case isTrue heq => exact hchange info (heq ▸ hinfo)
  case isFalse => exact List.Subset.refl _

end KeepsClasses

theorem Change.keepsClasses {classes : Prop} (h : program.Change classes later) : program.KeepsClasses later := by
  cases h with
  | use | problem => exact { KeepsClasses.refl program with }
  | «variable» | field => exact .declare ..
  | method name owner isStatic isSynchronized arity type guard span =>
      refine (KeepsClasses.declare program name _ type guard span).trans (.updateClass _ _ fun _ _ => ?_)
        fun _ howner => howner.declare ..
      exact List.Subset.refl _
  | classType name info span => exact { KeepsClasses.declare program name (.classType info) none none span with }
  | table owner change _ _ _ hkept => exact .updateClass _ _ fun info hinfo => (hkept info hinfo).subset
  | supertypes => exact .updateClass _ _ fun _ _ => List.Subset.refl _
  | topLevel topLevel _ _ hkept => exact { KeepsClasses.refl program with topLevel := hkept.subset }

theorem Grows.keepsClasses {classes : Prop} (h : Grows classes program later) : program.KeepsClasses later := by
  induction h with
  | refl => exact .refl program
  | tail hearlier hchange ih =>
      exact ih.trans hchange.keepsClasses fun _ howner => howner.mono (Relation.ReflTransGen.trans hearlier .refl)

/-- What leads to no class in a program that has grown has led to none before. -/
theorem NamesNoType.of_grows {classes : Prop} (h : later.NamesNoType name) (hgrows : Grows classes program later) :
    program.NamesNoType name := by
  obtain ⟨⟨added, -, hadded⟩, hlibrary, himports, hpackage⟩ := hgrows.registers
  have hqualified : program.qualified ⊆ later.qualified := hadded ▸ List.subset_append_left _ _
  have htables := hgrows.keepsClasses
  refine ⟨h.isWord, fun symbol hsymbol info hinfo => ?_, fun entry hentry => h.topLevel entry (htables.topLevel hentry),
    hlibrary ▸ h.library, fun entry hentry heq known hknown => ?_,
    fun entry hentry => h.qualified entry (hqualified hentry),
    fun package hmem entry hentry => h.package package (hpackage ▸ hmem) entry (hqualified hentry)⟩
  · obtain ⟨id, hid⟩ := Array.getElem?_of_mem hsymbol
    have hclass : program.classInfo? id = some info := Option.bind_eq_some_iff.mpr ⟨symbol, hid, hinfo⟩
    obtain ⟨symbol', hid', hbecomes⟩ := hgrows.symbol? hid
    obtain ⟨info', hinfo', -⟩ := hbecomes.outer_eq hinfo
    have hname := (h.classes symbol' (Array.mem_of_getElem? hid') info' hinfo').1
    exact ⟨hbecomes.name_eq ▸ hname, fun entry hentry => h.member_ne id entry (htables.members id info hclass hentry)⟩
  · exact h.imports entry (himports ▸ hentry) heq known (hqualified hknown)

end Program
end LockDiscipline
