import Mathlib.Data.List.Forall2
import LockDiscipline.Proofs.Program.Clauses
import LockDiscipline.Proofs.Program.Provenance
/-!
# The order of declarations

Top-level classes are linked in the order of their declaration. A name that a class can only inherit is
looked up in the supertypes that have been linked by then, so that this order may count. It does not where
the clauses of a class are plain: these name classes that are told by the declarations alone, and if no
class inherits from itself then the class has, in any order, exactly the supertypes that it names. The
invariant of the linking is `Program.Linked`, of classes that are linked and classes that wait.
-/

namespace LockDiscipline

namespace Program

variable {unit : CompilationUnit} {program : Program} {id : SymbolId}

/-! ### One class is linked -/

theorem classInfo?_withSupertypes (superclass : Option SymbolId) (interfaces : List SymbolId)
    (span : Span) (other : SymbolId) :
    (program.withSupertypes id superclass interfaces span).classInfo? other =
      (program.classInfo? other).map fun info =>
        if other = id then
          { info with
            superclass := superclass.filter (program.isAcyclic id)
            interfaces := interfaces.filter (program.isAcyclic id) }
        else info :=
  classInfo?_updateClass ..

theorem supertypes_withSupertypes_of_ne (superclass : Option SymbolId) (interfaces : List SymbolId)
    (span : Span) {other : SymbolId} (hne : other ≠ id) :
    (program.withSupertypes id superclass interfaces span).supertypes other =
      program.supertypes other := by
  simp only [supertypes, classInfo?_withSupertypes, if_neg hne, Option.map_id']

/-- A class that is linked keeps its place and its table. -/
theorem Lays.withSupertypes {place : ClassPlace} {other : SymbolId} {symbol : NamedSymbol}
    {info : ClassInfo} (h : program.Lays place other symbol info) (superclass : Option SymbolId)
    (interfaces : List SymbolId) (span : Span) : ∃ symbol info,
      (program.withSupertypes id superclass interfaces span).Lays place other symbol info := by
  obtain ⟨symbol', hsymbol', hbecomes⟩ : ∃ later,
      (program.withSupertypes id superclass interfaces span).symbol? other = some later ∧
        symbol.Becomes later := becomes_updateClass id (fun _ => rfl) h.symbol_eq
  have hinfo : (program.withSupertypes id superclass interfaces span).classInfo? other = _ :=
    classInfo?_withSupertypes superclass interfaces span other
  rw [Program.classInfo?, Program.classInfo?, hsymbol', h.symbol_eq, Option.bind_some,
    Option.bind_some, h.info_eq, Option.map_some] at hinfo
  refine ⟨symbol', _, h.use_eq, hsymbol', hbecomes.name_eq.trans h.name_eq, hinfo, ?_, ?_⟩
  · split <;> exact h.outer_eq
  · split <;> exact h.classes_eq

/-- Linking a class leaves all tables as they are. -/
theorem Tabled.withSupertypes (h : program.Tabled unit) {superclass : Option SymbolId}
    {interfaces : List SymbolId} (span : Span)
    (hlt : ∀ supertype ∈ superclass.toList ++ interfaces, supertype < program.symbols.size) :
    (program.withSupertypes id superclass interfaces span).Tabled unit := by
  have hwell := h.wellFormed
  refine ⟨?_, ?_, fun place hplace => ?_, h.topLevel, h.qualified, h.library, h.imports, h.package⟩
  · have hproblems (problems : List NameProblem) : { program with problems }.WellFormed :=
      ⟨hwell.id_eq, hwell.outer_lt, hwell.supertype_lt,
        fun id => (hwell.table id).mono (fun h _ => h) fun h => h, hwell.topLevel_class,
        hwell.qualified_class, hwell.library_class⟩
    refine (hproblems _).updateClass id _ (fun _ => rfl) fun info hinfo => ⟨fun supertype hmem => ?_, ?_⟩
    · rw [Option.toList_filter, ← List.filter_append] at hmem
      exact hlt supertype (List.mem_of_mem_filter hmem)
    · rw [← members_eq_of_classInfo? hinfo]
      exact (hproblems _).table id
  · exact ⟨fun huse => (size_updateClass _ id _).symm ▸ h.usesOnce.lt_size huse, h.usesOnce.inj⟩
  · obtain ⟨other, symbol, info, hle, hlays⟩ := h.lays place hplace
    obtain ⟨symbol', info', hlays'⟩ := hlays.withSupertypes superclass interfaces span
    exact ⟨other, symbol', info', hle, hlays'⟩

/-- A clause names a symbol that there is. -/
theorem WellFormed.clause?_lt (h : program.WellFormed) {type : String} {supertype : SymbolId}
    (hclause : program.clause? id type = some supertype) : supertype < program.symbols.size := by
  obtain ⟨name, -, hname⟩ := Option.bind_eq_some_iff.mp hclause
  exact h.findType?_lt hname

theorem Tabled.linkOne (h : program.Tabled unit) (id : SymbolId) (decl : ClassDecl) :
    (program.linkOne id decl).Tabled unit := by
  refine h.withSupertypes decl.span fun supertype hmem => ?_
  rcases List.mem_append.mp hmem with hmem | hmem
  · obtain ⟨type, -, htype⟩ := Option.bind_eq_some_iff.mp (Option.mem_toList.mp hmem)
    exact h.wellFormed.clause?_lt htype
  · obtain ⟨type, -, htype⟩ := List.mem_filterMap.mp hmem
    exact h.wellFormed.clause?_lt htype

end Program

/-! ### Cycles -/

/-- Whether a problem is a cycle of supertypes. -/
def NameProblem.isCycle : NameProblem → Bool
  | .cyclicInheritance .. => true
  | _ => false

namespace Program

variable {unit : CompilationUnit} {program later : Program} {id : SymbolId}

/-- Whether a class was found to inherit from itself. -/
def reportsCycle (program : Program) : Bool :=
  program.problems.any (·.isCycle)

theorem reportsCycle_mono (h : program.problems ⊆ later.problems)
    (hlater : later.reportsCycle = false) : program.reportsCycle = false := by
  rw [reportsCycle, List.any_eq_false] at hlater ⊢
  exact fun problem hproblem => hlater problem (h hproblem)

theorem problems_subset_withSupertypes (superclass : Option SymbolId) (interfaces : List SymbolId)
    (span : Span) :
    program.problems ⊆ (program.withSupertypes id superclass interfaces span).problems := by
  rw [withSupertypes]
  dsimp only [updateClass]
  split
  · exact List.Subset.refl _
  · exact List.subset_append_left _ _

theorem problems_subset_linkAll (places : List ClassPlace) :
    program.problems ⊆ (program.linkAll places).problems := by
  induction places generalizing program with
  | nil => exact List.Subset.refl _
  | cons place rest ih =>
      cases huse : program.use? place.decl.id with
      | none =>
          rw [linkAll, List.foldl_cons, huse]
          exact ih
      | some id =>
          rw [linkAll_cons huse]
          exact List.Subset.trans (problems_subset_withSupertypes ..) ih

/-- Where no cycle is reported no supertype is left out. -/
theorem isAcyclic_of_reportsCycle {superclass : Option SymbolId} {interfaces : List SymbolId}
    {span : Span}
    (h : (program.withSupertypes id superclass interfaces span).reportsCycle = false) :
    ∀ supertype ∈ superclass.toList ++ interfaces, program.isAcyclic id supertype := by
  rw [reportsCycle, withSupertypes, List.any_eq_false] at h
  dsimp only [updateClass] at h
  split at h
  case isTrue hall => exact List.all_eq_true.mp hall
  case isFalse =>
    exact absurd rfl (h _ (List.mem_append_right _ (List.mem_singleton_self _)))

theorem classInfo?_withSupertypes_of_acyclic {superclass : Option SymbolId}
    {interfaces : List SymbolId} {span : Span}
    (h : (program.withSupertypes id superclass interfaces span).reportsCycle = false)
    {info : ClassInfo} (hinfo : program.classInfo? id = some info) :
    (program.withSupertypes id superclass interfaces span).classInfo? id =
      some { info with superclass, interfaces } := by
  have hacyclic := isAcyclic_of_reportsCycle h
  have hsuperclass : superclass.filter (program.isAcyclic id) = superclass := by
    cases superclass with
    | none => rfl
    | some supertype => exact Option.filter_some_pos (hacyclic supertype List.mem_cons_self)
  have hinterfaces : interfaces.filter (program.isAcyclic id) = interfaces :=
    List.filter_eq_self.mpr fun supertype hmem =>
      hacyclic supertype (List.mem_append_right _ hmem)
  rw [classInfo?_withSupertypes, hinfo, Option.map_some, if_pos rfl, hsuperclass, hinterfaces]

/-! ### Classes that have the supertypes they name -/

/-- A class has the supertypes that its clauses name. -/
def Links (unit : CompilationUnit) (program : Program) (place : ClassPlace) : Prop :=
  ∃ id info, program.use? place.decl.id = some id ∧ program.classInfo? id = some info ∧
    info.superclass = (place.decl.superclass.bind (unit.namedClass? place)).bind
      (·.id? program.use?) ∧
    info.interfaces = (place.decl.interfaces.filterMap (unit.namedClass? place)).filterMap
      (·.id? program.use?)

/-- A class is linked to what its clauses name, if they can be read off the declarations. -/
theorem Tabled.links_linkOne (h : program.Tabled unit) (hbare : program.LeavesBare unit)
    {place : ClassPlace} (hplace : place ∈ unit.classPlaces)
    (huse : program.use? place.decl.id = some id)
    (hself : place.around = [] → program.supertypes id = []) (hplain : unit.isPlain place)
    (hcycle : (program.linkOne id place.decl).reportsCycle = false) :
    (program.linkOne id place.decl).Links unit place := by
  obtain ⟨symbol, info, hlays⟩ := h.exists_lays hplace huse
  have hinfo : program.classInfo? id = some info := by
    rw [Program.classInfo?, hlays.symbol_eq]
    exact hlays.info_eq
  have hclause : ∀ type ∈ place.clauses, program.clause? id type =
      (unit.namedClass? place type).bind (·.id? program.use?) := fun type htype =>
    h.clause?_eq hbare hplace huse hself (List.all_eq_true.mp hplain type htype)
  refine ⟨id, _, huse, classInfo?_withSupertypes_of_acyclic hcycle hinfo, ?_, ?_⟩
  · change place.decl.superclass.bind (program.clause? id) = _
    cases hsuperclass : place.decl.superclass with
    | none => rfl
    | some type =>
        refine hclause type (List.mem_append_left _ ?_)
        rw [hsuperclass]
        exact List.mem_singleton_self _
  · change place.decl.interfaces.filterMap (program.clause? id) = _
    rw [List.filterMap_filterMap]
    exact List.filterMap_congr fun type htype => hclause type (List.mem_append_right _ htype)

/-! ### All classes are linked -/

/-- Some classes of a unit are linked and the others wait to be, with no supertypes as yet. -/
structure Linked (unit : CompilationUnit) (done rest : List ClassPlace) (program : Program) :
    Prop where
  perm : (done ++ rest).Perm unit.classPlaces
  tabled : program.Tabled unit
  waiting : ∀ place ∈ rest, ∀ id, program.use? place.decl.id = some id → program.supertypes id = []
  linked : ∀ place ∈ done, unit.isPlain place → program.Links unit place

namespace Linked

variable {done rest : List ClassPlace}

/-- A class without clauses has no supertypes, whether it was linked or not. -/
theorem leavesBare (h : program.Linked unit done rest) : program.LeavesBare unit := by
  intro place hplace hclauses id huse
  rcases List.mem_append.mp (h.perm.mem_iff.mpr hplace) with hdone | hrest
  · have hplain : unit.isPlain place := by
      rw [CompilationUnit.isPlain, hclauses]
      rfl
    obtain ⟨id', info, huse', hinfo, hsuperclass, hinterfaces⟩ := h.linked place hdone hplain
    obtain rfl := Option.some.inj (huse'.symm.trans huse)
    obtain ⟨hnone, hnil⟩ := List.append_eq_nil_iff.mp hclauses
    rw [Option.toList_eq_nil_iff.mp hnone] at hsuperclass
    rw [hnil] at hinterfaces
    rw [supertypes, hinfo]
    change info.superclass.toList ++ info.interfaces = []
    rw [hsuperclass, hinterfaces]
    rfl
  · exact h.waiting place hrest id huse

/-- The next class is linked. -/
theorem step {place : ClassPlace} (h : program.Linked unit done (place :: rest))
    (hnodup : (unit.classPlaces.map (·.decl.id)).Nodup)
    (huse : program.use? place.decl.id = some id)
    (hcycle : (program.linkOne id place.decl).reportsCycle = false) :
    (program.linkOne id place.decl).Linked unit (place :: done) rest := by
  have hplace : place ∈ unit.classPlaces := h.perm.mem_iff.mp (by simp)
  have hids := ((h.perm.map (·.decl.id)).nodup_iff).mpr hnodup
  rw [List.map_append, List.map_cons, List.nodup_middle, List.nodup_cons] at hids
  -- The other classes have other symbols.
  have hne : ∀ other ∈ done ++ rest, ∀ otherId, program.use? other.decl.id = some otherId →
      otherId ≠ id := by
    rintro other hother otherId huse' rfl
    refine hids.1 ?_
    rw [← List.map_append, ← h.tabled.usesOnce.inj huse' huse]
    exact List.mem_map.mpr ⟨other, hother, rfl⟩
  refine ⟨List.perm_middle.symm.trans h.perm, h.tabled.linkOne id place.decl,
    fun other hother otherId huse' => ?_, List.forall_mem_cons.mpr ⟨fun hplain => ?_,
      fun other hother hplain => ?_⟩⟩
  · rw [linkOne, supertypes_withSupertypes_of_ne _ _ _
      (hne other (List.mem_append_right _ hother) otherId huse')]
    exact h.waiting other (List.mem_cons_of_mem _ hother) otherId huse'
  · exact h.tabled.links_linkOne h.leavesBare hplace huse
      (fun _ => h.waiting place List.mem_cons_self id huse) hplain hcycle
  · obtain ⟨otherId, info, huse', hinfo, hlinks⟩ := h.linked other hother hplain
    refine ⟨otherId, info, huse', ?_, hlinks⟩
    rw [linkOne, classInfo?_withSupertypes, hinfo, Option.map_some,
      if_neg (hne other (List.mem_append_left _ hother) otherId huse')]

/-- All classes that wait are linked one after the other. -/
theorem linkAll (h : program.Linked unit done rest)
    (hnodup : (unit.classPlaces.map (·.decl.id)).Nodup)
    (hcycle : (program.linkAll rest).reportsCycle = false) :
    ∃ done, (program.linkAll rest).Linked unit done [] := by
  induction rest generalizing done program with
  | nil => exact ⟨done, h⟩
  | cons place rest ih =>
      have hplace : place ∈ unit.classPlaces := h.perm.mem_iff.mp (by simp)
      obtain ⟨id, huse⟩ := Option.isSome_iff_exists.mp (h.tabled.isSome_use? hplace)
      rw [linkAll_cons huse] at hcycle ⊢
      exact ih (h.step hnodup huse (reportsCycle_mono (problems_subset_linkAll rest) hcycle)) hcycle

end Linked

/-! ### Bodies leave supertypes alone -/

theorem Change.problems_subset {classes : Prop} (h : program.Change classes later) :
    program.problems ⊆ later.problems := by
  cases h with
  | problem => exact List.subset_append_left _ _
  | _ => exact List.Subset.refl _

theorem Grows.problems_subset {classes : Prop} (h : Grows classes program later) :
    program.problems ⊆ later.problems := by
  induction h with
  | refl => exact List.Subset.refl _
  | tail _ hchange ih => exact List.Subset.trans ih hchange.problems_subset

/-- A class that is linked stays linked to the same classes. -/
theorem Links.retain {place : ClassPlace} (h : program.Links unit place)
    (hplace : place ∈ unit.classPlaces) (hretains : program.Retains later)
    (huse : ∀ ref, unit.Knows ref → ref.id? later.use? = ref.id? program.use?) :
    later.Links unit place := by
  obtain ⟨id, info, hid, hinfo, hsuperclass, hinterfaces⟩ := h
  have hsettled := hretains.settled?_eq id (lt_size_of_classInfo?_eq_some hinfo)
  rw [settled?, settled?, hinfo, Option.map_some] at hsettled
  obtain ⟨info', hinfo', heq⟩ := Option.map_eq_some_iff.mp hsettled
  have hsuperclass' : info'.superclass = info.superclass := congrArg (·.superclass) heq
  have hinterfaces' : info'.interfaces = info.interfaces := congrArg (·.interfaces) heq
  refine ⟨id, info', (huse _ (.declared hplace)).trans hid, hinfo', ?_, ?_⟩
  · rw [hsuperclass', hsuperclass]
    refine Option.bind_congr fun ref href => (huse ref ?_).symm
    obtain ⟨type, -, htype⟩ := Option.bind_eq_some_iff.mp href
    exact CompilationUnit.knows_namedClass? hplace htype
  · rw [hinterfaces', hinterfaces]
    refine List.filterMap_congr fun ref href => (huse ref ?_).symm
    obtain ⟨type, -, htype⟩ := List.mem_filterMap.mp href
    exact CompilationUnit.knows_namedClass? hplace htype

/-! ### The program of a unit -/

section Unit

variable (hnodup : unit.numbers.Nodup)
include hnodup

theorem linked_declaredDraft : (declaredDraft unit).program.Linked unit [] unit.classPlaces where
  perm := .refl _
  tabled := tabled_declaredDraft hnodup
  waiting place hplace id huse := by
    obtain ⟨id', symbol, info, hle, hlays⟩ := (tabled_declaredDraft hnodup).lays place hplace
    obtain rfl := Option.some.inj (hlays.use_eq.symm.trans huse)
    exact supertypes_declaredDraft hnodup hle
  linked _ hplace := absurd hplace List.not_mem_nil

/-- All classes of a unit are declared before any is linked. -/
theorem program_linkedDraft :
    (linkedDraft unit).program = (declaredDraft unit).program.linkAll unit.classPlaces := by
  have hstart : (startDraft unit).program.WellFormed := .library _ _
  have hdeclared := Resolving.declareTopLevel_spec unit.package unit.types hstart
  let classes := ((Resolving.declareTopLevel unit.package unit.types).run (startDraft unit)).1.zip unit.types
  have hparts : Resolving.classParts classes = unit.parts := (Resolving.linkUnit_spec unit).1
  have hplaces : classes.flatMap (·.2.classPlaces []) = unit.classPlaces := by
    rw [CompilationUnit.classPlaces, ← List.map_snd_zip (Nat.le_of_eq hdeclared.length.symm),
      List.flatMap_map]
  have htop : Resolving.TopLevel (declaredDraft unit).program classes :=
    hdeclared.topLevel (hparts ▸ hnodup)
  have hlinked : (linkedDraft unit).program = (declaredDraft unit).program.linkAll
      (classes.flatMap (·.2.classPlaces [])) :=
    Resolving.program_linkTopLevel classes (fun entry hentry => (htop entry hentry).1)
      fun place hplace => (tabled_declaredDraft hnodup).isSome_use? (hplaces ▸ hplace)
  rw [hlinked, hplaces]

theorem exists_linked_linkedDraft (hcycle : (ofUnit unit).reportsCycle = false) :
    ∃ done, (linkedDraft unit).program.Linked unit done [] := by
  have hnone := reportsCycle_mono (grows_ofUnit unit).problems_subset hcycle
  rw [program_linkedDraft hnodup] at hnone ⊢
  exact (linked_declaredDraft hnodup).linkAll (unit.nodup_map_id_classPlaces hnodup) hnone

/-- What a unit refers to has the same symbol when the bodies have been gone through. -/
theorem id?_ofUnit {ref : ClassRef} (href : unit.Knows ref) :
    ref.id? (ofUnit unit).use? = ref.id? (linkedDraft unit).program.use? := by
  cases href with
  | declared hplace =>
      obtain ⟨decl, hdecl, hmem⟩ := List.mem_flatMap.mp hplace
      exact use?_ofUnit_of_declaring hnodup hdecl
        ((decl.map_id_classPlaces_sublist []).subset (List.mem_map_of_mem hmem))
  | library => rfl

variable (hcycle : (ofUnit unit).reportsCycle = false)
include hcycle

theorem isSome_id?_ofUnit {ref : ClassRef} (href : unit.Knows ref) :
    (ref.id? (ofUnit unit).use?).isSome := by
  obtain ⟨done, hlinked⟩ := exists_linked_linkedDraft hnodup hcycle
  rw [id?_ofUnit hnodup href]
  exact hlinked.tabled.isSome_id? href

/-- A class whose clauses are plain has the supertypes that they name. -/
theorem links_ofUnit {place : ClassPlace} (hplace : place ∈ unit.classPlaces)
    (hplain : unit.isPlain place) : (ofUnit unit).Links unit place := by
  obtain ⟨done, hlinked⟩ := exists_linked_linkedDraft hnodup hcycle
  have hdone : place ∈ done := by
    rw [← List.append_nil done]
    exact hlinked.perm.mem_iff.mpr hplace
  exact (hlinked.linked place hdone hplain).retain hplace
    (program_draftOf unit ▸ (covered_draftOf hnodup).retained)
    fun _ href => id?_ofUnit hnodup href

end Unit

/-! ### Another order -/

/-- Two programs have symbols for one class. -/
def SameClass (program other : Program) (id id' : SymbolId) : Prop :=
  ∃ ref : ClassRef, ref.id? program.use? = some id ∧ ref.id? other.use? = some id'

/-- A class has the same superclass and the same interfaces in two programs, which may have other
symbols for them. -/
def SameSupertypes (program other : Program) (node : NodeId) : Prop :=
  ∃ id info id' info', program.use? node = some id ∧ program.classInfo? id = some info ∧
    other.use? node = some id' ∧ other.classInfo? id' = some info' ∧
    Option.Rel (program.SameClass other) info.superclass info'.superclass ∧
    List.Forall₂ (program.SameClass other) info.interfaces info'.interfaces

/-- What a class is linked to by its clauses is the same in all programs. -/
theorem Links.sameSupertypes {other : Program} {place : ClassPlace} (h : program.Links unit place)
    (hother : other.Links unit place) (hplace : place ∈ unit.classPlaces)
    (hknown : ∀ ref, unit.Knows ref →
      (ref.id? program.use?).isSome ∧ (ref.id? other.use?).isSome) :
    program.SameSupertypes other place.decl.id := by
  obtain ⟨id, info, huse, hinfo, hsuperclass, hinterfaces⟩ := h
  obtain ⟨id', info', huse', hinfo', hsuperclass', hinterfaces'⟩ := hother
  have hsame {type : String} {ref : ClassRef} (href : unit.namedClass? place type = some ref) :
      Option.Rel (program.SameClass other) (ref.id? program.use?) (ref.id? other.use?) := by
    obtain ⟨hfound, hfound'⟩ := hknown ref (CompilationUnit.knows_namedClass? hplace href)
    obtain ⟨found, hid⟩ := Option.isSome_iff_exists.mp hfound
    obtain ⟨found', hid'⟩ := Option.isSome_iff_exists.mp hfound'
    rw [hid, hid']
    exact .some ⟨ref, hid, hid'⟩
  refine ⟨id, info, id', info', huse, hinfo, huse', hinfo', ?_, ?_⟩
  · rw [hsuperclass, hsuperclass']
    cases hnamed : place.decl.superclass.bind (unit.namedClass? place) with
    | none => exact .none
    | some ref =>
        obtain ⟨type, -, htype⟩ := Option.bind_eq_some_iff.mp hnamed
        exact hsame htype
  · rw [hinterfaces, hinterfaces', List.filterMap_filterMap, List.filterMap_filterMap]
    refine List.rel_filterMap (fun type type' htype => ?_) (List.forall₂_same.mpr fun _ _ => rfl)
    obtain rfl := htype
    cases hnamed : unit.namedClass? place type with
    | none => exact .none
    | some ref => exact hsame hnamed

section Reordered

variable {types : List ClassDecl} (hperm : unit.types.Perm types)
include hperm

theorem knows_perm {ref : ClassRef} (href : unit.Knows ref) :
    { unit with types : CompilationUnit }.Knows ref := by
  cases href with
  | declared hplace => exact .declared ((CompilationUnit.classPlaces_perm hperm).mem_iff.mp hplace)
  | library hid => exact .library hid

theorem numbers_perm : unit.numbers.Perm { unit with types : CompilationUnit }.numbers :=
  (hperm.map _).flatMap_right _

/-- Whatever the order of the top-level classes of a unit, a class whose clauses are plain has the same
superclass and the same interfaces, if all classes have names of their own and neither order has a class
inherit from itself. -/
theorem sameSupertypes_ofUnit_perm (hnodup : unit.numbers.Nodup) (hnames : unit.classNames.Nodup)
    (hcycle : (ofUnit unit).reportsCycle = false)
    (hcycle' : (ofUnit { unit with types }).reportsCycle = false) {place : ClassPlace}
    (hplace : place ∈ unit.classPlaces) (hplain : unit.isPlain place) :
    (ofUnit unit).SameSupertypes (ofUnit { unit with types }) place.decl.id := by
  have hnodup' := (numbers_perm hperm).nodup_iff.mp hnodup
  have hplace' := (CompilationUnit.classPlaces_perm hperm).mem_iff.mp hplace
  have hplain' : { unit with types : CompilationUnit }.isPlain place := by
    rwa [CompilationUnit.isPlain_perm hperm hnames]
  have hnamed : { unit with types : CompilationUnit }.namedClass? place = unit.namedClass? place :=
    funext (CompilationUnit.namedClass?_perm hperm hnames place)
  have hlinks' : (ofUnit { unit with types }).Links unit place := by
    have h := links_ofUnit hnodup' hcycle' hplace' hplain'
    rwa [Links, hnamed] at h
  exact (links_ofUnit hnodup hcycle hplace hplain).sameSupertypes hlinks' hplace fun _ href =>
    ⟨isSome_id?_ofUnit hnodup hcycle href, isSome_id?_ofUnit hnodup' hcycle' (knows_perm hperm href)⟩

end Reordered

/-- A class that has only a superclass and member classes. -/
private def classWith (node : NodeId) (name : String) (superclass : Option String)
    (inner : List ClassDecl) : ClassDecl :=
  ⟨node, name, .class, ⟨[], []⟩, [], superclass, [],
    inner.map fun decl => ⟨decl.id + 1, .classDecl decl, default⟩, default⟩

private def bottom : ClassDecl :=
  classWith 0 "A" "B" [classWith 1 "In" "Out" [], classWith 3 "Out" none []]

/-- A class that is declared before its superclass and a member class that names another one have the
superclasses that they have in the opposite order. -/
theorem sameSupertypes_ofUnit_perm_reverse :
    let types := [bottom, classWith 5 "B" "C" [], classWith 6 "C" none []]
    let inOrder := ofUnit ⟨none, [], types⟩
    let reversed := ofUnit ⟨none, [], types.reverse⟩
    (inOrder.SameSupertypes reversed 0 ∧ ((inOrder.use? 0).bind inOrder.superclass?).isSome) ∧
      inOrder.SameSupertypes reversed 1 ∧ ((inOrder.use? 1).bind inOrder.superclass?).isSome := by
  intro types inOrder reversed
  let unit : CompilationUnit := ⟨none, [], types⟩
  have hfacts : unit.numbers.Nodup ∧ unit.classNames.Nodup ∧ inOrder.reportsCycle = false ∧
      reversed.reportsCycle = false ∧ unit.isPlain ⟨[], bottom⟩ ∧
        unit.isPlain ⟨[bottom], classWith 1 "In" "Out" []⟩ ∧
          ((inOrder.use? 0).bind inOrder.superclass?).isSome ∧
            ((inOrder.use? 1).bind inOrder.superclass?).isSome := by
    decide +kernel
  obtain ⟨hnodup, hnames, hcycle, hcycle', hplain, hplain', hsome, hsome'⟩ := hfacts
  have hperm : unit.types.Perm types.reverse := (List.reverse_perm types).symm
  have hbottom : ⟨[], bottom⟩ ∈ unit.classPlaces :=
    List.mem_flatMap.mpr ⟨bottom, List.mem_cons_self, bottom.mem_classPlaces []⟩
  have hmember : ⟨[bottom], classWith 1 "In" "Out" []⟩ ∈ unit.classPlaces :=
    CompilationUnit.member_mem hbottom List.mem_cons_self
  have hsame := sameSupertypes_ofUnit_perm hperm hnodup hnames hcycle hcycle' hbottom hplain
  have hsame' := sameSupertypes_ofUnit_perm hperm hnodup hnames hcycle hcycle' hmember hplain'
  exact ⟨⟨hsame, hsome⟩, hsame', hsome'⟩

/-! ### Names that are only inherited -/

/-- Classes with the same supertypes in two programs have a superclass in both or in none. -/
theorem SameSupertypes.isSome_superclass? {other : Program} {node : NodeId}
    (h : program.SameSupertypes other node) :
    ((program.use? node).bind program.superclass?).isSome =
      ((other.use? node).bind other.superclass?).isSome := by
  obtain ⟨id, info, id', info', huse, hinfo, huse', hinfo', hsuperclass, -⟩ := h
  rw [huse, huse', Option.bind_some, Option.bind_some, superclass?, superclass?, hinfo, hinfo',
    Option.bind_some, Option.bind_some]
  generalize info.superclass = superclass at hsuperclass
  generalize info'.superclass = superclass' at hsuperclass
  cases hsuperclass <;> rfl

private def lowest : ClassDecl := classWith 0 "A" "B" [classWith 1 "In" "X" []]

private def middle : ClassDecl := classWith 3 "B" "C" []

private def highest : ClassDecl := classWith 4 "C" none [classWith 5 "X" none []]

/-- The order can count for a clause that is not plain. A member class names a class that the class
around it inherits by way of another one. If that one is declared later it is linked later, and then the
name is unknown. -/
theorem exists_perm_not_sameSupertypes : ∃ (unit : CompilationUnit) (types : List ClassDecl),
    unit.types.Perm types ∧ unit.numbers.Nodup ∧ unit.classNames.Nodup ∧
      (ofUnit unit).problems = [] ∧ (ofUnit { unit with types }).problems = [] ∧
        ∃ place ∈ unit.classPlaces,
          ¬(ofUnit unit).SameSupertypes (ofUnit { unit with types }) place.decl.id := by
  let unit : CompilationUnit := ⟨none, [], [lowest, middle, highest]⟩
  let types := [highest, middle, lowest]
  have hfacts : unit.numbers.Nodup ∧ unit.classNames.Nodup ∧ (ofUnit unit).problems = [] ∧
      (ofUnit { unit with types }).problems = [] ∧
        (((ofUnit unit).use? 1).bind (ofUnit unit).superclass?).isSome ≠
          (((ofUnit { unit with types }).use? 1).bind (ofUnit { unit with types }).superclass?).isSome := by
    decide +kernel
  obtain ⟨hnodup, hnames, hproblems, hproblems', hne⟩ := hfacts
  refine ⟨unit, types, (List.reverse_perm _).symm, hnodup, hnames, hproblems, hproblems',
    ⟨[lowest], classWith 1 "In" "X" []⟩, ?_, fun h => hne h.isSome_superclass?⟩
  exact CompilationUnit.member_mem (List.mem_flatMap.mpr
    ⟨lowest, List.mem_cons_self, lowest.mem_classPlaces []⟩) List.mem_cons_self

end Program

end LockDiscipline
