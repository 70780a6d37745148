import LockDiscipline.Proofs.Grammar.DeclarationNumbers
import LockDiscipline.Proofs.Program.Bodies
import LockDiscipline.Proofs.Tree.Numbers
/-!
# The resolution of a unit

A unit is resolved in three passes: its classes are declared, then they are linked, then their bodies
are gone through. The first two only make the program grow from the library, and the third covers
all classes of the unit. So the program of every unit is well-formed, and where the nodes of a unit
have different numbers every expression in it is entered.
-/

namespace LockDiscipline

namespace Resolving

open Program (Grows)

/-- Top-level classes with their symbols as parts. -/
def classParts (classes : List (SymbolId × ClassDecl)) : List Part :=
  classes.map fun (_, decl) => ⟨.declared, .classDecl decl⟩

/-- Each class of a list is declared with its symbol, outside any other. -/
def TopLevel (program : Program) (classes : List (SymbolId × ClassDecl)) : Prop :=
  ∀ entry ∈ classes, program.use? entry.2.id = some entry.1 ∧ program.Declared none entry.2

theorem TopLevel.mono {program later : Program} {classes : List (SymbolId × ClassDecl)}
    {nests : Prop} (h : TopLevel program classes) (hgrows : Grows nests program later)
    (hfields : program.KeepsFields later)
    (huse : ∀ id ∈ TreeNode.numbersOf (classParts classes), later.use? id = program.use? id) :
    TopLevel later classes := by
  intro entry hentry
  have hpart : (⟨.declared, .classDecl entry.2⟩ : Part) ∈ classParts classes :=
    List.mem_map.mpr ⟨entry, hentry, rfl⟩
  have huse' : ∀ id ∈ (TreeNode.classDecl entry.2).numbers, later.use? id = program.use? id :=
    fun id hid => huse id (TreeNode.mem_numbersOf_of_mem hpart hid)
  obtain ⟨hid, hdeclared⟩ := h entry hentry
  exact ⟨(huse' _ (entry.2.declaring_subset_numbers entry.2.id_mem_declaring)).trans hid,
    hdeclared.mono hgrows hfields fun id hid => huse' id (entry.2.declaring_subset_numbers hid)⟩

/-! ### Declaring and linking -/

/-- The draft after top-level classes are declared. -/
structure DeclaresTopLevel (types : List ClassDecl) (before after : TrackedDraft)
    (ids : List SymbolId) : Prop where
  length : ids.length = types.length
  declares : Declares (types.flatMap ClassDecl.declaring) before after
  topLevel : (TreeNode.numbersOf (classParts (ids.zip types))).Nodup →
    TopLevel after.program (ids.zip types)

private theorem declaring_subset_numbersOf {types : List ClassDecl} {ids : List SymbolId}
    (hlength : ids.length = types.length) : types.flatMap ClassDecl.declaring ⊆
      TreeNode.numbersOf (classParts (ids.zip types)) := by
  intro id hid
  obtain ⟨decl, hdecl, hid⟩ := List.mem_flatMap.mp hid
  rw [← List.map_snd_zip (Nat.le_of_eq hlength.symm)] at hdecl
  obtain ⟨entry, hentry, rfl⟩ := List.mem_map.mp hdecl
  exact TreeNode.mem_numbersOf_of_mem (List.mem_map.mpr ⟨entry, hentry, rfl⟩)
    (entry.2.declaring_subset_numbers hid)

theorem enterTopLevel_spec (name : String) {id : SymbolId} (span : Span) {draft : TrackedDraft}
    (hdraft : draft.program.WellFormed) (hid : draft.program.IsClass id) :
    Declares [] draft ((enterTopLevel name id span).run draft).2 := by
  rw [enterTopLevel, run_bind, run_ask]
  dsimp only
  rw [enterOnce]
  cases draft.program.topLevel.lookup name with
  | some previous => exact .of_change (.problem _) rfl rfl ⟨fun _ => List.Subset.refl _⟩
  | none =>
      refine .of_change (.topLevel _ trivial ?_ (List.prefix_append _ _)) rfl rfl
        ⟨fun _ => List.Subset.refl _⟩
      intro entry hentry
      rcases List.mem_append.mp hentry with hentry | hentry
      · exact hdraft.topLevel_class entry hentry
      · obtain rfl := List.mem_singleton.mp hentry
        exact hid

theorem declareTopLevel_spec (package : Option String) (types : List ClassDecl)
    {draft : TrackedDraft} (hdraft : draft.program.WellFormed) :
    DeclaresTopLevel types draft ((declareTopLevel package types).run draft).2
      ((declareTopLevel package types).run draft).1 := by
  induction types generalizing draft with
  | nil => exact ⟨rfl, .refl draft, fun _ _ h => absurd h List.not_mem_nil⟩
  | cons decl rest ih =>
      rw [declareTopLevel, run_bind, run_bind, run_bind]
      have hclass := declareClass_spec none decl.name (topLevelName package decl.name) false decl
        hdraft nofun
      have hentered := hclass.extend (enterTopLevel_spec decl.name decl.span
        (hclass.declares.wellFormed hdraft) hclass.isClass)
      generalize ((enterTopLevel _ _ _).run _).2 = after at hentered
      generalize ((declareClass _ _ _ _ _).run draft).1 = id at hentered
      have hrest := ih (hentered.declares.wellFormed hdraft)
      generalize (declareTopLevel package rest).run after = declared at hrest
      refine ⟨congrArg Nat.succ hrest.length, hentered.declares.trans hrest.declares,
        fun hnodup => List.forall_mem_cons.mpr ⟨?_, ?_⟩⟩
      all_goals
        replace hnodup : ((TreeNode.classDecl decl).numbers ++
          TreeNode.numbersOf (classParts (declared.1.zip rest))).Nodup := hnodup
      · have huse : ∀ number ∈ (TreeNode.classDecl decl).numbers,
            declared.2.program.use? number = after.program.use? number := fun number hnumber =>
          hrest.declares.uses number fun hmem => List.disjoint_of_nodup_append hnodup hnumber
            (declaring_subset_numbersOf hrest.length hmem)
        exact ⟨(huse decl.id (decl.declaring_subset_numbers decl.id_mem_declaring)).trans
            (hentered.use hnodup.of_append_left),
          (hentered.declared hnodup.of_append_left).mono hrest.declares.grows hrest.declares.fields
            fun number hnumber => huse number (decl.declaring_subset_numbers hnumber)⟩
      · exact hrest.topLevel hnodup.of_append_right

theorem linkTopLevel_spec (classes : List (SymbolId × ClassDecl)) {draft : TrackedDraft}
    (hdraft : draft.program.WellFormed) :
    Declares [] draft ((linkTopLevel classes).run draft).2 := by
  induction classes generalizing draft with
  | nil => exact .refl draft
  | cons entry rest ih =>
      have hfirst := linkClass_spec entry.1 entry.2 hdraft
      exact hfirst.trans (ih (hfirst.wellFormed hdraft))

/-! ### Going through the bodies -/

/-- What holds of a draft in which classes were gone through, whatever was declared of them. -/
structure Passes (parts : List Part) (before after : TrackedDraft) : Prop where
  grows : Grows (∃ part ∈ parts, part.Nests) before.program after.program
  scopes : after.scopes.toList = before.scopes.toList
  uses : ∀ id, ¬Part.Reached parts id → after.program.use? id = before.program.use? id
  receivers : ∀ id, ¬Part.Reached parts id → after.receiver? id = before.receiver? id

theorem Passes.append {parts parts' : List Part} {before middle after : TrackedDraft}
    (hfirst : Passes parts before middle) (hsecond : Passes parts' middle after) :
    Passes (parts ++ parts') before after where
  grows := by
    refine (hfirst.grows.mono ?_).trans (hsecond.grows.mono ?_)
    · exact fun ⟨part, hpart, h⟩ => ⟨part, List.mem_append_left _ hpart, h⟩
    · exact fun ⟨part, hpart, h⟩ => ⟨part, List.mem_append_right _ hpart, h⟩
  scopes := hsecond.scopes.trans hfirst.scopes
  uses id hid := by
    rw [Part.Reached.append_iff, not_or] at hid
    exact (hsecond.uses id hid.2).trans (hfirst.uses id hid.1)
  receivers id hid := by
    rw [Part.Reached.append_iff, not_or] at hid
    exact (hsecond.receivers id hid.2).trans (hfirst.receivers id hid.1)

theorem passes_classBody (id : SymbolId) (decl : ClassDecl) {draft : TrackedDraft}
    (hdraft : draft.program.WellFormed) : Passes [⟨.declared, .classDecl decl⟩] draft
      ((inScope (.classBody id) (resolveMembers decl.members)).run draft).2 := by
  have h := covers_resolveMembers decl.members
  exact ⟨h.grows_classBody draft hdraft, h.scopes_classBody draft,
    fun number hnumber => h.uses_classBody draft hdraft (by
      rwa [Part.Reached.singleton_iff] at hnumber),
    fun number hnumber => h.receivers_classBody draft (by
      rwa [Part.Reached.singleton_iff] at hnumber)⟩

theorem passes_resolveTopLevel (classes : List (SymbolId × ClassDecl)) {draft : TrackedDraft}
    (hdraft : draft.program.WellFormed) :
    Passes (classParts classes) draft ((resolveTopLevel classes).run draft).2 := by
  induction classes generalizing draft with
  | nil => exact ⟨.refl _ _, rfl, fun _ _ => rfl, fun _ _ => rfl⟩
  | cons entry rest ih =>
      have hfirst := passes_classBody entry.1 entry.2 hdraft
      exact hfirst.append (ih (hfirst.grows.wellFormed hdraft))

theorem covered_resolveTopLevel (classes : List (SymbolId × ClassDecl)) {draft : TrackedDraft}
    (hdraft : draft.program.WellFormed) (hnodup : (TreeNode.numbersOf (classParts classes)).Nodup)
    (htop : TopLevel draft.program classes) (hscopes : draft.scopes.currentClass? = none) :
    Covered (.ofParts (classParts classes)) draft ((resolveTopLevel classes).run draft).2 := by
  induction classes generalizing draft with
  | nil =>
      exact ⟨⟨[], rfl, fun _ h => absurd h List.not_mem_nil⟩, fun _ h => absurd h List.not_mem_nil,
        fun _ h => absurd h List.not_mem_nil, fun _ h => absurd h List.not_mem_nil,
        fun _ _ _ hsymbol _ => .inl hsymbol, ⟨[], .refl _, .nil⟩, .of_grows (.refl _ _)⟩
  | cons entry rest ih =>
      replace hnodup : ((TreeNode.classDecl entry.2).numbers ++
        TreeNode.numbersOf (classParts rest)).Nodup := hnodup
      obtain ⟨⟨huse, hdeclared⟩, htop⟩ := List.forall_mem_cons.mp htop
      have hpass := passes_classBody entry.1 entry.2 hdraft
      have hdraft' := hpass.grows.wellFormed hdraft
      have hfirst : Covered (.one ⟨.declared, .classDecl entry.2⟩) draft
          ((inScope (.classBody entry.1) (resolveMembers entry.2.members)).run draft).2 :=
        .classBody hdraft hnodup.of_append_left huse (hscopes ▸ hdeclared)
          (covers_resolveMembers entry.2.members)
      have hbinds := ScopeStack.Binds.of_eq hpass.scopes
      have hrest := ih hdraft' hnodup.of_append_right
        (TopLevel.mono htop hpass.grows hfirst.retained.keepsFields fun id hid => hpass.uses id fun hreached =>
          List.disjoint_of_nodup_append hnodup (Part.Reached.singleton_iff.mp hreached).mem_numbers hid)
        (hbinds.currentClass?_eq.trans hscopes)
      have hpass' := passes_resolveTopLevel rest hdraft'
      have hgrows' := hpass'.grows
      rw [← Course.parts_ofParts (classParts rest)] at hgrows'
      refine hfirst.append hrest hpass.grows hgrows' Covers.sites_classDecl
        (fun id hid => hpass.uses id fun hreached => ?_)
        (fun id hid => hpass'.uses id fun hreached => ?_)
        fun id hid => hpass'.receivers id fun hreached => ?_
      · rw [Course.parts_ofParts] at hid
        exact List.disjoint_of_nodup_append hnodup
          (Part.Reached.singleton_iff.mp hreached).mem_numbers hid
      · rw [List.nil_append, Course.parts_one, TreeNode.numbersOf_singleton] at hid
        exact List.disjoint_of_nodup_append hnodup hid hreached.mem_numbersOf
      · rw [Course.parts_one, TreeNode.numbersOf_singleton] at hid
        exact List.disjoint_of_nodup_append hnodup hid hreached.mem_numbersOf

/-! ### The whole unit -/

/-- The top-level classes of a unit with their symbols, declared and linked. -/
def linkUnit (unit : CompilationUnit) : Tracked (List (SymbolId × ClassDecl)) := do
  let ids ← declareTopLevel unit.package unit.types
  linkTopLevel (ids.zip unit.types)
  return ids.zip unit.types

theorem linkUnit_spec (unit : CompilationUnit) :
    let linked := (linkUnit unit).run (Program.startDraft unit)
    classParts linked.1 = unit.parts ∧
      Declares (unit.types.flatMap ClassDecl.declaring) (Program.startDraft unit) linked.2 ∧
      (unit.numbers.Nodup → TopLevel linked.2.program linked.1) := by
  have hstart : (Program.startDraft unit).program.WellFormed := .library _ _
  have hdeclared := declareTopLevel_spec unit.package unit.types hstart
  have hlinked := linkTopLevel_spec
    (((declareTopLevel unit.package unit.types).run (Program.startDraft unit)).1.zip unit.types)
    (hdeclared.declares.wellFormed hstart)
  have hparts : classParts (((declareTopLevel unit.package unit.types).run
      (Program.startDraft unit)).1.zip unit.types) = unit.parts := by
    have hsnd := List.map_snd_zip (Nat.le_of_eq hdeclared.length.symm)
    rw [CompilationUnit.parts, ← hsnd, List.map_map, hsnd]
    rfl
  intro linked
  have hdeclares := hdeclared.declares
  have htop := hdeclared.topLevel
  rw [hparts] at htop
  refine ⟨hparts, (hdeclares.trans hlinked).mono (by rw [List.append_nil]), fun hnodup => ?_⟩
  · exact (htop hnodup).mono hlinked.grows hlinked.fields fun id _ => hlinked.uses id List.not_mem_nil

end Resolving

namespace Program

open Resolving

/-- A retouched unit starts from the same program, for the imports count without their places. -/
theorem start_retouch (retouch : Retouch) (unit : CompilationUnit) :
    startDraft (unit.retouch retouch) = startDraft unit := by
  have himports : typeImports (unit.retouch retouch).imports = typeImports unit.imports := by
    simp [typeImports, CompilationUnit.retouch, List.filter_map, Function.comp_def]
  rw [startDraft, startDraft, start, start, himports]
  rfl

/-- The draft in which the classes of a unit are declared and linked. -/
def linkedDraft (unit : CompilationUnit) : TrackedDraft :=
  ((linkUnit unit).run (startDraft unit)).2

variable (unit : CompilationUnit)

theorem grows_linkedDraft : Grows True (startDraft unit).program (linkedDraft unit).program :=
  (linkUnit_spec unit).2.1.grows

theorem samePlace_linkedDraft : SamePlace (startDraft unit) (linkedDraft unit) :=
  ((keepsPlace_declareTopLevel unit.package unit.types).bind fun ids =>
    (keepsPlace_linkTopLevel (ids.zip unit.types)).bind fun _ => .pure (ids.zip unit.types)).samePlace
      (startDraft unit)

theorem scopes_linkedDraft : (linkedDraft unit).scopes = .empty :=
  (samePlace_linkedDraft unit).scopes

theorem visits_linkedDraft : (linkedDraft unit).visits = [] :=
  (samePlace_linkedDraft unit).visits

theorem wellFormed_linkedDraft : (linkedDraft unit).program.WellFormed :=
  (grows_linkedDraft unit).wellFormed (.library _ _)

/-- The top-level classes of a unit are declared before the bodies are gone through. -/
theorem declared_linkedDraft {unit : CompilationUnit} (hnodup : unit.numbers.Nodup) {decl : ClassDecl}
    (hdecl : decl ∈ unit.types) : (linkedDraft unit).program.Declared none decl := by
  obtain ⟨hparts, -, htop⟩ := linkUnit_spec unit
  have hpart : (⟨.declared, .classDecl decl⟩ : Part) ∈ unit.parts := List.mem_map.mpr ⟨decl, hdecl, rfl⟩
  rw [← hparts] at hpart
  obtain ⟨entry, hentry, heq⟩ := List.mem_map.mp hpart
  obtain rfl := TreeNode.classDecl.inj (Part.mk.inj heq).2
  exact (htop hnodup entry hentry).2

theorem uses_declareAll (package : Option String) :
    (Library.declareAll (.empty package)).uses = ∅ := by
  refine List.foldlRecOn (motive := fun program : Program => program.uses = ∅) Library.classes _ rfl
    fun program hprogram decl _ => ?_
  exact List.foldlRecOn (motive := fun program : Program => program.uses = ∅) decl.methods _ hprogram
    fun _ h _ _ => h

/-- Nothing is recorded for an expression before the bodies are gone through. -/
theorem use?_linkedDraft_of_expr {unit : CompilationUnit} (hnodup : unit.numbers.Nodup)
    {decl : ClassDecl} (hdecl : decl ∈ unit.types) {path : List PathStep} {expr : Expr}
    (hwithin : Within (.classDecl decl) path (.expr expr)) :
    (linkedDraft unit).program.use? expr.id = none := by
  refine ((linkUnit_spec unit).2.1.uses expr.id fun hmem => ?_).trans ?_
  · obtain ⟨decl', hdecl', hid⟩ := List.mem_flatMap.mp hmem
    obtain ⟨path', inner, hinner, -, hid, hdeclaration⟩ := decl'.bearsDeclared hid
    obtain ⟨rfl, rfl⟩ := CompilationUnit.path_eq_of_numbers_nodup hnodup hdecl hdecl' hwithin hinner
      (List.mem_singleton_self _) hid
    obtain rfl := hinner.unique hwithin
    cases hdeclaration
  · rw [use?, program_startDraft, uses_declareAll]
    rfl

/-- When the bodies of the classes are gone through it is recorded how much was resolved. -/
theorem draftOf_eq : draftOf unit =
    let draft := ((resolveTopLevel ((linkUnit unit).run (startDraft unit)).1).run (linkedDraft unit)).2
    { draft with
      trace := draft.trace ++ [.resolved unit.types.length draft.program.symbols.size draft.program.uses.size
        draft.program.problems.length] } := by
  have hstart : (startDraft unit).program.WellFormed := .library _ _
  have hlength := (declareTopLevel_spec unit.package unit.types hstart).length
  rw [draftOf, linkedDraft, ← hlength]
  generalize startDraft unit = draft
  rfl

/-- The bodies of the classes of a unit are gone through. -/
theorem passes_draftOf : Passes unit.parts (linkedDraft unit) (draftOf unit) := by
  have h := passes_resolveTopLevel ((linkUnit unit).run (startDraft unit)).1
    (wellFormed_linkedDraft unit)
  rw [(linkUnit_spec unit).1] at h
  exact ⟨h.grows, h.scopes, h.uses, h.receivers⟩

theorem grows_ofUnit : Grows (∃ part ∈ unit.parts, part.Nests) (linkedDraft unit).program (ofUnit unit) :=
  program_draftOf unit ▸ (passes_draftOf unit).grows

/-- Outside of the bodies nothing is recorded when these are gone through. -/
theorem use?_ofUnit {id : NodeId} (hreached : ¬Part.Reached unit.parts id) :
    (ofUnit unit).use? id = (linkedDraft unit).program.use? id :=
  program_draftOf unit ▸ (passes_draftOf unit).uses id hreached

/-- The program of any unit is well-formed. -/
theorem wellFormed_ofUnit : (ofUnit unit).WellFormed :=
  (grows_ofUnit unit).wellFormed (wellFormed_linkedDraft unit)

/-- All that is in the classes of a unit is covered if no two nodes have one number. -/
theorem covered_draftOf {unit : CompilationUnit} (hnodup : unit.numbers.Nodup) :
    Covered (.ofParts unit.parts) (linkedDraft unit) (draftOf unit) := by
  obtain ⟨hparts, -, htop⟩ := linkUnit_spec unit
  have h := covered_resolveTopLevel ((linkUnit unit).run (startDraft unit)).1
    (wellFormed_linkedDraft unit) (by rw [hparts]; exact hnodup) (htop hnodup) (by
      rw [scopes_linkedDraft]
      rfl)
  rw [hparts] at h
  exact h.congr rfl rfl rfl rfl rfl rfl rfl h.declaring

/-- A class is declared if no annotation and no label stands on the path to it. -/
theorem exists_declared_ofUnit {unit : CompilationUnit} (hnodup : unit.numbers.Nodup)
    {outer : ClassDecl} (houter : outer ∈ unit.types) {path : List PathStep} {decl : ClassDecl}
    (hwithin : Within (.classDecl outer) path (.classDecl decl))
    (hcertain : ∀ step ∈ path, step.role.isCertain) :
    ∃ around, (ofUnit unit).Declared around decl :=
  program_draftOf unit ▸ (covered_draftOf hnodup).resolves ⟨.declared, .classDecl outer⟩
    ((Course.parts_ofParts unit.parts).symm ▸ List.mem_map.mpr ⟨outer, houter, rfl⟩) path decl hwithin
    rfl hcertain

end Program

/-! ### What is recorded for the nodes of a unit

The resolver keeps one table for declarations and references, whose keys are the numbers of nodes.
It only ever makes entries for nodes of the unit that it resolves. The reader hands out each number
once, also where it recovers from errors, so every entry belongs to one node. -/

namespace Program

open Resolving

/-- Whatever is recorded is recorded for a node of the unit. -/
theorem mem_numbers_of_use? (unit : CompilationUnit) {id : NodeId}
    (h : (ofUnit unit).use? id ≠ none) : id ∈ unit.numbers := by
  by_contra hid
  apply h
  have hreached : ¬Part.Reached unit.parts id := fun hreached => hid hreached.mem_numbersOf
  have hdeclaring : id ∉ unit.types.flatMap ClassDecl.declaring := by
    intro hmem
    obtain ⟨decl, hdecl, hmem⟩ := List.mem_flatMap.mp hmem
    exact hid ((unit.numbers_sublist hdecl).subset (decl.declaring_subset_numbers hmem))
  calc (ofUnit unit).use? id
    _ = (linkedDraft unit).program.use? id := use?_ofUnit unit hreached
    _ = (startDraft unit).program.use? id := (linkUnit_spec unit).2.1.uses id hdeclaring
    _ = none := by
      rw [use?, program_startDraft, uses_declareAll]
      rfl

end Program

/-- In the unit that is read from any tokens, a number is borne at one place at most, whatever kind of
construct stands there, and only once at that place. Whatever the resolver records, it records
for a node that it can tell from all others. -/
theorem ParsedUnit.numbers_identify_nodes (tokens : List Token) :
    let unit := (ofTokens tokens).unit
    (∀ path node, unit.HasAt path node → node.ownIds.Nodup) ∧
    (∀ path node path' node', unit.HasAt path node → unit.HasAt path' node' →
      ∀ id ∈ node.ownIds, id ∈ node'.ownIds → path = path' ∧ node = node') ∧
    ∀ id, (Program.ofUnit unit).use? id ≠ none →
      ∃! path, ∃ node, unit.HasAt path node ∧ id ∈ node.ownIds := by
  intro unit
  have hnodup : unit.numbers.Nodup := nodup_numbers_ofTokens tokens
  refine ⟨fun path node h => h.nodup_ownIds hnodup, ?_, fun id hid => ?_⟩
  · intro path node path' node' h h' id hid hid'
    obtain rfl := h.path_eq hnodup h' hid hid'
    exact ⟨rfl, h.unique h'⟩
  · obtain ⟨path, node, h, hown⟩ :=
      CompilationUnit.mem_numbers_iff.mp (Program.mem_numbers_of_use? unit hid)
    refine ⟨path, ⟨node, h, hown⟩, ?_⟩
    rintro path' ⟨node', h', hown'⟩
    exact h'.path_eq hnodup h hown' hown

end LockDiscipline
