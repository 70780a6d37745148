import LockDiscipline.Grammar.Program
import LockDiscipline.Proofs.Program.Steps
import LockDiscipline.Proofs.Program.Unit
/-!
# The way out of a class

The classes around a class are walked through in three ways: all of them are gathered, or a search stops at the
first one that has an answer, or they are gathered with an eye on those that were met before. None of the walks
counts its steps. They end because a class is declared after the one around it, which holds of every draft that is
reached while a unit is resolved: a class never leaves the class around it, and in the end every class is declared
after the one around it. `Program.enclosing`, which stops after as many classes as there are symbols, is what each
of the walks finds.
-/

namespace LockDiscipline
namespace Program

variable (program : Program)

/-- Every class is declared after the one around it. -/
def OuterFirst : Prop :=
  ∀ ⦃id outer⦄, program.outerClass? id = some outer → outer < id

/-- The way out of a class leads through these classes, from the class itself to the outermost one. -/
inductive WalksOut : SymbolId → List SymbolId → Prop where
  | outermost {id : SymbolId} (htop : program.outerClass? id = none) : WalksOut id [id]
  | outward {id outer : SymbolId} {classes : List SymbolId} (haround : program.outerClass? id = some outer)
      (hrest : WalksOut outer classes) : WalksOut id (id :: classes)

/-- A search on the way out of a class stops where it gets an answer. -/
inductive SearchesOut {α : Type} (answer? : SymbolId → Option α) : SymbolId → Option α → Prop where
  | found {id : SymbolId} {answer : α} (hanswered : answer? id = some answer) :
      SearchesOut answer? id (some answer)
  | outermost {id : SymbolId} (hunanswered : answer? id = none) (htop : program.outerClass? id = none) :
      SearchesOut answer? id none
  | outward {id outer : SymbolId} {result : Option α} (hunanswered : answer? id = none)
      (haround : program.outerClass? id = some outer) (hrest : SearchesOut answer? outer result) :
      SearchesOut answer? id result

/-- Classes are gathered on the way out of a class until there is none around or one that is gathered already. -/
inductive GathersOut : (gathered : List SymbolId) → SymbolId → List SymbolId → Prop where
  | outermost {gathered : List SymbolId} {id : SymbolId} (htop : program.outerClass? id = none) :
      GathersOut gathered id gathered
  | again {gathered : List SymbolId} {id outer : SymbolId} (haround : program.outerClass? id = some outer)
      (hknown : outer ∈ gathered) : GathersOut gathered id gathered
  | outward {gathered classes : List SymbolId} {id outer : SymbolId}
      (haround : program.outerClass? id = some outer) (hunknown : outer ∉ gathered)
      (hrest : GathersOut (gathered ++ [outer]) outer classes) : GathersOut gathered id classes

/-- The way out of each class ends, and the walks on it find the classes around the class, each once. -/
structure OuterChains : Prop where
  outerFirst : program.OuterFirst
  wellFounded : WellFounded fun outer id => program.outerClass? id = some outer
  walksOut : ∀ id classes, program.WalksOut id classes ↔ classes = program.enclosing id
  searchesOut : ∀ {α : Type} (answer? : SymbolId → Option α) id result,
    program.SearchesOut answer? id result ↔ result = (program.enclosing id).findSome? answer?
  gathersOut : ∀ id classes, program.GathersOut [id] id classes ↔ classes = program.enclosing id
  mem_enclosing : ∀ id around, around ∈ program.enclosing id ↔
    Relation.ReflTransGen (fun type outer => program.outerClass? type = some outer) id around
  nodup_enclosing : ∀ id, (program.enclosing id).Nodup

variable {program}

namespace WalksOut

variable {id : SymbolId} {classes : List SymbolId}

theorem eq_cons (hwalk : program.WalksOut id classes) : classes = id :: classes.tail := by
  cases hwalk <;> rfl

/-- The classes that are walked through are those that a class lies in. -/
theorem mem_iff (hwalk : program.WalksOut id classes) {around : SymbolId} : around ∈ classes ↔
    Relation.ReflTransGen (fun type outer => program.outerClass? type = some outer) id around := by
  induction hwalk with
  | outermost htop =>
      rw [List.mem_singleton, Relation.ReflTransGen.cases_head_iff]
      exact ⟨fun hsame => .inl hsame.symm, fun hleads => hleads.elim Eq.symm fun ⟨outer, haround, _⟩ =>
        nomatch htop.symm.trans haround⟩
  | outward haround _ ih =>
      rw [List.mem_cons, ih]
      refine Iff.trans (or_congr eq_comm ⟨fun hleads => ⟨_, haround, hleads⟩, ?_⟩)
        Relation.ReflTransGen.cases_head_iff.symm
      rintro ⟨outer, haround', hleads⟩
      rwa [Option.some.inj (haround.symm.trans haround')]

/-- The walk of at most so many steps is the whole one where the steps suffice for the class around. -/
theorem enclosingUpTo_eq (hwalk : program.WalksOut id classes) (hordered : program.OuterFirst) {steps : Nat}
    (henough : ∀ outer, program.outerClass? id = some outer → outer < steps) :
    program.enclosingUpTo (steps + 1) id = classes := by
  induction hwalk generalizing steps with
  | outermost htop => rw [enclosingUpTo, htop]
  | outward haround _ ih =>
      obtain ⟨more, rfl⟩ := Nat.exists_eq_add_of_lt (henough _ haround)
      rw [enclosingUpTo, haround]
      exact congrArg _ (ih fun outer haround' => Nat.lt_of_lt_of_le (hordered haround') (Nat.le_add_right ..))

/-- Symbols suffice as steps, since a class with another one around it is a symbol. -/
theorem enclosing_eq (hwalk : program.WalksOut id classes) (hordered : program.OuterFirst) :
    program.enclosing id = classes := by
  refine hwalk.enclosingUpTo_eq hordered fun outer haround => ?_
  obtain ⟨info, hknown, -⟩ := Option.bind_eq_some_iff.mp haround
  exact (hordered haround).trans (lt_size_of_classInfo?_eq_some hknown)

theorem le_of_mem (hwalk : program.WalksOut id classes) (hordered : program.OuterFirst) :
    ∀ around ∈ classes, around ≤ id := by
  induction hwalk with
  | outermost => exact List.forall_mem_singleton.mpr (Nat.le_refl _)
  | outward haround _ ih =>
      exact List.forall_mem_cons.mpr ⟨Nat.le_refl _, fun type hinside =>
        (ih type hinside).trans (Nat.le_of_lt (hordered haround))⟩

theorem nodup (hwalk : program.WalksOut id classes) (hordered : program.OuterFirst) : classes.Nodup := by
  induction hwalk with
  | outermost => exact List.nodup_singleton _
  | outward haround hrest ih =>
      exact List.nodup_cons.mpr ⟨fun hagain =>
        Nat.not_lt.mpr (hrest.le_of_mem hordered _ hagain) (hordered haround), ih⟩

theorem searchesOut {α : Type} (hwalk : program.WalksOut id classes) (answer? : SymbolId → Option α) :
    program.SearchesOut answer? id (classes.findSome? answer?) := by
  induction hwalk with
  | @outermost id htop =>
      rw [List.findSome?_singleton]
      cases hanswered : answer? id with
      | some answer => exact .found hanswered
      | none => exact .outermost hanswered htop
  | @outward id outer classes haround hrest ih =>
      rw [List.findSome?_cons]
      cases hanswered : answer? id with
      | some answer => exact .found hanswered
      | none => exact .outward hanswered haround ih

/-- Where a class is gathered only after those inside of it, none is met again. -/
theorem gathersOut_iff (hwalk : program.WalksOut id classes) (hordered : program.OuterFirst)
    {gathered all : List SymbolId} (hinner : ∀ type ∈ gathered, id ≤ type) :
    program.GathersOut gathered id all ↔ all = gathered ++ classes.tail := by
  induction hwalk generalizing gathered with
  | outermost htop =>
      rw [List.tail_cons, List.append_nil]
      refine ⟨fun hgathers => ?_, fun hsame => hsame ▸ .outermost htop⟩
      cases hgathers with
      | outermost => rfl
      | again haround | outward haround => exact nomatch htop.symm.trans haround
  | @outward id outer classes haround hrest ih =>
      have hunknown : outer ∉ gathered := fun hknown =>
        Nat.not_lt.mpr (hinner outer hknown) (hordered haround)
      have hlater : ∀ type ∈ gathered ++ [outer], outer ≤ type := by
        intro type hknown
        rcases List.mem_append.mp hknown with hknown | hknown
        · exact (Nat.le_of_lt (hordered haround)).trans (hinner type hknown)
        · exact Nat.le_of_eq (List.mem_singleton.mp hknown).symm
      have hgathersRest : program.GathersOut (gathered ++ [outer]) outer all ↔ all = gathered ++ classes := by
        rw [ih hlater, List.append_assoc, List.singleton_append, ← hrest.eq_cons]
      rw [List.tail_cons, ← hgathersRest]
      refine ⟨fun hgathers => ?_, .outward haround hunknown⟩
      cases hgathers with
      | outermost htop => exact nomatch htop.symm.trans haround
      | again haround' hknown =>
          obtain rfl := Option.some.inj (haround.symm.trans haround')
          exact absurd hknown hunknown
      | outward haround' _ hgathers =>
          obtain rfl := Option.some.inj (haround.symm.trans haround')
          exact hgathers

end WalksOut

/-- A search has only one result. -/
theorem SearchesOut.eq_findSome? {α : Type} {answer? : SymbolId → Option α} {id : SymbolId} {result : Option α}
    {classes : List SymbolId} (hsearch : program.SearchesOut answer? id result)
    (hwalk : program.WalksOut id classes) : result = classes.findSome? answer? := by
  induction hsearch generalizing classes with
  | found hanswered => rw [hwalk.eq_cons, List.findSome?_cons, hanswered]
  | outermost hunanswered htop =>
      cases hwalk with
      | outermost => rw [List.findSome?_singleton, hunanswered]
      | outward haround => exact nomatch htop.symm.trans haround
  | outward hunanswered haround _ ih =>
      cases hwalk with
      | outermost htop => exact nomatch htop.symm.trans haround
      | outward haround' hrest =>
          obtain rfl := Option.some.inj (haround.symm.trans haround')
          rw [List.findSome?_cons, hunanswered, ih hrest]

namespace OuterFirst

variable (hordered : program.OuterFirst)
include hordered

theorem wellFounded : WellFounded fun outer id => program.outerClass? id = some outer :=
  Subrelation.wf (fun haround => hordered haround) Nat.lt_wfRel.wf

/-- The way out of a class ends, by induction on the class: the one around it was declared before. -/
theorem walksOut_enclosing (id : SymbolId) : program.WalksOut id (program.enclosing id) := by
  obtain ⟨classes, hwalk⟩ : ∃ classes, program.WalksOut id classes := by
    induction id using hordered.wellFounded.induction with
    | h id ih =>
        cases haround : program.outerClass? id with
        | none => exact ⟨[id], .outermost haround⟩
        | some outer =>
            obtain ⟨classes, hrest⟩ := ih outer haround
            exact ⟨id :: classes, .outward haround hrest⟩
  rwa [hwalk.enclosing_eq hordered]

theorem outerChains : program.OuterChains where
  outerFirst := hordered
  wellFounded := hordered.wellFounded
  walksOut id classes :=
    ⟨fun hwalk => (hwalk.enclosing_eq hordered).symm, fun hsame => hsame ▸ hordered.walksOut_enclosing id⟩
  searchesOut answer? id result :=
    have hwalk := hordered.walksOut_enclosing id
    ⟨fun hsearch => hsearch.eq_findSome? hwalk, fun hsame => hsame ▸ hwalk.searchesOut answer?⟩
  gathersOut id classes := by
    have hwalk := hordered.walksOut_enclosing id
    rw [hwalk.gathersOut_iff hordered (List.forall_mem_singleton.mpr (Nat.le_refl id)), List.singleton_append,
      ← hwalk.eq_cons]
  mem_enclosing id around := (hordered.walksOut_enclosing id).mem_iff
  nodup_enclosing id := (hordered.walksOut_enclosing id).nodup hordered

end OuterFirst

/-- What is declared after the class around it in the end was so before. -/
theorem OuterFirst.of_keepsOuter {later : Program} (hordered : later.OuterFirst)
    (hkeeps : KeepsOuter program later) : program.OuterFirst :=
  fun _ _ haround => hordered (hkeeps haround)

section Units

open Resolving

/-- In every draft that is reached while a unit is resolved, and in the program that comes of it, a class is
declared after the one around it. So the walks out of each class end, and they find each class around it once. -/
theorem outerChains_of_reaches {N : Type} [NoteTaking N] (unit : CompilationUnit) (notes : N) :
    (∀ draft, Reaches (fun _ => resolveUnit unit) (start unit notes) draft → draft.program.OuterChains) ∧
      (ofUnit unit).OuterChains := by
  have hordered : (ofUnit unit).OuterFirst := fun id _ haround => (wellFormed_ofUnit unit).outer_lt id haround
  refine ⟨fun draft hreached => ?_, hordered.outerChains⟩
  have hkept := hreached.keepsOuter (built_resolveUnit unit)
  rw [program_resolveUnit] at hkept
  exact (hordered.of_keepsOuter hkept).outerChains

/-- Two classes of one name. The first one has two member classes of one name, and a local class with an anonymous
class in it; the second one has a local class. -/
def nestedClassUnit : CompilationUnit :=
  (ParsedUnit.ofTokens (Lexer.tokenize ("class A \x7b class B \x7b \x7d class B \x7b \x7d void f() \x7b " ++
    "class L \x7b Object o = new Object() \x7b \x7d; \x7d \x7d \x7d " ++
      "class A \x7b void g() \x7b class L \x7b \x7d \x7d \x7d").toList).tokens).unit

/-- The draft behind the body of the first of some classes. -/
private def behindFirst (classes : List (SymbolId × ClassDecl)) (draft : TrackedDraft) : TrackedDraft :=
  match classes with
  | [] => draft
  | (id, decl) :: _ => ((inScope (.classBody id) (resolveMembers decl.members)).run draft).2

private theorem reaches_behindFirst (classes : List (SymbolId × ClassDecl)) (draft : TrackedDraft) :
    Reaches (fun _ => resolveTopLevel classes) draft (behindFirst classes draft) := by
  cases classes with
  | nil => exact .start draft
  | cons entry rest =>
      exact .first ((built_resolveMembers entry.2.members).inScope _) (fun _ => built_resolveTopLevel rest)
        (.done draft)

/-- What is reached while the bodies of the linked classes are gone through is reached for the unit. -/
theorem reaches_of_resolveTopLevel {unit : CompilationUnit} {draft : TrackedDraft}
    (hinside : Reaches (fun _ => resolveTopLevel ((linkUnit unit).run (startDraft unit)).1) (linkedDraft unit)
      draft) : Reaches (fun _ => resolveUnit unit) (startDraft unit) draft := by
  have hfinished (ids : List SymbolId) : Built fun _ => (do
      let program ← ask id
      tell (.resolved ids.length program.symbols.size program.uses.size program.problems.length)) :=
    (Built.ask _).bind fun _ => .tell _
  exact .second (built_declareTopLevel ..)
    (fun _ => (built_linkTopLevel _).bind fun _ => (built_resolveTopLevel _).bind fun _ => hfinished _)
    (.second (built_linkTopLevel _) (fun _ => (built_resolveTopLevel _).bind fun _ => hfinished _)
      (.first (built_resolveTopLevel _) (fun _ => hfinished _) hinside))

private theorem enclosing_behindFirst :
    let draft := behindFirst ((linkUnit nestedClassUnit).run (startDraft nestedClassUnit)).1 (linkedDraft nestedClassUnit)
    draft.program.symbols.size < (ofUnit nestedClassUnit).symbols.size ∧
      [32, 30, 24] = draft.program.enclosing 32 ∧
      some 25 = (draft.program.enclosing 32).findSome? (draft.program.typeWithin? "B") ∧
      [33, 28] = (ofUnit nestedClassUnit).enclosing 33 := by
  decide +kernel

theorem outerChains_of_reaches_nested : ∃ draft,
    Reaches (fun _ => resolveUnit nestedClassUnit) (startDraft nestedClassUnit) draft ∧
    draft.program.symbols.size < (ofUnit nestedClassUnit).symbols.size ∧
    draft.program.WalksOut 32 [32, 30, 24] ∧ draft.program.GathersOut [32] 32 [32, 30, 24] ∧
    draft.program.SearchesOut (draft.program.typeWithin? "B") 32 (some 25) ∧
    (ofUnit nestedClassUnit).WalksOut 33 [33, 28] := by
  have hreached := reaches_of_resolveTopLevel
    (reaches_behindFirst ((linkUnit nestedClassUnit).run (startDraft nestedClassUnit)).1 (linkedDraft nestedClassUnit))
  have hknown := enclosing_behindFirst
  dsimp only at hknown
  generalize behindFirst ((linkUnit nestedClassUnit).run (startDraft nestedClassUnit)).1 (linkedDraft nestedClassUnit) =
    draft at hreached hknown
  obtain ⟨hearlier, hinside, hfound, hfinal⟩ := hknown
  obtain ⟨hchains, hchains'⟩ := outerChains_of_reaches nestedClassUnit (⟨[], []⟩ : Footprints)
  exact ⟨draft, hreached, hearlier, ((hchains draft hreached).walksOut 32 _).mpr hinside,
    ((hchains draft hreached).gathersOut 32 _).mpr hinside, ((hchains draft hreached).searchesOut _ 32 _).mpr hfound,
    (hchains'.walksOut 33 _).mpr hfinal⟩

end Units

end Program
end LockDiscipline
