import LockDiscipline.Proofs.Program.Declaration
import LockDiscipline.Proofs.Program.Ownership
/-!
# The classes around symbols

A field or method lies in the class that declares it, a variable in the class whose code declares it, and a class
may lie in another one. Names of types are looked up in the classes around a place, one after the other, so it
matters that there are only classes on the way. `Program.InClasses` says so. It holds of the library, and it stays
true as long as what is declared lies in a class, which it does where classes are declared with their members and
where variables are declared inside a class.
-/

namespace LockDiscipline

/-- The class that a symbol of a kind lies in. -/
def SymbolKind.around? : SymbolKind → Option SymbolId
  | .classType info => info.outer
  | .field owner _ | .method owner .. => some owner
  | .parameter context | .localVar context => some context

theorem NamedSymbol.Becomes.around?_eq {symbol later : NamedSymbol} (h : symbol.Becomes later) :
    later.kind.around? = symbol.kind.around? := by
  cases h with
  | same => rfl
  | learned hkind houter => rw [hkind, SymbolKind.around?, houter, SymbolKind.around?]

theorem NamedSymbol.around?_of_owner? {symbol : NamedSymbol} {owner : SymbolId} (h : symbol.owner? = some owner) :
    symbol.kind.around? = some owner ∧ symbol.isVariable = false := by
  rw [owner?] at h
  rw [isVariable]
  cases hkind : symbol.kind with
  | field | method =>
      rw [hkind] at h
      exact ⟨h, rfl⟩
  | _ =>
      rw [hkind] at h
      cases h

/-- A symbol that is no class has a type that is looked up in the class that it lies in. -/
theorem NamedSymbol.around?_of_not_class {symbol : NamedSymbol} (h : symbol.isClass = false) :
    symbol.kind.around? = some symbol.contextClass := by
  rw [isClass, classInfo?] at h
  rw [contextClass]
  cases hkind : symbol.kind with
  | classType info =>
      rw [hkind] at h
      cases h
  | _ => rfl

namespace Program

/-- What symbols lie in are classes. -/
def InClasses (program : Program) : Prop :=
  ∀ ⦃id symbol⦄, program.symbol? id = some symbol → ∀ ⦃type⦄, symbol.kind.around? = some type → program.IsClass type

namespace InClasses

variable {program later : Program}

theorem isClass_outer (h : program.InClasses) {id outer : SymbolId} (houter : program.outerClass? id = some outer) :
    program.IsClass outer := by
  obtain ⟨info, hinfo, houter⟩ := Option.bind_eq_some_iff.mp houter
  obtain ⟨symbol, hsymbol, hinfo⟩ := Option.bind_eq_some_iff.mp hinfo
  refine h hsymbol ?_
  rw [NamedSymbol.classInfo?] at hinfo
  split at hinfo
  · rename_i hkind
    rw [hkind, SymbolKind.around?, Option.some.inj hinfo, houter]
  · cases hinfo

/-- On the way out of a class there are only classes. -/
theorem isClass_of_mem_enclosing (h : program.InClasses) {type around : SymbolId} (htype : program.IsClass type)
    (haround : around ∈ program.enclosing type) : program.IsClass around := by
  rw [enclosing] at haround
  generalize program.symbols.size + 1 = steps at haround
  induction steps generalizing type with
  | zero => cases haround
  | succ steps ih =>
      rw [enclosingUpTo] at haround
      rcases List.mem_cons.mp haround with rfl | haround
      · exact htype
      · cases houter : program.outerClass? type with
        | none =>
            rw [houter] at haround
            cases haround
        | some outer =>
            rw [houter] at haround
            exact ih (h.isClass_outer houter) haround

/-- A program whose symbols lie in classes may grow by symbols that lie in classes. -/
theorem grow {classes : Prop} (h : program.InClasses) (hgrows : Grows classes program later)
    (hnew : ∀ ⦃id symbol⦄, program.symbols.size ≤ id → later.symbol? id = some symbol →
      ∀ ⦃type⦄, symbol.kind.around? = some type → later.IsClass type) : later.InClasses := by
  intro id symbol hsymbol type haround
  rcases Nat.lt_or_ge id program.symbols.size with hlt | hle
  · obtain ⟨old, hold⟩ : ∃ old, program.symbol? id = some old := ⟨_, Array.getElem?_eq_getElem hlt⟩
    obtain ⟨symbol', hsymbol', hbecomes⟩ := hgrows.symbol? hold
    obtain rfl := Option.some.inj (hsymbol.symm.trans hsymbol')
    exact (h hold (hbecomes.around?_eq ▸ haround)).mono hgrows
  · exact hnew hle hsymbol haround

theorem of_symbols_eq (h : program.InClasses) (hsame : later.symbols = program.symbols) : later.InClasses := by
  intro id symbol hsymbol type haround
  rw [symbol?, hsame] at hsymbol
  obtain ⟨info, hinfo⟩ := h hsymbol haround
  exact ⟨info, by rwa [classInfo?, symbol?, hsame]⟩

/-- Something may be declared in a class. -/
theorem declare (h : program.InClasses) (name : String) {kind : SymbolKind} (type guard : Option String) (span : Span)
    (haround : ∀ around, kind.around? = some around → program.IsClass around) :
    (program.declare name kind type guard span).2.InClasses := by
  intro id symbol hsymbol around hlies
  rw [symbol?_declare] at hsymbol
  split at hsymbol
  · obtain rfl := Option.some.inj hsymbol
    exact (haround around hlies).declare name kind type guard span
  · exact (h hsymbol hlies).declare name kind type guard span

theorem updateMembers (h : program.InClasses) (owner : SymbolId) (change : MemberTable → MemberTable) :
    (program.updateMembers owner change).InClasses := by
  intro id symbol hsymbol type haround
  have hlt : id < program.symbols.size := size_updateClass program owner _ ▸ lt_size_of_symbol?_eq_some hsymbol
  obtain ⟨old, hold⟩ : ∃ old, program.symbol? id = some old := ⟨_, Array.getElem?_eq_getElem hlt⟩
  obtain ⟨symbol', hsymbol', hbecomes⟩ := @becomes_updateClass program owner id old
    (fun info => { info with members := change info.members }) (fun _ => rfl) hold
  obtain rfl := Option.some.inj (hsymbol.symm.trans hsymbol')
  exact (h hold (hbecomes.around?_eq ▸ haround)).updateClass owner _

theorem declareLibraryClass (h : program.InClasses) (decl : Library.LibraryClass) :
    (Library.declareClass program decl).InClasses := by
  rw [Library.declareClass]
  -- The methods of the class lie in it.
  refine (List.foldlRecOn (motive := fun later : Program => later.InClasses ∧ later.IsClass program.symbols.size)
    decl.methods _ ⟨?_, ?_⟩ fun later hlater method _ => ⟨?_, ?_⟩).1
  · refine h.declare (Text.lastSegment decl.name) none none default ?_
    rintro _ ⟨⟩
  · exact ⟨_, (classInfo?_declare ..).trans (if_pos rfl)⟩
  · refine (hlater.1.declare method.1 (some method.2) none default ?_).updateMembers _ _
    rintro _ ⟨⟩
    exact hlater.2
  · exact (hlater.2.declare ..).updateClass _ _

/-- Where a unit starts, the symbols of the library lie in classes. -/
theorem start (unit : CompilationUnit) : (startDraft unit).program.InClasses := by
  have hempty : (Program.empty unit.package).InClasses := fun id symbol h => by
    simp [Program.empty, symbol?] at h
  have hlibrary : (Library.declareAll (.empty unit.package)).InClasses :=
    List.foldlRecOn (motive := InClasses) Library.classes _ hempty fun _ h decl _ => h.declareLibraryClass decl
  exact hlibrary.of_symbols_eq (by rw [program_startDraft])

end InClasses

/-- What the node of a class or of a member is recorded for is no variable, and it lies in a class. -/
theorem Declared.around {program : Program} {outer : Option SymbolId} {decl : ClassDecl}
    (h : program.Declared outer decl) (houter : ∀ ⦃type⦄, outer = some type → program.IsClass type) {node : NodeId}
    (hnode : node ∈ decl.declaring) :
    ∃ id symbol, program.use? node = some id ∧ program.symbol? id = some symbol ∧ symbol.isVariable = false ∧
      ∀ ⦃type⦄, symbol.kind.around? = some type → program.IsClass type := by
  induction h with
  | @intro outer decl self info hself hinfo hlies hcarriers hmembers ih =>
      have hclass : program.IsClass self := ⟨info, hinfo⟩
      rw [decl.declaring_eq] at hnode
      rcases List.mem_cons.mp hnode with rfl | hnode
      · obtain ⟨symbol, hsymbol, hinfo⟩ := Option.bind_eq_some_iff.mp hinfo
        refine ⟨self, symbol, hself, hsymbol,
          symbol.isVariable_eq_false_of_isClass (Option.isSome_iff_exists.mpr ⟨info, hinfo⟩), ?_⟩
        rw [NamedSymbol.classInfo?] at hinfo
        split at hinfo
        · rename_i hkind
          rw [hkind, SymbolKind.around?, Option.some.inj hinfo, hlies]
          exact houter
        · cases hinfo
      · obtain ⟨member, hmember, hnode⟩ := mem_declaringMembers.mp hnode
        by_cases hkind : ∃ inner, member.kind = .classDecl inner
        · obtain ⟨inner, hkind⟩ := hkind
          rw [hkind, MemberKind.declaring] at hnode
          exact ih member hmember inner hkind (by rintro _ ⟨⟩; exact hclass) hnode
        · rw [← member.map_carriers fun inner h => hkind ⟨inner, h⟩] at hnode
          obtain ⟨carrier, hcarrier, rfl⟩ := List.mem_map.mp hnode
          obtain ⟨id, symbol, hused, hsymbol, howner, -⟩ := hcarriers member hmember carrier hcarrier
          obtain ⟨haround, hvariable⟩ := symbol.around?_of_owner? howner
          refine ⟨id, symbol, hused, hsymbol, hvariable, ?_⟩
          rw [haround]
          rintro _ ⟨⟩
          exact hclass

end Program

namespace Resolving

/-- The symbols of a class that is declared lie in classes like those before. -/
theorem Declares.inClasses {ids : List NodeId} {before after : TrackedDraft} (h : Declares ids before after)
    (hnodup : ids.Nodup) (hbefore : before.program.InClasses)
    (hdeclared : ∀ node ∈ ids, ∃ id symbol, after.program.use? node = some id ∧
      after.program.symbol? id = some symbol ∧ symbol.isVariable = false ∧
        ∀ ⦃type⦄, symbol.kind.around? = some type → after.program.IsClass type) : after.program.InClasses := by
  refine hbefore.grow h.grows fun id symbol hle hsymbol => ?_
  obtain ⟨node, hnode, huse⟩ := h.recorded hnodup id hle (Program.lt_size_of_symbol?_eq_some hsymbol)
  obtain ⟨id', symbol', huse', hsymbol', -, haround⟩ := hdeclared node hnode
  obtain rfl := Option.some.inj (huse.symm.trans huse')
  obtain rfl := Option.some.inj (hsymbol.symm.trans hsymbol')
  exact haround

/-- Computations that declare nothing leave the classes around symbols alone. -/
theorem Declares.inClasses_of_nil {before after : TrackedDraft} (h : Declares [] before after)
    (hbefore : before.program.InClasses) : after.program.InClasses :=
  h.inClasses .nil hbefore (List.forall_mem_nil _)

end Resolving
end LockDiscipline
