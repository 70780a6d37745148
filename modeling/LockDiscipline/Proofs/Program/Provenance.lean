import LockDiscipline.Proofs.Program.Unit
/-!
# Where fields and guarded members come from

The library declares no guards and no fields, so a field, or a method with a guard, was declared when the
resolver came to a class of the unit: to a top-level class before it goes through any bodies, or to a local or
anonymous one on its way through them. Either way the symbol is still the one that is recorded for the node of
its declaration, and that node stands in the body of a class.
-/

namespace LockDiscipline

/-- A member is reached through the class that it is a member of. -/
theorem Within.exists_classDecl_of_member {outer : ClassDecl} {path : List PathStep} {member : Member}
    (h : Within (.classDecl outer) path (.member member)) :
    ∃ front step decl, path = front ++ [step] ∧ Within (.classDecl outer) front (.classDecl decl) ∧
      member ∈ decl.members := by
  rcases List.eq_nil_or_concat path with rfl | ⟨front, step, rfl⟩
  · cases h
  · rw [List.concat_eq_append] at h ⊢
    obtain ⟨middle, hfront, hlast⟩ := h.split
    cases hlast with
    | part hpart hinner =>
        cases hinner with
        | here =>
            obtain ⟨decl, rfl, hmember⟩ :=
              TreeNode.eq_classDecl_of_member (List.mem_of_getElem? hpart) rfl
            exact ⟨front, step, decl, rfl, hfront, hmember⟩

namespace Program

/-! ### The library -/

/-- No symbol of a program has a guard, and none is a field or a variable. -/
def Unguarded (program : Program) : Prop :=
  ∀ id symbol, program.symbol? id = some symbol →
    symbol.guard = none ∧ symbol.isField = false ∧ symbol.isVariable = false

namespace Unguarded

variable {program : Program}

theorem declare (h : program.Unguarded) (name : String) {kind : SymbolKind} (type : Option String)
    (span : Span) (hkind : ∀ symbol : NamedSymbol, symbol.kind = kind →
      symbol.isField = false ∧ symbol.isVariable = false) :
    (program.declare name kind type none span).2.Unguarded := by
  intro id symbol hsymbol
  rw [symbol?_declare] at hsymbol
  split at hsymbol
  · obtain rfl := Option.some.inj hsymbol
    exact ⟨rfl, hkind _ rfl⟩
  · exact h id symbol hsymbol

theorem updateMembers (h : program.Unguarded) (owner : SymbolId)
    (change : MemberTable → MemberTable) : (program.updateMembers owner change).Unguarded := by
  intro id symbol hsymbol
  have hid : id < program.symbols.size :=
    program.size_updateClass owner _ ▸ lt_size_of_symbol?_eq_some hsymbol
  obtain ⟨old, hold⟩ : ∃ old, program.symbol? id = some old := ⟨_, Array.getElem?_eq_getElem hid⟩
  have houter (info : ClassInfo) : { info with members := change info.members }.outer = info.outer :=
    rfl
  obtain ⟨later, hlater, hbecomes⟩ := becomes_updateClass owner houter hold
  obtain rfl := Option.some.inj (hsymbol.symm.trans hlater)
  obtain ⟨hguard, hkind⟩ := h id old hold
  cases hbecomes with
  | same => exact ⟨hguard, hkind⟩
  | learned => exact ⟨hguard, rfl, rfl⟩

theorem declareLibraryClass (h : program.Unguarded) (decl : Library.LibraryClass) :
    (Library.declareClass program decl).Unguarded := by
  refine List.foldlRecOn (motive := Unguarded) decl.methods _ ?_ fun _ hmethods method _ =>
    Unguarded.updateMembers (hmethods.declare method.1 (some method.2) default ?_) _ _
  · refine h.declare (Text.lastSegment decl.name) none default fun symbol hkind => ?_
    rw [NamedSymbol.isField, NamedSymbol.isVariable, hkind]
    exact ⟨rfl, rfl⟩
  · intro symbol hkind
    rw [NamedSymbol.isField, NamedSymbol.isVariable, hkind]
    exact ⟨rfl, rfl⟩

end Unguarded

theorem unguarded_start (unit : CompilationUnit) : (startDraft unit).program.Unguarded := by
  have hempty : (Program.empty unit.package).Unguarded := fun id symbol h => by
    simp [Program.empty, symbol?] at h
  have hlibrary : (Library.declareAll (.empty unit.package)).Unguarded :=
    List.foldlRecOn (motive := Unguarded) Library.classes _ hempty
      fun _ h decl _ => h.declareLibraryClass decl
  -- The imports are no symbols.
  simp only [program_startDraft, Unguarded, symbol?]
  exact hlibrary

/-! ### The unit -/

section Unit

variable {unit : CompilationUnit} (hnodup : unit.numbers.Nodup)
include hnodup

/-- What top-level classes and their members declare stays recorded for their nodes. -/
theorem use?_ofUnit_of_declaring {decl : ClassDecl} (hdecl : decl ∈ unit.types) {node : NodeId}
    (hnode : node ∈ decl.declaring) :
    (ofUnit unit).use? node = (linkedDraft unit).program.use? node := by
  refine use?_ofUnit unit ?_
  rintro ⟨part, hpart, hreaches⟩
  obtain ⟨other, hother, rfl⟩ := List.mem_map.mp hpart
  obtain ⟨path, inner, hinner, -, hid, -⟩ := decl.bearsDeclared hnode
  obtain ⟨path', inner', hinner', -, hid'⟩ := hreaches.exists_ownIds
  obtain ⟨rfl, -⟩ :=
    CompilationUnit.path_eq_of_numbers_nodup hnodup hdecl hother hinner hinner' hid hid'
  exact ClassDecl.not_reaches_of_declaring (hnodup.sublist (unit.numbers_sublist hdecl)) hnode hreaches

/-- A field, or a method with a guard, is declared by a member somewhere in a class of the unit. -/
theorem declaredIn_ofUnit {id owner : SymbolId} {symbol : NamedSymbol}
    (hsymbol : (ofUnit unit).symbol? id = some symbol) (howner : symbol.owner? = some owner)
    (hnew : symbol.guard ≠ none ∨ symbol.isField) :
    ∃ decl ∈ unit.types, (ofUnit unit).DeclaredIn (.classDecl decl) id := by
  have hintroduced := (covered_draftOf hnodup).introduced id owner symbol
  rw [program_draftOf] at hintroduced
  rcases hintroduced hsymbol howner with hlinked | ⟨part, hpart, hdeclared⟩
  · have hdeclares := (Resolving.linkUnit_spec unit).2.1
    rcases Nat.lt_or_ge id (startDraft unit).program.symbols.size with hlt | hle
    · have hstart := hdeclares.grows.symbol?_of_lt_size hlinked
        (symbol.classInfo?_eq_none_of_owner? howner) hlt
      obtain ⟨hguard, hfield, -⟩ := unguarded_start unit id symbol hstart
      rw [hguard, hfield] at hnew
      exact absurd hnew (by simp)
    · obtain ⟨node, hnode, huse⟩ := hdeclares.recorded
        (hnodup.sublist unit.declaring_sublist_numbers) id hle (lt_size_of_symbol?_eq_some hlinked)
      obtain ⟨decl, hdecl, hnode⟩ := List.mem_flatMap.mp hnode
      obtain ⟨around, hdeclared⟩ := exists_declared_ofUnit hnodup hdecl (.here _)
        fun _ hstep => absurd hstep List.not_mem_nil
      exact ⟨decl, hdecl, hdeclared.declaredIn hnode
        ((use?_ofUnit_of_declaring hnodup hdecl hnode).trans huse) hsymbol howner⟩
  · rw [Course.parts_ofParts] at hpart
    obtain ⟨decl, hdecl, rfl⟩ := List.mem_map.mp hpart
    exact ⟨decl, hdecl, hdeclared⟩

/-- The node of a field or method with a guard stands in the body of a class, outside annotations. -/
theorem exists_carrier_ofUnit {id owner : SymbolId} {symbol : NamedSymbol} {guard : String}
    (hsymbol : (ofUnit unit).symbol? id = some symbol) (howner : symbol.owner? = some owner)
    (hguard : symbol.guard = some guard) :
    ∃ outer ∈ unit.types, ∃ path decl, Within (.classDecl outer) path (.classDecl decl) ∧
      (∀ step ∈ path, step.role.isResolved) ∧ ∃ member ∈ decl.members,
        ∃ carrier ∈ member.carriers, (ofUnit unit).use? carrier.2 = some id := by
  obtain ⟨outer, houter, path, member, hwithin, hpath, carrier, hcarrier, huse, -⟩ :=
    declaredIn_ofUnit hnodup hsymbol howner (.inl (by rw [hguard]; nofun))
  obtain ⟨front, step, decl, rfl, hfront, hmember⟩ := hwithin.exists_classDecl_of_member
  exact ⟨outer, houter, front, decl, hfront, fun step hstep => hpath step
    (List.mem_append_left _ hstep), member, hmember, carrier, hcarrier, huse⟩

/-- A field has the name that a member in a class of the unit declares, and its class finds a field of this
name among its own. -/
theorem exists_fieldNames_ofUnit {id owner : SymbolId} {symbol : NamedSymbol}
    (hsymbol : (ofUnit unit).symbol? id = some symbol) (howner : symbol.owner? = some owner)
    (hfield : symbol.isField) :
    (∃ outer ∈ unit.types, ∃ path member, Within (.classDecl outer) path (.member member) ∧
      symbol.name ∈ member.fieldNames.map (·.1)) ∧
        ∃ entry ∈ ((ofUnit unit).members owner).fields, entry.1 = symbol.name := by
  obtain ⟨outer, houter, path, member, hwithin, -, carrier, hcarrier, huse, owner', inInterface, hcarries⟩ :=
    declaredIn_ofUnit hnodup hsymbol howner (.inr hfield)
  obtain ⟨id', symbol', huse', hsymbol', howner', -, -, hnamed⟩ := hcarries
  obtain rfl := Option.some.inj (huse.symm.trans huse')
  obtain rfl := Option.some.inj (hsymbol.symm.trans hsymbol')
  obtain rfl := Option.some.inj (howner.symm.trans howner')
  obtain ⟨hname, hentry⟩ := hnamed hfield
  exact ⟨⟨outer, houter, path, member, hwithin, List.mem_map.mpr ⟨_, hname, rfl⟩⟩, hentry⟩

end Unit

end Program
end LockDiscipline
