import LockDiscipline.Proofs.Program.Declaration
/-!
# Declaring and linking leave settled classes alone

A class that is declared has the next number, and so have the classes in it after that. So nothing that
is declared or linked then concerns a class with a smaller number, but for the member classes of the
class around. Local and anonymous classes are declared where they stand, when all classes around them
were declared and linked before: these stay settled.
-/

namespace LockDiscipline.Resolving

open Program (settled?_declare settled?_updateClass_of_ne settled?_updateMembers)

/-- The classes below a number are settled between two drafts. -/
def Settles (bound : Nat) (before after : TrackedDraft) : Prop :=
  ∀ id < bound, after.program.settled? id = before.program.settled? id

namespace Settles

variable {bound bound' : Nat} {before middle after : TrackedDraft}

theorem refl (bound : Nat) (draft : TrackedDraft) : Settles bound draft draft := fun _ _ => rfl

theorem trans (hfirst : Settles bound before middle) (hsecond : Settles bound middle after) :
    Settles bound before after :=
  fun id hid => (hsecond id hid).trans (hfirst id hid)

theorem mono (hle : bound' ≤ bound) (h : Settles bound before after) : Settles bound' before after :=
  fun id hid => h id (Nat.lt_of_lt_of_le hid hle)

theorem retains {ids : List NodeId} (h : Settles before.program.symbols.size before after)
    (hdeclares : Declares ids before after) : before.program.Retains after.program :=
  hdeclares.grows.keeps h

end Settles

/-! ### Declaring -/

section Members

variable {owner : SymbolId} {draft : TrackedDraft}

theorem enterField_settles (name : String) (id : SymbolId) (span : Span) :
    Settles owner draft ((enterField owner name id span).run draft).2 := by
  rw [enterField, run_bind, run_ask]
  dsimp only
  split
  · exact .refl owner draft
  · exact fun id hid => settled?_updateClass_of_ne (Nat.ne_of_lt hid) _

variable (howner : owner < draft.program.symbols.size)
include howner

theorem declareField_settles (name : String) (type guard : Option String) (isStatic : Bool)
    (node : NodeId) (span : Span) :
    Settles owner draft ((declareField owner name type guard isStatic node span).run draft).2 := by
  have hdeclared : Settles owner draft ((declare name (.field owner isStatic) type guard span >>=
      fun id => setUse node id).run draft).2 := fun id hid =>
    settled?_declare (Nat.lt_trans hid howner) name _ type guard span
  exact hdeclared.trans (enterField_settles name _ span)

omit howner in
theorem declareFields_settles (modifiers : Modifiers) (type : String) (isStatic : Bool)
    (declarators : List Declarator) (hdraft : draft.program.WellFormed)
    (howner : owner < draft.program.symbols.size) :
    Settles owner draft ((declareFields owner modifiers type isStatic declarators).run draft).2 := by
  induction declarators generalizing draft with
  | nil => exact .refl owner draft
  | cons declarator rest ih =>
      have hfirst := declareField_spec owner declarator.name (some type) isStatic declarator.id
        declarator.span draft hdraft modifiers.guardedBy?
      exact (declareField_settles howner declarator.name (some type) modifiers.guardedBy? isStatic
        declarator.id declarator.span).trans (ih (hfirst.wellFormed hdraft)
          (Nat.lt_of_lt_of_le howner hfirst.grows.size_le))

theorem declareMethod_settles (method : MethodDecl) (inInterface : Bool) :
    Settles owner draft ((declareMethod owner method inInterface).run draft).2 := fun _ hid =>
  (settled?_updateClass_of_ne (Nat.ne_of_lt hid) _).trans
    (settled?_declare (Nat.lt_trans hid howner) method.name _ _ _ method.span)

end Members

theorem enterMemberClass_settles (owner : SymbolId) (name : String) (id : SymbolId) (bound : Nat)
    (draft : TrackedDraft) : Settles bound draft ((enterMemberClass owner name id).run draft).2 :=
  fun type _ => settled?_updateMembers owner type _

/-- A class is declared under the next number. -/
theorem declareClass_fst (outer : Option SymbolId) (name qualifiedName : String) (isStatic : Bool)
    (decl : ClassDecl) (draft : TrackedDraft) :
    ((declareClass outer name qualifiedName isStatic decl).run draft).1 =
      draft.program.symbols.size := by
  obtain ⟨node, ownName, kind, modifiers, typeParams, superclass, interfaces, members, span⟩ := decl
  rw [declareClass]
  rfl

mutual

theorem declareClass_settles (outer : Option SymbolId) (name qualifiedName : String)
    (isStatic : Bool) : ∀ (decl : ClassDecl) {draft : TrackedDraft}, draft.program.WellFormed →
      (∀ around, outer = some around → around < draft.program.symbols.size) →
      Settles draft.program.symbols.size draft
        ((declareClass outer name qualifiedName isStatic decl).run draft).2
  | ⟨node, ownName, kind, modifiers, typeParams, superclass, interfaces, members, span⟩, draft,
      hdraft, houter => by
    rw [declareClass]
    obtain ⟨hsymbol, -, info, hinfo, -⟩ := declareClassSymbol_spec node name kind outer
      qualifiedName isStatic span houter
    have hdeclared : Settles draft.program.symbols.size draft
        ((declareClassSymbol node name kind outer qualifiedName isStatic span).run draft).2 :=
      fun id hid => settled?_declare hid name _ none none span
    exact hdeclared.trans (declareMembers_settles _ qualifiedName ownName (kind == .interface) members
      (hsymbol.wellFormed hdraft) hinfo)

theorem declareMembers_settles (owner : SymbolId) (qualifiedName className : String)
    (inInterface : Bool) : ∀ (members : List Member) {draft : TrackedDraft} {info : ClassInfo},
      draft.program.WellFormed → draft.program.classInfo? owner = some info →
      Settles owner draft
        ((declareMembers owner qualifiedName className inInterface members).run draft).2
  | [], draft, _, _, _ => by
    rw [declareMembers]
    exact .refl owner draft
  | ⟨node, kind, span⟩ :: rest, draft, info, hdraft, hinfo => by
    rw [declareMembers]
    have hfirst := declareMember_spec owner qualifiedName className inInterface node span kind
      hdraft hinfo
    obtain ⟨info', hinfo', -⟩ := hfirst.declares.grows.classInfo? hinfo
    exact (declareMember_settles owner qualifiedName className inInterface node span kind hdraft
      hinfo).trans (declareMembers_settles owner qualifiedName className inInterface rest
        (hfirst.declares.wellFormed hdraft) hinfo')

theorem declareMember_settles (owner : SymbolId) (qualifiedName className : String)
    (inInterface : Bool) (node : NodeId) (span : Span) : ∀ (kind : MemberKind) {draft : TrackedDraft}
      {info : ClassInfo}, draft.program.WellFormed → draft.program.classInfo? owner = some info →
      Settles owner draft
        ((declareMember owner qualifiedName className inInterface node span kind).run draft).2
  | .field modifiers type declarators, draft, info, hdraft, hinfo => by
    rw [declareMember]
    exact declareFields_settles modifiers type _ declarators hdraft
      (Program.lt_size_of_classInfo?_eq_some hinfo)
  | .enumConstant name args body, draft, info, hdraft, hinfo => by
    rw [declareMember]
    exact declareField_settles (Program.lt_size_of_classInfo?_eq_some hinfo) name _ none true node span
  | .method method, draft, info, hdraft, hinfo => by
    rw [declareMember]
    exact declareMethod_settles (Program.lt_size_of_classInfo?_eq_some hinfo) method inInterface
  | .initializer isStatic body, draft, info, hdraft, hinfo => by
    rw [declareMember]
    exact .refl owner draft
  | .classDecl decl, draft, info, hdraft, hinfo => by
    rw [declareMember]
    have howner := Program.lt_size_of_classInfo?_eq_some hinfo
    have hclass := (declareClass_settles (some owner) decl.name (qualifiedName ++ "." ++ decl.name)
      (decl.modifiers.has .static || decl.kind != .class || inInterface) decl hdraft
      fun around haround => Option.some.inj haround ▸ howner).mono (Nat.le_of_lt howner)
    have hproblem (previous? : Option SymbolId) (draft : TrackedDraft) : Settles owner draft
        ((match previous? with
          | some previous => update fun program =>
              program.addProblem (.duplicateClass decl.name decl.span (program.spanOf previous))
          | none => Pure.pure () : Tracked Unit).run draft).2 := by
      cases previous? <;> exact .refl owner draft
    rw [run_bind, run_bind]
    exact hclass.trans ((enterMemberClass_settles owner decl.name _ owner _).trans (hproblem _ _))

end

/-! ### Linking -/

theorem setSupertypes_settles (id : SymbolId) (superclass : Option SymbolId)
    (interfaces : List SymbolId) (span : Span) (draft : TrackedDraft) :
    Settles id draft ((setSupertypes id superclass interfaces span).run draft).2 := by
  let isAcyclic (supertype : SymbolId) : Bool := !draft.program.isSubclass supertype id
  have hrun : (setSupertypes id superclass interfaces span).run draft =
      (do
        if !(superclass.toList ++ interfaces).all isAcyclic then
          update (·.addProblem
            (.cyclicInheritance (((draft.program.symbol? id).map (·.name)).getD "") span))
        update (·.updateClass id fun info =>
          { info with
            superclass := superclass.filter isAcyclic
            interfaces := interfaces.filter isAcyclic }) : Tracked Unit).run draft := rfl
  rw [hrun]
  cases (superclass.toList ++ interfaces).all isAcyclic with
  | true => exact fun type htype => settled?_updateClass_of_ne (Nat.ne_of_lt htype) _
  | false => exact fun type htype => settled?_updateClass_of_ne (Nat.ne_of_lt htype) _

theorem Settles.of_program_eq {before after : TrackedDraft} (h : after.program = before.program)
    (bound : Nat) : Settles bound before after :=
  fun _ _ => by rw [h]

mutual

/-- A class is linked with its member classes, which have greater numbers than it has. -/
theorem linkClass_settles {outer : Option SymbolId} (id : SymbolId) : ∀ (decl : ClassDecl)
    {draft : TrackedDraft}, draft.program.WellFormed → draft.program.use? decl.id = some id →
      draft.program.Declared outer decl → Settles id draft ((linkClass id decl).run draft).2
  | ⟨node, name, kind, modifiers, typeParams, superclass, interfaces, members, span⟩, draft,
      hdraft, huse, hdeclared => by
    rw [linkClass]
    let scope := (draft.program.outerClass? id).getD id
    have hmembers : ∀ member ∈ members, ∀ inner, member.kind = .classDecl inner →
        draft.program.Declared (some id) inner := by
      obtain ⟨huse', -, -, -, hmembers⟩ := hdeclared
      obtain rfl := Option.some.inj (huse.symm.trans huse')
      exact hmembers
    have hrest {found : Option SymbolId} {middle : TrackedDraft} (hmiddle : middle.program = draft.program)
        (hfound : ∀ type ∈ found.toList, type < draft.program.symbols.size) : Settles id draft
          ((do
            let interfaces ← findSupertypes scope interfaces
            setSupertypes id found interfaces span
            linkMembers members : Tracked Unit).run middle).2 := by
      obtain ⟨hsame, hlt⟩ := findSupertypes_spec scope interfaces (hmiddle ▸ hdraft)
      have hfinal := hsame.trans hmiddle
      have hset := (Declares.of_program_eq hfinal).trans
        (setSupertypes_spec id span (hfinal.symm ▸ hfound) (hsame.symm ▸ hlt))
      have hlinked := linkMembers_settles id members (hset.wellFormed hdraft)
        fun member hmember inner hkind => (hmembers member hmember inner hkind).mono hset.grows
          hset.fields fun number _ => hset.uses number List.not_mem_nil
      exact (Settles.of_program_eq hfinal id).trans ((setSupertypes_settles id found _ span _).trans hlinked)
    rw [run_bind, run_ask]
    cases superclass with
    | some type =>
        obtain ⟨hsame, hlt⟩ := findSupertype_spec scope type hdraft
        rw [run_bind]
        exact hrest hsame hlt
    | none =>
        rw [run_bind]
        exact hrest rfl fun _ h => absurd h List.not_mem_nil

theorem linkMembers_settles (owner : SymbolId) : ∀ (members : List Member) {draft : TrackedDraft},
    draft.program.WellFormed → (∀ member ∈ members, ∀ inner, member.kind = .classDecl inner →
      draft.program.Declared (some owner) inner) →
      Settles owner draft ((linkMembers members).run draft).2
  | [], draft, _, _ => by
    rw [linkMembers]
    exact .refl owner draft
  | ⟨node, kind, span⟩ :: rest, draft, hdraft, hmembers => by
    rw [linkMembers]
    obtain ⟨hmember, hrest⟩ := List.forall_mem_cons.mp hmembers
    have hfirst := linkMember_spec kind hdraft
    refine (linkMember_settles owner kind hdraft hmember).trans
      (linkMembers_settles owner rest (hfirst.wellFormed hdraft) fun member hmem inner hkind => ?_)
    exact (hrest member hmem inner hkind).mono hfirst.grows hfirst.fields
      fun number _ => hfirst.uses number List.not_mem_nil

theorem linkMember_settles (owner : SymbolId) : ∀ (kind : MemberKind) {draft : TrackedDraft},
    draft.program.WellFormed → (∀ inner, kind = .classDecl inner →
      draft.program.Declared (some owner) inner) →
      Settles owner draft ((linkMember kind).run draft).2
  | .classDecl decl, draft, hdraft, hkind => by
    rw [linkMember]
    have hdeclared := hkind decl rfl
    obtain ⟨id, info, huse, hinfo, houter⟩ : ∃ id info, draft.program.use? decl.id = some id ∧
        draft.program.classInfo? id = some info ∧ info.outer = some owner := by
      cases hdeclared with
      | intro huse hinfo houter => exact ⟨_, _, huse, hinfo, houter⟩
    have hlt : owner < id := hdraft.outer_lt id (by
      rw [Program.outerClass?, hinfo, Option.bind_some, houter])
    have hlinked := (linkClass_settles id decl hdraft huse hdeclared).mono (Nat.le_of_lt hlt)
    have hfound (found : Option SymbolId) : found = some id → Settles owner draft
        ((match found with
          | some id => linkClass id decl
          | none => Pure.pure () : Tracked Unit).run draft).2 := by
      rintro rfl
      exact hlinked
    exact hfound _ huse
  | .field .., draft, _, _ | .method _, draft, _, _ | .initializer .., draft, _, _
  | .enumConstant .., draft, _, _ => by
    rw [linkMember]
    · exact .refl owner draft
    · nofun

end

/-! ### Local and anonymous classes -/

theorem declareInside_settles {outer : SymbolId} {symbol : NamedSymbol} (decl : ClassDecl)
    {draft : TrackedDraft} (hdraft : draft.program.WellFormed)
    (hsymbol : draft.program.symbol? outer = some symbol) :
    Settles draft.program.symbols.size draft ((declareInside outer symbol decl).run draft).2 ∧
      ((declareInside outer symbol decl).run draft).1 = draft.program.symbols.size := by
  have houter : ∀ around, some outer = some around → around < draft.program.symbols.size :=
    fun _ h => Option.some.inj h ▸ Program.lt_size_of_symbol?_eq_some hsymbol
  rw [declareInside, run_bind, run_ask, run_bind]
  generalize toString ((nextNested outer).run draft).1 = number
  -- The numbering does not concern the names.
  let numbered := ((nextNested outer).run draft).2
  have hnumbered : numbered.program.WellFormed := hdraft
  have hclass (name qualifiedName : String) :=
    declareClass_settles (some outer) name qualifiedName false decl hnumbered houter
  split
  case isTrue => exact ⟨hclass _ _, declareClass_fst ..⟩
  case isFalse =>
    rw [run_bind]
    refine ⟨fun type htype => ?_, declareClass_fst ..⟩
    exact (enterMemberClass_settles outer decl.name _ _ _ type htype).trans (hclass _ _ type htype)

/-- When a local or anonymous class is declared and linked, all classes that there were before stay
settled. -/
theorem declareNested_retains {decl : ClassDecl} {draft : TrackedDraft} (hdraft : draft.program.WellFormed)
    (hnodup : (TreeNode.classDecl decl).numbers.Nodup) :
    draft.program.Retains ((declareNested decl).run draft).2.program := by
  refine Settles.retains ?_ (declareNested_spec decl hdraft).declares
  rw [run_declareNested]
  cases draft.scopes.currentClass? with
  | none => exact .refl _ draft
  | some outer =>
      dsimp only
      cases hsymbol : draft.program.symbol? outer with
      | none => exact .refl _ draft
      | some symbol =>
          dsimp only
          rw [run_bind]
          have hclass := declareInside_spec decl hdraft hsymbol
          obtain ⟨hsettles, hid⟩ := declareInside_settles decl hdraft hsymbol
          refine hsettles.trans (Settles.mono (Nat.le_of_eq hid.symm) ?_)
          exact linkClass_settles _ decl (hclass.declares.wellFormed hdraft) (hclass.use hnodup)
            (hclass.declared hnodup)

end LockDiscipline.Resolving
