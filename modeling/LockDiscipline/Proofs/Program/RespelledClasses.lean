import LockDiscipline.Proofs.Program.Respelling
import LockDiscipline.Proofs.Program.Settling
import LockDiscipline.Proofs.Tree.Retouch
/-!
# Declaring and linking classes when a variable is respelled

The first part of the resolver declares no variables, and the supertypes of classes are looked up from inside
classes. So it does the same to a draft in which a variable has its new name, and what it makes of that is the draft
that it makes otherwise with the variable respelled. `Resolving.RespellsAt` says this of any two computations. What
is declared lies in classes again, so that types are found alike afterwards.
-/

namespace LockDiscipline
namespace Resolving

/-! ### Computations on respelled drafts -/

/-- A computation does to the respelled draft what another one does to the draft. -/
def RespellsAt (respelling : Respelling) {α : Type} (build build' : Tracked α) (draft : TrackedDraft) : Prop :=
  build'.run (draft.respell respelling) = ((build.run draft).1, (build.run draft).2.respell respelling)

namespace RespellsAt

variable {respelling : Respelling} {α β : Type} {build build' : Tracked α} {draft : TrackedDraft}

theorem pure (value : α) (draft : TrackedDraft) :
    RespellsAt respelling (Pure.pure value) (Pure.pure value) draft := rfl

theorem bind {next next' : α → Tracked β} (h : RespellsAt respelling build build' draft)
    (hnext : RespellsAt respelling (next (build.run draft).1) (next' (build.run draft).1) (build.run draft).2) :
    RespellsAt respelling (build >>= next) (build' >>= next') draft := by
  rw [RespellsAt, run_bind, run_bind, h]
  exact hnext

/-- What is asked of a program has the answer that it has for the respelled one. -/
theorem ask {question question' : Program → α}
    (hquestion : question' (draft.program.respell respelling) = question draft.program) :
    RespellsAt respelling (Resolving.ask question) (Resolving.ask question') draft :=
  congrArg (·, draft.respell respelling) hquestion

/-- What goes on with the program goes on with the respelled one. -/
theorem ask_bind {next next' : Program → Tracked α}
    (hnext : RespellsAt respelling (next draft.program) (next' (draft.program.respell respelling)) draft) :
    RespellsAt respelling (Resolving.ask (fun program => program) >>= next)
      (Resolving.ask (fun program => program) >>= next') draft :=
  hnext

theorem update {change change' : Program → Program}
    (hchange : change' (draft.program.respell respelling) = (change draft.program).respell respelling) :
    RespellsAt respelling (Resolving.update change) (Resolving.update change') draft :=
  congrArg (fun program => ((), ({ draft.respell respelling with program } : TrackedDraft))) hchange

theorem updateScopes {change change' : ScopeStack → ScopeStack}
    (hchange : change' (draft.scopes.respell respelling) = (change draft.scopes).respell respelling) :
    RespellsAt respelling (Resolving.updateScopes change) (Resolving.updateScopes change') draft :=
  congrArg (fun scopes => ((), ({ draft.respell respelling with scopes } : TrackedDraft))) hchange

theorem setUse (node : NodeId) (id : SymbolId) (draft : TrackedDraft) :
    RespellsAt respelling (Resolving.setUse node id) (Resolving.setUse node id) draft := rfl

theorem tell (event : TraceEvent) (draft : TrackedDraft) :
    RespellsAt respelling (Resolving.tell event) (Resolving.tell event) draft := rfl

/-- A symbol that is declared may be the variable, which is declared under its new name. -/
theorem declare {name name' : String} {kind : SymbolKind} {type guard : Option String} {span : Span}
    (hname : (⟨draft.program.symbols.size, name, kind, type, guard, span⟩ : NamedSymbol).respell respelling =
      ⟨draft.program.symbols.size, name', kind, type, guard, span⟩) :
    RespellsAt respelling (Resolving.declare name kind type guard span)
      (Resolving.declare name' kind type guard span) draft := by
  have hprogram := draft.program.respell_declare respelling hname
  refine Prod.ext (draft.program.alike_respell respelling).size_eq ?_
  exact congrArg (fun program => { draft.respell respelling with program }) hprogram.symm

end RespellsAt

/-! ### Declaring classes -/

section Classes

variable (respelling : Respelling)

/-- What is no variable is declared under its name. -/
theorem respells_declareMember (name : String) {kind : SymbolKind} (hkind : ∀ symbol : NamedSymbol,
    symbol.kind = kind → symbol.isVariable = false) (type guard : Option String) (span : Span) (draft : TrackedDraft) :
    RespellsAt respelling (declare name kind type guard span) (declare name kind type guard span) draft :=
  .declare (NamedSymbol.respell_of_not_variable respelling (hkind _ rfl))

theorem respells_updateMembers (owner : SymbolId) (change : MemberTable → MemberTable) (draft : TrackedDraft) :
    RespellsAt respelling (update (·.updateMembers owner change)) (update (·.updateMembers owner change)) draft :=
  .update (draft.program.respell_updateClass respelling owner _).symm

/-- A problem that tells where something else is tells the same. -/
theorem respells_addDuplicate {problem : Span → NameProblem} (previous : SymbolId) (draft : TrackedDraft) :
    RespellsAt respelling (update fun program => program.addProblem (problem (program.spanOf previous)))
      (update fun program => program.addProblem (problem (program.spanOf previous))) draft := by
  refine .update ?_
  rw [draft.program.spanOf_respell respelling]
  rfl

theorem respells_enterField (owner : SymbolId) (name : String) (id : SymbolId) (span : Span) (draft : TrackedDraft) :
    RespellsAt respelling (enterField owner name id span) (enterField owner name id span) draft := by
  have hmembers := (draft.program.alike_respell respelling).members_eq owner
  refine RespellsAt.bind (.ask (by rw [hmembers])) ?_
  rw [run_ask]
  dsimp only
  cases enterOnce name id (draft.program.members owner).fields with
  | mk previous? fields =>
      cases previous? with
      | some previous => exact respells_addDuplicate respelling previous draft
      | none => exact respells_updateMembers respelling owner _ draft

theorem respells_declareField (owner : SymbolId) (name : String) (type guard : Option String) (isStatic : Bool)
    (node : NodeId) (span : Span) (draft : TrackedDraft) :
    RespellsAt respelling (declareField owner name type guard isStatic node span)
      (declareField owner name type guard isStatic node span) draft := by
  apply RespellsAt.bind (respells_declareMember respelling name (by rintro symbol h; rw [NamedSymbol.isVariable, h])
    type guard span draft)
  apply RespellsAt.bind (.setUse node _ _)
  exact respells_enterField respelling owner name _ span _

theorem respells_declareFields (owner : SymbolId) (modifiers : Modifiers) (type : String) (isStatic : Bool)
    (declarators : List Declarator) (draft : TrackedDraft) :
    RespellsAt respelling (declareFields owner modifiers type isStatic declarators)
      (declareFields owner modifiers type isStatic declarators) draft := by
  induction declarators generalizing draft with
  | nil => exact .pure () draft
  | cons declarator rest ih =>
      rw [declareFields]
      apply RespellsAt.bind (respells_declareField respelling ..)
      exact ih _

theorem respells_declareMethod (owner : SymbolId) (method : MethodDecl) (inInterface : Bool) (draft : TrackedDraft) :
    RespellsAt respelling (declareMethod owner method inInterface) (declareMethod owner method inInterface) draft := by
  apply RespellsAt.bind (respells_declareMember respelling method.name
    (by rintro symbol h; rw [NamedSymbol.isVariable, h]) _ _ _ draft)
  apply RespellsAt.bind (.setUse method.id _ _)
  exact respells_updateMembers respelling owner _ _

theorem respells_enterMemberClass (owner : SymbolId) (name : String) (id : SymbolId) (draft : TrackedDraft) :
    RespellsAt respelling (enterMemberClass owner name id) (enterMemberClass owner name id) draft := by
  have hmembers := (draft.program.alike_respell respelling).members_eq owner
  refine RespellsAt.bind (.ask (by rw [hmembers])) ?_
  rw [run_ask]
  dsimp only
  cases enterOnce name id (draft.program.members owner).classes with
  | mk previous? classes =>
      apply RespellsAt.bind (respells_updateMembers respelling owner _ draft)
      exact .pure _ _

theorem respells_declareClassSymbol (node : NodeId) (name : String) (kind : ClassKind) (outer : Option SymbolId)
    (qualifiedName : String) (isStatic : Bool) (span : Span) (draft : TrackedDraft) :
    RespellsAt respelling (declareClassSymbol node name kind outer qualifiedName isStatic span)
      (declareClassSymbol node name kind outer qualifiedName isStatic span) draft := by
  apply RespellsAt.bind (respells_declareMember respelling name
    (by rintro symbol h; rw [NamedSymbol.isVariable, h]) _ _ span draft)
  apply RespellsAt.bind (.setUse node _ _)
  apply RespellsAt.bind (.update (by rfl))
  exact .pure _ _

mutual

theorem respells_declareClass (outer : Option SymbolId) (name qualifiedName : String) (isStatic : Bool) :
    ∀ (decl : ClassDecl) (draft : TrackedDraft),
      RespellsAt respelling (declareClass outer name qualifiedName isStatic decl)
        (declareClass outer name qualifiedName isStatic decl) draft
  | ⟨node, ownName, kind, _, _, _, _, members, span⟩, draft => by
    rw [declareClass]
    apply RespellsAt.bind (respells_declareClassSymbol respelling ..)
    apply RespellsAt.bind (respells_declareMembers _ _ _ _ members _)
    exact .pure _ _

theorem respells_declareMembers (owner : SymbolId) (qualifiedName className : String) (inInterface : Bool) :
    ∀ (members : List Member) (draft : TrackedDraft),
      RespellsAt respelling (declareMembers owner qualifiedName className inInterface members)
        (declareMembers owner qualifiedName className inInterface members) draft
  | [], draft => by
    rw [declareMembers]
    exact .pure () draft
  | ⟨node, kind, span⟩ :: rest, draft => by
    rw [declareMembers]
    exact RespellsAt.bind (respells_declareMemberKind owner qualifiedName className inInterface node span kind draft)
      (respells_declareMembers owner qualifiedName className inInterface rest _)

theorem respells_declareMemberKind (owner : SymbolId) (qualifiedName className : String) (inInterface : Bool)
    (node : NodeId) (span : Span) : ∀ (kind : MemberKind) (draft : TrackedDraft),
      RespellsAt respelling (declareMember owner qualifiedName className inInterface node span kind)
        (declareMember owner qualifiedName className inInterface node span kind) draft
  | .field modifiers type declarators, draft =>
      respells_declareFields respelling owner modifiers type _ declarators draft
  | .enumConstant name _ _, draft => respells_declareField respelling owner name _ none true node span draft
  | .method method, draft => respells_declareMethod respelling owner method inInterface draft
  | .initializer _ _, draft => .pure () draft
  | .classDecl decl, draft => by
    rw [declareMember]
    apply RespellsAt.bind (respells_declareClass (some owner) decl.name _ _ decl draft)
    apply RespellsAt.bind (respells_enterMemberClass respelling owner decl.name _ _)
    split
    · exact respells_addDuplicate respelling _ _
    · exact .pure () _

end

/-! ### Linking classes -/

variable {scope : SymbolId} {draft : TrackedDraft}

theorem respells_findSupertype (hclasses : draft.program.InClasses) (hscope : draft.program.IsClass scope)
    (type : String) : RespellsAt respelling (findSupertype scope type) (findSupertype scope type) draft := by
  have hfind : (draft.program.respell respelling).findType? scope = draft.program.findType? scope :=
    funext (hclasses.findType?_respell respelling hscope)
  refine RespellsAt.bind (.ask (by rw [hfind])) ?_
  rw [run_ask]
  dsimp only
  split
  · exact RespellsAt.bind (.tell _ _) (.pure _ _)
  · exact .pure _ _

theorem respells_findSupertypes (hdraft : draft.program.WellFormed) (hclasses : draft.program.InClasses)
    (hscope : draft.program.IsClass scope) (types : List String) :
    RespellsAt respelling (findSupertypes scope types) (findSupertypes scope types) draft := by
  induction types generalizing draft with
  | nil => exact .pure [] draft
  | cons type rest ih =>
      obtain ⟨hsame, -⟩ := findSupertype_spec scope type hdraft
      rw [findSupertypes]
      apply RespellsAt.bind (respells_findSupertype respelling hclasses hscope type)
      refine RespellsAt.bind (ih ?_ ?_ ?_) (.pure _ _)
      · rwa [hsame]
      · rwa [hsame]
      · rwa [hsame]

theorem respells_setSupertypes {id : SymbolId} (hclass : draft.program.IsClass id) (superclass : Option SymbolId)
    (interfaces : List SymbolId) (span : Span) :
    RespellsAt respelling (setSupertypes id superclass interfaces span) (setSupertypes id superclass interfaces span)
      draft := by
  have hsubclass : (draft.program.respell respelling).isSubclass = draft.program.isSubclass := by
    funext type ancestor
    exact (draft.program.alike_respell respelling).isSubclass_eq type ancestor
  have hsymbol := hclass.symbol?_respell respelling
  have hupdate (draft : TrackedDraft) (change : ClassInfo → ClassInfo) :
      RespellsAt respelling (update (·.updateClass id change)) (update (·.updateClass id change)) draft :=
    .update (draft.program.respell_updateClass respelling id change).symm
  apply RespellsAt.ask_bind
  simp only [hsubclass, hsymbol]
  split
  · exact RespellsAt.bind (.update rfl) (hupdate _ _)
  · exact hupdate _ _

mutual

theorem respells_linkClass {outer : Option SymbolId} (id : SymbolId) : ∀ (decl : ClassDecl) {draft : TrackedDraft},
    draft.program.WellFormed → draft.program.InClasses → draft.program.use? decl.id = some id →
      draft.program.Declared outer decl →
      RespellsAt respelling (linkClass id decl) (linkClass id decl) draft
  | ⟨node, name, kind, modifiers, typeParams, superclass, interfaces, members, span⟩, draft, hdraft, hclasses,
      huse, hdeclared => by
    obtain ⟨hclass, hmembers⟩ : draft.program.IsClass id ∧
        ∀ member ∈ members, ∀ inner, member.kind = .classDecl inner →
          draft.program.Declared (some id) inner := by
      obtain ⟨huse', hinfo, -, -, hmembers⟩ := hdeclared
      obtain rfl := Option.some.inj (huse.symm.trans huse')
      exact ⟨⟨_, hinfo⟩, hmembers⟩
    have hscope : draft.program.IsClass ((draft.program.outerClass? id).getD id) := by
      cases houter : draft.program.outerClass? id with
      | none => exact hclass
      | some outer => exact hclasses.isClass_outer houter
    have houter := (draft.program.alike_respell respelling).outerClass?_eq id
    rw [linkClass]
    refine RespellsAt.bind (.ask (by rw [houter])) ?_
    rw [run_ask]
    dsimp only
    generalize (draft.program.outerClass? id).getD id = scope at hscope
    have hrest {found : Option SymbolId} {middle : TrackedDraft} (hmiddle : middle.program = draft.program)
        (hfound : ∀ type ∈ found.toList, type < draft.program.symbols.size) :
        RespellsAt respelling
          (do
            let interfaces ← findSupertypes scope interfaces
            setSupertypes id found interfaces span
            linkMembers members : Tracked Unit)
          (do
            let interfaces ← findSupertypes scope interfaces
            setSupertypes id found interfaces span
            linkMembers members : Tracked Unit) middle := by
      rw [← hmiddle] at hdraft hclasses hscope hclass hfound hmembers
      obtain ⟨hsame, hlt⟩ := findSupertypes_spec scope interfaces hdraft
      rw [← hsame] at hlt hfound hclass
      have hset := (Declares.of_program_eq hsame).trans (setSupertypes_spec id span hfound hlt)
      apply RespellsAt.bind (respells_findSupertypes respelling hdraft hclasses hscope interfaces)
      apply RespellsAt.bind (respells_setSupertypes respelling hclass found _ span)
      refine respells_linkMembers id members (hset.wellFormed hdraft) (hset.inClasses_of_nil hclasses)
        fun member hmember inner hkind => ?_
      exact (hmembers member hmember inner hkind).mono hset.grows hset.fields
        fun number _ => hset.uses number List.not_mem_nil
    cases superclass with
    | some type =>
        obtain ⟨hsame, hlt⟩ := findSupertype_spec scope type hdraft
        exact RespellsAt.bind (respells_findSupertype respelling hclasses hscope type) (hrest hsame hlt)
    | none => exact RespellsAt.bind (.pure none draft) (hrest rfl fun _ h => absurd h List.not_mem_nil)

theorem respells_linkMembers (owner : SymbolId) : ∀ (members : List Member) {draft : TrackedDraft},
    draft.program.WellFormed → draft.program.InClasses →
      (∀ member ∈ members, ∀ inner, member.kind = .classDecl inner → draft.program.Declared (some owner) inner) →
      RespellsAt respelling (linkMembers members) (linkMembers members) draft
  | [], draft, _, _, _ => by
    rw [linkMembers]
    exact .pure () draft
  | ⟨node, kind, span⟩ :: rest, draft, hdraft, hclasses, hmembers => by
    obtain ⟨hmember, hrest⟩ := List.forall_mem_cons.mp hmembers
    have hfirst := linkMember_spec kind hdraft
    rw [linkMembers]
    refine RespellsAt.bind (respells_linkMember owner kind hdraft hclasses hmember)
      (respells_linkMembers owner rest (hfirst.wellFormed hdraft) (hfirst.inClasses_of_nil hclasses)
        fun member hmem inner hkind => ?_)
    exact (hrest member hmem inner hkind).mono hfirst.grows hfirst.fields
      fun number _ => hfirst.uses number List.not_mem_nil

theorem respells_linkMember (owner : SymbolId) : ∀ (kind : MemberKind) {draft : TrackedDraft},
    draft.program.WellFormed → draft.program.InClasses →
      (∀ inner, kind = .classDecl inner → draft.program.Declared (some owner) inner) →
      RespellsAt respelling (linkMember kind) (linkMember kind) draft
  | .classDecl decl, draft, hdraft, hclasses, hkind => by
    have hdeclared := hkind decl rfl
    obtain ⟨id, huse⟩ := hdeclared.exists_use?
    rw [linkMember]
    refine RespellsAt.bind (.ask rfl) ?_
    rw [run_ask, huse]
    exact respells_linkClass id decl hdraft hclasses huse hdeclared
  | .field .., draft, _, _, _ | .method _, draft, _, _, _ | .initializer .., draft, _, _, _
  | .enumConstant .., draft, _, _, _ => by
    rw [linkMember]
    · exact .pure () draft
    · nofun

end

/-! ### Local and anonymous classes -/

theorem RespellsAt.currentClass? (draft : TrackedDraft) :
    RespellsAt respelling Resolving.currentClass? Resolving.currentClass? draft :=
  congrArg (·, draft.respell respelling) (draft.scopes.currentClass?_respell respelling)

theorem respells_nextNested (outer : SymbolId) (draft : TrackedDraft) :
    RespellsAt respelling (nextNested outer) (nextNested outer) draft := rfl

theorem respells_declareInside (outer : SymbolId) (symbol : NamedSymbol) (decl : ClassDecl) (draft : TrackedDraft) :
    RespellsAt respelling (declareInside outer symbol decl) (declareInside outer symbol decl) draft := by
  have hname := (draft.program.alike_respell respelling).qualifiedName?_eq outer
  refine RespellsAt.bind (.ask (by rw [hname])) ?_
  apply RespellsAt.bind (respells_nextNested respelling outer _)
  dsimp only
  split
  · exact respells_declareClass respelling _ _ _ _ decl _
  · exact RespellsAt.bind (respells_declareClass respelling _ _ _ _ decl _)
      (RespellsAt.bind (respells_enterMemberClass respelling outer decl.name _ _) (.pure _ _))

/-- What is declared and linked where it stands lies in classes. -/
theorem inClasses_declareNested {decl : ClassDecl} (hdraft : draft.program.WellFormed)
    (hclasses : draft.program.InClasses)
    (hcurrent : ∀ self, draft.scopes.currentClass? = some self → draft.program.IsClass self)
    (hnodup : (TreeNode.classDecl decl).numbers.Nodup) :
    ((declareNested decl).run draft).2.program.InClasses := by
  have hnested := declareNested_spec decl hdraft
  have hmono := hnested.declares.grows
  cases hid : ((declareNested decl).run draft).1 with
  | some id =>
      refine hnested.declares.inClasses (hnodup.sublist decl.declaring_sublist_numbers) hclasses fun node hnode => ?_
      exact (hnested.declared hnodup id hid).2.around (fun self hself => (hcurrent self hself).mono hmono) hnode
  | none =>
      rw [run_declareNested] at hid ⊢
      cases hself : draft.scopes.currentClass? with
      | none => exact hclasses
      | some self =>
          obtain ⟨info, hinfo⟩ := hcurrent self hself
          obtain ⟨symbol, hsymbol, -⟩ := Option.bind_eq_some_iff.mp hinfo
          rw [hself] at hid
          dsimp only at hid
          rw [hsymbol] at hid
          cases hid

theorem respells_declareNested {decl : ClassDecl} (hdraft : draft.program.WellFormed)
    (hclasses : draft.program.InClasses)
    (hcurrent : ∀ self, draft.scopes.currentClass? = some self → draft.program.IsClass self)
    (hnodup : (TreeNode.classDecl decl).numbers.Nodup) :
    RespellsAt respelling (declareNested decl) (declareNested decl) draft := by
  apply RespellsAt.bind (.currentClass? respelling draft)
  cases hself : draft.scopes.currentClass? with
  | none =>
      have hrun : ((Resolving.currentClass? : Tracked _).run draft).1 = none := hself
      rw [hrun]
      exact .pure none draft
  | some outer =>
      have hrun : ((Resolving.currentClass? : Tracked _).run draft).1 = some outer := hself
      have hclass := hcurrent outer hself
      rw [hrun]
      refine @RespellsAt.bind _ _ _ _ _ draft _ _ (.ask (hclass.symbol?_respell respelling)) ?_
      rw [run_ask]
      dsimp only
      cases hsymbol : draft.program.symbol? outer with
      | none => exact .pure none draft
      | some symbol =>
          have hdeclared := declareInside_spec decl hdraft hsymbol
          apply RespellsAt.bind (respells_declareInside respelling outer symbol decl draft)
          refine RespellsAt.bind ?_ (.pure _ _)
          refine respells_linkClass respelling _ decl (hdeclared.declares.wellFormed hdraft) ?_
            (hdeclared.use hnodup) (hdeclared.declared hnodup)
          refine hdeclared.declares.inClasses (hnodup.sublist decl.declaring_sublist_numbers) hclasses
            fun node hnode => (hdeclared.declared hnodup).around ?_ hnode
          rintro _ ⟨⟩
          exact hclass.mono hdeclared.declares.grows

end Classes

/-! ### Classes in trees with names respelled -/

section Trees

variable (name : NodeId → String → String)

theorem declareFields_ofNames (owner : SymbolId) (modifiers : Modifiers) (type : String) (isStatic : Bool)
    (declarators : List Declarator)
    (hkept : ∀ node ∈ declarators.map (·.id), ∀ spelled, name node spelled = spelled) :
    declareFields owner (modifiers.retouch (.ofNames name)) type isStatic
        (retouchDeclarators (.ofNames name) declarators) =
      (declareFields owner modifiers type isStatic declarators : Tracked Unit) := by
  induction declarators with
  | nil => rfl
  | cons declarator rest ih =>
      obtain ⟨hfirst, hrest⟩ := List.forall_mem_cons.mp hkept
      simp only [retouchDeclarators, declareFields, ih hrest, Retouch.guardedBy?_modifiers, Declarator.id_retouch,
        Declarator.name_retouch, Declarator.span_retouch, Retouch.name_ofNames, Retouch.span_ofNames, hfirst]

theorem declareMethod_ofNames (owner : SymbolId) (method : MethodDecl) (inInterface : Bool) :
    declareMethod owner (method.retouch (.ofNames name)) inInterface =
      (declareMethod owner method inInterface : Tracked Unit) := by
  obtain ⟨id, spelled, modifiers, typeParams, returnType, params, throws, body, span⟩ := method
  have hguard : ({ modifiers.retouch (.ofNames name) with
      keywords := (Retouch.ofNames name).keywords id modifiers.keywords } : Modifiers).guardedBy? =
        modifiers.guardedBy? :=
    Retouch.guardedBy?_of_annotations _ (modifiers.annotations_retouch _)
  have hlength : (retouchParams (.ofNames name) params).length = params.length := by simp
  simp only [MethodDecl.retouch, declareMethod, Modifiers.has, hlength, hguard]
  rfl

mutual

/-- A class whose nodes keep their names is declared alike. -/
theorem declareClass_ofNames (outer : Option SymbolId) (own qualifiedName : String) (isStatic : Bool) :
    ∀ decl : ClassDecl, (∀ node ∈ decl.declaring, ∀ spelled, name node spelled = spelled) →
      declareClass outer own qualifiedName isStatic (decl.retouch (.ofNames name)) =
        (declareClass outer own qualifiedName isStatic decl : Tracked SymbolId)
  | ⟨node, ownName, kind, _, _, _, _, members, span⟩, hkept => by
    have hmembers (id : SymbolId) := declareMembers_ofNames id qualifiedName ownName (kind == .interface) members
      fun node hnode => hkept node (List.mem_cons_of_mem _ hnode)
    simp only [ClassDecl.retouch, declareClass, hmembers]
    rfl

theorem declareMembers_ofNames (owner : SymbolId) (qualifiedName className : String) (inInterface : Bool) :
    ∀ members : List Member, (∀ node ∈ declaringMembers members, ∀ spelled, name node spelled = spelled) →
      declareMembers owner qualifiedName className inInterface (retouchMembers (.ofNames name) members) =
        (declareMembers owner qualifiedName className inInterface members : Tracked Unit)
  | [], _ => rfl
  | ⟨node, kind, span⟩ :: rest, hkept => by
    have hfirst := declareMember_ofNames owner qualifiedName className inInterface node span kind
      fun node hnode => hkept node (List.mem_append_left _ hnode)
    have hrest := declareMembers_ofNames owner qualifiedName className inInterface rest
      fun node hnode => hkept node (List.mem_append_right _ hnode)
    rw [retouchMembers, Member.retouch, declareMembers, hrest, declareMembers]
    exact congrArg (· >>= fun _ => declareMembers owner qualifiedName className inInterface rest) hfirst

theorem declareMember_ofNames (owner : SymbolId) (qualifiedName className : String) (inInterface : Bool)
    (node : NodeId) (span : Span) :
    ∀ kind : MemberKind, (∀ number ∈ kind.declaring node, ∀ spelled, name number spelled = spelled) →
      declareMember owner qualifiedName className inInterface node span (kind.retouch (.ofNames name)) =
        (declareMember owner qualifiedName className inInterface node span kind : Tracked Unit)
  | .field modifiers type declarators, hkept => by
    rw [MemberKind.retouch, declareMember, Retouch.has_modifiers, declareFields_ofNames name _ _ _ _ _ hkept,
      declareMember]
  | .enumConstant _ _ _, _ | .initializer _ _, _ => rfl
  | .method method, _ => declareMethod_ofNames name owner method inInterface
  | .classDecl decl, hkept => by
    simp only [MemberKind.retouch, declareMember, ClassDecl.modifiers_retouch, Retouch.has_modifiers,
      ClassDecl.kind_retouch, ClassDecl.name_retouch, ClassDecl.span_retouch, declareClass_ofNames _ _ _ _ decl hkept]
    rfl

end

mutual

theorem linkClass_ofNames (id : SymbolId) : ∀ decl : ClassDecl,
    linkClass id (decl.retouch (.ofNames name)) = (linkClass id decl : Tracked Unit)
  | ⟨_, _, _, _, _, _, _, members, _⟩ => by
    simp only [ClassDecl.retouch, linkClass, linkMembers_ofNames members]
    rfl

theorem linkMembers_ofNames : ∀ members : List Member,
    linkMembers (retouchMembers (.ofNames name) members) = (linkMembers members : Tracked Unit)
  | [] => rfl
  | ⟨_, kind, _⟩ :: rest => by
    simp only [retouchMembers, Member.retouch, linkMembers, linkMember_ofNames kind, linkMembers_ofNames rest]

theorem linkMember_ofNames : ∀ kind : MemberKind,
    linkMember (kind.retouch (.ofNames name)) = (linkMember kind : Tracked Unit)
  | .field _ _ _ | .method _ | .initializer _ _ | .enumConstant _ _ _ => rfl
  | .classDecl decl => by
    simp only [MemberKind.retouch, linkMember, ClassDecl.id_retouch]
    congr 1
    funext found
    cases found with
    | none => rfl
    | some id => exact linkClass_ofNames id decl

end

/-- A local or anonymous class whose nodes keep their names is declared and linked alike. -/
theorem declareNested_ofNames (decl : ClassDecl)
    (hkept : ∀ node ∈ decl.declaring, ∀ spelled, name node spelled = spelled) :
    declareNested (decl.retouch (.ofNames name)) = (declareNested decl : Tracked (Option SymbolId)) := by
  simp only [declareNested, declareInside, ClassDecl.kind_retouch, ClassDecl.name_retouch,
    declareClass_ofNames name _ _ _ _ decl hkept, linkClass_ofNames]

theorem declareTopLevel_ofNames (package : Option String) (decls : List ClassDecl)
    (hkept : ∀ node ∈ decls.flatMap ClassDecl.declaring, ∀ spelled, name node spelled = spelled) :
    declareTopLevel package (decls.map (·.retouch (.ofNames name))) =
      (declareTopLevel package decls : Tracked (List SymbolId)) := by
  induction decls with
  | nil => rfl
  | cons decl rest ih =>
      have hfirst := fun node hnode => hkept node (List.mem_append_left _ hnode)
      have hrest := ih fun node hnode => hkept node (List.mem_append_right _ hnode)
      simp only [List.map_cons, declareTopLevel, ClassDecl.name_retouch, ClassDecl.span_retouch,
        Retouch.span_ofNames, declareClass_ofNames name _ _ _ _ decl hfirst, hrest]

theorem linkTopLevel_ofNames (classes : List (SymbolId × ClassDecl)) :
    linkTopLevel (classes.map fun entry => (entry.1, entry.2.retouch (.ofNames name))) =
      (linkTopLevel classes : Tracked Unit) := by
  induction classes with
  | nil => rfl
  | cons entry rest ih => simp only [List.map_cons, linkTopLevel, linkClass_ofNames, ih]

end Trees

end Resolving
end LockDiscipline
