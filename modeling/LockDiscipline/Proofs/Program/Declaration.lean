import LockDiscipline.Proofs.Program.ClassBody
import LockDiscipline.Proofs.Program.Lookup
/-!
# Declaring and linking classes

Before the body of a class is gone through, the class is declared with its members and linked to its
supertypes. Both only make the program grow and visit nothing. The class has a symbol afterwards, and
its member classes know that it is around them.
-/

namespace LockDiscipline

/-- The draft with another program. -/
def Draft.withProgram (draft : TrackedDraft) (program : Program) : TrackedDraft :=
  { draft with program }

namespace Resolving

open Program (Grows)

/-- The program grows between two drafts without losing a field of a class, and uses are recorded only for
some numbers. If none of these occurs twice, every new symbol is recorded for one of them. -/
structure Declares (ids : List NodeId) (before after : TrackedDraft) : Prop where
  grows : Grows True before.program after.program
  uses : ∀ id, id ∉ ids → after.program.use? id = before.program.use? id
  recorded : ids.Nodup → ∀ id, before.program.symbols.size ≤ id → id < after.program.symbols.size →
    ∃ node ∈ ids, after.program.use? node = some id
  fields : before.program.KeepsFields after.program

namespace Declares

variable {ids ids' : List NodeId} {before middle after : TrackedDraft}

theorem refl (draft : TrackedDraft) : Declares [] draft draft :=
  ⟨.refl _ _, fun _ _ => rfl, fun _ _ hle hlt => absurd hlt (Nat.not_lt.mpr hle), .refl _⟩

theorem trans (hfirst : Declares ids before middle) (hsecond : Declares ids' middle after) :
    Declares (ids ++ ids') before after where
  grows := hfirst.grows.trans hsecond.grows
  uses id hid := by
    rw [List.mem_append, not_or] at hid
    exact (hsecond.uses id hid.2).trans (hfirst.uses id hid.1)
  recorded hnodup id hle hlt := by
    rcases Nat.lt_or_ge id middle.program.symbols.size with hmiddle | hmiddle
    · obtain ⟨node, hnode, huse⟩ := hfirst.recorded hnodup.of_append_left id hle hmiddle
      refine ⟨node, List.mem_append_left _ hnode, (hsecond.uses node fun hmem => ?_).trans huse⟩
      exact List.disjoint_of_nodup_append hnodup hnode hmem
    · obtain ⟨node, hnode, huse⟩ := hsecond.recorded hnodup.of_append_right id hmiddle hlt
      exact ⟨node, List.mem_append_right _ hnode, huse⟩
  fields := hfirst.fields.trans hsecond.fields

theorem mono (h : Declares ids before after) (hids : ids.Sublist ids') : Declares ids' before after where
  grows := h.grows
  uses id hid := h.uses id fun hmem => hid (hids.subset hmem)
  recorded hnodup id hle hlt := by
    obtain ⟨node, hnode, huse⟩ := h.recorded (hnodup.sublist hids) id hle hlt
    exact ⟨node, hids.subset hnode, huse⟩
  fields := h.fields

theorem wellFormed (h : Declares ids before after) (hbefore : before.program.WellFormed) :
    after.program.WellFormed :=
  h.grows.wellFormed hbefore

/-- A change to the program that declares nothing and leaves the uses alone. -/
theorem of_change {program : Program} (h : before.program.Change True program)
    (huses : program.uses = before.program.uses)
    (hsize : program.symbols.size = before.program.symbols.size)
    (hfields : before.program.KeepsFields program) :
    Declares [] before (before.withProgram program) where
  grows := .of_change h
  uses id _ := congrArg (·[id]?) huses
  recorded _ _ hle hlt := absurd hlt (Nat.not_lt.mpr (hsize.symm ▸ hle))
  fields := hfields

/-- A symbol is declared and recorded for its node. -/
theorem of_symbol {program : Program} (h : before.program.Change True program)
    (huses : program.uses = before.program.uses)
    (hsize : program.symbols.size = before.program.symbols.size + 1)
    (hfields : before.program.KeepsFields program) (node : NodeId) :
    Declares [node] before
      (before.withProgram (program.setUse node before.program.symbols.size)) where
  grows := (Grows.of_change h).trans (.of_change (.use node _))
  uses number hnumber := (program.use?_setUse node _ number).trans
    ((if_neg fun heq => hnumber (List.mem_singleton.mpr heq)).trans (congrArg (·[number]?) huses))
  recorded _ id hle hlt := by
    obtain rfl : id = before.program.symbols.size :=
      Nat.le_antisymm (Nat.le_of_lt_succ (Nat.lt_of_lt_of_eq hlt hsize)) hle
    exact ⟨node, List.mem_singleton_self _, (program.use?_setUse node _ node).trans (if_pos rfl)⟩
  fields := ⟨hfields.subset⟩

end Declares

/-! ### Members -/

/-- A declared member stays declared, whatever is recorded for its node. -/
theorem declareMember_symbol (program : Program) (name : String) (kind : SymbolKind)
    (type guard : Option String) (span : Span) (node : NodeId) :
    let declared := program.declare name kind type guard span
    (declared.2.setUse node declared.1).symbol? declared.1 =
      some ⟨declared.1, name, kind, type, guard, span⟩ :=
  (Program.symbol?_declare ..).trans (if_pos rfl)

theorem enterField_spec {owner : SymbolId} {name : String} {id : SymbolId} {symbol : NamedSymbol}
    {isStatic : Bool} (span : Span) {draft : TrackedDraft} (hdraft : draft.program.WellFormed)
    (hsymbol : draft.program.symbol? id = some symbol) (hname : symbol.name = name)
    (hkind : symbol.kind = .field owner isStatic) :
    Declares [] draft ((enterField owner name id span).run draft).2 := by
  rw [enterField, run_bind, run_ask]
  dsimp only
  rw [enterOnce]
  cases (draft.program.members owner).fields.lookup name with
  | some previous => exact .of_change (.problem _) rfl rfl ⟨fun _ => List.Subset.refl _⟩
  | none =>
      refine .of_change (.table owner _ trivial (fun _ => rfl) (fun info hinfo => ?_)
        fun _ _ => List.prefix_refl _) rfl (Program.size_updateClass _ owner _)
        (.updateClass owner fun info hinfo => ?_)
      case refine_2 =>
        rw [← Program.members_eq_of_classInfo? hinfo]
        exact List.subset_append_left _ _
      have htable := Program.members_eq_of_classInfo? hinfo ▸ hdraft.table owner
      refine ⟨fun entry hentry => ?_, htable.method, htable.isClass⟩
      rcases List.mem_append.mp hentry with hentry | hentry
      · exact (hdraft.table owner).field entry hentry
      · obtain rfl := List.mem_singleton.mp hentry
        exact ⟨symbol, isStatic, hsymbol, hname, hkind⟩

/-- The table of a class has a field of a name that was entered, if not the one that was. -/
theorem exists_mem_enterField {owner : SymbolId} (name : String) (id : SymbolId) (span : Span) {draft : TrackedDraft}
    (howner : draft.program.IsClass owner) :
    ∃ entry ∈ (((enterField owner name id span).run draft).2.program.members owner).fields,
      entry.1 = name := by
  rw [enterField, run_bind, run_ask]
  dsimp only
  rw [enterOnce]
  cases hlookup : (draft.program.members owner).fields.lookup name with
  | some previous => exact ⟨_, Program.mem_of_lookup_eq_some hlookup, rfl⟩
  | none =>
      obtain ⟨info, hinfo⟩ := howner
      change ∃ entry ∈ ((draft.program.updateMembers owner _).members owner).fields, entry.1 = name
      rw [Program.members_updateMembers hinfo]
      exact ⟨(name, id), List.mem_append_right _ (List.mem_singleton_self _), rfl⟩

section Fields

variable (owner : SymbolId) (name : String) (type : Option String) (isStatic : Bool) (node : NodeId)
  (span : Span) (draft : TrackedDraft)

/-- A field is declared and recorded for its node, before it is entered into the table of its class. -/
private theorem run_declareField (guard : Option String) :
    let declared := draft.program.declare name (.field owner isStatic) type guard span
    ((declareField owner name type guard isStatic node span).run draft).2 =
      ((enterField owner name declared.1 span).run
        (draft.withProgram (declared.2.setUse node declared.1))).2 := rfl

variable (hdraft : draft.program.WellFormed)
include hdraft

theorem declareField_spec (guard : Option String) : Declares [node] draft
    ((declareField owner name type guard isStatic node span).run draft).2 := by
  have hdeclared : Declares [node] draft _ :=
    .of_symbol (.field name owner isStatic type guard span trivial) rfl
      (Program.size_declare ..) (.declare ..) node
  rw [run_declareField]
  exact hdeclared.trans (enterField_spec span (hdeclared.wellFormed hdraft)
    (declareMember_symbol draft.program name _ type guard span node) rfl rfl)

theorem declareField_carries (howner : draft.program.IsClass owner) (modifiers : Modifiers)
    (inInterface : Bool) {member : Member} (hname : (name, node) ∈ member.fieldNames) :
    ((declareField owner name type modifiers.guardedBy? isStatic node
      span).run draft).2.program.Carries owner inInterface member (modifiers, node) := by
  have hdeclared : Declares [node] draft _ :=
    .of_symbol (.field name owner isStatic type modifiers.guardedBy? span trivial) rfl
      (Program.size_declare ..) (.declare ..) node
  have hsymbol := declareMember_symbol draft.program name (.field owner isStatic) type
    modifiers.guardedBy? span node
  have hentered := enterField_spec span (hdeclared.wellFormed hdraft) hsymbol rfl rfl
  rw [run_declareField]
  refine ⟨_, _, (hentered.uses node List.not_mem_nil).trans ?_, hentered.grows.symbol?_of_not_class hsymbol rfl,
    rfl, rfl, rfl, fun _ => ⟨hname, exists_mem_enterField name _ span (howner.declare ..)⟩⟩
  exact (Program.use?_setUse ..).trans (if_pos rfl)

end Fields

theorem declareFields_spec (owner : SymbolId) (modifiers : Modifiers) (type : String)
    (isStatic : Bool) (declarators : List Declarator) (draft : TrackedDraft)
    (hdraft : draft.program.WellFormed) :
    Declares (declarators.map (·.id)) draft
      ((declareFields owner modifiers type isStatic declarators).run draft).2 := by
  induction declarators generalizing draft with
  | nil => exact .refl draft
  | cons declarator rest ih =>
      have hfirst := declareField_spec owner declarator.name (some type) isStatic declarator.id
        declarator.span draft hdraft modifiers.guardedBy?
      exact hfirst.trans (ih _ (hfirst.wellFormed hdraft))

theorem declareFields_carries {owner : SymbolId} (modifiers : Modifiers) (type : String)
    (isStatic inInterface : Bool) (declarators : List Declarator) (draft : TrackedDraft)
    (hdraft : draft.program.WellFormed) (howner : draft.program.IsClass owner) {member : Member}
    (hnames : ∀ declarator ∈ declarators, (declarator.name, declarator.id) ∈ member.fieldNames)
    (hnodup : (declarators.map (·.id)).Nodup) :
    ∀ declarator ∈ declarators, ((declareFields owner modifiers type isStatic
      declarators).run draft).2.program.Carries owner inInterface member (modifiers, declarator.id) := by
  induction declarators generalizing draft with
  | nil => exact fun _ h => absurd h List.not_mem_nil
  | cons declarator rest ih =>
      obtain ⟨hnew, hnodup⟩ := List.nodup_cons.mp hnodup
      obtain ⟨hname, hnames⟩ := List.forall_mem_cons.mp hnames
      have hfirst := declareField_spec owner declarator.name (some type) isStatic declarator.id
        declarator.span draft hdraft modifiers.guardedBy?
      have hcarries := declareField_carries owner declarator.name (some type) isStatic declarator.id
        declarator.span draft hdraft howner modifiers inInterface hname
      have hrest := declareFields_spec owner modifiers type isStatic rest _ (hfirst.wellFormed hdraft)
      exact List.forall_mem_cons.mpr ⟨hcarries.mono hrest.grows hrest.fields (hrest.uses _ hnew),
        ih _ (hfirst.wellFormed hdraft) (howner.mono hfirst.grows) hnames hnodup⟩

/-- A method is declared and entered into the table of its class, and recorded for its node. -/
private theorem run_declareMethod (owner : SymbolId) (method : MethodDecl) (inInterface : Bool)
    (draft : TrackedDraft) : ((declareMethod owner method inInterface).run draft).2 =
      draft.withProgram ((draft.program.addMethod method.name owner (method.modifiers.has .static)
        (method.modifiers.has .synchronized && !inInterface) method.params.length method.returnType
        method.modifiers.guardedBy? method.span).setUse method.id draft.program.symbols.size) := rfl

theorem declareMethod_spec {owner : SymbolId} (method : MethodDecl) (inInterface : Bool)
    {draft : TrackedDraft} (howner : draft.program.IsClass owner) :
    Declares [method.id] draft ((declareMethod owner method inInterface).run draft).2 := by
  rw [run_declareMethod]
  refine .of_symbol (.method _ owner _ _ _ _ _ _ trivial howner) rfl ?_ ?_ method.id
  · exact (Program.size_updateClass ..).trans (Program.size_declare ..)
  · exact (Program.KeepsFields.declare ..).trans (.updateClass owner fun _ _ => List.Subset.refl _)

theorem declareMethod_carries (owner : SymbolId) (method : MethodDecl) (inInterface : Bool)
    (draft : TrackedDraft) (member : Member) :
    ((declareMethod owner method inInterface).run draft).2.program.Carries owner inInterface member
      (method.modifiers, method.id) := by
  rw [run_declareMethod]
  refine ⟨draft.program.symbols.size, _, (Program.use?_setUse ..).trans (if_pos rfl),
    Program.symbol?_updateClass_of_not_class owner _ ((Program.symbol?_declare ..).trans (if_pos rfl))
      rfl, rfl, rfl, rfl, nofun⟩

theorem prefix_enterOnce (name : String) (id : SymbolId) (entries : List (String × SymbolId)) :
    entries <+: (enterOnce name id entries).2 := by
  rw [enterOnce]
  split
  · exact List.prefix_refl _
  · exact List.prefix_append _ _

theorem enterMemberClass_spec (owner : SymbolId) (name : String) {id : SymbolId} {draft : TrackedDraft}
    (hdraft : draft.program.WellFormed) (hid : draft.program.IsClass id) :
    Declares [] draft ((enterMemberClass owner name id).run draft).2 := by
  have hrun : ((enterMemberClass owner name id).run draft).2 = draft.withProgram
      (draft.program.updateMembers owner fun members => { members with
        classes := (enterOnce name id (draft.program.members owner).classes).2 }) := rfl
  rw [hrun]
  refine .of_change (.table owner _ trivial (fun _ => rfl) (fun info hinfo => ?_) fun info hinfo => ?_)
    rfl (Program.size_updateClass _ owner _) (.updateClass owner fun _ _ => List.Subset.refl _)
  case refine_2 =>
    rw [← Program.members_eq_of_classInfo? hinfo]
    exact prefix_enterOnce ..
  have htable := Program.members_eq_of_classInfo? hinfo ▸ hdraft.table owner
  refine ⟨htable.field, htable.method, fun entry hentry => ?_⟩
  rw [enterOnce] at hentry
  split at hentry
  · exact (hdraft.table owner).isClass entry hentry
  · rcases List.mem_append.mp hentry with hentry | hentry
    · exact (hdraft.table owner).isClass entry hentry
    · obtain rfl := List.mem_singleton.mp hentry
      exact hid

/-- The symbol of a class is declared after the class around it. -/
theorem declareClassSymbol_spec (node : NodeId) (name : String) (kind : ClassKind)
    (outer : Option SymbolId) (qualifiedName : String) (isStatic : Bool) (span : Span)
    {draft : TrackedDraft} (houter : ∀ around, outer = some around → around < draft.program.symbols.size) :
    let declared := (declareClassSymbol node name kind outer qualifiedName isStatic span).run draft
    Declares [node] draft declared.2 ∧ declared.2.program.use? node = some declared.1 ∧
      ∃ info, declared.2.program.classInfo? declared.1 = some info ∧ info.outer = outer := by
  intro declared
  let info : ClassInfo :=
    { outer, isStatic, kind, qualifiedName, superclass := none, interfaces := []
      members := default }
  have hinfo : (draft.program.declare name (.classType info) none none span).2.classInfo?
      draft.program.symbols.size = some info :=
    (Program.classInfo?_declare ..).trans (if_pos rfl)
  refine ⟨.of_symbol (.classType name info span trivial houter ⟨rfl, rfl⟩ rfl) rfl
    (Program.size_declare ..) ⟨(Program.KeepsFields.declare ..).subset⟩ node, ?_, info, hinfo, rfl⟩
  exact (Program.use?_setUse ..).trans (if_pos rfl)

/-! ### Classes -/

/-- The draft after a class is declared in the class around it. -/
structure DeclaresClass (outer : Option SymbolId) (decl : ClassDecl) (before after : TrackedDraft)
    (id : SymbolId) : Prop where
  declares : Declares decl.declaring before after
  use : (TreeNode.classDecl decl).numbers.Nodup → after.program.use? decl.id = some id
  declared : (TreeNode.classDecl decl).numbers.Nodup → after.program.Declared outer decl
  isClass : after.program.IsClass id

/-- The draft after members of a class are declared. -/
structure DeclaresMembers (owner : SymbolId) (inInterface : Bool) (members : List Member)
    (before after : TrackedDraft) : Prop where
  declares : Declares (declaringMembers members) before after
  declared : (TreeNode.numbersOf (memberParts members)).Nodup →
    ∀ member ∈ members, ∀ inner, member.kind = .classDecl inner →
      after.program.Declared (some owner) inner
  carried : (TreeNode.numbersOf (memberParts members)).Nodup →
    ∀ member ∈ members, ∀ carrier ∈ member.carriers,
      after.program.Carries owner inInterface member carrier

theorem DeclaresClass.extend {outer : Option SymbolId} {decl : ClassDecl}
    {before middle after : TrackedDraft} {id : SymbolId} (h : DeclaresClass outer decl before middle id)
    (hlater : Declares [] middle after) : DeclaresClass outer decl before after id where
  declares := (h.declares.trans hlater).mono (by rw [List.append_nil])
  use hnodup := (hlater.uses decl.id List.not_mem_nil).trans (h.use hnodup)
  declared hnodup :=
    (h.declared hnodup).mono hlater.grows hlater.fields fun number _ => hlater.uses number List.not_mem_nil
  isClass := h.isClass.mono hlater.grows

namespace DeclaresMembers

variable {owner : SymbolId} {inInterface : Bool} {member : Member} {before middle after : TrackedDraft}

theorem of_no_class (h : Declares (member.kind.declaring member.id) before after)
    (hcarried : (member.kind.declaring member.id).Nodup → ∀ carrier ∈ member.carriers,
      after.program.Carries owner inInterface member carrier)
    (hkind : ∀ inner, member.kind ≠ .classDecl inner) :
    DeclaresMembers owner inInterface [member] before after where
  declares := h.mono (by rw [declaringMembers_cons]; exact List.sublist_append_left _ _)
  declared _ _ hmember inner hinner := by
    obtain rfl := List.mem_singleton.mp hmember
    exact absurd hinner (hkind inner)
  carried hnodup other hmember := by
    obtain rfl := List.mem_singleton.mp hmember
    refine hcarried (hnodup.sublist ?_)
    have hsublist := declaringMembers_sublist .declared [other]
    rw [declaringMembers_cons] at hsublist
    exact (List.sublist_append_left _ _).trans hsublist

theorem cons {rest : List Member} (hfirst : DeclaresMembers owner inInterface [member] before middle)
    (hrest : DeclaresMembers owner inInterface rest middle after) :
    DeclaresMembers owner inInterface (member :: rest) before after := by
  have heq : TreeNode.numbersOf (memberParts (member :: rest)) =
      TreeNode.numbersOf (memberParts [member]) ++ TreeNode.numbersOf (memberParts rest) :=
    TreeNode.numbersOf_append (memberParts [member]) (memberParts rest)
  have huse (hnodup : (TreeNode.numbersOf (memberParts (member :: rest))).Nodup) :
      ∀ id ∈ (TreeNode.member member).numbers,
        after.program.use? id = middle.program.use? id := by
    intro id hid
    rw [heq] at hnodup
    exact hrest.declares.uses id fun hmem => List.disjoint_of_nodup_append hnodup
      (TreeNode.mem_numbersOf_of_mem (List.mem_singleton_self _) hid)
      (declaringMembers_subset_numbers rest hmem)
  refine ⟨(hfirst.declares.trans hrest.declares).mono ?_,
    fun hnodup other hother inner hinner => ?_, fun hnodup other hother carrier hcarrier => ?_⟩
  · rw [declaringMembers_cons, declaringMembers_cons, declaringMembers, List.append_nil]
  all_goals
    have hfirst_nodup := (heq ▸ hnodup : List.Nodup (_ ++ _)).of_append_left
    have hrest_nodup := (heq ▸ hnodup : List.Nodup (_ ++ _)).of_append_right
    rcases List.mem_cons.mp hother with rfl | hother
  · refine (hfirst.declared hfirst_nodup _ (List.mem_singleton_self _) inner hinner).mono
      hrest.declares.grows hrest.declares.fields fun id hid => huse hnodup id ?_
    have hclass : (⟨.declared, .member other⟩ : Part).classDecl? = some inner := by
      obtain ⟨node, kind, span⟩ := other
      obtain rfl : kind = .classDecl inner := hinner
      rfl
    exact Part.numbers_of_classDecl? hclass (inner.declaring_subset_numbers hid)
  · exact hrest.declared hrest_nodup other hother inner hinner
  · refine (hfirst.carried hfirst_nodup _ (List.mem_singleton_self _) carrier hcarrier).mono
      hrest.declares.grows hrest.declares.fields (huse hnodup _ ?_)
    obtain ⟨node, kind, span⟩ := other
    exact (kind.declaring_sublist node span).subset (Member.mem_declaring_of_carriers hcarrier)
  · exact hrest.carried hrest_nodup other hother carrier hcarrier

theorem extend {members : List Member} (h : DeclaresMembers owner inInterface members before middle)
    (hlater : Declares [] middle after) : DeclaresMembers owner inInterface members before after where
  declares := (h.declares.trans hlater).mono (by rw [List.append_nil])
  declared hnodup other hother inner hinner :=
    (h.declared hnodup other hother inner hinner).mono hlater.grows hlater.fields
      fun id _ => hlater.uses id List.not_mem_nil
  carried hnodup other hother carrier hcarrier :=
    (h.carried hnodup other hother carrier hcarrier).mono hlater.grows hlater.fields
      (hlater.uses _ List.not_mem_nil)

end DeclaresMembers

/-- A member class is declared as a member when it is declared as a class. -/
theorem DeclaresClass.toMembers {owner : SymbolId} {decl : ClassDecl} {before after : TrackedDraft}
    {id : SymbolId} (h : DeclaresClass (some owner) decl before after id) (inInterface : Bool)
    (node : NodeId) (span : Span) :
    DeclaresMembers owner inInterface [⟨node, .classDecl decl, span⟩] before after := by
  have hsublist : (TreeNode.classDecl decl).numbers.Sublist
      (TreeNode.numbersOf (memberParts [⟨node, .classDecl decl, span⟩])) := by
    have heq : TreeNode.numbersOf (memberParts [⟨node, .classDecl decl, span⟩]) =
        node :: (TreeNode.classDecl decl).numbers := by
      rw [memberParts, List.map_singleton, TreeNode.numbersOf_singleton, TreeNode.numbers_eq,
        TreeNode.parts, MemberKind.parts, TreeNode.numbersOf_singleton]
      rfl
    rw [heq]
    exact List.sublist_cons_self _ _
  refine ⟨h.declares.mono ?_, fun hnodup other hother inner hinner => ?_,
    fun _ other hother carrier hcarrier => ?_⟩
  · rw [declaringMembers_cons, MemberKind.declaring]
    exact List.sublist_append_left _ _
  · obtain rfl := List.mem_singleton.mp hother
    obtain rfl := MemberKind.classDecl.inj hinner
    exact h.declared (hnodup.sublist hsublist)
  · obtain rfl := List.mem_singleton.mp hother
    cases hcarrier

mutual

theorem declareClass_spec (outer : Option SymbolId) (name qualifiedName : String)
    (isStatic : Bool) : ∀ (decl : ClassDecl) {draft : TrackedDraft}, draft.program.WellFormed →
      (∀ around, outer = some around → around < draft.program.symbols.size) →
      DeclaresClass outer decl draft
        ((declareClass outer name qualifiedName isStatic decl).run draft).2
        ((declareClass outer name qualifiedName isStatic decl).run draft).1
  | ⟨node, ownName, kind, modifiers, typeParams, superclass, interfaces, members, span⟩, draft,
      hdraft, houter => by
    rw [declareClass]
    obtain ⟨hsymbol, huse, info, hinfo, haround⟩ := declareClassSymbol_spec node name kind outer
      qualifiedName isStatic span houter
    have hmembers := declareMembers_spec _ qualifiedName ownName (kind == .interface) members
      (hsymbol.wellFormed hdraft) hinfo
    set decl : ClassDecl :=
      ⟨node, ownName, kind, modifiers, typeParams, superclass, interfaces, members, span⟩
    have huse' (hnodup : (TreeNode.classDecl decl).numbers.Nodup) :=
      (hmembers.declares.uses node fun hmem => not_mem_numbersOf_memberParts hnodup
        (declaringMembers_subset_numbers members hmem)).trans huse
    obtain ⟨info', hinfo', haround'⟩ := hmembers.declares.grows.classInfo? hinfo
    refine ⟨(hsymbol.trans hmembers.declares).mono ?_, huse', fun hnodup => ?_, info', hinfo'⟩
    · rw [ClassDecl.declaring]
      exact List.Sublist.refl _
    · have hnodup' : (TreeNode.numbersOf (memberParts members)).Nodup := by
        rw [TreeNode.numbers_eq] at hnodup
        exact hnodup.sublist (List.sublist_append_of_sublist_right (numbersOf_memberParts decl))
      exact .intro (huse' hnodup) hinfo' (haround'.trans haround) (hmembers.carried hnodup')
        (hmembers.declared hnodup')

theorem declareMembers_spec (owner : SymbolId) (qualifiedName className : String)
    (inInterface : Bool) : ∀ (members : List Member) {draft : TrackedDraft} {info : ClassInfo},
      draft.program.WellFormed → draft.program.classInfo? owner = some info →
      DeclaresMembers owner inInterface members draft
        ((declareMembers owner qualifiedName className inInterface members).run draft).2
  | [], draft, _, _, _ => by
    rw [declareMembers]
    exact ⟨.refl draft, fun _ _ h => absurd h List.not_mem_nil,
      fun _ _ h => absurd h List.not_mem_nil⟩
  | ⟨node, kind, span⟩ :: rest, draft, info, hdraft, hinfo => by
    rw [declareMembers]
    have hfirst := declareMember_spec owner qualifiedName className inInterface node span kind
      hdraft hinfo
    obtain ⟨info', hinfo', -⟩ := hfirst.declares.grows.classInfo? hinfo
    have hrest := declareMembers_spec owner qualifiedName className inInterface rest
      (hfirst.declares.wellFormed hdraft) hinfo'
    exact hfirst.cons hrest

theorem declareMember_spec (owner : SymbolId) (qualifiedName className : String)
    (inInterface : Bool) (node : NodeId) (span : Span) : ∀ (kind : MemberKind) {draft : TrackedDraft}
      {info : ClassInfo}, draft.program.WellFormed → draft.program.classInfo? owner = some info →
      DeclaresMembers owner inInterface [⟨node, kind, span⟩] draft
        ((declareMember owner qualifiedName className inInterface node span kind).run draft).2
  | .field modifiers type declarators, draft, info, hdraft, hinfo => by
    rw [declareMember]
    refine .of_no_class ?_ (fun hnodup => ?_) nofun
    · rw [MemberKind.declaring]
      exact declareFields_spec owner modifiers type _ declarators draft hdraft
    · rw [MemberKind.declaring] at hnodup
      exact List.forall_mem_map.mpr
        (declareFields_carries modifiers type _ inInterface declarators draft hdraft ⟨info, hinfo⟩
        (fun _ => List.mem_map_of_mem) hnodup)
  | .enumConstant name args body, draft, info, hdraft, hinfo => by
    rw [declareMember]
    refine .of_no_class ?_ (fun _ => List.forall_mem_singleton.mpr ?_) nofun
    · rw [MemberKind.declaring]
      exact declareField_spec owner name _ true node span draft hdraft none
    · exact declareField_carries owner name _ true node span draft hdraft ⟨info, hinfo⟩ default inInterface
        (List.mem_singleton_self _)
  | .method method, draft, info, hdraft, hinfo => by
    rw [declareMember]
    refine .of_no_class ?_ (fun _ => List.forall_mem_singleton.mpr ?_) nofun
    · rw [MemberKind.declaring]
      exact declareMethod_spec method inInterface ⟨info, hinfo⟩
    · exact declareMethod_carries owner method inInterface draft _
  | .initializer isStatic body, draft, info, hdraft, hinfo => by
    rw [declareMember]
    exact .of_no_class ((Declares.refl draft).mono (List.nil_sublist _))
      (fun _ _ h => absurd h List.not_mem_nil) nofun
  | .classDecl decl, draft, info, hdraft, hinfo => by
    rw [declareMember]
    have hclass := declareClass_spec (some owner) decl.name (qualifiedName ++ "." ++ decl.name)
      (decl.modifiers.has .static || decl.kind != .class || inInterface) decl hdraft
      fun around haround => Option.some.inj haround ▸ Program.lt_size_of_classInfo?_eq_some hinfo
    have hentered := enterMemberClass_spec owner decl.name
      (hclass.declares.wellFormed hdraft) hclass.isClass
    -- A member class of a name that is taken is only a problem.
    have hproblem (previous? : Option SymbolId) (draft : TrackedDraft) : Declares [] draft
        ((match previous? with
          | some previous => update fun program =>
              program.addProblem (.duplicateClass decl.name decl.span (program.spanOf previous))
          | none => Pure.pure () : Tracked Unit).run draft).2 := by
      cases previous? with
      | some previous => exact .of_change (.problem _) rfl rfl ⟨fun _ => List.Subset.refl _⟩
      | none => exact .refl draft
    exact (hclass.toMembers inInterface node span).extend (hentered.trans (hproblem _ _))

end

/-! ### Supertypes -/

/-- Drafts with one program. -/
theorem Declares.of_program_eq {before after : TrackedDraft} (h : after.program = before.program) :
    Declares [] before after :=
  ⟨h ▸ .refl _ _, fun _ _ => by rw [h],
    fun _ _ hle hlt => absurd hlt (Nat.not_lt.mpr (h.symm ▸ hle)), h ▸ .refl _⟩

theorem findSupertype_spec (scope : SymbolId) (type : String) {draft : TrackedDraft}
    (hdraft : draft.program.WellFormed) :
    let found := (findSupertype scope type).run draft
    found.2.program = draft.program ∧ ∀ id ∈ found.1.toList, id < draft.program.symbols.size := by
  have hrun : (findSupertype scope type).run draft =
      (do
        if ((TypeName.base? type).bind (draft.program.findType? scope)).isNone then
          tell (.supertypeUnknown type)
        return (TypeName.base? type).bind (draft.program.findType? scope) : Tracked _).run draft :=
    rfl
  rw [hrun]
  cases hfound : (TypeName.base? type).bind (draft.program.findType? scope) with
  | none => exact ⟨rfl, fun _ h => absurd h List.not_mem_nil⟩
  | some id =>
      refine ⟨rfl, fun id' hid => ?_⟩
      obtain rfl := List.mem_singleton.mp hid
      obtain ⟨name, -, hname⟩ := Option.bind_eq_some_iff.mp hfound
      exact hdraft.findType?_lt hname

theorem findSupertypes_spec (scope : SymbolId) (types : List String) {draft : TrackedDraft}
    (hdraft : draft.program.WellFormed) :
    let found := (findSupertypes scope types).run draft
    found.2.program = draft.program ∧ ∀ id ∈ found.1, id < draft.program.symbols.size := by
  induction types generalizing draft with
  | nil => exact ⟨rfl, fun _ h => absurd h List.not_mem_nil⟩
  | cons type rest ih =>
      obtain ⟨hsame, hlt⟩ := findSupertype_spec scope type hdraft
      obtain ⟨hsame', hlt'⟩ := ih (hsame ▸ hdraft)
      refine ⟨hsame'.trans hsame, fun id hid => ?_⟩
      rcases List.mem_append.mp hid with hid | hid
      · exact hlt id hid
      · exact hsame ▸ hlt' id hid

theorem setSupertypes_spec (id : SymbolId) {superclass : Option SymbolId}
    {interfaces : List SymbolId} (span : Span) {draft : TrackedDraft}
    (hsuper : ∀ type ∈ superclass.toList, type < draft.program.symbols.size)
    (hinterfaces : ∀ type ∈ interfaces, type < draft.program.symbols.size) :
    Declares [] draft ((setSupertypes id superclass interfaces span).run draft).2 := by
  let isAcyclic (supertype : SymbolId) : Bool := !draft.program.isSubclass supertype id
  have hlt : ∀ type ∈ (superclass.filter isAcyclic).toList ++ interfaces.filter isAcyclic,
      type < draft.program.symbols.size := by
    intro type htype
    rw [Option.toList_filter, ← List.filter_append] at htype
    exact (List.mem_append.mp (List.mem_of_mem_filter htype)).elim (hsuper type) (hinterfaces type)
  have hacyclic : ∀ type ∈ (superclass.filter isAcyclic).toList ++ interfaces.filter isAcyclic,
      draft.program.isSubclass type id = false := by
    intro type htype
    rw [Option.toList_filter, ← List.filter_append] at htype
    exact Bool.not_eq_true' _ ▸ (List.mem_filter.mp htype).2
  have hrun : (setSupertypes id superclass interfaces span).run draft =
      (do
        if !(superclass.toList ++ interfaces).all isAcyclic then
          update (·.addProblem
            (.cyclicInheritance (((draft.program.symbol? id).map (·.name)).getD "") span))
        update (·.updateClass id fun info =>
          { info with
            superclass := superclass.filter isAcyclic
            interfaces := interfaces.filter isAcyclic }) : Tracked Unit).run draft := rfl
  rw [hrun]
  have hfields (program : Program) : program.KeepsFields (program.updateClass id fun info =>
      { info with superclass := superclass.filter isAcyclic, interfaces := interfaces.filter isAcyclic }) :=
    .updateClass id fun _ _ => List.Subset.refl _
  cases (superclass.toList ++ interfaces).all isAcyclic with
  | true =>
      exact .of_change (.supertypes id _ _ trivial hlt hacyclic) rfl (Program.size_updateClass ..) (hfields _)
  | false =>
      have hproblem (problem : NameProblem) : Declares [] draft
          (draft.withProgram (draft.program.addProblem problem)) :=
        .of_change (.problem problem) rfl rfl ⟨fun _ => List.Subset.refl _⟩
      refine (hproblem _).trans (.of_change (.supertypes id _ _ trivial hlt fun type htype => ?_) rfl
        (Program.size_updateClass ..) (hfields _))
      exact (congrArg (·.contains id) (Program.ancestors_addProblem _ type)).trans
        (hacyclic type htype)

mutual

theorem linkClass_spec (id : SymbolId) : ∀ (decl : ClassDecl) {draft : TrackedDraft},
    draft.program.WellFormed → Declares [] draft ((linkClass id decl).run draft).2
  | ⟨node, name, kind, modifiers, typeParams, superclass, interfaces, members, span⟩, draft,
      hdraft => by
    rw [linkClass]
    let scope := (draft.program.outerClass? id).getD id
    have hrest {found : Option SymbolId} {middle : TrackedDraft} (hmiddle : middle.program = draft.program)
        (hfound : ∀ type ∈ found.toList, type < draft.program.symbols.size) : Declares [] draft
          ((do
            let interfaces ← findSupertypes scope interfaces
            setSupertypes id found interfaces span
            linkMembers members : Tracked Unit).run middle).2 := by
      obtain ⟨hsame, hlt⟩ := findSupertypes_spec scope interfaces (hmiddle ▸ hdraft)
      have hfinal := hsame.trans hmiddle
      have hset := setSupertypes_spec id span (hfinal.symm ▸ hfound)
        (hsame.symm ▸ hlt)
      have hlinked := (Declares.of_program_eq hfinal).trans hset
      exact hlinked.trans (linkMembers_spec members (hlinked.wellFormed hdraft))
    rw [run_bind, run_ask]
    cases superclass with
    | some type =>
        obtain ⟨hsame, hlt⟩ := findSupertype_spec scope type hdraft
        rw [run_bind]
        exact hrest hsame hlt
    | none =>
        rw [run_bind]
        exact hrest rfl fun _ h => absurd h List.not_mem_nil

theorem linkMembers_spec : ∀ (members : List Member) {draft : TrackedDraft},
    draft.program.WellFormed → Declares [] draft ((linkMembers members).run draft).2
  | [], draft, _ => by
    rw [linkMembers]
    exact .refl draft
  | ⟨node, kind, span⟩ :: rest, draft, hdraft => by
    rw [linkMembers]
    have hfirst := linkMember_spec kind hdraft
    exact hfirst.trans (linkMembers_spec rest (hfirst.wellFormed hdraft))

theorem linkMember_spec : ∀ (kind : MemberKind) {draft : TrackedDraft},
    draft.program.WellFormed → Declares [] draft ((linkMember kind).run draft).2
  | .classDecl decl, draft, hdraft => by
    rw [linkMember]
    have hlink (found : Option SymbolId) : Declares [] draft
        ((match found with
          | some id => linkClass id decl
          | none => Pure.pure () : Tracked Unit).run draft).2 := by
      cases found with
      | some id => exact linkClass_spec id decl hdraft
      | none => exact .refl draft
    exact hlink (draft.program.use? decl.id)
  | .field .., draft, _ | .method _, draft, _ | .initializer .., draft, _
  | .enumConstant .., draft, _ => by
    rw [linkMember]
    · exact .refl draft
    · nofun

end

/-! ### Local and anonymous classes -/

/-- The draft after a local or anonymous class is declared, if it could be. -/
structure DeclaresNested (decl : ClassDecl) (before after : TrackedDraft) (id? : Option SymbolId) :
    Prop where
  declares : Declares decl.declaring before after
  declared : (TreeNode.classDecl decl).numbers.Nodup → ∀ id, id? = some id →
    after.program.use? decl.id = some id ∧
      after.program.Declared before.scopes.currentClass? decl
  isClass : ∀ id, id? = some id → after.program.IsClass id
  some : ∀ self info, before.scopes.currentClass? = some self →
    before.program.classInfo? self = some info → id?.isSome

/-- A class that is declared is linked to its supertypes without being lost. -/
private theorem DeclaresClass.link {outer : SymbolId} {decl : ClassDecl} {before middle : TrackedDraft}
    {id : SymbolId} (h : DeclaresClass (some outer) decl before middle id)
    (hbefore : before.program.WellFormed) (houter : before.scopes.currentClass? = some outer) :
    DeclaresNested decl before ((linkClass id decl).run middle).2 (some id) := by
  have hlinked := h.extend (linkClass_spec id decl (h.declares.wellFormed hbefore))
  refine ⟨hlinked.declares, fun hnodup id' hid => ?_, fun id' hid => ?_, fun _ _ _ _ => rfl⟩ <;>
    obtain rfl := Option.some.inj hid
  · exact ⟨hlinked.use hnodup, houter ▸ hlinked.declared hnodup⟩
  · exact hlinked.isClass

theorem declareInside_spec {outer : SymbolId} {symbol : NamedSymbol} (decl : ClassDecl)
    {draft : TrackedDraft} (hdraft : draft.program.WellFormed)
    (hsymbol : draft.program.symbol? outer = some symbol) :
    DeclaresClass (some outer) decl draft ((declareInside outer symbol decl).run draft).2
      ((declareInside outer symbol decl).run draft).1 := by
  have houter : ∀ around, some outer = some around → around < draft.program.symbols.size :=
    fun _ h => Option.some.inj h ▸ Program.lt_size_of_symbol?_eq_some hsymbol
  rw [declareInside, run_bind, run_ask, run_bind]
  generalize toString ((nextNested outer).run draft).1 = number
  -- The numbering does not concern the names.
  have hcounted {after : TrackedDraft} {id : SymbolId}
      (h : DeclaresClass (some outer) decl ((nextNested outer).run draft).2 after id) :
      DeclaresClass (some outer) decl draft after id :=
    ⟨⟨h.declares.grows, h.declares.uses, h.declares.recorded, h.declares.fields⟩, h.use, h.declared, h.isClass⟩
  split
  case isTrue => exact hcounted (declareClass_spec _ _ _ _ decl hdraft houter)
  case isFalse =>
    rw [run_bind]
    generalize (draft.program.qualifiedName? outer).getD symbol.name ++ "$" ++ number ++
      decl.name = qualifiedName
    have hclass :=
      hcounted (declareClass_spec (some outer) decl.name qualifiedName false decl hdraft houter)
    have hentered := enterMemberClass_spec outer decl.name (hclass.declares.wellFormed hdraft)
      hclass.isClass
    exact hclass.extend hentered

/-- A class is declared and linked where there is a class around it. -/
theorem run_declareNested (decl : ClassDecl) (draft : TrackedDraft) : (declareNested decl).run draft =
    match draft.scopes.currentClass? with
    | none => (none, draft)
    | some outer =>
        match draft.program.symbol? outer with
        | none => (none, draft)
        | some symbol => (do
            let id ← declareInside outer symbol decl
            linkClass id decl
            return some id : Tracked (Option SymbolId)).run draft := by
  have hrun : (declareNested decl).run draft =
      (match draft.scopes.currentClass? with
      | none => Pure.pure none
      | some outer => do
          match ← ask (·.symbol? outer) with
          | none => return none
          | some symbol =>
              let id ← declareInside outer symbol decl
              linkClass id decl
              return some id : Tracked (Option SymbolId)).run draft := rfl
  rw [hrun]
  cases draft.scopes.currentClass? with
  | none => rfl
  | some outer =>
      dsimp only
      rw [run_bind, run_ask]
      cases draft.program.symbol? outer <;> rfl

theorem declareNested_spec (decl : ClassDecl) {draft : TrackedDraft} (hdraft : draft.program.WellFormed) :
    DeclaresNested decl draft ((declareNested decl).run draft).2
      ((declareNested decl).run draft).1 := by
  have hnone (hcurrent : ∀ self info, draft.scopes.currentClass? = some self →
      draft.program.classInfo? self = some info → False) : DeclaresNested decl draft draft none :=
    ⟨(Declares.refl draft).mono (List.nil_sublist _), nofun, nofun,
      fun self info hself hinfo => (hcurrent self info hself hinfo).elim⟩
  rw [run_declareNested]
  cases hcurrent : draft.scopes.currentClass? with
  | none => exact hnone fun self _ hself _ => nomatch hcurrent.symm.trans hself
  | some outer =>
      dsimp only
      cases hsymbol : draft.program.symbol? outer with
      | none =>
          refine hnone fun self info hself hinfo => ?_
          obtain rfl := Option.some.inj (hcurrent.symm.trans hself)
          rw [Program.classInfo?, hsymbol] at hinfo
          cases hinfo
      | some symbol =>
          dsimp only
          rw [run_bind]
          exact (declareInside_spec decl hdraft hsymbol).link hdraft hcurrent

end Resolving
end LockDiscipline
