import Std.Data.TreeMap.Lemmas
import LockDiscipline.Proofs.Program.Footprints
import LockDiscipline.Proofs.Program.Lookup
import LockDiscipline.Proofs.Tree.Courses
/-!
# Scopes and what a place sees

The scopes of the resolver hold variables and classes, the nearest first: `ScopeStack.items`. A name
means the first of them that gives it a meaning. Declarations add to the innermost scope alone, which
`ScopeStack.Binds` says of two stacks. `Program.Shows` connects the marks that a place sees in the tree
with the items of the scopes that the resolver has there. Declaring and linking classes leaves the scopes
as they are.
-/

namespace LockDiscipline

/-- The class that a scope of a kind is the body of. -/
def ScopeKind.class? : ScopeKind → Option SymbolId
  | .classBody symbol => some symbol
  | _ => none

/-- What can give a name its meaning in scopes. -/
inductive ScopeItem where
  | variable (name : String) (id : SymbolId)
  | classBody (id : SymbolId)

namespace ScopeItem

/-- A variable that a scope binds. -/
def ofBinding (binding : String × SymbolId) : ScopeItem :=
  .variable binding.1 binding.2

/-- What a name means because of an item. The fields of a class are given by a function. -/
def meaning? (name : String) (field? : SymbolId → Option SymbolId) : ScopeItem → Option SymbolId
  | .variable bound id => if bound = name then some id else none
  | .classBody id => field? id

/-- The class of which the item is the body. -/
def class? : ScopeItem → Option SymbolId
  | .variable .. => none
  | .classBody id => some id

end ScopeItem

/-- What a scope holds, the last binding first. -/
def Scope.items (scope : Scope) : List ScopeItem :=
  scope.bindings.map .ofBinding ++ scope.kind.class?.toList.map .classBody

namespace ScopeStack

/-- What the scopes around a place hold, the nearest first. -/
def items (scopes : ScopeStack) : List ScopeItem :=
  scopes.toList.flatMap Scope.items

/-! ### Looking up -/

private theorem lookup_eq_findSome? (name : String) (field? : SymbolId → Option SymbolId)
    (bindings : List (String × SymbolId)) :
    bindings.lookup name = (bindings.map .ofBinding).findSome? (ScopeItem.meaning? name field?) := by
  induction bindings with
  | nil => rfl
  | cons binding rest ih =>
      obtain ⟨bound, id⟩ := binding
      rw [List.lookup_cons, List.map_cons, List.findSome?_cons, ← ih, ScopeItem.ofBinding,
        ScopeItem.meaning?]
      by_cases heq : bound = name
      · rw [if_pos heq, heq, beq_self_eq_true]
      · rw [if_neg heq, beq_false_of_ne (Ne.symm heq)]

/-- A name means the nearest thing that gives it a meaning. -/
theorem lookup_eq (scopes : ScopeStack) (name : String) (field? : SymbolId → Option SymbolId) :
    scopes.lookup name field? = scopes.items.findSome? (ScopeItem.meaning? name field?) := by
  have hscope (scope : Scope) :
      lookupIn name field? scope = scope.items.findSome? (ScopeItem.meaning? name field?) := by
    rw [lookupIn, Scope.items, List.findSome?_append, lookup_eq_findSome? name field?]
    cases scope.kind <;> simp [ScopeKind.class?, ScopeItem.meaning?]
  rw [lookup, items]
  induction scopes.toList with
  | nil => rfl
  | cons scope rest ih =>
      rw [List.findSome?_cons, List.flatMap_cons, List.findSome?_append, ← ih, hscope]
      cases scope.items.findSome? (ScopeItem.meaning? name field?) <;> rfl

theorem enclosingClasses_eq (scopes : ScopeStack) :
    scopes.enclosingClasses = scopes.items.filterMap ScopeItem.class? := by
  rw [enclosingClasses, items, List.filterMap_flatMap, List.filterMap_eq_flatMap_toList]
  refine List.flatMap_congr fun scope _ => ?_
  rw [Scope.items, List.filterMap_append, List.filterMap_map, List.filterMap_eq_nil_iff.mpr]
  · cases scope.kind <;> rfl
  · exact fun _ _ => rfl

/-- A name means a variable that some scope binds, or a field of the innermost class that has it. -/
theorem lookup_cases {scopes : ScopeStack} {name : String} {field? : SymbolId → Option SymbolId}
    {id : SymbolId} (h : scopes.lookup name field? = some id) :
    .variable name id ∈ scopes.items ∨ scopes.enclosingClasses.findSome? field? = some id := by
  rw [lookup_eq] at h
  rw [enclosingClasses_eq]
  generalize scopes.items = items at h ⊢
  induction items with
  | nil => cases h
  | cons item rest ih =>
      rw [List.findSome?_cons] at h
      cases item with
      | «variable» bound id' =>
          rw [ScopeItem.meaning?] at h
          by_cases heq : bound = name
          · rw [if_pos heq] at h
            obtain rfl := Option.some.inj h
            exact .inl (heq ▸ List.mem_cons_self)
          · rw [if_neg heq] at h
            exact (ih h).imp_left (List.mem_cons_of_mem _)
      | classBody type =>
          rw [ScopeItem.meaning?] at h
          rw [List.filterMap_cons_some (by rfl), List.findSome?_cons]
          cases hfield : field? type with
          | some field =>
              rw [hfield] at h
              exact .inr h
          | none =>
              rw [hfield] at h
              exact (ih h).imp_left (List.mem_cons_of_mem _)

/-- Where a name means nothing, no class around has a field of the name. -/
theorem findSome?_eq_none_of_lookup {scopes : ScopeStack} {name : String}
    {field? : SymbolId → Option SymbolId} (h : scopes.lookup name field? = none) :
    scopes.enclosingClasses.findSome? field? = none := by
  rw [lookup_eq, List.findSome?_eq_none_iff] at h
  rw [enclosingClasses_eq, List.findSome?_eq_none_iff]
  intro type htype
  obtain ⟨item, hitem, hclass⟩ := List.mem_filterMap.mp htype
  cases item with
  | «variable» => cases hclass
  | classBody type' =>
      obtain rfl := Option.some.inj hclass
      exact h _ hitem

/-! ### Scopes that gain variables -/

/-- Scopes with more bindings in the innermost one, the last one first. -/
def bindAll (bindings : List (String × SymbolId)) : List Scope → List Scope
  | [] => []
  | scope :: rest => { scope with bindings := bindings ++ scope.bindings } :: rest

/-- The scopes around a place are the same but for variables declared in the innermost one. -/
def Binds (bindings : List (String × SymbolId)) (before after : ScopeStack) : Prop :=
  after.toList = bindAll bindings before.toList

theorem bindAll_nil (scopes : List Scope) : bindAll [] scopes = scopes := by
  cases scopes <;> rfl

theorem toList_push (scopes : ScopeStack) (kind : ScopeKind) :
    (scopes.push kind).toList = ⟨kind, []⟩ :: scopes.toList := rfl

theorem items_push (scopes : ScopeStack) (kind : ScopeKind) :
    (scopes.push kind).items = kind.class?.toList.map .classBody ++ scopes.items := rfl

theorem enclosingClasses_push (scopes : ScopeStack) (kind : ScopeKind) :
    (scopes.push kind).enclosingClasses = kind.class?.toList ++ scopes.enclosingClasses := by
  cases kind <;> simp [enclosingClasses, toList, push, ScopeKind.class?]

namespace Binds

variable {before middle after : ScopeStack} {bindings bindings' : List (String × SymbolId)}

theorem refl (scopes : ScopeStack) : Binds [] scopes scopes :=
  (bindAll_nil _).symm

theorem of_eq (h : after.toList = before.toList) : Binds [] before after :=
  h.trans (bindAll_nil _).symm

theorem toList_eq (h : Binds [] before after) : after.toList = before.toList :=
  h.trans (bindAll_nil _)

theorem trans (hfirst : Binds bindings before middle) (hsecond : Binds bindings' middle after) :
    Binds (bindings' ++ bindings) before after := by
  rw [Binds, hsecond, hfirst]
  cases before.toList with
  | nil => rfl
  | cons scope rest => rw [bindAll, bindAll, bindAll, List.append_assoc]

theorem define (scopes : ScopeStack) (name : String) (id : SymbolId) :
    Binds [(name, id)] scopes (scopes.define name id) := by
  obtain ⟨inner, file, opened⟩ := scopes
  cases inner <;> rfl

/-- What is declared in a scope of its own is left with the scope. -/
theorem pop {kind : ScopeKind} (h : Binds bindings (before.push kind) after) :
    after.pop.toList = before.toList := by
  obtain ⟨inner, file, opened⟩ := after
  cases inner with
  | nil =>
      have hlength := congrArg List.length h
      rw [toList_push, bindAll] at hlength
      simp [toList] at hlength
  | cons scope rest => exact (List.cons.inj h).2

theorem items_eq (h : Binds bindings before after) :
    after.items = bindings.map .ofBinding ++ before.items := by
  have hne : before.toList ≠ [] := List.append_ne_nil_of_right_ne_nil _ (List.cons_ne_nil _ _)
  rw [items, h, items]
  cases hscopes : before.toList with
  | nil => exact absurd hscopes hne
  | cons scope rest =>
      simp [bindAll, Scope.items]

theorem enclosingClasses_eq (h : Binds bindings before after) :
    after.enclosingClasses = before.enclosingClasses := by
  have hnone : (bindings.map ScopeItem.ofBinding).filterMap ScopeItem.class? = [] :=
    List.filterMap_eq_nil_iff.mpr (List.forall_mem_map.mpr fun _ _ => rfl)
  rw [ScopeStack.enclosingClasses_eq, h.items_eq, List.filterMap_append, hnone, List.nil_append,
    ScopeStack.enclosingClasses_eq]

theorem currentClass?_eq (h : Binds bindings before after) :
    after.currentClass? = before.currentClass? :=
  congrArg List.head? h.enclosingClasses_eq

end Binds

end ScopeStack

namespace Program

/-! ### What the scopes show -/

/-- A variable is the symbol that is declared at a place. The parameters of a lambda are declared one
after the other. -/
def DeclaredAt (program : Program) : VariableSite → SymbolId → Prop
  | .node node name, id => program.use? node = some id ∧
      ∃ symbol, program.symbol? id = some symbol ∧ symbol.name = name ∧ symbol.isVariable
  | .lambda span before name, id => ∃ first, id = first + before.length ∧
      ∀ index param, (before ++ [name])[index]? = some param →
        ∃ symbol, program.symbol? (first + index) = some symbol ∧ symbol.name = param ∧
          symbol.isVariable ∧ symbol.span = span

/-- An item of the scopes is what a mark stands for. -/
inductive Shows (program : Program) : ScopeMark → ScopeItem → Prop where
  | variable {site : VariableSite} {id : SymbolId} (hsite : program.DeclaredAt site id) :
      Shows program (.variable site) (.variable site.name id)
  | classBody {node : NodeId} {id : SymbolId} (huse : program.use? node = some id) :
      Shows program (.classBody node) (.classBody id)

variable {program later : Program}

theorem DeclaredAt.exists_symbol {site : VariableSite} {id : SymbolId}
    (h : program.DeclaredAt site id) :
    ∃ symbol, program.symbol? id = some symbol ∧ symbol.name = site.name ∧ symbol.isVariable := by
  cases site with
  | node => exact h.2
  | lambda span before name =>
      obtain ⟨first, rfl, hparams⟩ := h
      obtain ⟨symbol, hsymbol, hname, hvariable, -⟩ := hparams before.length name (by simp)
      exact ⟨symbol, hsymbol, hname, hvariable⟩

theorem DeclaredAt.mono {classes : Prop} {site : VariableSite} {id : SymbolId}
    (h : program.DeclaredAt site id) (hgrows : Grows classes program later)
    (huse : ∀ node ∈ site.nodes, later.use? node = program.use? node) : later.DeclaredAt site id := by
  have hkept {id : SymbolId} {symbol : NamedSymbol} (hsymbol : program.symbol? id = some symbol)
      (hvariable : symbol.isVariable) : later.symbol? id = some symbol :=
    hgrows.symbol?_of_not_class hsymbol (symbol.classInfo?_eq_none_of_isVariable hvariable)
  cases site with
  | node node name =>
      obtain ⟨hused, symbol, hsymbol, hname, hvariable⟩ := h
      exact ⟨(huse node (List.mem_singleton_self _)).trans hused, symbol, hkept hsymbol hvariable,
        hname, hvariable⟩
  | lambda span before name =>
      obtain ⟨first, hid, hparams⟩ := h
      refine ⟨first, hid, fun index param hparam => ?_⟩
      obtain ⟨symbol, hsymbol, hname, hvariable, hspan⟩ := hparams index param hparam
      exact ⟨symbol, hkept hsymbol hvariable, hname, hvariable, hspan⟩

theorem Shows.mono {classes : Prop} {mark : ScopeMark} {item : ScopeItem}
    (h : program.Shows mark item) (hgrows : Grows classes program later)
    (huse : ∀ node ∈ mark.nodes, later.use? node = program.use? node) : later.Shows mark item := by
  cases h with
  | «variable» hsite => exact .variable (hsite.mono hgrows huse)
  | classBody hused => exact .classBody ((huse _ (List.mem_singleton_self _)).trans hused)

/-- What marks stand for stays so while no uses are recorded for the nodes of the marks. -/
theorem shows_mono {classes : Prop} {marks : List ScopeMark} {items : List ScopeItem}
    (h : List.Forall₂ program.Shows marks items) (hgrows : Grows classes program later)
    (huse : ∀ mark ∈ marks, ∀ node ∈ mark.nodes, later.use? node = program.use? node) :
    List.Forall₂ later.Shows marks items := by
  induction h with
  | nil => exact .nil
  | cons hshows _ ih =>
      obtain ⟨hmark, hrest⟩ := List.forall_mem_cons.mp huse
      exact .cons (hshows.mono hgrows hmark) (ih hrest)

/-- The variables that marks stand for are symbols of their names. -/
theorem exists_symbol_of_shows {marks : List ScopeMark} {items : List ScopeItem}
    (h : List.Forall₂ program.Shows marks items) {name : String} {id : SymbolId}
    (hmem : .variable name id ∈ items) :
    ∃ symbol, program.symbol? id = some symbol ∧ symbol.name = name ∧ symbol.isVariable := by
  induction h with
  | nil => cases hmem
  | cons hshows _ ih =>
      rcases List.mem_cons.mp hmem with rfl | hmem
      · cases hshows with
        | «variable» hsite => exact hsite.exists_symbol
      · exact ih hmem

end Program

theorem Program.use?_setUse (program : Program) (node : NodeId) (id : SymbolId) (number : NodeId) :
    (program.setUse node id).use? number =
      if number = node then some id else program.use? number := by
  rw [use?, setUse, Std.TreeMap.getElem?_insert, use?]
  simp only [Std.LawfulEqCmp.compare_eq_iff_eq, eq_comm (a := node)]

namespace Resolving

/-! ### Declaring classes -/

/-- The resolver is at the same place with two drafts and has gone through the same expressions. -/
structure SamePlace (before after : TrackedDraft) : Prop where
  scopes : after.scopes = before.scopes
  visits : after.visits = before.visits
  receivers : after.receivers = before.receivers

/-- A computation leaves the scopes as they are, goes through no expressions and takes no use away. -/
structure KeepsPlace {α : Type} (computation : Tracked α) : Prop where
  samePlace : ∀ draft : TrackedDraft, SamePlace draft (computation.run draft).2
  uses : ∀ (draft : TrackedDraft) (node : NodeId), (draft.program.use? node).isSome →
    ((computation.run draft).2.program.use? node).isSome

namespace KeepsPlace

variable {α β : Type}

/-- A computation that records nothing takes no use away. -/
theorem of_uses_eq {computation : Tracked α} (hplace : ∀ draft, SamePlace draft (computation.run draft).2)
    (huses : ∀ draft, (computation.run draft).2.program.uses = draft.program.uses) : KeepsPlace computation where
  samePlace := hplace
  uses draft node h := by rwa [Program.use?, huses draft, ← Program.use?]

theorem pure (value : α) : KeepsPlace (Pure.pure value) :=
  .of_uses_eq (fun _ => ⟨rfl, rfl, rfl⟩) fun _ => rfl

theorem bind {first : Tracked α} {second : α → Tracked β} (hfirst : KeepsPlace first)
    (hsecond : ∀ value, KeepsPlace (second value)) : KeepsPlace (first >>= second) where
  samePlace draft :=
    have h := hfirst.samePlace draft
    have h' := (hsecond _).samePlace (first.run draft).2
    ⟨h'.scopes.trans h.scopes, h'.visits.trans h.visits, h'.receivers.trans h.receivers⟩
  uses draft node h := (hsecond _).uses _ node (hfirst.uses draft node h)

theorem get : KeepsPlace (MonadState.get : Tracked TrackedDraft) :=
  .of_uses_eq (fun _ => ⟨rfl, rfl, rfl⟩) fun _ => rfl

theorem ask (question : Program → α) : KeepsPlace (Resolving.ask question) :=
  .of_uses_eq (fun _ => ⟨rfl, rfl, rfl⟩) fun _ => rfl

theorem update {change : Program → Program} (huses : ∀ program, (change program).uses = program.uses) :
    KeepsPlace (Resolving.update change) :=
  .of_uses_eq (fun _ => ⟨rfl, rfl, rfl⟩) fun draft => huses draft.program

theorem tell (event : TraceEvent) : KeepsPlace (Resolving.tell event) :=
  .of_uses_eq (fun _ => ⟨rfl, rfl, rfl⟩) fun _ => rfl

theorem setUse (node : NodeId) (id : SymbolId) : KeepsPlace (Resolving.setUse node id) where
  samePlace _ := ⟨rfl, rfl, rfl⟩
  uses draft number h := by
    have huse : ((Resolving.setUse node id).run draft).2.program.use? number = _ :=
      draft.program.use?_setUse node id number
    rw [huse]
    split
    · rfl
    · exact h

theorem declare (name : String) (kind : SymbolKind) (type guard : Option String) (span : Span) :
    KeepsPlace (Resolving.declare name kind type guard span) :=
  .of_uses_eq (fun _ => ⟨rfl, rfl, rfl⟩) fun _ => rfl

theorem declareField (owner : SymbolId) (name : String) (type guard : Option String)
    (isStatic : Bool) (node : NodeId) (span : Span) :
    KeepsPlace (Resolving.declareField owner name type guard isStatic node span) := by
  refine (declare ..).bind fun id => (setUse node id).bind fun _ => (ask _).bind fun fields => ?_
  split <;> exact update fun _ => rfl

theorem declareFields (owner : SymbolId) (modifiers : Modifiers) (type : String) (isStatic : Bool)
    (declarators : List Declarator) :
    KeepsPlace (Resolving.declareFields owner modifiers type isStatic declarators) := by
  induction declarators with
  | nil => exact pure ()
  | cons declarator rest ih => exact (declareField ..).bind fun _ => ih

theorem enterMemberClass (owner : SymbolId) (name : String) (id : SymbolId) :
    KeepsPlace (Resolving.enterMemberClass owner name id) :=
  .of_uses_eq (fun _ => ⟨rfl, rfl, rfl⟩) fun _ => rfl

theorem declareMethod (owner : SymbolId) (method : MethodDecl) (inInterface : Bool) :
    KeepsPlace (Resolving.declareMethod owner method inInterface) :=
  (declare ..).bind fun _ => (setUse ..).bind fun _ => update fun _ => rfl

theorem declareClassSymbol (node : NodeId) (name : String) (kind : ClassKind) (outer : Option SymbolId)
    (qualifiedName : String) (isStatic : Bool) (span : Span) :
    KeepsPlace (Resolving.declareClassSymbol node name kind outer qualifiedName isStatic span) :=
  (declare ..).bind fun _ => (setUse ..).bind fun _ => .bind (.update fun _ => rfl) fun _ => .pure _

end KeepsPlace

mutual

theorem keepsPlace_declareClass (outer : Option SymbolId) (name qualifiedName : String)
    (isStatic : Bool) : ∀ decl : ClassDecl,
      KeepsPlace (declareClass outer name qualifiedName isStatic decl)
  | ⟨_, _, _, _, _, _, _, members, _⟩ => by
      rw [declareClass]
      exact (KeepsPlace.declareClassSymbol ..).bind fun _ =>
        (keepsPlace_declareMembers _ _ _ _ members).bind fun _ => .pure _

theorem keepsPlace_declareMembers (owner : SymbolId) (qualifiedName className : String)
    (inInterface : Bool) : ∀ members : List Member,
      KeepsPlace (declareMembers owner qualifiedName className inInterface members)
  | [] => by
      rw [declareMembers]
      exact .pure ()
  | ⟨_, kind, _⟩ :: rest => by
      rw [declareMembers]
      exact (keepsPlace_declareMember _ _ _ _ _ _ kind).bind fun _ =>
        keepsPlace_declareMembers _ _ _ _ rest

theorem keepsPlace_declareMember (owner : SymbolId) (qualifiedName className : String)
    (inInterface : Bool) (node : NodeId) (span : Span) : ∀ kind : MemberKind,
      KeepsPlace (declareMember owner qualifiedName className inInterface node span kind)
  | .field .. => by
      rw [declareMember]
      exact .declareFields ..
  | .enumConstant .. => by
      rw [declareMember]
      exact .declareField ..
  | .method _ => by
      rw [declareMember]
      exact .declareMethod ..
  | .initializer .. => by
      rw [declareMember]
      exact .pure ()
  | .classDecl decl => by
      rw [declareMember]
      refine (keepsPlace_declareClass _ _ _ _ decl).bind fun id =>
        (KeepsPlace.enterMemberClass owner decl.name id).bind fun previous? => ?_
      cases previous? with
      | some previous => exact .update fun _ => rfl
      | none => exact .pure ()

end

theorem keepsPlace_findSupertype (scope : SymbolId) (type : String) :
    KeepsPlace (findSupertype scope type) := by
  refine (KeepsPlace.ask _).bind fun found => ?_
  cases found with
  | some id => exact .pure _
  | none => exact (KeepsPlace.tell _).bind fun _ => .pure _

theorem keepsPlace_findSupertypes (scope : SymbolId) (types : List String) :
    KeepsPlace (findSupertypes scope types) := by
  induction types with
  | nil => exact .pure _
  | cons type rest ih =>
      exact (keepsPlace_findSupertype scope type).bind fun _ => ih.bind fun _ => .pure _

theorem keepsPlace_setSupertypes (id : SymbolId) (superclass : Option SymbolId)
    (interfaces : List SymbolId) (span : Span) :
    KeepsPlace (setSupertypes id superclass interfaces span) := by
  refine KeepsPlace.get.bind fun draft => ?_
  dsimp only
  split
  · exact .bind (.update fun _ => rfl) fun _ => .update fun _ => rfl
  · exact .update fun _ => rfl

mutual

theorem keepsPlace_linkClass (id : SymbolId) : ∀ decl : ClassDecl, KeepsPlace (linkClass id decl)
  | ⟨_, _, _, _, _, superclass, interfaces, members, span⟩ => by
      rw [linkClass]
      have hrest (scope : SymbolId) (found : Option SymbolId) : KeepsPlace (do
          let interfaces ← findSupertypes scope interfaces
          setSupertypes id found interfaces span
          linkMembers members) :=
        (keepsPlace_findSupertypes ..).bind fun _ => (keepsPlace_setSupertypes ..).bind fun _ =>
          keepsPlace_linkMembers members
      refine (KeepsPlace.ask _).bind fun scope => ?_
      cases superclass with
      | some type => exact (keepsPlace_findSupertype scope type).bind (hrest scope)
      | none => exact (KeepsPlace.pure none).bind (hrest scope)

theorem keepsPlace_linkMembers : ∀ members : List Member, KeepsPlace (linkMembers members)
  | [] => by
      rw [linkMembers]
      exact .pure ()
  | ⟨_, kind, _⟩ :: rest => by
      rw [linkMembers]
      exact (keepsPlace_linkMember kind).bind fun _ => keepsPlace_linkMembers rest

theorem keepsPlace_linkMember : ∀ kind : MemberKind, KeepsPlace (linkMember kind)
  | .classDecl decl => by
      rw [linkMember]
      refine (KeepsPlace.ask _).bind fun found => ?_
      cases found with
      | some id => exact keepsPlace_linkClass id decl
      | none => exact .pure ()
  | .field .. | .method _ | .initializer .. | .enumConstant .. => by
      rw [linkMember]
      · exact .pure ()
      · nofun

end

theorem keepsPlace_enterTopLevel (name : String) (id : SymbolId) (span : Span) :
    KeepsPlace (enterTopLevel name id span) := by
  refine (KeepsPlace.ask _).bind fun topLevel => ?_
  split <;> exact .update fun _ => rfl

theorem keepsPlace_declareTopLevel (package : Option String) (types : List ClassDecl) :
    KeepsPlace (declareTopLevel package types) := by
  induction types with
  | nil => exact .pure _
  | cons decl rest ih =>
      exact (keepsPlace_declareClass none _ _ _ decl).bind fun id =>
        (keepsPlace_enterTopLevel _ _ _).bind fun _ => ih.bind fun _ => .pure _

theorem keepsPlace_linkTopLevel (classes : List (SymbolId × ClassDecl)) :
    KeepsPlace (linkTopLevel classes) := by
  induction classes with
  | nil => exact .pure ()
  | cons entry rest ih => exact (keepsPlace_linkClass entry.1 entry.2).bind fun _ => ih

/-- A class that is declared where it stands leaves the scopes as they are. -/
theorem keepsPlace_declareNested (decl : ClassDecl) : KeepsPlace (declareNested decl) := by
  refine (KeepsPlace.get.bind fun _ => .pure _).bind fun outer? => ?_
  cases outer? with
  | none => exact .pure none
  | some outer =>
      refine (KeepsPlace.ask _).bind fun symbol? => ?_
      cases symbol? with
      | none => exact .pure none
      | some symbol =>
          refine KeepsPlace.bind ?_ fun id => (keepsPlace_linkClass id decl).bind fun _ => .pure _
          have hnumber : KeepsPlace (nextNested outer) :=
            .of_uses_eq (fun _ => ⟨rfl, rfl, rfl⟩) fun _ => rfl
          refine (KeepsPlace.ask _).bind fun outerName => hnumber.bind fun number => ?_
          dsimp only
          split
          · exact keepsPlace_declareClass ..
          · exact (keepsPlace_declareClass ..).bind fun _ =>
              (KeepsPlace.enterMemberClass ..).bind fun _ => .pure _

end Resolving

end LockDiscipline
