import LockDiscipline.Proofs.Grammar.Heads
import LockDiscipline.Proofs.Lock.Receiver
import LockDiscipline.Proofs.Program.Stability
/-!
# Locks that code and guards name alike

A guard text is bound by looking its names up, a source expression by what the resolver recorded for it.
Where no class is declared inside code, both find the same members at every link of a chain, so that the
same chain written as a guard and in code is the same lock.
-/

namespace LockDiscipline

/-! ### Chains -/

/-- A chain of members as guards and code write it, without the places where it is written. -/
inductive LockChain where
  | this
  | qualifiedThis (type : String)
  | name (name : String)
  | select (object : LockChain) (name : String)
  | call (method : String)
  | callOn (receiver : LockChain) (method : String)
deriving DecidableEq, Repr

namespace Expr

/-- The chain that an expression spells, if it spells one. Calls in a chain have no arguments. -/
def chain? : Expr → Option LockChain
  | ⟨_, .this, _⟩ => some .this
  | ⟨_, .qualifiedThis type, _⟩ => some (.qualifiedThis type)
  | ⟨_, .name name, _⟩ => some (.name name)
  | ⟨_, .select object name, _⟩ => object.chain?.map (.select · name)
  | ⟨_, .call none method [], _⟩ => some (.call method)
  | ⟨_, .call (some receiver) method [], _⟩ => receiver.chain?.map (.callOn · method)
  | _ => none

/-- An expression spells a chain. -/
inductive Spells : Expr → LockChain → Prop where
  | this (id : NodeId) (span : Span) : Spells ⟨id, .this, span⟩ .this
  | qualifiedThis (id : NodeId) (type : String) (span : Span) :
      Spells ⟨id, .qualifiedThis type, span⟩ (.qualifiedThis type)
  | name (id : NodeId) (name : String) (span : Span) : Spells ⟨id, .name name, span⟩ (.name name)
  | select {object : Expr} {chain : LockChain} (id : NodeId) (name : String) (span : Span)
      (hobject : Spells object chain) : Spells ⟨id, .select object name, span⟩ (.select chain name)
  | call (id : NodeId) (method : String) (span : Span) :
      Spells ⟨id, .call none method [], span⟩ (.call method)
  | callOn {receiver : Expr} {chain : LockChain} (id : NodeId) (method : String) (span : Span)
      (hreceiver : Spells receiver chain) :
      Spells ⟨id, .call (some receiver) method [], span⟩ (.callOn chain method)

theorem spells_of_chain? (expr : Expr) {chain : LockChain} (h : expr.chain? = some chain) :
    expr.Spells chain := by
  fun_induction chain? expr generalizing chain with
  | case1 id span => exact Option.some.inj h ▸ .this id span
  | case2 id type span => exact Option.some.inj h ▸ .qualifiedThis id type span
  | case3 id name span => exact Option.some.inj h ▸ .name id name span
  | case4 id object name span ih =>
      obtain ⟨inner, hinner, rfl⟩ := Option.map_eq_some_iff.mp h
      exact .select id name span (ih hinner)
  | case5 id method span => exact Option.some.inj h ▸ .call id method span
  | case6 id receiver method span ih =>
      obtain ⟨inner, hinner, rfl⟩ := Option.map_eq_some_iff.mp h
      exact .callOn id method span (ih hinner)
  | case7 => cases h

end Expr

namespace Viewpoint

/-- Whether an expression was resolved to a type as a bare name. -/
def namesType (view : Viewpoint) (expr : Expr) : Bool :=
  match expr.kind with
  | .name _ => (view.program.usedSymbol? expr.id).any (·.isClass)
  | _ => false

/-- Whether an expression is a chain from `this`, from the instance of a class around or from a bare name,
in which all names were resolved to fields, but the first one perhaps to a type, all calls to methods
without parameters, and no instance member is selected from a type. A class around does not count if it
bears the name of a primitive type. -/
def namesLock (view : Viewpoint) : Expr → Bool
  | ⟨_, .this, _⟩ => true
  | ⟨_, .qualifiedThis type, _⟩ =>
      !TypeName.primitives.contains type && (view.findType? type).any view.enclosing.contains
  | ⟨id, .name _, _⟩ =>
      (view.program.usedSymbol? id).any fun symbol => symbol.isField || symbol.isClass
  | ⟨id, .select object _, _⟩ =>
      view.namesLock object && (view.program.usedSymbol? id).any fun symbol =>
        symbol.isField && (symbol.isStatic || !view.namesType object)
  | ⟨id, .call none _ [], _⟩ => (view.program.usedSymbol? id).any (·.isMethodOfArity 0)
  | ⟨id, .call (some receiver) _ [], _⟩ =>
      view.namesLock receiver && (view.program.usedSymbol? id).any fun symbol =>
        symbol.isMethodOfArity 0 && (symbol.isStatic || !view.namesType receiver)
  | _ => false

/-! ### Single links -/

variable {view : Viewpoint}

section Lookups

variable (hprogram : view.program.WellFormed)
include hprogram

/-- The field that a guard finds under a name is the field that code finds. -/
theorem fieldNamed?_eq (type : SymbolId) (name : String) :
    view.fieldNamed? type name = view.program.findField? type name := by
  rw [fieldNamed?, Program.findMember?]
  cases hfield : view.program.findField? type name with
  | some id =>
      obtain ⟨symbol, owner, hinherits, -, hsymbol⟩ := hprogram.findField? hfield
      rw [Option.some_or, Option.filter_some, hinherits.symbol_eq, Option.any_some, hsymbol, if_pos rfl]
  | none =>
      rw [Option.none_or, Option.filter_eq_none_iff]
      intro id hid
      obtain ⟨symbol, owner, hinherits, -, hmethod⟩ := hprogram.mem_methodsNamed (List.mem_of_head? hid)
      rw [hinherits.symbol_eq, Option.any_some]
      exact symbol.not_isField_of_isMethod hmethod

/-- The field that a bare name means in a guard is found as in code. -/
theorem scopedField?_eq (name : String) :
    view.scopedField? name = view.enclosing.findSome? (view.program.findField? · name) :=
  congrArg (view.enclosing.findSome? ·) (funext fun type => fieldNamed?_eq hprogram type name)

omit hprogram in
/-- Where code finds a method without parameters, a guard finds it as well. -/
theorem getterNamed?_eq {type id : SymbolId} {name : String} {symbol : NamedSymbol}
    (hfound : view.program.findMethod? type name 0 = some id)
    (hsymbol : view.program.symbol? id = some symbol) (harity : symbol.isMethodOfArity 0) :
    view.getterNamed? type name = some id := by
  rw [getterNamed?, hfound, Option.filter_some, Program.hasArity, hsymbol, Option.any_some, harity,
    if_pos rfl]

omit hprogram in
/-- Where the method that a bare call means in code has no parameters, a guard finds it as well. -/
theorem scopedGetter?_eq {id : SymbolId} {name : String} {symbol : NamedSymbol}
    (hfound : view.enclosing.findSome? (view.program.findMethod? · name 0) = some id)
    (hsymbol : view.program.symbol? id = some symbol) (harity : symbol.isMethodOfArity 0) :
    view.scopedGetter? name = some id := by
  obtain ⟨inner, type, outer, heq, htype, hinner⟩ := List.findSome?_eq_some_iff.mp hfound
  refine List.findSome?_eq_some_iff.mpr
    ⟨inner, type, outer, heq, getterNamed?_eq htype hsymbol harity, fun other hother => ?_⟩
  rw [getterNamed?, hinner other hother]
  rfl

end Lookups

/-- A static member is selected from its class, whatever is written before it. -/
theorem select_of_isStatic {id : SymbolId} {symbol : NamedSymbol}
    (hsymbol : view.program.symbol? id = some symbol) (hstatic : symbol.isStatic)
    (base : Option Bound) : view.select base id = view.select none id := by
  simp only [select, symbol_eq_ok.mpr hsymbol, ok_bind, selectBase, hstatic, if_true]

/-- A member can be selected from where it belongs: a static one from its class, any other one from the
lock before it. -/
theorem exists_select {base : Option Bound} {id owner : SymbolId} {symbol : NamedSymbol}
    (hsymbol : view.program.symbol? id = some symbol) (howner : symbol.owner? = some owner)
    (hclass : view.program.IsClass owner)
    (hbase : symbol.isStatic = false → ∃ lock, view.selectBase base symbol owner = .ok lock) :
    ∃ lock, view.select base id = .ok (.lock (.select lock (.ofSymbol symbol))) := by
  have hmember : symbol.isClass = false := by
    rw [NamedSymbol.isClass, symbol.classInfo?_eq_none_of_owner? howner]
    rfl
  obtain ⟨lock, hlock⟩ : ∃ lock, view.selectBase base symbol owner = .ok lock := by
    cases hstatic : symbol.isStatic with
    | false => exact hbase hstatic
    | true =>
        obtain ⟨info, hinfo⟩ := hclass
        obtain ⟨type, htype, -⟩ := Option.bind_eq_some_iff.mp hinfo
        exact ⟨_, selectBase_eq_ok.mpr (.inl ⟨hstatic, type, htype, rfl⟩)⟩
  exact ⟨lock, select_eq_ok.mpr ⟨symbol, hsymbol, .inr ⟨hmember, owner, lock, howner, hlock, rfl⟩⟩⟩

/-- A selection in code selects the member that was resolved from what is bound before it. -/
theorem bindSource_select {node : NodeId} {object : Expr} {name : String} {span : Span}
    {id : SymbolId} {symbol : NamedSymbol} {bound : Bound} (huse : view.program.use? node = some id)
    (hsymbol : view.program.symbol? id = some symbol) (hclass : symbol.isClass = false)
    (hobject : view.bindSource false object = .ok bound) (allowArgs : Bool) :
    view.bindSource allowArgs ⟨node, .select object name, span⟩ = view.select (some bound) id := by
  have hresolved : view.resolved ⟨node, .select object name, span⟩ = .ok id := resolved_eq_ok.mpr huse
  rw [bindSource]
  simp only [hresolved, symbol_eq_ok.mpr hsymbol, ok_bind, hclass, hobject, Bool.false_or]
  split
  case isTrue hstatic => exact (select_of_isStatic hsymbol hstatic _).symm
  case isFalse => rfl

/-- A call on a receiver selects the method that was resolved from what the receiver is bound to. -/
theorem bindSource_callOn {node : NodeId} {receiver : Expr} {method : String} {span : Span}
    {id : SymbolId} {symbol : NamedSymbol} {bound : Bound} (huse : view.program.use? node = some id)
    (hsymbol : view.program.symbol? id = some symbol)
    (hreceiver : view.bindSource false receiver = .ok bound) (allowArgs : Bool) :
    view.bindSource allowArgs ⟨node, .call (some receiver) method [], span⟩ =
      view.select (some bound) id := by
  have hresolved : view.resolved ⟨node, .call (some receiver) method [], span⟩ = .ok id :=
    resolved_eq_ok.mpr huse
  rw [bindSource]
  simp only [List.isEmpty_nil, Bool.not_true, Bool.and_false, Bool.false_eq_true, if_false, hresolved,
    symbol_eq_ok.mpr hsymbol, ok_bind, bindReceiver, hreceiver, pure_bind]
  split
  case isTrue hstatic => exact (select_of_isStatic hsymbol hstatic _).symm
  case isFalse => rfl

/-- A member that a bare name or a bare call means, among those of the classes around, can be selected. -/
theorem exists_select_of_findSome? (hprogram : view.program.WellFormed) (kind : ExprKind) {id : SymbolId}
    (hfound : view.enclosing.findSome? (view.program.offered? kind) = some id) :
    ∃ symbol lock, view.program.symbol? id = some symbol ∧
      view.select none id = .ok (.lock (.select lock (.ofSymbol symbol))) := by
  obtain ⟨type, symbol, owner, -, -, hinherits, hsub⟩ := hprogram.find?_isSubclass hfound
  have htype := List.mem_of_find?_eq_some hsub
  obtain ⟨receiver, hreceiver, -⟩ := exists_enclosingInstance htype
    (Program.isClass_of_isSubclass hinherits.isSubclass hinherits.isClass)
  obtain ⟨lock, hlock⟩ := exists_select hinherits.symbol_eq hinherits.owner_eq hinherits.isClass
    fun hstatic => ⟨receiver, selectBase_eq_ok.mpr
      (.inr ⟨hstatic, .inr ⟨rfl, implicitReceiver_eq_ok.mpr ⟨type, hsub, hreceiver⟩⟩⟩)⟩
  exact ⟨symbol, lock, hinherits.symbol_eq, hlock⟩

/-! ### Chains of links -/

open Resolving Program

/-- A chain in code and the same chain as a guard are bound alike. What code denotes has its members where
the guard looks for them. -/
structure Agree (view : Viewpoint) (expr parsed : Expr) (draft : TrackedDraft) (bound : Bound) : Prop where
  source : view.bindSource false expr = .ok bound
  guard : view.bindGuardExpr? parsed = some bound
  denoted : ((resolveExpr expr).run draft).1.memberClass? = view.memberClass? bound
  isType : ∀ id, bound = .type id → view.namesType expr ∧ view.program.IsClass id

section Links

/-- A member that was found before the program was finished has the same type then and later. -/
theorem memberClass?_useValue (draft : TrackedDraft) (hdraft : draft.program.WellFormed)
    (hsame : draft.program.SameClasses view.program) {type id owner : SymbolId} {symbol : NamedSymbol}
    (hinherits : draft.program.Inherits type id symbol owner) (node : NodeId) (lock : LockExpr) :
    ((useValue node id).run draft).1.memberClass? =
      view.memberClass? (.lock (.select lock (.ofSymbol symbol))) := by
  have hcontext : symbol.contextClass < draft.program.symbols.size :=
    hinherits.context_eq ▸ hinherits.isClass.lt_size
  have hused : draft.program.SameClasses (draft.program.setUse node id) := .of_change (.use node id)
  change (draft.program.setUse node id).typeOf? id = view.program.typeOf? symbol.id
  rw [hdraft.id_eq hinherits.symbol_eq, hused.typeOf?_eq hdraft hinherits.symbol_eq hcontext,
    hsame.typeOf?_eq hdraft hinherits.symbol_eq hcontext]

theorem self_mem_enclosing (view : Viewpoint) : view.self ∈ view.enclosing :=
  List.mem_cons_self

variable {draft : TrackedDraft} {expr : Expr} (h : ComesTo False view.program view.enclosing expr draft)
include h

theorem isClass_of_mem_enclosing {type : SymbolId} (htype : type ∈ view.enclosing) :
    view.program.IsClass type :=
  (h.chain.isClass type htype).mono h.grows

theorem currentClass?_eq : draft.scopes.currentClass? = some view.self :=
  congrArg List.head? h.around

/-- Fields are found as they will be in the finished program. -/
theorem findField?_funext {name : String} :
    (view.program.findField? · name) = (draft.program.findField? · name) := by
  ext1 type
  exact (SameClasses.of_grows h.grows).findField?_eq h.wellFormed type name

theorem findTypeHere_eq (name : String) :
    ((findTypeHere name).run draft).1 = (TypeName.base? name).bind view.findType? := by
  have hself := h.lt_size view.self_mem_enclosing
  rw [run_findTypeHere, currentClass?_eq h, Option.bind_some]
  refine congrArg (TypeName.base? name).bind (funext fun base => ?_)
  exact ((SameClasses.of_grows h.grows).findType?_eq h.wellFormed hself base).symm

omit h in
/-- The program as it is once the inner part of a chain was gone through. -/
theorem sameClasses_inside (h : ComesTo False view.program view.enclosing expr draft) :
    ((resolveExpr expr).run draft).2.program.WellFormed ∧
      ((resolveExpr expr).run draft).2.program.SameClasses view.program :=
  ⟨((covers_plain expr).grows draft h.wellFormed).wellFormed h.wellFormed,
    .of_grows h.later⟩

omit h in
theorem findTypeHere_visiting (name : String) (node : NodeId) :
    ((findTypeHere name).run (visiting draft node)).1 = ((findTypeHere name).run draft).1 := by
  rw [run_findTypeHere, run_findTypeHere]
  rfl

end Links

section Chains

variable {draft : TrackedDraft} {node parsedNode : NodeId} {span parsedSpan : Span}

theorem agree_this (h : ComesTo False view.program view.enclosing ⟨node, .this, span⟩ draft) :
    view.Agree ⟨node, .this, span⟩ ⟨parsedNode, .this, parsedSpan⟩ draft (.lock .this) where
  source := by rw [bindSource]; rfl
  guard := by rw [bindGuardExpr?]
  denoted := by
    have hself := currentClass?_eq h
    rw [run_resolveExpr, resolveExprKind]
    exact hself
  isType _ heq := nomatch heq

variable (hprogram : view.program.WellFormed)
include hprogram

theorem agree_qualifiedThis {type : String} (htype : TypeName.IsDotted type)
    (h : ComesTo False view.program view.enclosing ⟨node, .qualifiedThis type, span⟩ draft)
    (hlock : view.namesLock ⟨node, .qualifiedThis type, span⟩) :
    ∃ bound, view.Agree ⟨node, .qualifiedThis type, span⟩
      ⟨parsedNode, .qualifiedThis type, parsedSpan⟩ draft bound := by
  rw [namesLock, Bool.and_eq_true, Bool.not_eq_true', Option.any_eq_true] at hlock
  obtain ⟨hprimitive, id, hfound, hmem⟩ := hlock
  have henclosing : id ∈ view.enclosing := List.contains_iff_mem.mp hmem
  have hhere : ((findTypeHere type).run (visiting draft node)).1 = some id := by
    rw [findTypeHere_visiting, findTypeHere_eq h, htype.base?_eq, hprimitive, if_neg Bool.false_ne_true,
      Option.bind_some, hfound]
  have hrun : (resolveExpr ⟨node, .qualifiedThis type, span⟩).run draft =
      (setUse node id >>= fun _ => pure (.value (some id))).run (visiting draft node) := by
    rw [run_resolveExpr, resolveExprKind, run_bind, hhere, run_findTypeHere]
  have huse : view.program.use? node = some id := by
    rw [h.uses node (TreeNode.ownIds_subset_numbers (List.mem_singleton_self _)), hrun]
    exact (draft.program.use?_setUse node id node).trans (if_pos rfl)
  obtain ⟨lock, hinstance, hthis, houter⟩ :=
    exists_enclosingInstance henclosing (isClass_of_mem_enclosing h henclosing)
  have hmembers : view.memberClass? (.lock lock) = some id := by
    by_cases hself : id = view.self
    · rw [hthis hself, hself]
      rfl
    · obtain ⟨around, haround, rfl⟩ := houter hself
      exact congrArg some (hprogram.id_eq haround)
  refine ⟨.lock lock, ?_, ?_, ?_, fun _ heq => nomatch heq⟩
  · have hresolved : view.resolved ⟨node, .qualifiedThis type, span⟩ = .ok id :=
      resolved_eq_ok.mpr huse
    rw [bindSource, hresolved, ok_bind, hinstance]
    rfl
  · rw [bindGuardExpr?, hfound]
    simp only [Option.bind_eq_bind, Option.bind_some, hinstance]
    rfl
  · rw [hrun, hmembers]
    rfl

/-- A bare name that was found in the scopes as a field is the field that a guard finds. -/
theorem agree_field {name : String} {id : SymbolId} {symbol : NamedSymbol}
    (h : ComesTo False view.program view.enclosing ⟨node, .name name, span⟩ draft)
    (huse : view.program.use? node = some id) (hsymbol : view.program.symbol? id = some symbol)
    (hvariable : symbol.isVariable = false)
    (hlookup : draft.scopes.lookup name (draft.program.findField? · name) = some id) :
    ∃ bound, view.Agree ⟨node, .name name, span⟩ ⟨parsedNode, .name name, parsedSpan⟩ draft bound := by
  have hsame := SameClasses.of_grows h.grows
  have hfield : view.enclosing.findSome? (draft.program.findField? · name) = some id := by
    rw [← h.around]
    refine (ScopeStack.lookup_cases hlookup).resolve_left fun hbound => ?_
    obtain ⟨bound, hboundSymbol, -, hisVariable⟩ := h.binds hbound
    obtain rfl := Option.some.inj (hsymbol.symm.trans hboundSymbol)
    exact nomatch hvariable.symm.trans hisVariable
  obtain ⟨type, -, htype⟩ := List.exists_of_findSome?_eq_some hfield
  obtain ⟨inherited, owner, hinherits, -, -⟩ := h.wellFormed.findField? htype
  obtain rfl := Option.some.inj (hsymbol.symm.trans (hsame.symbol? hinherits.symbol_eq))
  rw [← findField?_funext h] at hfield
  obtain ⟨member, lock, hmember, hselect⟩ := exists_select_of_findSome? hprogram (.name name) hfield
  obtain rfl := Option.some.inj (hsymbol.symm.trans hmember)
  refine ⟨_, (bindSource_name huse hsymbol hvariable false).trans hselect, ?_, ?_,
    fun _ heq => nomatch heq⟩
  · rw [bindGuardExpr?, bindName?, scopedField?_eq hprogram, hfield]
    exact toOption_eq_some.mpr hselect
  · rw [run_resolveExpr, resolveExprKind, run_resolveName_of_some hlookup]
    exact memberClass?_useValue (visiting draft node) h.wellFormed hsame hinherits node lock

/-- A bare name that was found as a type, for lack of a variable or field, is the type that a guard
finds. -/
theorem agree_type {name : String} (hname : TypeName.IsDotted name) {id : SymbolId}
    {symbol : NamedSymbol} (h : ComesTo False view.program view.enclosing ⟨node, .name name, span⟩ draft)
    (huse : view.program.use? node = some id) (hsymbol : view.program.symbol? id = some symbol)
    (hlookup : draft.scopes.lookup name (draft.program.findField? · name) = none)
    (hfound : ((findTypeHere name).run draft).1 = some id) :
    view.Agree ⟨node, .name name, span⟩ ⟨parsedNode, .name name, parsedSpan⟩ draft (.type id) := by
  have hclass := h.isClass_of_findTypeHere (.refl False _) rfl h.grows hfound
  have hisClass : symbol.isClass := by
    obtain ⟨info, hinfo⟩ := hclass
    rw [Program.classInfo?, hsymbol, Option.bind_some] at hinfo
    rw [NamedSymbol.isClass, hinfo]
    rfl
  have hvariable := symbol.isVariable_eq_false_of_isClass hisClass
  have hscoped := ScopeStack.findSome?_eq_none_of_lookup hlookup
  rw [h.around, ← findField?_funext h] at hscoped
  have htype : view.findType? name = some id := by
    rw [findTypeHere_eq h, hname.base?_eq] at hfound
    split at hfound
    · cases hfound
    · exact hfound
  refine ⟨(bindSource_name huse hsymbol hvariable false).trans ?_, ?_, ?_, ?_⟩
  · exact select_eq_ok.mpr ⟨symbol, hsymbol, .inl ⟨hisClass, rfl⟩⟩
  · rw [bindGuardExpr?, bindName?, scopedField?_eq hprogram, hscoped, htype]
    rfl
  · rw [run_resolveExpr, resolveExprKind, run_resolveName_of_none hlookup, findTypeHere_visiting, hfound]
    rfl
  · rintro _ ⟨⟩
    refine ⟨?_, hclass⟩
    rw [namesType, Program.usedSymbol?, huse, Option.bind_some, hsymbol, Option.any_some, hisClass]

theorem agree_name {name : String} (hname : TypeName.IsDotted name)
    (h : ComesTo False view.program view.enclosing ⟨node, .name name, span⟩ draft)
    (hlock : view.namesLock ⟨node, .name name, span⟩) :
    ∃ bound, view.Agree ⟨node, .name name, span⟩ ⟨parsedNode, .name name, parsedSpan⟩ draft bound := by
  rw [namesLock, Option.any_eq_true] at hlock
  obtain ⟨symbol, hused, hkind⟩ := hlock
  obtain ⟨id, huse, hsymbol⟩ := Option.bind_eq_some_iff.mp hused
  have hvariable : symbol.isVariable = false := by
    rcases (Bool.or_eq_true _ _).mp hkind with hfield | hclass
    · exact symbol.isVariable_eq_false_of_isField hfield
    · exact symbol.isVariable_eq_false_of_isClass hclass
  rcases h.name_found huse with hlookup | ⟨hlookup, hfound⟩
  · exact agree_field hprogram h huse hsymbol hvariable hlookup
  · exact ⟨_, agree_type hprogram hname h huse hsymbol hlookup hfound⟩

theorem agree_call {method : String}
    (h : ComesTo False view.program view.enclosing ⟨node, .call none method [], span⟩ draft)
    (hlock : view.namesLock ⟨node, .call none method [], span⟩) :
    ∃ bound, view.Agree ⟨node, .call none method [], span⟩ ⟨parsedNode, .call none method [], parsedSpan⟩
      draft bound := by
  rw [namesLock, Option.any_eq_true] at hlock
  obtain ⟨symbol, hused, harity⟩ := hlock
  obtain ⟨id, huse, hsymbol⟩ := Option.bind_eq_some_iff.mp hused
  have hsame := SameClasses.of_grows h.grows
  have hmethods := h.call_cases huse
  have hfound : ((findScopedMethod method 0).run (visiting draft node)).1 = some id := by
    have hfound := h.call_found huse
    rwa [resolveExprs] at hfound
  obtain ⟨type, -, htype⟩ := List.exists_of_findSome?_eq_some hmethods
  rw [hsame.findMethod?_eq h.wellFormed] at htype
  obtain ⟨inherited, owner, hinherits, -, -⟩ := h.wellFormed.findMethod? htype
  obtain rfl := Option.some.inj (hsymbol.symm.trans (hsame.symbol? hinherits.symbol_eq))
  obtain ⟨member, lock, hmember, hselect⟩ := exists_select_of_findSome? hprogram (.call none method [])
    hmethods
  obtain rfl := Option.some.inj (hsymbol.symm.trans hmember)
  refine ⟨_, (bindSource_call huse hsymbol (.inr rfl)).trans hselect, ?_, ?_, fun _ heq => nomatch heq⟩
  · rw [bindGuardExpr?, scopedGetter?_eq hmethods hsymbol harity]
    exact toOption_eq_some.mpr hselect
  · have hrun : (resolveExpr ⟨node, .call none method [], span⟩).run draft =
        (useMethod node ((findScopedMethod method 0).run (visiting draft node)).1).run
          ((findScopedMethod method 0).run (visiting draft node)).2 := by
      rw [run_resolveExpr, resolveExprKind, resolveExprs]
      rfl
    rw [hrun, hfound, run_findScopedMethod]
    exact memberClass?_useValue (visiting draft node) h.wellFormed hsame hinherits node lock

omit hprogram in
/-- The next link of a chain: a member found in the class of what the chain is bound to so far is selected
from that, unless this is a type and the member belongs to the instances. -/
theorem Agree.exists_member {object parsedObject : Expr} {base : Bound}
    (hobject : view.Agree object parsedObject draft base) {denoted : TrackedDraft}
    (hdenoted : denoted.program.WellFormed) (hsame : denoted.program.SameClasses view.program)
    {type id owner : SymbolId} {symbol : NamedSymbol}
    (hinherits : denoted.program.Inherits type id symbol owner)
    (hstatic : symbol.isStatic || !view.namesType object) (node : NodeId) :
    ∃ bound, view.select (some base) id = .ok bound ∧
      ((useValue node id).run denoted).1.memberClass? = view.memberClass? bound ∧
        ∀ type, bound ≠ .type type := by
  have hsymbol := hsame.symbol? hinherits.symbol_eq
  have hclass := (hsame.isClass_iff owner).mpr hinherits.isClass
  obtain ⟨lock, hlock⟩ : ∃ lock,
      view.select (some base) id = .ok (.lock (.select lock (.ofSymbol symbol))) := by
    refine exists_select hsymbol hinherits.owner_eq hclass fun hinstance => ?_
    rw [hinstance, Bool.false_or, Bool.not_eq_true'] at hstatic
    cases base with
    | lock lock => exact ⟨lock, selectBase_eq_ok.mpr (.inr ⟨hinstance, .inl rfl⟩)⟩
    | type id => exact nomatch hstatic.symm.trans (hobject.isType id rfl).1
  exact ⟨_, hlock, memberClass?_useValue denoted hdenoted hsame hinherits node lock,
    fun _ heq => nomatch heq⟩

theorem agree_select {object parsedObject : Expr} {name : String} {base : Bound}
    (h : ComesTo False view.program view.enclosing ⟨node, .select object name, span⟩ draft)
    (hobject : view.Agree object parsedObject (visiting draft node) base)
    (hlock : view.namesLock ⟨node, .select object name, span⟩) :
    ∃ bound, view.Agree ⟨node, .select object name, span⟩
      ⟨parsedNode, .select parsedObject name, parsedSpan⟩ draft bound := by
  rw [namesLock, Bool.and_eq_true, Option.any_eq_true] at hlock
  obtain ⟨-, symbol, hused, hlock⟩ := hlock
  obtain ⟨hisField, hstatic⟩ := (Bool.and_eq_true _ _).mp hlock
  obtain ⟨id, huse, hsymbol⟩ := Option.bind_eq_some_iff.mp hused
  have hnoClass : symbol.classInfo? = none := symbol.classInfo?_eq_none_of_isField hisField
  obtain ⟨owner, howner, hfield, hrun⟩ := (h.select_cases huse).resolve_left fun ⟨info, hinfo⟩ => by
    rw [Program.classInfo?, hsymbol, Option.bind_some, hnoClass] at hinfo
    cases hinfo
  obtain ⟨hdenoted, hsame⟩ := sameClasses_inside h.object
  obtain ⟨inherited, declarer, hinherits, -, -⟩ := hdenoted.findField? hfield
  obtain rfl := Option.some.inj (hsymbol.symm.trans (hsame.symbol? hinherits.symbol_eq))
  obtain ⟨bound, hselect, hmembers, htype⟩ := hobject.exists_member hdenoted hsame hinherits hstatic node
  have hisClass : symbol.isClass = false := by
    rw [NamedSymbol.isClass, hnoClass]
    rfl
  refine ⟨bound, ?_, ?_, hrun ▸ hmembers, fun type heq => absurd heq (htype type)⟩
  · exact (bindSource_select huse hsymbol hisClass hobject.source false).trans hselect
  · rw [bindGuardExpr?, hobject.guard]
    dsimp only
    have hnamed : view.fieldNamed? owner name = some id := by
      rw [fieldNamed?_eq hprogram, hsame.findField?_eq hdenoted, hfield]
    rw [selectField?, ← hobject.denoted, howner]
    simp only [Option.bind_eq_bind, Option.bind_some, hnamed]
    exact toOption_eq_some.mpr hselect

omit hprogram in
theorem agree_callOn {receiver parsedReceiver : Expr} {method : String} {base : Bound}
    (h : ComesTo False view.program view.enclosing ⟨node, .call (some receiver) method [], span⟩ draft)
    (hreceiver : view.Agree receiver parsedReceiver (visiting draft node) base)
    (hlock : view.namesLock ⟨node, .call (some receiver) method [], span⟩) :
    ∃ bound, view.Agree ⟨node, .call (some receiver) method [], span⟩
      ⟨parsedNode, .call (some parsedReceiver) method [], parsedSpan⟩ draft bound := by
  rw [namesLock, Bool.and_eq_true, Option.any_eq_true] at hlock
  obtain ⟨-, symbol, hused, hlock⟩ := hlock
  obtain ⟨harity, hstatic⟩ := (Bool.and_eq_true _ _).mp hlock
  obtain ⟨id, huse, hsymbol⟩ := Option.bind_eq_some_iff.mp hused
  have hfound := h.callOn_found huse
  simp only [run_resolveExprs_nil, List.length_nil] at hfound
  obtain ⟨owner, howner, hmethod, hrun⟩ := hfound
  obtain ⟨hdenoted, hsame⟩ := sameClasses_inside h.receiver
  obtain ⟨inherited, declarer, hinherits, -, -⟩ := hdenoted.findMethod? hmethod
  obtain rfl := Option.some.inj (hsymbol.symm.trans (hsame.symbol? hinherits.symbol_eq))
  obtain ⟨bound, hselect, hmembers, htype⟩ :=
    hreceiver.exists_member hdenoted hsame hinherits hstatic node
  refine ⟨bound, ?_, ?_, hrun ▸ hmembers, fun type heq => absurd heq (htype type)⟩
  · exact (bindSource_callOn huse hsymbol hreceiver.source false).trans hselect
  · have hnamed : view.getterNamed? owner method = some id :=
      getterNamed?_eq (by rw [hsame.findMethod?_eq hdenoted, hmethod]) hsymbol harity
    rw [bindGuardExpr?, hreceiver.guard]
    simp only [Option.bind_eq_bind, Option.bind_some]
    rw [selectGetter?, ← hreceiver.denoted, howner]
    simp only [Option.bind_eq_bind, Option.bind_some, hnamed]
    exact toOption_eq_some.mpr hselect

/-- A chain in code is bound as the same chain is as a guard, link by link. -/
theorem exists_agree {expr : Expr} {chain : LockChain} (hexpr : expr.Spells chain) :
    ∀ {parsed : Expr} {draft : TrackedDraft}, parsed.Spells chain → parsed.Headed TypeName.IsDotted →
      ComesTo False view.program view.enclosing expr draft → view.namesLock expr →
        ∃ bound, view.Agree expr parsed draft bound := by
  induction hexpr with
  | this =>
      rintro _ _ ⟨⟩ _ hcomes _
      exact ⟨_, agree_this hcomes⟩
  | qualifiedThis =>
      rintro _ _ ⟨⟩ hheaded hcomes hlock
      exact agree_qualifiedThis hprogram hheaded hcomes hlock
  | name =>
      rintro _ _ ⟨⟩ hheaded hcomes hlock
      exact agree_name hprogram hheaded hcomes hlock
  | select _ _ _ _ ih =>
      rintro _ _ ⟨⟩ hheaded hcomes hlock
      next hparsed =>
        obtain ⟨base, hobject⟩ := ih hparsed hheaded hcomes.object (by
          rw [namesLock, Bool.and_eq_true] at hlock
          exact hlock.1)
        exact agree_select hprogram hcomes hobject hlock
  | call =>
      rintro _ _ ⟨⟩ _ hcomes hlock
      exact agree_call hprogram hcomes hlock
  | callOn _ _ _ _ ih =>
      rintro _ _ ⟨⟩ hheaded hcomes hlock
      next hparsed =>
        obtain ⟨base, hreceiver⟩ := ih hparsed hheaded hcomes.receiver (by
          rw [namesLock, Bool.and_eq_true] at hlock
          exact hlock.1)
        exact agree_callOn hcomes hreceiver hlock

end Chains

/-- What names a lock is a chain. -/
theorem chain?_isSome_of_namesLock {expr : Expr} (h : view.namesLock expr) : expr.chain?.isSome := by
  fun_induction namesLock view expr with
  | case1 | case2 | case3 | case5 => rfl
  | case4 id object name span ih =>
      rw [Expr.chain?, Option.isSome_map]
      exact ih (Bool.and_elim_left h)
  | case6 id receiver method span ih =>
      rw [Expr.chain?, Option.isSome_map]
      exact ih (Bool.and_elim_left h)
  | case7 => cases h

/-- A bound chain that is a lock as a guard and in code is the same lock. -/
theorem Agree.exists_lock {expr parsed : Expr} {draft : TrackedDraft} {bound : Bound}
    (h : view.Agree expr parsed draft bound) {text : String}
    (htext : Expr.ofSource text.toList = .ok parsed) :
    ∃ lock, view.bindGuard text = .ok lock ∧ view.bindExpr expr = .ok lock := by
  obtain ⟨lock, hlock⟩ : ∃ lock, view.finish bound = .ok lock := by
    cases bound with
    | lock lock => exact ⟨lock, rfl⟩
    | type id =>
        obtain ⟨info, hinfo⟩ := (h.isType id rfl).2
        obtain ⟨symbol, hsymbol, -⟩ := Option.bind_eq_some_iff.mp hinfo
        refine ⟨.classLiteral (.ofSymbol symbol), ?_⟩
        rw [finish, lockSymbol_eq_ok.mpr ⟨symbol, hsymbol, rfl⟩]
        rfl
  refine ⟨lock, ?_, ?_⟩
  · simp only [bindGuard, htext, h.guard, hlock]
  · rw [bindExpr, h.source, ok_bind, hlock]

end Viewpoint

/-- In any compilation unit without local and anonymous classes, a chain in the code of a class names the
same lock as the chain does as a guard bound from this class. Left out are the arguments of annotations,
which are not resolved, and names as labels of a case, which may be resolved to constants of an enum. -/
theorem ParsedUnit.exists_lock_ofTokens (tokens : List Token) (decl : ClassDecl) (path : List PathStep)
    (expr parsed : Expr) (self : SymbolId) (text : String) (hnests : ¬(ofTokens tokens).unit.Nests)
    (hdecl : decl ∈ (ofTokens tokens).unit.types) (hwithin : Within (.classDecl decl) path (.expr expr))
    (hpath : ∀ step ∈ path, step.role.isResolved) (hlabel : ¬IsLabelName .declared path expr)
    (hself : (classesAlong (Program.ofUnit (ofTokens tokens).unit).use? path).head? = some self)
    (htext : Expr.ofSource text.toList = .ok parsed) (hchain : parsed.chain? = expr.chain?)
    (hlock : Viewpoint.namesLock ⟨Program.ofUnit (ofTokens tokens).unit, self⟩ expr) :
    ∃ lock, Viewpoint.bindGuard ⟨Program.ofUnit (ofTokens tokens).unit, self⟩ text = .ok lock ∧
      Viewpoint.bindExpr ⟨Program.ofUnit (ofTokens tokens).unit, self⟩ expr = .ok lock := by
  have hnodup := nodup_numbers_ofTokens tokens
  generalize (ofTokens tokens).unit = unit at *
  have hprogram := Program.wellFormed_ofUnit unit
  obtain ⟨draft, hcomes⟩ := Program.exists_comesTo hnodup hdecl hwithin hpath hlabel
  rw [← hcomes.enclosing_eq hprogram hself, eq_false hnests] at hcomes
  obtain ⟨chain, hexpr⟩ := Option.isSome_iff_exists.mp (Viewpoint.chain?_isSome_of_namesLock hlock)
  obtain ⟨bound, hagree⟩ := Viewpoint.exists_agree hprogram (expr.spells_of_chain? hexpr)
    (parsed.spells_of_chain? (hchain.trans hexpr)) (Expr.headed_ofSource htext) hcomes hlock
  exact hagree.exists_lock htext

/-- An inner class whose code locks a field that is selected from a call on the class around it. -/
def inheritedLockTokens : List Token :=
  (Lexer.tokenize ("class A extends C \x7b class B \x7b void f() \x7b " ++
    "synchronized (A.this.get().lock) \x7b \x7d \x7d \x7d \x7d " ++
    "class C \x7b Object lock; C get() \x7b return this; \x7d \x7d").toList).tokens

private theorem inheritedLock_chain :
    let unit := (ParsedUnit.ofTokens inheritedLockTokens).unit
    ¬unit.Nests ∧ ∃ decl ∈ unit.types, ∃ place ∈ (TreeNode.classDecl decl).places,
      ∃ expr ∈ place.node.expr?.toList, (place.path.all (·.role.isCertain)) ∧
        (classesAlong (Program.ofUnit unit).use? place.path).head? = some 25 ∧
          (∃ parsed ∈ (Expr.ofSource "A.this.get().lock".toList).toOption.toList,
            parsed.chain? = expr.chain?) ∧
              Viewpoint.namesLock ⟨Program.ofUnit unit, 25⟩ expr := by
  decide +kernel

theorem exists_lock_inheritedLockTokens :
    let unit := (ParsedUnit.ofTokens inheritedLockTokens).unit
    ¬unit.Nests ∧ ∃ decl ∈ unit.types, ∃ path expr parsed, Within (.classDecl decl) path (.expr expr) ∧
      (∀ step ∈ path, step.role.isResolved) ∧ ¬IsLabelName .declared path expr ∧
        (classesAlong (Program.ofUnit unit).use? path).head? = some 25 ∧
          Expr.ofSource "A.this.get().lock".toList = .ok parsed ∧ parsed.chain? = expr.chain? ∧
            Viewpoint.namesLock ⟨Program.ofUnit unit, 25⟩ expr ∧ ∃ lock,
              Viewpoint.bindGuard ⟨Program.ofUnit unit, 25⟩ "A.this.get().lock" = .ok lock ∧
                Viewpoint.bindExpr ⟨Program.ofUnit unit, 25⟩ expr = .ok lock := by
  obtain ⟨hnests, decl, hdecl, ⟨path, node⟩, hplace, expr, hexpr, hcertain, hself, ⟨parsed, hparsed,
    hchain⟩, hlock⟩ := inheritedLock_chain
  obtain rfl := TreeNode.eq_expr_of_expr? (Option.mem_toList.mp hexpr)
  have hwithin := TreeNode.mem_places.mp hplace
  have hcertain : ∀ step ∈ path, step.role.isCertain := List.all_eq_true.mp hcertain
  have hpath : ∀ step ∈ path, step.role.isResolved :=
    fun step hstep => PartRole.isResolved_of_isCertain (hcertain step hstep)
  have hlabel : ¬IsLabelName .declared path expr := not_isLabelName_of_isCertain expr rfl hcertain
  have htext := toOption_eq_some.mp (Option.mem_toList.mp hparsed)
  exact ⟨hnests, decl, hdecl, path, expr, parsed, hwithin, hpath, hlabel, hself, htext, hchain, hlock,
    ParsedUnit.exists_lock_ofTokens _ decl path expr parsed 25 _ hnests hdecl hwithin hpath hlabel hself
      htext hchain hlock⟩

/-- Somewhere in a unit without errors and without local and anonymous classes, outside labels, code of a
class names the instance of a class around it. As a guard bound from the class this is a lock, but it is
none in the code. -/
def ParsedUnit.LocksOnlyAsGuard (parsed : ParsedUnit) (type : String) : Prop :=
  parsed.errors.isEmpty ∧ ¬parsed.unit.Nests ∧ ∃ decl ∈ parsed.unit.types,
    ∃ place ∈ (TreeNode.classDecl decl).places, ∃ expr ∈ place.node.expr?.toList,
      (place.path.all fun step => !step.role.isLabel) ∧ expr.chain? = some (.qualifiedThis type) ∧
        ∃ self ∈ (classesAlong (Program.ofUnit parsed.unit).use? place.path).head?.toList,
          let view : Viewpoint := ⟨Program.ofUnit parsed.unit, self⟩
          (view.findType? type).any view.enclosing.contains ∧
            ((Expr.ofSource (type ++ ".this").toList).toOption.bind Expr.chain?) = expr.chain? ∧
              (view.bindGuard (type ++ ".this")).toOption.isSome ∧
                (view.bindExpr expr).toOption = none

instance (parsed : ParsedUnit) (type : String) : Decidable (parsed.LocksOnlyAsGuard type) :=
  inferInstanceAs (Decidable (_ ∧ _))

/-- The instance of a class around is not always found in code. A class may bear the name of a primitive
type, which only a guard looks up as a class, and arguments of annotations are not resolved. -/
theorem locksOnlyAsGuard_primitive_and_annotation :
    (ParsedUnit.ofSource ("class int \x7b class A \x7b void f() \x7b " ++
      "synchronized (int.this) \x7b \x7d \x7d \x7d \x7d").toList).LocksOnlyAsGuard "int" ∧
    (ParsedUnit.ofSource "class A \x7b @Lock(A.this) int x; \x7d".toList).LocksOnlyAsGuard "A" := by
  decide +kernel

end LockDiscipline
