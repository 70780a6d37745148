import LockDiscipline.Proofs.Grammar.DeclarationNumbers
import LockDiscipline.Proofs.Lock.Selection
import LockDiscipline.Proofs.Program.Entry
/-!
# The receiver of a bare member

A bare name or a bare call of the source was resolved by its name, from the innermost class around that
declares or inherits a member of the name. Binding does not look for the name again: it takes the
innermost class around that is a subclass of the one that declares the member. Both are the same class,
since a class inherits a member exactly if it is a subclass of an owner of the name.
-/

namespace LockDiscipline

/-- Whether a bare name or a bare call can mean a symbol as a member of a class around: a name means a
field and a call means a method. -/
def ExprKind.isBareUseOf (kind : ExprKind) (symbol : NamedSymbol) : Bool :=
  match kind with
  | .name _ => symbol.isField
  | .call none _ _ => symbol.isMethod
  | _ => false

namespace Program

variable {program : Program} {kind : ExprKind}

/-- Whether a class itself declares a member with the name of a bare name or a bare call. -/
def declaresNamed (program : Program) (kind : ExprKind) (type : SymbolId) : Bool :=
  match kind with
  | .name name => ((program.members type).fields.lookup name).isSome
  | .call none method _ => (program.members type).methods.any (·.1 == method)
  | _ => false

/-- Whether a class declares or inherits a member with the name of a bare name or a bare call. -/
def offers (program : Program) (kind : ExprKind) (type : SymbolId) : Bool :=
  (program.ancestors type).any (program.declaresNamed kind)

/-- The member of a class that a bare name or a bare call means. -/
def offered? (program : Program) (kind : ExprKind) (type : SymbolId) : Option SymbolId :=
  match kind with
  | .name name => program.findField? type name
  | .call none method args => program.findMethod? type method args.length
  | _ => none

/-- A method of a name is found if there is any, whatever its parameters are. -/
theorem findMethod?_isSome (type : SymbolId) (name : String) (arity : Nat) :
    (program.findMethod? type name arity).isSome = !(program.methodsNamed type name).isEmpty := by
  rw [findMethod?]
  cases program.methodsNamed type name with
  | nil => rfl
  | cons first rest => simp

/-- A class means a member by a bare name or a bare call exactly if it declares or inherits one of the
name. -/
theorem offered?_isSome (kind : ExprKind) (type : SymbolId) :
    (program.offered? kind type).isSome = program.offers kind type := by
  rw [offered?.eq_def, offers, Bool.eq_iff_iff, List.any_eq_true]
  simp only [declaresNamed.eq_def]
  split
  case h_1 name => rw [findField?, List.findSome?_isSome_iff]
  case h_2 method args => simp [findMethod?_isSome, methodsNamed]
  case h_3 => simp

theorem WellFormed.offered? (hprogram : program.WellFormed) {type id : SymbolId}
    (h : program.offered? kind type = some id) :
    ∃ symbol owner, program.Inherits type id symbol owner ∧ program.declaresNamed kind owner := by
  rw [Program.offered?.eq_def] at h
  split at h
  case h_1 name =>
    obtain ⟨symbol, owner, hinherits, hlookup, -⟩ := hprogram.findField? h
    exact ⟨symbol, owner, hinherits, by rw [declaresNamed, hlookup]; rfl⟩
  case h_2 method args =>
    obtain ⟨symbol, owner, hinherits, hmem, -⟩ := hprogram.findMethod? h
    exact ⟨symbol, owner, hinherits, List.any_eq_true.mpr ⟨_, hmem, by simp⟩⟩
  case h_3 => cases h

/-- The innermost class in which a name is found is the innermost one that is a subclass of the owner of
what is found. -/
theorem WellFormed.find?_isSubclass (hprogram : program.WellFormed) {classes : List SymbolId}
    {id : SymbolId} (h : classes.findSome? (program.offered? kind) = some id) :
    ∃ type symbol owner, classes.find? (program.offers kind) = some type ∧
      program.offered? kind type = some id ∧ program.Inherits type id symbol owner ∧
        classes.find? (program.isSubclass · owner) = some type := by
  obtain ⟨inner, type, outer, rfl, hoffered, hinner⟩ := List.findSome?_eq_some_iff.mp h
  obtain ⟨symbol, owner, hinherits, hdeclares⟩ := hprogram.offered? hoffered
  have hnone : ∀ other ∈ inner, program.offers kind other = false := fun other hother => by
    rw [← offered?_isSome, hinner other hother]
    rfl
  refine ⟨type, symbol, owner, List.find?_eq_some_iff_append.mpr ⟨?_, inner, outer, rfl, ?_⟩, hoffered,
    hinherits, List.find?_eq_some_iff_append.mpr ⟨hinherits.isSubclass, inner, outer, rfl, ?_⟩⟩
  · rw [← offered?_isSome, hoffered]
    rfl
  · exact fun other hother => by rw [hnone other hother]; rfl
  · intro other hother
    by_contra hsub
    have howner : owner ∈ program.ancestors other := by
      simpa only [Bool.not_eq_true', Bool.not_eq_false, isSubclass, List.contains_iff_mem] using hsub
    have hoffers : program.offers kind other := List.any_eq_true.mpr ⟨owner, howner, hdeclares⟩
    rw [hnone other hother] at hoffers
    cases hoffers

end Program

namespace Viewpoint

/-- What binding makes of a bare name or a bare call that means an instance member, found in a class
around: it is selected from the instance of this class. -/
structure BindsBare (view : Viewpoint) (expr : Expr) (symbol : NamedSymbol) (type : SymbolId)
    (receiver : LockExpr) : Prop where
  /-- The class is the innermost one around with a member of the name. -/
  innermost : view.enclosing.find? (view.program.offers expr.kind) = some type
  found : view.program.offered? expr.kind type = some symbol.id
  implicit : ∃ owner, symbol.owner? = some owner ∧ view.implicitReceiver symbol owner = .ok receiver
  this : type = view.self → receiver = .this
  outer : type ≠ view.self → ∃ around, view.program.symbol? type = some around ∧
    receiver = .outer (.ofSymbol around)
  bindAccess : view.bindAccess expr = .ok (.select receiver (.ofSymbol symbol))
  bindExpr : (∀ method args, expr.kind = .call none method args → args = []) →
    view.bindExpr expr = .ok (.select receiver (.ofSymbol symbol))

variable {view : Viewpoint}

/-- A bare name that is no variable is selected from where it belongs. -/
theorem bindSource_name {node : NodeId} {name : String} {span : Span} {id : SymbolId}
    {symbol : NamedSymbol} (huse : view.program.use? node = some id)
    (hsymbol : view.program.symbol? id = some symbol) (hvariable : symbol.isVariable = false)
    (allowArgs : Bool) : view.bindSource allowArgs ⟨node, .name name, span⟩ = view.select none id := by
  have hresolved : view.resolved ⟨node, .name name, span⟩ = .ok id := resolved_eq_ok.mpr huse
  rw [bindSource, bindSourceName, hresolved, ok_bind, symbol_eq_ok.mpr hsymbol, ok_bind,
    if_neg (by simp [hvariable])]

/-- A bare call is selected from where the method belongs, as long as it may have its arguments. -/
theorem bindSource_call {node : NodeId} {method : String} {args : List Expr} {span : Span} {id : SymbolId}
    {symbol : NamedSymbol} (huse : view.program.use? node = some id)
    (hsymbol : view.program.symbol? id = some symbol) {allowArgs : Bool}
    (hargs : allowArgs ∨ args = []) :
    view.bindSource allowArgs ⟨node, .call none method args, span⟩ = view.select none id := by
  have hresolved : view.resolved ⟨node, .call none method args, span⟩ = .ok id :=
    resolved_eq_ok.mpr huse
  have hallowed : (!allowArgs && !args.isEmpty) = false := by
    rcases hargs with rfl | rfl <;> simp
  rw [bindSource]
  simp only [hallowed, hresolved, symbol_eq_ok.mpr hsymbol, ok_bind, bindReceiver, pure_bind,
    Bool.false_eq_true, if_false, ite_self]

/-- A bare use of a member is selected from where the member belongs. -/
theorem bindSource_bare {expr : Expr} {id : SymbolId} {symbol : NamedSymbol}
    (huse : view.program.use? expr.id = some id) (hsymbol : view.program.symbol? id = some symbol)
    (hbare : expr.kind.isBareUseOf symbol) {allowArgs : Bool}
    (hargs : allowArgs ∨ ∀ method args, expr.kind = .call none method args → args = []) :
    view.bindSource allowArgs expr = view.select none id := by
  obtain ⟨node, kind, span⟩ := expr
  change kind.isBareUseOf symbol at hbare
  rw [ExprKind.isBareUseOf.eq_def] at hbare
  split at hbare
  case h_1 => exact bindSource_name huse hsymbol (symbol.isVariable_eq_false_of_isField hbare) _
  case h_2 method args => exact bindSource_call huse hsymbol (hargs.imp_right fun h => h method args rfl)
  case h_3 => cases hbare

/-- An instance member without anything before it is selected from the receiver that it implies. -/
theorem select_none {id owner : SymbolId} {symbol : NamedSymbol} {receiver : LockExpr}
    (hsymbol : view.program.symbol? id = some symbol) (howner : symbol.owner? = some owner)
    (hstatic : symbol.isStatic = false)
    (hreceiver : view.implicitReceiver symbol owner = .ok receiver) :
    view.select none id = .ok (.lock (.select receiver (.ofSymbol symbol))) := by
  refine select_eq_ok.mpr ⟨symbol, hsymbol, .inr ⟨?_, owner, receiver, howner, ?_, rfl⟩⟩
  · rw [NamedSymbol.isClass, symbol.classInfo?_eq_none_of_owner? howner]
    rfl
  · exact selectBase_eq_ok.mpr (.inr ⟨hstatic, .inr ⟨rfl, hreceiver⟩⟩)

/-- The instance of a class around can always be named. -/
theorem exists_enclosingInstance {type : SymbolId} (htype : type ∈ view.enclosing)
    (hclass : view.program.IsClass type) : ∃ lock, view.enclosingInstance type = .ok lock ∧
      (type = view.self → lock = .this) ∧
        (type ≠ view.self → ∃ around, view.program.symbol? type = some around ∧
          lock = .outer (.ofSymbol around)) := by
  by_cases hself : type = view.self
  · exact ⟨.this, enclosingInstance_eq_ok.mpr (.inl ⟨hself, rfl⟩), fun _ => rfl,
      fun hne => absurd hself hne⟩
  · obtain ⟨info, hinfo⟩ := hclass
    obtain ⟨around, haround, -⟩ := Option.bind_eq_some_iff.mp hinfo
    exact ⟨_, enclosingInstance_eq_ok.mpr (.inr ⟨hself, htype, around, haround, rfl⟩),
      fun heq => absurd heq hself, fun _ => ⟨around, haround, rfl⟩⟩

/-- If a bare name or call is used for the instance member that its name means among the classes around,
then it is bound to the member of the innermost class around that has one. -/
theorem bindsBare_of_findSome? (view : Viewpoint) (hprogram : view.program.WellFormed)
    (hclasses : ∀ type ∈ view.enclosing, view.program.IsClass type) {expr : Expr} {id : SymbolId}
    {symbol : NamedSymbol} (huse : view.program.use? expr.id = some id)
    (hsymbol : view.program.symbol? id = some symbol) (hbare : expr.kind.isBareUseOf symbol)
    (hstatic : symbol.isStatic = false)
    (hfound : view.enclosing.findSome? (view.program.offered? expr.kind) = some id) :
    ∃ type receiver, view.BindsBare expr symbol type receiver := by
  obtain ⟨type, symbol', owner, hinnermost, hoffered, hinherits, hsub⟩ :=
    hprogram.find?_isSubclass hfound
  obtain rfl := Option.some.inj (hsymbol.symm.trans hinherits.symbol_eq)
  have htype := List.mem_of_find?_eq_some hsub
  obtain ⟨receiver, hinstance, hthis, houter⟩ := exists_enclosingInstance htype (hclasses type htype)
  have hreceiver : view.implicitReceiver symbol owner = .ok receiver :=
    implicitReceiver_eq_ok.mpr ⟨type, hsub, hinstance⟩
  have hselect := select_none hsymbol hinherits.owner_eq hstatic hreceiver
  have hid : symbol.id = id := hprogram.id_eq hsymbol
  refine ⟨type, receiver, hinnermost, hid ▸ hoffered, ⟨owner, hinherits.owner_eq, hreceiver⟩, hthis,
    houter, ?_, fun hargs => ?_⟩
  · rw [bindAccess, bindSource_bare huse hsymbol hbare (.inl rfl), hselect]
    rfl
  · rw [bindExpr, bindSource_bare huse hsymbol hbare (.inr hargs), hselect]
    rfl

end Viewpoint

/-- In any compilation unit, a bare name or call that was resolved to an instance member is bound to the
member of the innermost class around with one of the name. The class from whose code it is bound is the
innermost one on the path to it. Only names as labels of a case are left out: they may be resolved to
constants of an enum. -/
theorem ParsedUnit.exists_bindsBare_ofTokens (tokens : List Token) (decl : ClassDecl)
    (path : List PathStep) (expr : Expr) (self : SymbolId) (symbol : NamedSymbol)
    (hdecl : decl ∈ (ofTokens tokens).unit.types) (hwithin : Within (.classDecl decl) path (.expr expr))
    (hlabel : ¬IsLabelName .declared path expr)
    (hself : (classesAlong (Program.ofUnit (ofTokens tokens).unit).use? path).head? = some self)
    (hsymbol : (Program.ofUnit (ofTokens tokens).unit).usedSymbol? expr.id = some symbol)
    (hbare : expr.kind.isBareUseOf symbol) (hstatic : symbol.isStatic = false) :
    ∃ type receiver,
      Viewpoint.BindsBare ⟨Program.ofUnit (ofTokens tokens).unit, self⟩ expr symbol type receiver := by
  have hnodup := nodup_numbers_ofTokens tokens
  generalize (ofTokens tokens).unit = unit at *
  have hprogram := Program.wellFormed_ofUnit unit
  obtain ⟨id, huse, hfound⟩ := Option.bind_eq_some_iff.mp hsymbol
  have hpath := Program.isResolved_of_use? hnodup hdecl hwithin huse
  obtain ⟨draft, hcomes⟩ := Program.exists_comesTo hnodup hdecl hwithin hpath hlabel
  have henclosing := hcomes.enclosing_eq hprogram hself
  have hclasses : ∀ type ∈ (Program.ofUnit unit).enclosing self, (Program.ofUnit unit).IsClass type :=
    fun type htype => (hcomes.chain.isClass type (henclosing ▸ htype)).mono hcomes.grows
  let view : Viewpoint := ⟨Program.ofUnit unit, self⟩
  refine view.bindsBare_of_findSome? hprogram hclasses huse hfound hbare hstatic ?_
  change ((Program.ofUnit unit).enclosing self).findSome? _ = _
  rw [henclosing]
  obtain ⟨node, kind, span⟩ := expr
  change kind.isBareUseOf symbol at hbare
  rw [ExprKind.isBareUseOf.eq_def] at hbare
  split at hbare
  case h_1 name =>
    rcases hcomes.name_cases huse with ⟨symbol', hsymbol', hvariable⟩ | hfield | ⟨info, hinfo⟩
    · obtain rfl := Option.some.inj (hfound.symm.trans hsymbol')
      rw [symbol.isVariable_eq_false_of_isField hbare] at hvariable
      cases hvariable
    · exact hfield
    · rw [Program.classInfo?, hfound, Option.bind_some,
        symbol.classInfo?_eq_none_of_isField hbare] at hinfo
      cases hinfo
  case h_2 method args => exact hcomes.call_cases huse
  case h_3 => cases hbare

/-- An inner class whose code uses a field that the class around it inherits. -/
def inheritedFieldTokens : List Token :=
  (Lexer.tokenize ("class A extends C \x7b class B \x7b void f() \x7b x = 1; \x7d \x7d \x7d " ++
    "class C \x7b int x; \x7d").toList).tokens

private theorem inheritedField_use :
    let unit := (ParsedUnit.ofTokens inheritedFieldTokens).unit
    ∃ decl ∈ unit.types, ∃ place ∈ (TreeNode.classDecl decl).places,
      ∃ expr ∈ place.node.expr?.toList, (place.path.all (·.role.isCertain)) ∧
        (classesAlong (Program.ofUnit unit).use? place.path).head? = some 25 ∧
          ∃ symbol ∈ ((Program.ofUnit unit).usedSymbol? expr.id).toList,
            expr.kind.isBareUseOf symbol ∧ symbol.isStatic = false := by
  decide +kernel

theorem exists_bindsBare_inheritedFieldTokens :
    let unit := (ParsedUnit.ofTokens inheritedFieldTokens).unit
    ∃ decl ∈ unit.types, ∃ path expr symbol, Within (.classDecl decl) path (.expr expr) ∧
      ¬IsLabelName .declared path expr ∧
        (classesAlong (Program.ofUnit unit).use? path).head? = some 25 ∧
          (Program.ofUnit unit).usedSymbol? expr.id = some symbol ∧ expr.kind.isBareUseOf symbol ∧
            symbol.isStatic = false ∧ ∃ type receiver,
              Viewpoint.BindsBare ⟨Program.ofUnit unit, 25⟩ expr symbol type receiver := by
  obtain ⟨decl, hdecl, ⟨path, node⟩, hplace, expr, hexpr, hcertain, hself, symbol, hsymbol, hbare,
    hstatic⟩ := inheritedField_use
  obtain rfl := TreeNode.eq_expr_of_expr? (Option.mem_toList.mp hexpr)
  have hwithin := TreeNode.mem_places.mp hplace
  have hlabel : ¬IsLabelName .declared path expr :=
    not_isLabelName_of_isCertain expr rfl fun step hstep => List.all_eq_true.mp hcertain step hstep
  have hsymbol := Option.mem_toList.mp hsymbol
  exact ⟨decl, hdecl, path, expr, symbol, hwithin, hlabel, hself, hsymbol, hbare, hstatic,
    ParsedUnit.exists_bindsBare_ofTokens _ decl path expr 25 symbol hdecl hwithin hlabel hself hsymbol
      hbare hstatic⟩

end LockDiscipline
