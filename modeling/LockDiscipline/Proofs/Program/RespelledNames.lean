import LockDiscipline.Proofs.Program.Entry
import LockDiscipline.Proofs.Program.RespelledClasses
import LockDiscipline.Proofs.Program.Typeless
/-!
# Names where a local variable is respelled

A local variable is declared under its new name, and where its name stands for it the new name does. As long as
nothing else bears the new name and no class is found by the old or the new one, each thing that the resolver does
with a name is done alike: what it does to the draft is done to the respelled draft with the respelled name, and
everything stays in place, the symbols in classes and the variables in scopes under their names. `Respelling.Fits`
says when a respelling fits a program, `Draft.Placed` what is in place, and `Resolving.Respells` that a computation
is done alike and leaves everything in place.
-/
namespace LockDiscipline

namespace Respelling

variable (respelling : Respelling) (final : Program)

/-- The name at a number is respelled if it is the old one and stands for the variable. -/
def nameAt (node : NodeId) (name : String) : String :=
  if final.use? node = some respelling.symbol ∧ name = respelling.old then respelling.new else name

theorem nameAt_of_ne {node : NodeId} (h : final.use? node ≠ some respelling.symbol) (name : String) :
    respelling.nameAt final node name = name :=
  if_neg fun hrespelled => h hrespelled.1

/-- Trees are retouched by respelling the variable. -/
def retouch : Retouch :=
  .ofNames (respelling.nameAt final)

/-- A dotted name that is selected from an expression is the same, or it begins with the old name and then with the
new one. -/
theorem dottedName?_retouch : ∀ (object : Expr) (name : String),
    (object.retouch (respelling.retouch final)).dottedName?.map (· ++ "." ++ name) =
        object.dottedName?.map (· ++ "." ++ name) ∨
      ∃ rest, object.dottedName?.map (· ++ "." ++ name) = some (respelling.old ++ "." ++ rest) ∧
        (object.retouch (respelling.retouch final)).dottedName?.map (· ++ "." ++ name) =
          some (respelling.new ++ "." ++ rest)
  | ⟨_, .select object inner, _⟩, name => by
      change Option.map _ ((object.retouch (respelling.retouch final)).dottedName?.map _) = _ ∨ ∃ rest, _ ∧
        Option.map _ ((object.retouch (respelling.retouch final)).dottedName?.map _) = _
      rw [Expr.dottedName?]
      rcases dottedName?_retouch object inner with hsame | ⟨rest, hold, hnew⟩
      · exact .inl (congrArg _ hsame)
      · refine .inr ⟨rest ++ "." ++ name, ?_⟩
        rw [hold, hnew]
        simp only [Option.map_some, String.append_assoc, and_self]
  | ⟨id, .name spelled, _⟩, name => by
      change Option.map _ (some (respelling.nameAt final id spelled)) = _ ∨ ∃ rest, _ ∧
        Option.map _ (some (respelling.nameAt final id spelled)) = _
      by_cases hrespelled : final.use? id = some respelling.symbol ∧ spelled = respelling.old
      · exact .inr ⟨name, by rw [Expr.dottedName?, hrespelled.2]; rfl, by rw [nameAt, if_pos hrespelled]; rfl⟩
      · exact .inl (by rw [nameAt, if_neg hrespelled]; rfl)
  | ⟨_, .int _, _⟩, _ | ⟨_, .float _, _⟩, _ | ⟨_, .string _, _⟩, _ | ⟨_, .char _, _⟩, _ | ⟨_, .bool _, _⟩, _
  | ⟨_, .null, _⟩, _ | ⟨_, .this, _⟩, _ | ⟨_, .super, _⟩, _ | ⟨_, .qualifiedThis _, _⟩, _
  | ⟨_, .classLiteral _, _⟩, _ | ⟨_, .call .., _⟩, _ | ⟨_, .new .., _⟩, _ | ⟨_, .newArray .., _⟩, _
  | ⟨_, .arrayInit _, _⟩, _ | ⟨_, .index .., _⟩, _ | ⟨_, .unary .., _⟩, _ | ⟨_, .binary .., _⟩, _
  | ⟨_, .assign .., _⟩, _ | ⟨_, .conditional .., _⟩, _ | ⟨_, .instanceOf .., _⟩, _ | ⟨_, .cast .., _⟩, _
  | ⟨_, .lambda .., _⟩, _ | ⟨_, .methodRef .., _⟩, _ | ⟨_, .paren _, _⟩, _ => .inl rfl

/-- The variable is respelled in trees in which no bare name is the new one yet. -/
def shedding : Shedding where
  retouch := respelling.retouch final
  spells name := name ≠ respelling.new
  span_strip expr := by rw [Expr.strip_none, Expr.span_retouch]

/-- The variable is a local one and bears the old name. Nothing else but methods bears the new name, and by neither
name a class is found. -/
structure Fits (program : Program) : Prop where
  isLocal : ∀ ⦃symbol⦄, program.symbol? respelling.symbol = some symbol →
    symbol.name = respelling.old ∧ ∃ context, symbol.kind = .localVar context
  fresh : ∀ ⦃id symbol⦄, program.symbol? id = some symbol → symbol.isMethod = false → symbol.name ≠ respelling.new
  old : program.NamesNoType respelling.old
  new : program.NamesNoType respelling.new

instance (kind : SymbolKind) : Decidable (∃ context, kind = .localVar context) :=
  match kind with
  | .localVar context => .isTrue ⟨context, rfl⟩
  | .parameter _ | .field .. | .method .. | .classType _ => .isFalse fun ⟨_, h⟩ => nomatch h

instance (program : Program) : Decidable (respelling.Fits program) :=
  decidable_of_iff
    ((∀ symbol ∈ program.symbol? respelling.symbol,
        symbol.name = respelling.old ∧ ∃ context, symbol.kind = .localVar context) ∧
      (∀ symbol ∈ program.symbols, symbol.isMethod = false → symbol.name ≠ respelling.new) ∧
      program.NamesNoType respelling.old ∧ program.NamesNoType respelling.new)
    ⟨fun ⟨hlocal, hfresh, hold, hnew⟩ =>
        ⟨hlocal, fun _ _ hsymbol => hfresh _ (Array.mem_of_getElem? hsymbol), hold, hnew⟩,
      fun h => ⟨h.isLocal, fun _ hsymbol =>
        have ⟨_, hid⟩ := Array.getElem?_of_mem hsymbol
        h.fresh hid, h.old, h.new⟩⟩

/-- A respelling applies to a program if it fits and the symbols of the program lie in classes. -/
structure Applies (respelling : Respelling) (program : Program) : Prop extends respelling.Fits program where
  wellFormed : program.WellFormed
  inClasses : program.InClasses

variable {respelling}

namespace Fits

variable {program later : Program}

theorem of_grows {classes : Prop} (h : respelling.Fits later) (hgrows : Program.Grows classes program later) :
    respelling.Fits program where
  isLocal symbol hsymbol := by
    obtain ⟨symbol', hsymbol', hbecomes⟩ := hgrows.symbol? hsymbol
    obtain ⟨hname, context, hkind⟩ := h.isLocal hsymbol'
    have hclass : symbol'.classInfo? = none := by rw [NamedSymbol.classInfo?, hkind]
    obtain rfl := hbecomes.eq_of_later_classInfo?_eq_none hclass
    exact ⟨hname, context, hkind⟩
  fresh id symbol hsymbol hmethod := by
    obtain ⟨symbol', hsymbol', hbecomes⟩ := hgrows.symbol? hsymbol
    rw [← hbecomes.name_eq]
    refine h.fresh hsymbol' ?_
    cases hbecomes with
    | same => exact hmethod
    | learned => rfl
  old := h.old.of_grows hgrows
  new := h.new.of_grows hgrows

theorem isVariable (h : respelling.Fits program) {symbol : NamedSymbol}
    (hsymbol : program.symbol? respelling.symbol = some symbol) : symbol.isVariable := by
  obtain ⟨-, context, hkind⟩ := h.isLocal hsymbol
  rw [NamedSymbol.isVariable, hkind]

/-- What is no variable is not the variable. -/
theorem ne_of_not_variable (h : respelling.Fits program) {id : SymbolId} {symbol : NamedSymbol}
    (hsymbol : program.symbol? id = some symbol) (hvariable : symbol.isVariable = false) :
    id ≠ respelling.symbol := by
  rintro rfl
  exact Bool.false_ne_true (hvariable.symm.trans (h.isVariable hsymbol))

theorem ne_of_isClass (h : respelling.Fits program) {id : SymbolId} (hclass : program.IsClass id) :
    id ≠ respelling.symbol := by
  obtain ⟨info, hinfo⟩ := hclass
  obtain ⟨symbol, hsymbol, hinfo⟩ := Option.bind_eq_some_iff.mp hinfo
  exact h.ne_of_not_variable hsymbol
    (symbol.isVariable_eq_false_of_isClass (Option.isSome_iff_exists.mpr ⟨info, hinfo⟩))

/-- What the node of a class or of a member is recorded for is not the variable. -/
theorem use?_ne_of_declared (h : respelling.Fits program) {outer : Option SymbolId} {decl : ClassDecl}
    (hdeclared : program.Declared outer decl) (houter : ∀ ⦃type⦄, outer = some type → program.IsClass type)
    {node : NodeId} (hnode : node ∈ decl.declaring) : program.use? node ≠ some respelling.symbol := by
  obtain ⟨id, symbol, huse, hsymbol, hvariable, -⟩ := hdeclared.around houter hnode
  rw [huse]
  exact fun heq => h.ne_of_not_variable hsymbol hvariable (Option.some.inj heq)

theorem findField?_ne (h : respelling.Fits program) (hprogram : program.WellFormed) (type : SymbolId)
    (name : String) : program.findField? type name ≠ some respelling.symbol := by
  intro hfound
  obtain ⟨symbol, hsymbol, -, hfield⟩ := hprogram.findField?_name hfound
  exact h.ne_of_not_variable hsymbol (symbol.isVariable_eq_false_of_isField hfield) rfl

/-- No class has a field of the new name. -/
theorem findField?_new (h : respelling.Fits program) (hprogram : program.WellFormed) (type : SymbolId) :
    program.findField? type respelling.new = none := by
  refine Option.eq_none_iff_forall_ne_some.mpr fun id hfound => ?_
  obtain ⟨symbol, hsymbol, hname, hfield⟩ := hprogram.findField?_name hfound
  refine h.fresh hsymbol ?_ hname
  exact Bool.eq_false_iff.mpr fun hmethod => symbol.not_isField_of_isMethod hmethod hfield

end Fits

end Respelling

/-! ### Drafts in which scopes and symbols are in place -/

/-- What gives a name its meaning is a variable of the name, or a class. -/
def ScopeItem.KnownIn (program : Program) : ScopeItem → Prop
  | .variable name id => ∃ symbol, program.symbol? id = some symbol ∧ symbol.name = name ∧ symbol.isVariable
  | .classBody type => program.IsClass type

theorem ScopeItem.KnownIn.mono {program later : Program} {classes : Prop} {item : ScopeItem}
    (h : item.KnownIn program) (hgrows : Program.Grows classes program later) : item.KnownIn later := by
  cases item with
  | «variable» name id =>
      obtain ⟨symbol, hsymbol, hname, hvariable⟩ := h
      exact ⟨symbol, hgrows.symbol?_of_not_class hsymbol (symbol.classInfo?_eq_none_of_isVariable hvariable), hname,
        hvariable⟩
  | classBody type => exact Program.IsClass.mono h hgrows

/-- Symbols lie in classes, and the scopes hold variables under their names and classes. -/
structure Draft.Placed (draft : TrackedDraft) : Prop where
  inClasses : draft.program.InClasses
  items : ∀ item ∈ draft.scopes.items, item.KnownIn draft.program

namespace Draft.Placed

variable {respelling : Respelling} {draft later : TrackedDraft} (h : draft.Placed)
include h

theorem isClass {self : SymbolId} (hself : draft.scopes.currentClass? = some self) : draft.program.IsClass self := by
  rw [ScopeStack.currentClass?, ScopeStack.enclosingClasses_eq] at hself
  obtain ⟨item, hitem, hclass⟩ := List.mem_filterMap.mp (List.mem_of_head? hself)
  cases item with
  | «variable» => cases hclass
  | classBody type => exact Option.some.inj hclass ▸ h.items _ hitem

theorem grow {classes : Prop} (hgrows : Program.Grows classes draft.program later.program)
    (hclasses : later.program.InClasses)
    (hitems : ∀ item ∈ later.scopes.items, item ∈ draft.scopes.items ∨ item.KnownIn later.program) : later.Placed :=
  ⟨hclasses, fun item hitem => (hitems item hitem).elim (fun hbefore => (h.items item hbefore).mono hgrows) id⟩

theorem setUse (node : NodeId) (id : SymbolId) :
    Draft.Placed { draft with program := draft.program.setUse node id } :=
  h.grow (@Program.Grows.of_change _ _ False (.use node id)) (h.inClasses.of_symbols_eq rfl) fun _ => .inl

/-- The scope of a class may be entered. -/
theorem push {kind : ScopeKind} (hkind : ∀ type, kind.class? = some type → draft.program.IsClass type) :
    Draft.Placed { draft with scopes := draft.scopes.push kind } := by
  refine ⟨h.inClasses, fun item hitem => ?_⟩
  rw [ScopeStack.items_push, List.mem_append, List.mem_map] at hitem
  rcases hitem with ⟨type, htype, rfl⟩ | hitem
  · exact hkind type (Option.mem_toList.mp htype)
  · exact h.items item hitem

/-- Where the new name is not in use, the scopes do not hold it, and they hold the variable under the old one. -/
theorem spells (hfits : respelling.Fits draft.program) : draft.scopes.Spells respelling := by
  intro name id hitem
  obtain ⟨symbol, hsymbol, hname, hvariable⟩ := h.items _ hitem
  refine ⟨hname ▸ hfits.fresh hsymbol ?_, fun hid => ?_⟩
  · refine Bool.eq_false_iff.mpr fun hmethod => ?_
    rw [symbol.isVariable_eq_false_of_isMethod hmethod] at hvariable
    cases hvariable
  · subst hid
    exact hname ▸ (hfits.isLocal hsymbol).1

end Draft.Placed

namespace Resolving

/-- A computation does to the respelled draft what another one does to the draft, and everything stays in place. -/
structure Respells (respelling : Respelling) {α : Type} (build build' : Tracked α) (draft : TrackedDraft) : Prop where
  at_draft : RespellsAt respelling build build' draft
  placed : (build.run draft).2.Placed

namespace Respells

variable {respelling : Respelling} {α β : Type} {build build' : Tracked α} {draft : TrackedDraft}

theorem bind {next next' : α → Tracked β} (h : Respells respelling build build' draft)
    (hnext : Respells respelling (next (build.run draft).1) (next' (build.run draft).1) (build.run draft).2) :
    Respells respelling (build >>= next) (build' >>= next') draft :=
  ⟨h.at_draft.bind hnext.at_draft, by rw [run_bind]; exact hnext.placed⟩

variable (hplaced : draft.Placed)
include hplaced

theorem pure (value : α) : Respells respelling (Pure.pure value) (Pure.pure value) draft :=
  ⟨.pure value draft, hplaced⟩

theorem ask {question question' : Program → α}
    (hquestion : question' (draft.program.respell respelling) = question draft.program) :
    Respells respelling (Resolving.ask question) (Resolving.ask question') draft :=
  ⟨.ask hquestion, hplaced⟩

theorem setUse (node : NodeId) (id : SymbolId) :
    Respells respelling (Resolving.setUse node id) (Resolving.setUse node id) draft :=
  ⟨.setUse node id draft, hplaced.setUse node id⟩

theorem currentClass? : Respells respelling Resolving.currentClass? Resolving.currentClass? draft :=
  ⟨.currentClass? respelling draft, hplaced⟩

/-- It is kept in which class a member is looked up. -/
theorem lookIn (node : NodeId) (type : Option SymbolId) :
    Respells respelling (Resolving.lookIn node type) (Resolving.lookIn node type) draft :=
  ⟨rfl, { hplaced with }⟩

theorem superclass (context : Option SymbolId) :
    Respells respelling (Resolving.ask fun program => context.bind program.superclass?)
      (Resolving.ask fun program => context.bind program.superclass?) draft := by
  refine .ask hplaced ?_
  congr 1
  funext type
  exact (draft.program.alike_respell respelling).superclass?_eq type

theorem findTypeHere (type : String) :
    Respells respelling (Resolving.findTypeHere type) (Resolving.findTypeHere type) draft := by
  refine .bind (.currentClass? hplaced) ?_
  have hrun : (Resolving.currentClass? : Tracked _).run draft = (draft.scopes.currentClass?, draft) := rfl
  rw [hrun]
  cases hself : draft.scopes.currentClass? with
  | none => exact .pure hplaced none
  | some context =>
      refine .ask hplaced ?_
      congr 1
      funext base
      exact hplaced.inClasses.findType?_respell respelling (hplaced.isClass hself) base

theorem useValue (node : NodeId) (id : SymbolId) :
    Respells respelling (Resolving.useValue node id) (Resolving.useValue node id) draft := by
  refine .bind (.setUse hplaced node id) (.ask (hplaced.setUse node id) ?_)
  exact congrArg Denotation.value ((hplaced.setUse node id).inClasses.typeOf?_respell respelling id)

theorem useType (node : NodeId) (found : Option SymbolId) :
    Respells respelling (Resolving.useType node found) (Resolving.useType node found) draft := by
  cases found with
  | none => exact .pure hplaced _
  | some id => exact .bind (.setUse hplaced node id) (.pure (hplaced.setUse node id) _)

theorem useMethod (node : NodeId) (found : Option SymbolId) :
    Respells respelling (Resolving.useMethod node found) (Resolving.useMethod node found) draft := by
  cases found with
  | none => exact .pure hplaced _
  | some id => exact .useValue hplaced node id

theorem findScopedMethod (method : String) (arity : Nat) :
    Respells respelling (Resolving.findScopedMethod method arity) (Resolving.findScopedMethod method arity) draft := by
  refine ⟨?_, by rw [run_findScopedMethod]; exact hplaced⟩
  have hfind : ((draft.program.respell respelling).findMethod? · method arity) =
      (draft.program.findMethod? · method arity) :=
    funext fun type => (draft.program.alike_respell respelling).findMethod?_eq type method arity
  rw [RespellsAt, run_findScopedMethod, run_findScopedMethod]
  simp only [Draft.respell, ScopeStack.enclosingClasses_respell, hfind]

theorem useMethodOf (node : NodeId) (type : Option SymbolId) (method : String) (arity : Nat) :
    Respells respelling (Resolving.useMethodOf node type method arity)
      (Resolving.useMethodOf node type method arity) draft := by
  have hlooking : (looking draft node type).Placed := { hplaced with }
  refine .bind (.lookIn hplaced node type) (.bind (.ask hlooking ?_) (.useMethod hlooking node _))
  congr 1
  funext owner
  exact (draft.program.alike_respell respelling).findMethod?_eq owner method arity

theorem localType (type : Option String) (init : Denotation) :
    Respells respelling (Resolving.localType type init) (Resolving.localType type init) draft := by
  rw [Resolving.localType]
  split
  · exact .pure hplaced _
  · refine .ask hplaced ?_
    congr 1
    funext id
    exact (draft.program.alike_respell respelling).qualifiedName?_eq id

/-- What a name of a type means is recorded alike. -/
theorem useTypeHere (node : NodeId) (type : String) :
    Respells respelling (do Resolving.useType node (← Resolving.findTypeHere type))
      (do Resolving.useType node (← Resolving.findTypeHere type)) draft :=
  have htype : Respells respelling (Resolving.findTypeHere type) (Resolving.findTypeHere type) draft :=
    .findTypeHere hplaced type
  .bind htype (.useType htype.placed node _)

omit hplaced in
/-- Nothing is recorded where no class is found. -/
private theorem run_useTypeHere {type : String} (hnone : ((Resolving.findTypeHere type).run draft).1 = none)
    (node : NodeId) : (do Resolving.useType node (← Resolving.findTypeHere type) : Tracked Denotation).run draft =
      (.unknown, draft) := by
  rw [run_bind, hnone, run_findTypeHere]
  rfl

/-- Nothing is recorded for dotted names that begin with the old name or with the new one. -/
theorem useDotted (hfits : respelling.Fits draft.program) (node : NodeId) (rest : String) :
    Respells respelling (do Resolving.useType node (← Resolving.findTypeHere (respelling.old ++ "." ++ rest)))
      (do Resolving.useType node (← Resolving.findTypeHere (respelling.new ++ "." ++ rest))) draft := by
  have hnone {head : String} (hhead : draft.program.NamesNoType head) :
      ((Resolving.findTypeHere (head ++ "." ++ rest)).run draft).1 = none := by
    rw [run_findTypeHere, Option.bind_eq_none_iff]
    exact fun context hcontext => hhead.base?_bind_findType? hplaced.inClasses (hplaced.isClass hcontext) rest
  have hnew : RespellsAt respelling _ _ draft :=
    (useTypeHere hplaced node (respelling.new ++ "." ++ rest)).at_draft
  rw [RespellsAt, run_useTypeHere (hnone hfits.new)] at hnew
  refine ⟨?_, ?_⟩
  · rwa [RespellsAt, run_useTypeHere (hnone hfits.old)]
  · rwa [run_useTypeHere (hnone hfits.old)]

/-- A selection is resolved alike. Where it may spell a class, its dotted name is the same, or it begins with the
old name and then with the new one. -/
theorem resolveSelect (hfits : respelling.Fits draft.program) (node : NodeId) (qualifier : Denotation) (name : String)
    {dotted dotted' : Option String} (hdotted : dotted' = dotted ∨
      ∃ rest, dotted = some (respelling.old ++ "." ++ rest) ∧ dotted' = some (respelling.new ++ "." ++ rest)) :
    Respells respelling (Resolving.resolveSelect node qualifier name dotted)
      (Resolving.resolveSelect node qualifier name dotted') draft := by
  have hlooking (type : Option SymbolId) : (looking draft node type).Placed := { hplaced with }
  have halike := draft.program.alike_respell respelling
  refine .bind (.lookIn hplaced node qualifier.memberClass?) ?_
  change Respells respelling _ _ (looking draft node qualifier.memberClass?)
  cases qualifier.memberClass? with
  | some owner =>
      refine .bind (.ask (hlooking _) (halike.findField?_eq owner name)) ?_
      rw [run_ask]
      dsimp only
      cases (looking draft node (some owner)).program.findField? owner name with
      | some field => exact .useValue (hlooking _) node field
      | none => exact .bind (.ask (hlooking _) (halike.memberClass?_eq owner name)) (.useType (hlooking _) node _)
  | none =>
      obtain rfl | ⟨rest, rfl, rfl⟩ := hdotted
      · cases dotted' with
        | some dotted => exact .useTypeHere (hlooking none) node dotted
        | none => exact .pure (hlooking none) _
      · exact .useDotted (hlooking none) hfits node rest

omit hplaced in
private theorem isClass_of_variableKind {program : Program} {context : SymbolId} (hclass : program.IsClass context)
    (isParameter : Bool) : ∀ around, SymbolKind.around?
      (if isParameter then .parameter context else .localVar context) = some around → program.IsClass around := by
  cases isParameter <;> rintro _ ⟨⟩ <;> exact hclass

/-- A variable is declared under its new name if it is the one that is respelled, and else under its name. -/
theorem declareVariable (name : String) {name' : String} (type : Option String) (node : Option NodeId) (span : Span)
    (isParameter : Bool) (hname : draft.scopes.currentClass? ≠ none →
      (if draft.program.symbols.size = respelling.symbol then respelling.new else name) = name') :
    Respells respelling (Resolving.declareVariable name type node span isParameter)
      (Resolving.declareVariable name' type node span isParameter) draft := by
  cases hself : draft.scopes.currentClass? with
  | none =>
      have hself' : (draft.respell respelling).scopes.currentClass? = none :=
        (draft.scopes.currentClass?_respell respelling).trans hself
      refine ⟨?_, by rwa [run_declareVariable_of_none _ _ _ _ _ hself]⟩
      rw [RespellsAt, run_declareVariable_of_none _ _ _ _ _ hself, run_declareVariable_of_none _ _ _ _ _ hself']
  | some context =>
      obtain rfl := hname (by rw [hself]; exact Option.some_ne_none context)
      have hclass := hplaced.isClass hself
      have hadds := @declareVariable_adds name type node span isParameter draft
      obtain ⟨-, symbol, hsymbol, hsymbolName, hvariable, -⟩ :=
        declareVariable_symbol name type node span isParameter hself
      refine ⟨.bind (.currentClass? respelling draft) ?_, hplaced.grow hadds.grows ?_ fun item hitem => ?_⟩
      · have hrun : (Resolving.currentClass? : Tracked _).run draft = (draft.scopes.currentClass?, draft) := rfl
        rw [hrun, hself]
        refine RespellsAt.bind (.declare ?_) (RespellsAt.bind (.updateScopes ?_) ?_)
        · cases isParameter <;> exact NamedSymbol.respell_of_variable respelling rfl
        · exact (draft.scopes.respell_define respelling name draft.program.symbols.size).symm
        · cases node with
          | none => exact .pure () _
          | some node => exact .setUse node _ _
      · have hdeclared := hplaced.inClasses.declare name type none span (isClass_of_variableKind hclass isParameter)
        rw [run_declareVariable name type node span isParameter hself]
        cases node with
        | none => exact hdeclared
        | some node => exact hdeclared.of_symbols_eq rfl
      · rw [run_declareVariable name type node span isParameter hself,
          (ScopeStack.Binds.define draft.scopes name _).items_eq] at hitem
        rcases List.mem_cons.mp hitem with rfl | hitem
        · exact .inr ⟨symbol, hsymbol, hsymbolName, hvariable⟩
        · exact .inl hitem

/-- A parameter is declared under its name, since it is no local variable. -/
theorem declareParameter (name : String) (type : Option String) (node : Option NodeId) (span : Span)
    (hfits : respelling.Fits ((Resolving.declareVariable name type node span true).run draft).2.program) :
    Respells respelling (Resolving.declareVariable name type node span true)
      (Resolving.declareVariable name type node span true) draft := by
  refine .declareVariable hplaced name type node span true fun hcurrent => if_neg fun hid => ?_
  obtain ⟨context, hself⟩ := Option.ne_none_iff_exists'.mp hcurrent
  have hsymbol : ((Resolving.declareVariable name type node span true).run draft).2.program.symbol?
      draft.program.symbols.size =
        some ⟨draft.program.symbols.size, name, .parameter context, type, none, span⟩ := by
    rw [run_declareVariable name type node span true hself]
    cases node <;> exact (Program.symbol?_declare ..).trans (if_pos rfl)
  rw [hid] at hsymbol
  obtain ⟨-, context', hkind⟩ := hfits.isLocal hsymbol
  cases hkind

theorem declareLambdaParams (span : Span) (names : List String)
    (hfits : respelling.Fits ((Resolving.declareLambdaParams span names).run draft).2.program) :
    Respells respelling (Resolving.declareLambdaParams span names) (Resolving.declareLambdaParams span names)
      draft := by
  induction names generalizing draft with
  | nil => exact .pure hplaced ()
  | cons name rest ih =>
      rw [Resolving.declareLambdaParams, run_bind] at hfits
      have hfirst := declareParameter hplaced name none none span
        (hfits.of_grows (declareLambdaParams_adds span rest _).grows)
      rw [Resolving.declareLambdaParams]
      exact hfirst.bind (ih hfirst.placed hfits)

omit hplaced in
/-- What is done in a scope of its own leaves the scopes as they were. -/
theorem inScope {kind : ScopeKind} {classes : Prop} (hplaced : draft.Placed)
    (h : Respells respelling build build' { draft with scopes := draft.scopes.push kind })
    (hgrows : Program.Grows classes draft.program
      (build.run { draft with scopes := draft.scopes.push kind }).2.program)
    (hpop : (build.run { draft with scopes := draft.scopes.push kind }).2.scopes.pop.toList = draft.scopes.toList) :
    Respells respelling (Resolving.inScope kind build) (Resolving.inScope kind build') draft := by
  refine ⟨?_, hplaced.grow hgrows (h.placed.inClasses.of_symbols_eq rfl) fun item hitem => .inl ?_⟩
  · refine RespellsAt.bind (.updateScopes (draft.scopes.respell_push respelling kind).symm) ?_
    refine RespellsAt.bind h.at_draft (RespellsAt.bind (.updateScopes ?_) (.pure _ _))
    exact (ScopeStack.respell_pop respelling _).symm
  · change item ∈ (build.run { draft with scopes := draft.scopes.push kind }).2.scopes.pop.items at hitem
    rwa [ScopeStack.items, hpop] at hitem

omit hplaced in
/-- An expression is resolved like its kind, after its visit is noted. -/
theorem resolveExpr {id : NodeId} {kind kind' : ExprKind} {span : Span}
    (h : Respells respelling (resolveExprKind id span kind) (resolveExprKind id span kind') (visiting draft id)) :
    Respells respelling (Resolving.resolveExpr ⟨id, kind, span⟩) (Resolving.resolveExpr ⟨id, kind', span⟩) draft := by
  have hvisiting : visiting (draft.respell respelling) id = (visiting draft id).respell respelling := by
    rw [visiting, visiting]
    simp only [Draft.respell, ScopeStack.currentClass?_respell]
  refine ⟨?_, by rw [run_resolveExpr]; exact h.placed⟩
  rw [RespellsAt, run_resolveExpr, run_resolveExpr, hvisiting]
  exact h.at_draft

/-- A bare name is resolved alike where it means the same variable or field, and where it means none and stays as
it is. -/
theorem resolveName_of_lookup (node : NodeId) {name name' : String}
    (hlookup : (draft.scopes.respell respelling).lookup name' (draft.program.findField? · name') =
      draft.scopes.lookup name (draft.program.findField? · name))
    (hname : draft.scopes.lookup name (draft.program.findField? · name) = none → name' = name) :
    Respells respelling (Resolving.resolveName node name) (Resolving.resolveName node name') draft := by
  have hfields : ((draft.respell respelling).program.findField? · name') = (draft.program.findField? · name') :=
    funext fun type => (draft.program.alike_respell respelling).findField?_eq type name'
  have hlookup' : (draft.respell respelling).scopes.lookup name'
      ((draft.respell respelling).program.findField? · name') =
        draft.scopes.lookup name (draft.program.findField? · name) := by
    rw [hfields]
    exact hlookup
  refine ⟨?_, ?_⟩
  · rw [RespellsAt, run_resolveName, run_resolveName, hlookup']
    cases hfound : draft.scopes.lookup name (draft.program.findField? · name) with
    | some id => exact (Respells.useValue hplaced node id).at_draft
    | none =>
        obtain rfl := hname hfound
        have htype : RespellsAt respelling _ _ draft := (Respells.findTypeHere hplaced name').at_draft
        rw [Option.elim_none, Option.elim_none, htype]
        exact (Respells.useType hplaced node _).at_draft
  · rw [run_resolveName]
    cases draft.scopes.lookup name (draft.program.findField? · name) with
    | some id => exact (@Respells.useValue respelling draft hplaced node id).placed
    | none => exact (@Respells.useType respelling draft hplaced node _).placed

/-- A bare name is resolved alike under its new name. -/
theorem resolveName {final : Program} (hdraft : draft.program.WellFormed) (hfits : respelling.Fits draft.program)
    {node : NodeId} {name : String} (hname : name ≠ respelling.new)
    (huse : final.use? node = ((Resolving.resolveName node name).run draft).2.program.use? node)
    (hclear : draft.program.use? node ≠ some respelling.symbol) :
    Respells respelling (Resolving.resolveName node name)
      (Resolving.resolveName node (respelling.nameAt final node name)) draft := by
  rw [run_resolveName] at huse
  cases hfound : draft.scopes.lookup name (draft.program.findField? · name) with
  | some id =>
      rw [hfound, Option.elim_some] at huse
      replace huse : final.use? node = some id :=
        huse.trans ((draft.program.use?_setUse node id node).trans (if_pos rfl))
      by_cases hid : id = respelling.symbol
      · subst hid
        have hold : name = respelling.old := by
          rcases ScopeStack.lookup_cases hfound with hitem | hfield
          · exact (hplaced.spells hfits hitem).2 rfl
          · obtain ⟨type, -, hfield⟩ := List.exists_of_findSome?_eq_some hfield
            exact absurd hfield (hfits.findField?_ne hdraft type name)
        have hnameAt : respelling.nameAt final node name = respelling.new := if_pos ⟨huse, hold⟩
        rw [hnameAt]
        refine .resolveName_of_lookup hplaced node ?_ fun hnone => nomatch hfound.symm.trans hnone
        rw [hfound]
        exact ScopeStack.lookup_respell_new (hplaced.spells hfits) (hfits.findField?_ne hdraft · name)
          (hfits.findField?_new hdraft) hfound
      · rw [respelling.nameAt_of_ne final (by rw [huse]; exact fun h => hid (Option.some.inj h))]
        refine .resolveName_of_lookup hplaced node (ScopeStack.lookup_respell hname ?_) fun _ => rfl
        rw [hfound]
        exact fun h => hid (Option.some.inj h)
  | none =>
      rw [hfound, Option.elim_none, use?_useType] at huse
      have hne : final.use? node ≠ some respelling.symbol := by
        rw [huse]
        cases htype : ((Resolving.findTypeHere name).run draft).1 with
        | none => exact hclear
        | some type =>
            rw [run_findTypeHere] at htype
            obtain ⟨context, hcontext, htype⟩ := Option.bind_eq_some_iff.mp htype
            obtain ⟨base, -, htype⟩ := Option.bind_eq_some_iff.mp htype
            have hclass := hdraft.findType?_isClass
              (fun _ => hplaced.inClasses.isClass_of_mem_enclosing (hplaced.isClass hcontext)) htype
            exact fun h => hfits.ne_of_isClass hclass (Option.some.inj h)
      rw [respelling.nameAt_of_ne final hne]
      refine .resolveName_of_lookup hplaced node (ScopeStack.lookup_respell hname ?_) fun _ => rfl
      rw [hfound]
      nofun

/-- A label is resolved alike if it names the same constant or none. -/
theorem resolveLabel {selector : Option SymbolId} {id : NodeId} {kind kind' : ExprKind} {span : Span}
    (hconstant : ((findConstant selector kind').run (draft.respell respelling)).1 =
      ((findConstant selector kind).run draft).1)
    (hkind : ((findConstant selector kind).run draft).1 = none →
      Respells respelling (resolveExprKind id span kind) (resolveExprKind id span kind') (visiting draft id)) :
    Respells respelling (Resolving.resolveLabel selector ⟨id, kind, span⟩)
      (Resolving.resolveLabel selector ⟨id, kind', span⟩) draft := by
  have hfound : Respells respelling (findConstant selector kind) (findConstant selector kind') draft := by
    refine ⟨?_, by rw [Covers.run_findConstant]; exact hplaced⟩
    rw [RespellsAt, Covers.run_findConstant, hconstant, Covers.run_findConstant]
  refine .bind hfound ?_
  rw [Covers.run_findConstant]
  dsimp only
  cases hconstant : ((findConstant selector kind).run draft).1 with
  | some constant => exact .setUse hplaced id constant
  | none =>
      have hlabel : Respells respelling (Resolving.resolveExpr ⟨id, kind, span⟩)
          (Resolving.resolveExpr ⟨id, kind', span⟩) draft := .resolveExpr (hkind hconstant)
      exact hlabel.bind (.pure hlabel.placed ())

end Respells

/-- A constant is found alike under the new name of a label, as no class has a field of that name. -/
theorem findConstant_nameAt {respelling : Respelling} {final : Program} {draft : TrackedDraft}
    (hfits : respelling.Fits draft.program) (hdraft : draft.program.WellFormed) (selector : Option SymbolId)
    (id : NodeId) (kind : ExprKind) (hnone : final.use? id = some respelling.symbol →
      ((findConstant selector kind).run draft).1 = none) :
    ((findConstant selector ((kind.retouch (respelling.retouch final)).respell (respelling.nameAt final id))).run
      (draft.respell respelling)).1 = ((findConstant selector kind).run draft).1 := by
  have halike := draft.program.alike_respell respelling
  cases kind with
  | name name =>
      rw [ExprKind.retouch, ExprKind.respell]
      by_cases hrespelled : final.use? id = some respelling.symbol ∧ name = respelling.old
      · rw [hnone hrespelled.1, Respelling.nameAt, if_pos hrespelled]
        change (selector >>= fun type => (draft.program.respell respelling).classInfo? type >>= fun info =>
          if info.kind = .enum then (draft.program.respell respelling).findField? type respelling.new else none) = none
        simp only [halike.findField?_eq, hfits.findField?_new hdraft, ite_self, Option.bind_eq_bind,
          Option.bind_fun_none]
      · rw [Respelling.nameAt, if_neg hrespelled]
        change (selector >>= fun type => (draft.program.respell respelling).classInfo? type >>= fun info =>
          if info.kind = .enum then (draft.program.respell respelling).findField? type name else none) =
            (selector >>= fun type => draft.program.classInfo? type >>= fun info =>
              if info.kind = .enum then draft.program.findField? type name else none)
        simp only [halike.findField?_eq, halike.classInfo?_eq]
  | _ => rfl

end Resolving
end LockDiscipline
