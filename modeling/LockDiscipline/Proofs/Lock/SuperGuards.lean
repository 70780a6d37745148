import LockDiscipline.Proofs.Lock.Agreement
import LockDiscipline.Proofs.Program.Supertypes
/-!
# Guards that name a member of `super`

In code `super.f` is the field `f` of the superclass. A guard takes `super` for `this` and looks `f` up from
the class itself, so the two name the same field only where the class and its superclass have the same one
under this name. They do not where the class declares a field `f` of its own, where `f` comes from an
interface, and where the superclass is not known. What a guard and an operand of `synchronized` then name
are two different locks, though they are spelled alike.
-/

namespace LockDiscipline

open Resolving Program

/-- A class keeps its superclass once it is settled. -/
theorem Program.Retains.superclass?_eq {program later : Program} (h : program.Retains later) {id : SymbolId}
    (hid : id < program.symbols.size) : later.superclass? id = program.superclass? id := by
  have hsettled (program : Program) :
      program.superclass? id = (program.settled? id).bind (·.superclass) := by
    rw [superclass?, settled?, Option.bind_map]
    rfl
  rw [hsettled, hsettled, h.settled?_eq id hid]

/-- The superclass of a class is one of its supertypes. -/
theorem Program.extends_superclass {program : Program} {id superclass : SymbolId}
    (h : program.superclass? id = some superclass) : program.Extends id superclass := by
  obtain ⟨info, hinfo, hsuperclass⟩ := Option.bind_eq_some_iff.mp h
  rw [Extends, supertypes, hinfo]
  exact List.mem_append_left _ (Option.mem_toList.mpr hsuperclass)

namespace Viewpoint

/-- The field that the superclass of the class declares or inherits under a name. -/
def superField? (view : Viewpoint) (name : String) : Option SymbolId :=
  (view.program.superclass? view.self).bind (view.program.findField? · name)

/-- The lock that a field of `this` is. A static field is selected from the class that declares it. -/
def fieldLock? (view : Viewpoint) (id : SymbolId) : Option LockExpr := do
  let field ← view.program.symbol? id
  let type ← view.program.symbol? (← field.owner?)
  return .select (if field.isStatic then .typeLiteral (.ofSymbol type) else .this) (.ofSymbol field)

/-- The lock that `super.name` is in code of the class, if `name` is a field of its superclass. -/
def superLock? (view : Viewpoint) (name : String) : Option LockExpr :=
  (view.superField? name).bind view.fieldLock?

variable {view : Viewpoint} (hprogram : view.program.WellFormed)
include hprogram

/-- A field that is found is a lock, and it can be selected from `this`. -/
theorem exists_fieldLock {type id : SymbolId} {name : String}
    (hfound : view.program.findField? type name = some id) :
    ∃ lock, view.fieldLock? id = some lock ∧ view.select (some (.lock .this)) id = .ok (.lock lock) := by
  obtain ⟨field, owner, hinherits, -, hisField⟩ := hprogram.findField? hfound
  obtain ⟨info, hinfo⟩ := hinherits.isClass
  obtain ⟨type, htype, -⟩ := Option.bind_eq_some_iff.mp hinfo
  have hclass : field.isClass = false := by
    rw [NamedSymbol.isClass, field.classInfo?_eq_none_of_isField hisField]
    rfl
  refine ⟨.select (if field.isStatic then .typeLiteral (.ofSymbol type) else .this) (.ofSymbol field), ?_, ?_⟩
  · simp [fieldLock?, hinherits.symbol_eq, hinherits.owner_eq, htype]
  · refine select_eq_ok.mpr ⟨field, hinherits.symbol_eq, .inr ⟨hclass, owner, _, hinherits.owner_eq, ?_, rfl⟩⟩
    rw [selectBase_eq_ok, htype]
    cases field.isStatic <;> simp

/-- Different fields are different locks. -/
theorem fieldLock?_injective {id id' : SymbolId} {lock : LockExpr} (h : view.fieldLock? id = some lock)
    (h' : view.fieldLock? id' = some lock) : id = id' := by
  have hmember {id : SymbolId} (h : view.fieldLock? id = some lock) :
      ∃ base member, lock = .select base member ∧ member.id = id := by
    obtain ⟨field, hfield, h⟩ := Option.bind_eq_some_iff.mp h
    obtain ⟨owner, -, h⟩ := Option.bind_eq_some_iff.mp h
    obtain ⟨type, -, h⟩ := Option.bind_eq_some_iff.mp h
    exact ⟨_, _, (Option.some.inj h).symm, hprogram.id_eq hfield⟩
  obtain ⟨base, member, rfl, hid⟩ := hmember h
  obtain ⟨base', member', hlock, hid'⟩ := hmember h'
  obtain ⟨-, rfl⟩ := LockExpr.select.inj hlock
  exact hid.symm.trans hid'

/-- A guard selects from `super` the field that it finds from the class itself. -/
theorem bindGuard_super {text name : String} {node inner : NodeId} {span innerSpan : Span}
    (htext : Expr.ofSource text.toList = .ok ⟨node, .select ⟨inner, .super, innerSpan⟩ name, span⟩) :
    (view.bindGuard text).toOption = (view.program.findField? view.self name).bind view.fieldLock? := by
  have hselect : view.bindGuardExpr? ⟨node, .select ⟨inner, .super, innerSpan⟩ name, span⟩ =
      (view.program.findField? view.self name).bind fun id =>
        (view.select (some (.lock .this)) id).toOption := by
    rw [bindGuardExpr?, bindGuardExpr?]
    dsimp only
    rw [selectField?, memberClass?, staticClass?, Option.bind_eq_bind, Option.bind_some,
      fieldNamed?_eq hprogram]
    cases view.program.findField? view.self name <;> rfl
  simp only [bindGuard, htext, hselect]
  cases hfound : view.program.findField? view.self name with
  | none => rfl
  | some id =>
      obtain ⟨lock, hlock, hbound⟩ := exists_fieldLock hprogram hfound
      rw [Option.bind_some, Option.bind_some, hbound, hlock]
      rfl

/-- A guard selects from `super` what code does exactly where the class and its superclass have the same
field under the name. -/
theorem bindGuard_eq_superLock?_iff {text name : String} {node inner : NodeId} {span innerSpan : Span}
    (htext : Expr.ofSource text.toList = .ok ⟨node, .select ⟨inner, .super, innerSpan⟩ name, span⟩) :
    (view.bindGuard text).toOption = view.superLock? name ↔
      view.program.findField? view.self name = view.superField? name := by
  rw [bindGuard_super hprogram htext, superLock?]
  refine ⟨fun h => ?_, fun h => by rw [h]⟩
  cases hown : view.program.findField? view.self name with
  | none =>
      cases hsuper : view.superField? name with
      | none => rfl
      | some id =>
          obtain ⟨superclass, -, hfound⟩ := Option.bind_eq_some_iff.mp hsuper
          obtain ⟨lock, hlock, -⟩ := exists_fieldLock hprogram hfound
          rw [hown, hsuper, Option.bind_none, Option.bind_some, hlock] at h
          cases h
  | some id =>
      obtain ⟨lock, hlock, -⟩ := exists_fieldLock hprogram hown
      rw [hown, Option.bind_some, hlock] at h
      obtain ⟨id', hsuper, hlock'⟩ := Option.bind_eq_some_iff.mp h.symm
      rw [hsuper, fieldLock?_injective hprogram hlock hlock']

/-- A field that the class declares itself is what a guard finds, and it is not a field of the superclass. -/
theorem superField?_ne_of_declared (hacyclic : view.program.Acyclic) {name : String} {id : SymbolId}
    (hdeclared : (view.program.members view.self).fields.lookup name = some id) :
    view.program.findField? view.self name = some id ∧ view.superField? name ≠ some id := by
  constructor
  · obtain ⟨more, hmore⟩ := exists_ancestors_eq view.program view.self
    rw [findField?, hmore, List.findSome?_cons, hdeclared]
  · intro hsuper
    obtain ⟨superclass, hsuperclass, hfound⟩ := Option.bind_eq_some_iff.mp hsuper
    obtain ⟨field, owner, hinherits, -, -⟩ := hprogram.findField? hfound
    obtain ⟨field', isStatic, hfield', -, hkind⟩ :=
      (hprogram.table view.self).field _ (mem_of_lookup_eq_some hdeclared)
    obtain rfl := Option.some.inj (hinherits.symbol_eq.symm.trans hfield')
    have howner : owner = view.self := by
      have howner := hinherits.owner_eq
      rw [NamedSymbol.owner?, hkind] at howner
      exact (Option.some.inj howner).symm
    have hreaches := hprogram.isSubclass_iff.mp hinherits.isSubclass
    rw [howner] at hreaches
    exact hacyclic view.self (.head' (extends_superclass hsuperclass) hreaches)

omit hprogram in
/-- In code a selection from `super` is bound to the field of the superclass. -/
theorem bindExpr_super {nests : Prop} {classes : List SymbolId} {draft : TrackedDraft} {name : String}
    {node inner : NodeId} {span innerSpan : Span} (hprogram : view.program.WellFormed)
    (h : ComesTo nests view.program classes ⟨node, .select ⟨inner, .super, innerSpan⟩ name, span⟩ draft)
    (hself : classes.head? = some view.self) {lock : LockExpr} (hlock : view.superLock? name = some lock) :
    view.bindExpr ⟨node, .select ⟨inner, .super, innerSpan⟩ name, span⟩ = .ok lock := by
  obtain ⟨id, hfield, hlock⟩ := Option.bind_eq_some_iff.mp hlock
  obtain ⟨superclass, hsuperclass, hfound⟩ := Option.bind_eq_some_iff.mp hfield
  have hlt : view.self < draft.program.symbols.size := h.lt_size (List.mem_of_head? hself)
  have hsuperclass' : draft.program.superclass? view.self = some superclass := by
    rw [← h.retained.superclass?_eq hlt, hsuperclass]
  have hfound' : draft.program.findField? superclass name = some id := by
    have hlt := h.wellFormed.supertype_lt view.self (extends_superclass hsuperclass')
    rw [← h.retained.findField?_eq hlt h.wellFormed, hfound]
  have hcurrent : draft.scopes.currentClass? = some view.self := by
    rw [← hself, ← h.around]
    rfl
  have huse : view.program.use? node = some id := by
    have hobject : (resolveExpr ⟨inner, .super, innerSpan⟩).run (visiting draft node) =
        (.value (some superclass), visiting (visiting draft node) inner) := by
      have hvalue : (visiting (visiting draft node) inner).scopes.currentClass?.bind
          draft.program.superclass? = some superclass := by
        rw [show (visiting (visiting draft node) inner).scopes.currentClass? = some view.self from hcurrent]
        exact hsuperclass'
      rw [run_resolveExpr, resolveExprKind, ← hvalue]
      rfl
    have hselect (dotted : Option String) : (resolveSelect node (.value (some superclass)) name dotted).run
        (visiting (visiting draft node) inner) =
          (useValue node id).run (looking (visiting (visiting draft node) inner) node (some superclass)) := by
      rw [resolveSelect.eq_def, run_bind, run_lookIn]
      dsimp only [ Denotation.memberClass?]
      rw [run_bind, run_ask, program_looking]
      dsimp only
      rw [show (visiting (visiting draft node) inner).program.findField? superclass name = some id from hfound']
    rw [h.use?_eq, resolveExprKind, run_bind, hobject, hselect]
    exact (draft.program.use?_setUse node id node).trans (if_pos rfl)
  obtain ⟨lock', hlock', hselect⟩ := exists_fieldLock hprogram hfound
  obtain rfl := Option.some.inj (hlock.symm.trans hlock')
  obtain ⟨field, owner, hinherits, -, hisField⟩ := hprogram.findField? hfound
  have hclass : field.isClass = false := by
    rw [NamedSymbol.isClass, field.classInfo?_eq_none_of_isField hisField]
    rfl
  have hthis : view.bindSource false ⟨inner, .super, innerSpan⟩ = .ok (.lock .this) := by
    rw [bindSource]
    rfl
  rw [bindExpr, bindSource_select huse hinherits.symbol_eq hclass hthis false, hselect]
  rfl

end Viewpoint

/-- The member that is selected from `super`, if the expression is such a selection. -/
def Expr.superMember? : Expr → Option String
  | ⟨_, .select ⟨_, .super, _⟩ name, _⟩ => some name
  | _ => none

theorem Expr.eq_of_superMember? {expr : Expr} {name : String} (h : expr.superMember? = some name) :
    ∃ node inner span innerSpan, expr = ⟨node, .select ⟨inner, .super, innerSpan⟩ name, span⟩ := by
  unfold superMember? at h
  split at h
  · exact ⟨_, _, _, _, by rw [Option.some.inj h]⟩
  · cases h

/-- In any compilation unit, a guard that selects from `super` is bound to the field that the class itself has
under the name, from `this` or from the class that declares it. The same selection in code of the class is
bound to the field of the superclass, so the two are the same lock exactly where the class and its superclass
have the same field. If the class declares the field itself, they are not. Left out are the arguments of
annotations, which are not resolved. -/
theorem ParsedUnit.bindGuard_super_ofTokens (tokens : List Token) (self : SymbolId) (text name : String)
    (parsed : Expr) (htext : Expr.ofSource text.toList = .ok parsed)
    (hparsed : parsed.superMember? = some name) :
    let unit := (ofTokens tokens).unit
    let view : Viewpoint := ⟨Program.ofUnit unit, self⟩
    (view.bindGuard text).toOption = (view.program.findField? self name).bind view.fieldLock? ∧
    ((view.bindGuard text).toOption = view.superLock? name ↔
      view.program.findField? self name = view.superField? name) ∧
    (∀ id, (view.program.members self).fields.lookup name = some id →
      view.program.findField? self name = some id ∧ view.superField? name ≠ some id) ∧
    (∀ decl ∈ unit.types, ∀ path expr, Within (.classDecl decl) path (.expr expr) →
      expr.superMember? = some name → (∀ step ∈ path, step.role.isResolved) →
      (classesAlong view.program.use? path).head? = some self →
      ∀ lock, view.superLock? name = some lock → view.bindExpr expr = .ok lock) := by
  have hnodup := nodup_numbers_ofTokens tokens
  generalize (ofTokens tokens).unit = unit at *
  have hprogram := Program.wellFormed_ofUnit unit
  obtain ⟨node, inner, span, innerSpan, rfl⟩ := Expr.eq_of_superMember? hparsed
  refine ⟨Viewpoint.bindGuard_super hprogram htext, Viewpoint.bindGuard_eq_superLock?_iff hprogram htext,
    fun id => Viewpoint.superField?_ne_of_declared hprogram (acyclic_ofUnit unit), ?_⟩
  intro decl hdecl path expr hwithin hmember hpath hself lock hlock
  obtain ⟨node, inner, span, innerSpan, rfl⟩ := Expr.eq_of_superMember? hmember
  obtain ⟨draft, hcomes⟩ :=
    Program.exists_comesTo hnodup hdecl hwithin hpath fun ⟨_, _, hname⟩ => nomatch hname
  exact Viewpoint.bindExpr_super hprogram hcomes hself hlock

/-- A class whose superclass has a field of the same name, and code that locks the latter. -/
def hiddenFieldTokens : List Token :=
  (Lexer.tokenize ("class A extends B \x7b Object f; void g() \x7b synchronized (super.f) \x7b \x7d \x7d \x7d " ++
    "class B \x7b Object f; \x7d").toList).tokens

private theorem superGuard_parsed :
    ∃ parsed ∈ (Expr.ofSource "super.f".toList).toOption.toList, parsed.superMember? = some "f" := by
  decide +kernel

theorem bindGuard_super_hiddenFieldTokens :
    let view : Viewpoint := ⟨Program.ofUnit (ParsedUnit.ofTokens hiddenFieldTokens).unit, 24⟩
    ∃ parsed, Expr.ofSource "super.f".toList = .ok parsed ∧ parsed.superMember? = some "f" ∧
      (view.bindGuard "super.f").toOption = (view.program.findField? 24 "f").bind view.fieldLock? := by
  obtain ⟨parsed, hparsed, hmember⟩ := superGuard_parsed
  have htext := toOption_eq_some.mp (Option.mem_toList.mp hparsed)
  exact ⟨parsed, htext, hmember,
    (ParsedUnit.bindGuard_super_ofTokens hiddenFieldTokens 24 "super.f" "f" parsed htext hmember).1⟩

/-- Where the class declares a field of the same name as its superclass, the guard names the field of the class.
The operand of `synchronized` that is spelled like the guard names the one of the superclass. -/
theorem exists_bindGuard_super_ne_bindExpr :
    let parsed := ParsedUnit.ofTokens hiddenFieldTokens
    let view : Viewpoint := ⟨Program.ofUnit parsed.unit, 24⟩
    parsed.errors.isEmpty ∧ (view.bindGuard "super.f").toOption = some (.select .this ⟨25, "f"⟩) ∧
      view.superLock? "f" = some (.select .this ⟨28, "f"⟩) ∧
        ∃ decl ∈ parsed.unit.types, ∃ place ∈ (TreeNode.classDecl decl).places,
          ∃ expr ∈ place.node.expr?.toList, expr.superMember? = some "f" ∧
            (classesAlong view.program.use? place.path).head? = some 24 ∧
              (view.bindExpr expr).toOption = some (.select .this ⟨28, "f"⟩) := by
  decide +kernel

end LockDiscipline
