import LockDiscipline.Proofs.Program.Unit
/-!
# How the resolver comes to an expression

When the resolver comes to an expression, the classes around the expression are those on its stack of
scopes, they are declared and settled, and nothing is recorded for the expression so far. So whatever
the finished program has recorded for a bare name or a bare call was found at that moment, among the
classes around, and the same lookup in the finished program finds it again.
-/

namespace LockDiscipline

namespace Resolving

open Program (Grows)

/-- The draft with which the resolver comes to an expression inside classes. What is recorded for the
expression is recorded then, and is in the finished program. More classes come about on the way only
if there are nested ones. -/
structure ComesTo (nests : Prop) (program : Program) (classes : List SymbolId) (expr : Expr)
    (draft : TrackedDraft) : Prop where
  wellFormed : draft.program.WellFormed
  grows : Grows nests draft.program program
  later : Grows nests ((resolveExpr expr).run draft).2.program program
  retained : draft.program.Retains program
  kept : ((resolveExpr expr).run draft).2.program.Retains program
  around : draft.scopes.enclosingClasses = classes
  chain : draft.program.Chain classes
  binds : ∀ {name id}, .variable name id ∈ draft.scopes.items →
    ∃ symbol, program.symbol? id = some symbol ∧ symbol.name = name ∧ symbol.isVariable
  fresh : ∀ {path inner}, Within (.expr expr) path (.expr inner) →
    draft.program.use? inner.id = none
  uses : ∀ id ∈ (TreeNode.expr expr).numbers,
    program.use? id = ((resolveExpr expr).run draft).2.program.use? id
  nodup : (TreeNode.expr expr).numbers.Nodup

/-- A type is looked up from the innermost class around. -/
theorem run_findTypeHere (type : String) (draft : TrackedDraft) : (findTypeHere type).run draft =
    (draft.scopes.currentClass?.bind fun context =>
      (TypeName.base? type).bind (draft.program.findType? context), draft) := by
  rw [findTypeHere, run_bind]
  have hcurrent : Resolving.currentClass?.run draft = (draft.scopes.currentClass?, draft) := rfl
  rw [hcurrent]
  cases draft.scopes.currentClass? <;> rfl

/-- A bare call looks for its method from the innermost class around. -/
theorem run_findScopedMethod (method : String) (arity : Nat) (draft : TrackedDraft) :
    (findScopedMethod method arity).run draft =
      (if method == "this" || method == "super" then none
        else draft.scopes.enclosingClasses.findSome? (draft.program.findMethod? · method arity),
        draft) := by
  rw [findScopedMethod]
  split <;> rfl

theorem covers_plain (expr : Expr) : Covers [] (.one ⟨.plain, .expr expr⟩) (resolveExpr expr) :=
  covers_resolveExpr .plain PartRole.plain_ne_nested expr

theorem covers_plains (exprs : List Expr) :
    Covers [] (.ofParts (exprParts .plain exprs)) (resolveExprs exprs) :=
  covers_resolveExprs .plain PartRole.plain_ne_nested exprs

theorem run_resolveExprs_nil (draft : TrackedDraft) : (resolveExprs []).run draft = ((), draft) := by
  rw [resolveExprs]
  rfl

theorem run_findVariable (name : String) (draft : TrackedDraft) : (findVariable name).run draft =
    (draft.scopes.lookup name (draft.program.findField? · name), draft) := rfl

/-- A bare name is used for the variable or field that it means, or else for a type. -/
theorem run_resolveName (node : NodeId) (name : String) (draft : TrackedDraft) : (resolveName node name).run draft =
    ((draft.scopes.lookup name (draft.program.findField? · name)).elim
      (useType node ((findTypeHere name).run draft).1) (useValue node)).run draft := by
  rw [resolveName, run_bind, run_findVariable]
  dsimp only
  cases draft.scopes.lookup name (draft.program.findField? · name) with
  | some id => rfl
  | none =>
      dsimp only [Option.elim]
      rw [run_bind, run_findTypeHere]

/-- A bare name is used for the variable or field that it means, whether the expression counts as visited
or not. -/
theorem run_resolveName_of_some {node : NodeId} {name : String} {draft : TrackedDraft} {id : SymbolId}
    (h : draft.scopes.lookup name (draft.program.findField? · name) = some id) :
    (resolveName node name).run (visiting draft node) =
      (useValue node id).run (visiting draft node) := by
  have hlookup : (visiting draft node).scopes.lookup name
      ((visiting draft node).program.findField? · name) = some id := h
  rw [run_resolveName, hlookup, Option.elim_some]

/-- A bare name that means no variable and no field is used for a type if there is one. -/
theorem run_resolveName_of_none {node : NodeId} {name : String} {draft : TrackedDraft}
    (h : draft.scopes.lookup name (draft.program.findField? · name) = none) :
    (resolveName node name).run (visiting draft node) =
      (useType node ((findTypeHere name).run (visiting draft node)).1).run (visiting draft node) := by
  have hlookup : (visiting draft node).scopes.lookup name
      ((visiting draft node).program.findField? · name) = none := h
  rw [run_resolveName, hlookup, Option.elim_none]

/-- A use is recorded for a type if there is one. -/
theorem use?_useType (node : NodeId) (found : Option SymbolId) (draft : TrackedDraft) :
    ((useType node found).run draft).2.program.use? node = found.or (draft.program.use? node) := by
  cases found with
  | none => rfl
  | some id => exact (draft.program.use?_setUse node id node).trans (if_pos rfl)

/-- A use is recorded for a method if there is one. -/
theorem use?_useMethod (node : NodeId) (found : Option SymbolId) (draft : TrackedDraft) :
    ((useMethod node found).run draft).2.program.use? node = found.or (draft.program.use? node) := by
  cases found with
  | none => rfl
  | some id => exact (draft.program.use?_setUse node id node).trans (if_pos rfl)

/-- Where the qualifier of a selection has a class without a field of the name, a member class is
meant. -/
theorem run_resolveSelect_of_some {node : NodeId} {qualifier : Denotation} {name : String}
    {dotted : Option String} {draft : TrackedDraft} {owner : SymbolId}
    (howner : qualifier.memberClass? = some owner) (hfield : draft.program.findField? owner name = none) :
    (resolveSelect node qualifier name dotted).run draft =
      (useType node (draft.program.memberClass? owner name)).run (looking draft node (some owner)) := by
  rw [resolveSelect.eq_def, run_bind, run_lookIn, howner]
  dsimp only
  rw [run_bind, run_ask, program_looking, hfield]
  rfl

/-- Where the qualifier of a selection has no class, a type with the dotted name is meant. -/
theorem run_resolveSelect_of_none {node : NodeId} {qualifier : Denotation} {name dotted : String}
    {draft : TrackedDraft} (howner : qualifier.memberClass? = none) :
    (resolveSelect node qualifier name (some dotted)).run draft =
      (useType node ((findTypeHere dotted).run draft).1).run (looking draft node none) := by
  rw [resolveSelect.eq_def, run_bind, run_lookIn, howner]
  dsimp only
  rw [run_bind, run_findTypeHere, run_findTypeHere]
  rfl

/-- A selection is used for a field of the class in which what stands before it has its members, for a
member class or for a type with a qualified name. -/
theorem run_resolveSelect_cases {node : NodeId} {qualifier : Denotation} {name : String}
    {dotted : Option String} {draft : TrackedDraft} {id : SymbolId} (hunused : draft.program.use? node = none)
    (huse : ((resolveSelect node qualifier name dotted).run draft).2.program.use? node = some id) :
    (∃ owner, qualifier.memberClass? = some owner ∧ draft.program.findField? owner name = some id ∧
      (resolveSelect node qualifier name dotted).run draft =
        (useValue node id).run (looking draft node (some owner))) ∨
    (∃ owner, draft.program.memberClass? owner name = some id) ∨
    ∃ type, ((findTypeHere type).run draft).1 = some id := by
  have htype {after : TrackedDraft} (hafter : after.program = draft.program) {found : Option SymbolId}
      (hused : ((useType node found).run after).2.program.use? node = some id) : found = some id := by
    rwa [use?_useType, hafter, hunused, Option.or_none] at hused
  rw [resolveSelect.eq_def, run_bind, run_lookIn] at huse ⊢
  dsimp only at huse ⊢
  cases howner : qualifier.memberClass? with
  | some owner =>
      rw [howner] at huse
      dsimp only at huse ⊢
      rw [run_bind, run_ask, program_looking] at huse ⊢
      dsimp only at huse ⊢
      cases hfield : draft.program.findField? owner name with
      | some field =>
          rw [hfield] at huse
          have hused := (draft.program.use?_setUse node field node).trans (if_pos rfl)
          obtain rfl := Option.some.inj (huse.symm.trans hused)
          exact .inl ⟨owner, rfl, hfield, rfl⟩
      | none =>
          rw [hfield] at huse
          dsimp only at huse
          rw [run_bind, run_ask] at huse
          exact .inr (.inl ⟨owner, htype (program_looking draft node (some owner)) huse⟩)
  | none =>
      rw [howner] at huse
      cases dotted with
      | none => exact nomatch huse.symm.trans hunused
      | some type =>
          dsimp only at huse
          rw [run_bind, run_findTypeHere] at huse
          refine .inr (.inr ⟨type, ?_⟩)
          rw [run_findTypeHere]
          exact htype (program_looking draft node none) huse

namespace ComesTo

variable {nests : Prop} {program : Program} {classes : List SymbolId} {expr : Expr} {draft : TrackedDraft}

/-- The classes around an expression are those around the innermost one, in the finished program. -/
theorem enclosing_eq (h : ComesTo nests program classes expr draft) (hprogram : program.WellFormed)
    {self : SymbolId} (hself : classes.head? = some self) : program.enclosing self = classes :=
  (h.chain.mono h.grows).enclosing_eq hprogram hself

theorem lt_size (h : ComesTo nests program classes expr draft) {type : SymbolId}
    (htype : type ∈ classes) : type < draft.program.symbols.size :=
  (h.chain.isClass type htype).lt_size

section Kinds

variable {node : NodeId} {kind : ExprKind} {span : Span}
  (h : ComesTo nests program classes ⟨node, kind, span⟩ draft)
include h

theorem nodup_parts : (node :: TreeNode.numbersOf kind.parts).Nodup := by
  have hnodup := h.nodup
  rwa [TreeNode.numbers_eq] at hnodup

/-- What is recorded for an expression is recorded when the resolver goes through it. -/
theorem use?_eq : program.use? node =
    ((resolveExprKind node span kind).run (visiting draft node)).2.program.use? node := by
  rw [h.uses node (TreeNode.ownIds_subset_numbers (List.mem_singleton_self _)), run_resolveExpr]

/-- Nothing is recorded for an expression when the resolver has gone through parts of it. -/
theorem unused {α : Type} {course : Course} {computation : Tracked α}
    (hcovers : Covers [] course computation) (hparts : course.parts ⊆ kind.parts) :
    (computation.run (visiting draft node)).2.program.use? node = none := by
  refine (hcovers.uses (visiting draft node) h.wellFormed node List.not_mem_nil
    fun ⟨part, hpart, hreaches⟩ => ?_).trans (h.fresh (.here _))
  have hreached : Part.Reached kind.parts node := ⟨part, hparts hpart, hreaches⟩
  exact (List.nodup_cons.mp h.nodup_parts).1 hreached.mem_numbersOf

/-- Nothing is recorded for an expression of a kind that refers to nothing. -/
theorem use?_eq_none (hkind : kind.referring node = []) : program.use? node = none := by
  have hcovers := covers_resolveExprKind node span kind
  rw [hkind] at hcovers
  rw [h.use?_eq]
  have hparts : (kind.course span).parts = kind.parts :=
    TreeNode.parts_course (.expr ⟨node, kind, span⟩)
  exact h.unused hcovers (hparts ▸ List.Subset.refl _)

/-- Where the resolver only records what an expression refers to before it leaves the expression, all
that it knows is settled. -/
theorem kept_before {middle : TrackedDraft} {last : Tracked Denotation}
    (hrun : (resolveExpr ⟨node, kind, span⟩).run draft = last.run middle)
    (hlast : Covers [node] .nil last) (hmiddle : middle.program.WellFormed) :
    middle.program.Retains program ∧ Grows nests middle.program program := by
  have hnone : (∃ part ∈ Course.nil.parts, part.Nests) → False :=
    fun ⟨_, hpart, _⟩ => List.not_mem_nil hpart
  have hgrows := (hlast.grows middle hmiddle).mono hnone
  rw [← hrun] at hgrows
  exact ⟨(Program.Retains.of_grows hgrows).trans h.kept, (hgrows.mono False.elim).trans h.later⟩

end Kinds

/-- What is recorded for a bare name was found in the scopes, or else as a type. -/
theorem name_found {node : NodeId} {name : String} {span : Span}
    (h : ComesTo nests program classes ⟨node, .name name, span⟩ draft) {id : SymbolId}
    (huse : program.use? node = some id) :
    draft.scopes.lookup name (draft.program.findField? · name) = some id ∨
      draft.scopes.lookup name (draft.program.findField? · name) = none ∧
        ((findTypeHere name).run draft).1 = some id := by
  have hrecorded : ((resolveName node name).run (visiting draft node)).2.program.use? node =
      some id := by
    rw [← huse, h.use?_eq, resolveExprKind]
  have hfresh : draft.program.use? node = none := h.fresh (.here _)
  cases hlookup : draft.scopes.lookup name (draft.program.findField? · name) with
  | some found =>
      rw [run_resolveName_of_some hlookup] at hrecorded
      have hused := (draft.program.use?_setUse node found node).trans (if_pos rfl)
      exact .inl (hused.symm.trans hrecorded)
  | none =>
      rw [run_resolveName_of_none hlookup, use?_useType, run_findTypeHere] at hrecorded
      change _ = some id at hrecorded
      rw [Option.or_eq_some_iff] at hrecorded
      rcases hrecorded with hfound | ⟨-, hused⟩
      · exact .inr ⟨rfl, by rw [run_findTypeHere]; exact hfound⟩
      · exact nomatch hfresh.symm.trans hused

/-- The type that a name means inside the classes around is a class. -/
theorem isClass_of_findTypeHere (h : ComesTo nests program classes expr draft) {name : String}
    {later : TrackedDraft} {nested : Prop} (hgrows : Grows nested draft.program later.program)
    (hclasses : later.scopes.enclosingClasses = draft.scopes.enclosingClasses) (hlater : Grows nests later.program program)
    {id : SymbolId} (hfound : ((findTypeHere name).run later).1 = some id) : program.IsClass id := by
  have hwellFormed := hgrows.wellFormed h.wellFormed
  rw [run_findTypeHere] at hfound
  obtain ⟨context, hcontext, hfound⟩ := Option.bind_eq_some_iff.mp hfound
  obtain ⟨base, -, hfound⟩ := Option.bind_eq_some_iff.mp hfound
  have hself : classes.head? = some context := by
    rw [← h.around, ← hclasses]
    exact hcontext
  have hchain := h.chain.mono hgrows
  have henclosing := hchain.enclosing_eq hwellFormed hself
  refine (hwellFormed.findType?_isClass (fun around haround => ?_) hfound).mono hlater
  exact hchain.isClass around (henclosing ▸ haround)

/-- A bare name for which something is recorded names a variable, a field of the innermost class around
that has one of the name, or a class. -/
theorem name_cases {node : NodeId} {name : String} {span : Span}
    (h : ComesTo nests program classes ⟨node, .name name, span⟩ draft) {id : SymbolId}
    (huse : program.use? node = some id) :
    (∃ symbol, program.symbol? id = some symbol ∧ symbol.isVariable) ∨
      classes.findSome? (program.findField? · name) = some id ∨ program.IsClass id := by
  rcases h.name_found huse with hlookup | ⟨-, hfound⟩
  · rcases ScopeStack.lookup_cases hlookup with hbound | hfield
    · obtain ⟨symbol, hsymbol, -, hvariable⟩ := h.binds hbound
      exact .inl ⟨symbol, hsymbol, hvariable⟩
    · refine .inr (.inl ?_)
      rw [h.around] at hfield
      rw [← hfield, ← List.head?_filterMap, ← List.head?_filterMap]
      refine congrArg List.head? (List.filterMap_congr fun type htype => ?_)
      exact h.retained.findField?_eq (h.lt_size htype) h.wellFormed name
  · exact .inr (.inr (h.isClass_of_findTypeHere (.refl False _) rfl h.grows hfound))

/-- What is recorded for a bare call was found as a method in the classes around, once its arguments were
gone through. -/
theorem call_found {node : NodeId} {method : String} {args : List Expr} {span : Span}
    (h : ComesTo nests program classes ⟨node, .call none method args, span⟩ draft) {id : SymbolId}
    (huse : program.use? node = some id) :
    let after := ((resolveExprs args).run (visiting draft node)).2
    ((findScopedMethod method args.length).run after).1 = some id := by
  intro after
  have hunused : after.program.use? node = none :=
    h.unused (covers_plains args) (by rw [Course.parts_ofParts]; exact List.Subset.refl _)
  have hrecorded : ((useMethod node ((findScopedMethod method args.length).run after).1).run
      ((findScopedMethod method args.length).run after).2).2.program.use? node = some id := by
    rw [← huse, h.use?_eq, resolveExprKind, run_bind]
    rfl
  rw [use?_useMethod, Option.or_eq_some_iff] at hrecorded
  rcases hrecorded with hfound | ⟨-, hused⟩
  · exact hfound
  · rw [run_findScopedMethod] at hused
    exact nomatch hunused.symm.trans hused

/-- A bare call for which something is recorded calls a method of the innermost class around that has
one of the name. -/
theorem call_cases {node : NodeId} {method : String} {args : List Expr} {span : Span}
    (h : ComesTo nests program classes ⟨node, .call none method args, span⟩ draft) {id : SymbolId}
    (huse : program.use? node = some id) :
    classes.findSome? (program.findMethod? · method args.length) = some id := by
  have hargs := covers_plains args
  have hfound := h.call_found huse
  dsimp only at hfound
  generalize hafter : ((resolveExprs args).run (visiting draft node)).2 = after at hfound
  have hwellFormed : after.program.WellFormed :=
    hafter ▸ (hargs.grows (visiting draft node) h.wellFormed).wellFormed h.wellFormed
  have haround : after.scopes.enclosingClasses = draft.scopes.enclosingClasses :=
    hafter ▸ hargs.enclosingClasses_eq (visiting draft node)
  have hrun : (resolveExpr ⟨node, .call none method args, span⟩).run draft =
      (useMethod node ((findScopedMethod method args.length).run after).1).run after := by
    rw [run_resolveExpr, resolveExprKind, run_bind, hafter, run_bind, run_findScopedMethod]
  obtain ⟨hretained, -⟩ := h.kept_before hrun (.useMethod node _) hwellFormed
  have hsize : draft.program.symbols.size ≤ after.program.symbols.size :=
    hafter ▸ (hargs.grows (visiting draft node) h.wellFormed).size_le
  rw [run_findScopedMethod, haround] at hfound
  split at hfound
  · cases hfound
  · rw [← List.head?_filterMap] at hfound
    rw [← hfound, ← List.head?_filterMap, ← h.around]
    refine congrArg List.head? (List.filterMap_congr fun type htype => ?_)
    have hlt := Nat.lt_of_lt_of_le (h.lt_size (h.around ▸ htype)) hsize
    exact hretained.findMethod?_eq hlt hwellFormed method args.length

section Inside

variable {node : NodeId} {kind : ExprKind} {span : Span} {inner : Expr}
  {rest : Denotation → Tracked Denotation}
  (h : ComesTo nests program classes ⟨node, kind, span⟩ draft)
  (hparts : kind.parts = exprParts .plain [inner]) (hrest : ∀ denoted, Covers [node] .nil (rest denoted))
  (hkind : resolveExprKind node span kind = resolveExpr inner >>= rest)
include h hparts hrest hkind

/-- The only expression in another one is come to as soon as that is visited. -/
theorem inside : ComesTo nests program classes inner (visiting draft node) := by
  have hinner := covers_plain inner
  have hwellFormed := (hinner.grows (visiting draft node) h.wellFormed).wellFormed h.wellFormed
  have hrun : (resolveExpr ⟨node, kind, span⟩).run draft =
      (rest ((resolveExpr inner).run (visiting draft node)).1).run
        ((resolveExpr inner).run (visiting draft node)).2 := by
    rw [run_resolveExpr, hkind, run_bind]
  have hstep : Within (.expr ⟨node, kind, span⟩) [⟨0, .plain⟩] (.expr inner) := by
    refine .part ?_ (.here _)
    change kind.parts[0]? = _
    rw [hparts]
    rfl
  have hnodup := h.nodup_parts
  rw [hparts] at hnodup
  obtain ⟨hnode, hnodup⟩ := List.nodup_cons.mp hnodup
  change node ∉ TreeNode.numbersOf [⟨.plain, .expr inner⟩] at hnode
  change (TreeNode.numbersOf [⟨.plain, .expr inner⟩]).Nodup at hnodup
  rw [TreeNode.numbersOf_singleton] at hnode hnodup
  obtain ⟨hkept, hlater⟩ := h.kept_before hrun (hrest _) hwellFormed
  refine ⟨h.wellFormed, h.grows, hlater, h.retained, hkept, h.around, h.chain, h.binds,
    fun hwithin => h.fresh (hstep.trans hwithin), fun id hid => ?_, hnodup⟩
  have hne : id ∉ [node] := fun hmem => hnode (List.mem_singleton.mp hmem ▸ hid)
  rw [h.uses id (hstep.numbers_subset hid), hrun]
  exact (hrest _).uses _ hwellFormed id hne fun ⟨_, hpart, _⟩ => absurd hpart List.not_mem_nil

end Inside

/-- The resolver comes to what stands before a selection. -/
theorem object {node : NodeId} {object : Expr} {name : String} {span : Span}
    (h : ComesTo nests program classes ⟨node, .select object name, span⟩ draft) :
    ComesTo nests program classes object (visiting draft node) :=
  h.inside rfl (fun qualifier => .resolveSelect node qualifier name _) (by rw [resolveExprKind])

/-- The resolver comes to the receiver of a call without arguments. -/
theorem receiver {node : NodeId} {receiver : Expr} {method : String} {span : Span}
    (h : ComesTo nests program classes ⟨node, .call (some receiver) method [], span⟩ draft) :
    ComesTo nests program classes receiver (visiting draft node) := by
  refine h.inside rfl (fun target => .lookIn ((Covers.ask fun program =>
    target.memberClass?.bind fun owner => program.findMethod? owner method 0).finish
      fun found => .useMethod node found) target.memberClass?) ?_
  rw [resolveExprKind, resolveExprs]
  rfl

/-- What is recorded for a selection is a class, or the field of the class in which what stands before it
has its members. -/
theorem select_cases {node : NodeId} {object : Expr} {name : String} {span : Span}
    (h : ComesTo nests program classes ⟨node, .select object name, span⟩ draft) {id : SymbolId}
    (huse : program.use? node = some id) :
    let denoted := (resolveExpr object).run (visiting draft node)
    program.IsClass id ∨ ∃ owner, denoted.1.memberClass? = some owner ∧
      denoted.2.program.findField? owner name = some id ∧
        (resolveExpr ⟨node, .select object name, span⟩).run draft =
          (useValue node id).run (looking denoted.2 node (some owner)) := by
  intro denoted
  let dotted : Option String := object.dottedName?.map (· ++ "." ++ name)
  have hobject := covers_plain object
  have hrun : (resolveExpr ⟨node, .select object name, span⟩).run draft =
      (resolveSelect node denoted.1 name dotted).run denoted.2 := by
    rw [run_resolveExpr, resolveExprKind, run_bind]
  have hunused : denoted.2.program.use? node = none := h.unused hobject (List.Subset.refl _)
  rw [h.uses node (TreeNode.ownIds_subset_numbers (List.mem_singleton_self _)), hrun] at huse
  rcases run_resolveSelect_cases hunused huse with
    ⟨owner, howner, hfield, hselect⟩ | ⟨owner, hmember⟩ | ⟨type, hfound⟩
  · exact .inr ⟨owner, howner, hfield, hrun.trans hselect⟩
  · have hwellFormed := (hobject.grows (visiting draft node) h.wellFormed).wellFormed h.wellFormed
    exact .inl ((hwellFormed.memberClass?_isClass hmember).mono h.object.later)
  · exact .inl (h.isClass_of_findTypeHere (hobject.grows (visiting draft node) h.wellFormed)
      (hobject.enclosingClasses_eq (visiting draft node)) h.object.later hfound)

/-- What is recorded for a call on a receiver is the method of the class in which the receiver has its
members. -/
theorem callOn_found {node : NodeId} {receiver : Expr} {method : String} {args : List Expr}
    {span : Span} (h : ComesTo nests program classes ⟨node, .call (some receiver) method args, span⟩ draft)
    {id : SymbolId} (huse : program.use? node = some id) :
    let denoted := (resolveExpr receiver).run ((resolveExprs args).run (visiting draft node)).2
    ∃ owner, denoted.1.memberClass? = some owner ∧
      denoted.2.program.findMethod? owner method args.length = some id ∧
        (resolveExpr ⟨node, .call (some receiver) method args, span⟩).run draft =
          (useValue node id).run (looking denoted.2 node (some owner)) := by
  intro denoted
  let found : Option SymbolId := denoted.1.memberClass?.bind fun owner =>
    denoted.2.program.findMethod? owner method args.length
  have hrun : (resolveExpr ⟨node, .call (some receiver) method args, span⟩).run draft =
      (useMethod node found).run (looking denoted.2 node denoted.1.memberClass?) := by
    rw [run_resolveExpr, resolveExprKind]
    rfl
  have hcovers := (covers_plains args).bind fun _ => covers_plain receiver
  have hunused : denoted.2.program.use? node = none := h.unused hcovers (by
    rw [Course.parts_append, Course.parts_ofParts]
    exact List.append_subset.mpr ⟨List.subset_append_right _ _, List.subset_append_left _ _⟩)
  rw [h.uses node (TreeNode.ownIds_subset_numbers (List.mem_singleton_self _)), hrun, use?_useMethod,
    program_looking, hunused, Option.or_none] at huse
  obtain ⟨owner, howner, hmethod⟩ := Option.bind_eq_some_iff.mp huse
  refine ⟨owner, howner, hmethod, hrun.trans ?_⟩
  rw [huse, howner]
  rfl

end ComesTo

end Resolving

/-- Some class is declared inside code: there are local or anonymous classes. -/
def CompilationUnit.Nests (unit : CompilationUnit) : Prop :=
  ∃ part ∈ unit.parts, part.Nests

instance (unit : CompilationUnit) : Decidable unit.Nests :=
  decidable_of_iff (∃ decl ∈ unit.types, ∃ place ∈ (TreeNode.classDecl decl).places,
    place.path.any (·.role.isNested)) <| by
    have hnested (role : PartRole) : role.isNested = true ↔ role = .nested := by
      cases role <;> simp [PartRole.isNested]
    constructor
    · rintro ⟨decl, hdecl, place, hplace, hany⟩
      obtain ⟨step, hstep, hrole⟩ := List.any_eq_true.mp hany
      exact ⟨_, List.mem_map.mpr ⟨decl, hdecl, rfl⟩, .inr ⟨place.path, place.node,
        TreeNode.mem_places.mp hplace, step, hstep, (hnested _).mp hrole⟩⟩
    · rintro ⟨part, hpart, hnests⟩
      obtain ⟨decl, hdecl, rfl⟩ := List.mem_map.mp hpart
      obtain hrole | ⟨path, inner, hwithin, step, hstep, hrole⟩ := hnests
      · cases hrole
      · exact ⟨decl, hdecl, ⟨path, inner⟩, TreeNode.mem_places.mpr hwithin,
          List.any_eq_true.mpr ⟨step, hstep, (hnested _).mpr hrole⟩⟩

/-- The classes of a unit see none of its variables. -/
theorem CompilationUnit.mem_seen_of_mem_types {unit : CompilationUnit} {decl : ClassDecl}
    (hdecl : decl ∈ unit.types) :
    (⟨⟨.declared, .classDecl decl⟩, []⟩ : SeenPart) ∈ (Course.ofParts unit.parts).seen := by
  have hdeclared : ∀ part ∈ unit.parts, part.declared = [] := List.forall_mem_map.mpr fun _ _ => rfl
  rw [Course.seen_ofParts hdeclared]
  exact List.mem_map.mpr ⟨_, List.mem_map.mpr ⟨decl, hdecl, rfl⟩, rfl⟩

namespace Program

open Resolving

/-- The draft with which the resolver of a unit comes to the expression at the end of a path into a
class. The scopes hold what the place sees then, and the members that are looked up for the expression
are looked up then. -/
structure ComesAlong (unit : CompilationUnit) (decl : ClassDecl) (path : List PathStep) (expr : Expr)
    (draft : TrackedDraft) : Prop where
  comesTo : ComesTo unit.Nests (ofUnit unit) (classesAlong (ofUnit unit).use? path) expr draft
  sees : List.Forall₂ (ofUnit unit).Shows ((TreeNode.classDecl decl).marks path) draft.scopes.items
  receivers : ∀ id ∈ (TreeNode.expr expr).numbers,
    (draftOf unit).receiver? id = ((resolveExpr expr).run draft).2.receiver? id

variable {unit : CompilationUnit} (hnodup : unit.numbers.Nodup) {decl : ClassDecl}
  (hdecl : decl ∈ unit.types) {path : List PathStep} {expr : Expr}
  (hwithin : Within (.classDecl decl) path (.expr expr))
include hnodup hdecl hwithin

/-- The resolver comes to every expression outside annotations, inside the classes on the path to it and
with what the place sees in its scopes. Only a label that names a constant is not come to. -/
theorem exists_comesAlong (hpath : ∀ step ∈ path, step.role.isResolved) :
    (IsLabelName .declared path expr ∧ (ofUnit unit).NamesConstant expr) ∨
    ∃ draft, ComesAlong unit decl path expr draft := by
  have hcovered := covered_draftOf hnodup
  have hpart : (⟨.declared, .classDecl decl⟩ : Part) ∈ unit.parts :=
    List.mem_map.mpr ⟨decl, hdecl, rfl⟩
  have houtside : (linkedDraft unit).scopes.enclosingClasses = [] := by
    rw [scopes_linkedDraft]
    rfl
  have hprogram := program_draftOf unit
  refine (hcovered.enters_expr (CompilationUnit.mem_seen_of_mem_types hdecl) hwithin hpath).imp
    (hprogram ▸ id) fun ⟨entry, hentry⟩ => ⟨entry, ?_⟩
  have hclasses : entry.scopes.enclosingClasses = classesAlong (ofUnit unit).use? path := by
    rw [hentry.classes, houtside, List.append_nil, hprogram]
  have hwellFormed := hentry.earlier.wellFormed (wellFormed_linkedDraft unit)
  have hresolved := (covers_plain expr).grows entry hwellFormed
  have hlater : Grows unit.Nests ((resolveExpr expr).run entry).2.program (ofUnit unit) := by
    have h := hentry.later
    rwa [Course.parts_ofParts, hprogram] at h
  obtain ⟨items, hshows, hitems⟩ := hentry.sees
  rw [List.map_nil, List.append_nil, hprogram] at hshows
  rw [scopes_linkedDraft, show ScopeStack.empty.items = [] from rfl, List.append_nil] at hitems
  rw [← hitems] at hshows
  refine ⟨⟨hwellFormed, ?_, hlater, hprogram ▸ hentry.retained, hprogram ▸ hentry.kept, hclasses, ?_,
    exists_symbol_of_shows hshows, fun hinner => ?_, hprogram ▸ hentry.uses, ?_⟩, hshows, hentry.receivers⟩
  · refine (hresolved.mono fun hnests => ?_).trans hlater
    obtain ⟨part, hpart', hnests⟩ := hnests
    obtain rfl := List.mem_singleton.mp hpart'
    exact ⟨_, hpart, hnests.of_within hwithin PartRole.plain_ne_nested⟩
  · rw [← hclasses]
    exact hentry.chained (by rw [houtside]; trivial)
  · exact (hentry.fresh hinner).trans (use?_linkedDraft_of_expr hnodup hdecl (hwithin.trans hinner))
  · exact hnodup.sublist ((hwithin.numbers_sublist).trans (unit.numbers_sublist hdecl))

omit hwithin in
/-- The resolver comes to every statement outside annotations, inside the classes on the path to it and with
what the place sees in its scopes. -/
theorem exists_enters_stmt {stmt : Stmt} (hwithin : Within (.classDecl decl) path (.stmt stmt))
    (hpath : ∀ step ∈ path, step.role.isResolved) :
    ∃ draft, Enters unit.Nests (linkedDraft unit) (draftOf unit) path ((TreeNode.classDecl decl).marks path)
      (.stmt stmt) draft := by
  obtain ⟨draft, hentry⟩ := (covered_draftOf hnodup).enters_stmt
    (CompilationUnit.mem_seen_of_mem_types hdecl) hwithin hpath
  rw [List.map_nil, List.append_nil, Course.parts_ofParts] at hentry
  exact ⟨draft, hentry⟩

omit hwithin in
/-- Around everything in a class there is a class. -/
theorem exists_head?_classesAlong {node : TreeNode} (hwithin : Within (.classDecl decl) path node)
    (hnode : node ≠ .classDecl decl) (hpath : ∀ step ∈ path, step.role.isResolved) :
    ∃ context, (classesAlong (ofUnit unit).use? path).head? = some context := by
  obtain ⟨around, hdeclared⟩ := exists_declared_ofUnit hnodup hdecl (.here _)
    fun _ h => absurd h List.not_mem_nil
  obtain ⟨self, hself⟩ := hdeclared.exists_use?
  cases hwithin with
  | here => exact absurd rfl hnode
  | part hindex =>
      obtain ⟨_, -, hrole, -⟩ := eq_member_of_isResolved hindex (hpath _ List.mem_cons_self)
      rw [classesAlong, hrole, PartRole.selfIn, hself, List.head?_append]
      exact ⟨_, Option.or_some⟩

/-- The resolver comes to every expression outside annotations that is no name as a label, inside the
classes on the path to it. -/
theorem exists_comesTo (hpath : ∀ step ∈ path, step.role.isResolved)
    (hlabel : ¬IsLabelName .declared path expr) :
    ∃ draft, ComesTo unit.Nests (ofUnit unit) (classesAlong (ofUnit unit).use? path) expr draft := by
  obtain ⟨draft, hcomes⟩ := (exists_comesAlong hnodup hdecl hwithin hpath).resolve_left
    fun ⟨hname, _⟩ => hlabel hname
  exact ⟨draft, hcomes.comesTo⟩

/-- Nothing is recorded for an expression in an annotation. -/
theorem isResolved_of_use? {id : SymbolId} (huse : (ofUnit unit).use? expr.id = some id) :
    ∀ step ∈ path, step.role.isResolved := by
  by_contra hpath
  have hlinked := use?_linkedDraft_of_expr hnodup hdecl hwithin
  have hkept : (ofUnit unit).use? expr.id = _ := use?_ofUnit unit <| by
    rintro ⟨part, hpart, hreaches⟩
    obtain ⟨path', inner, hinner, hpath', hid⟩ := hreaches.exists_ownIds
    obtain ⟨decl', hdecl', rfl⟩ := List.mem_map.mp hpart
    obtain ⟨rfl, rfl⟩ := CompilationUnit.path_eq_of_numbers_nodup hnodup hdecl hdecl' hwithin hinner
      (List.mem_singleton_self _) hid
    exact hpath hpath'
  rw [hlinked] at hkept
  exact nomatch huse.symm.trans hkept

end Program
end LockDiscipline
