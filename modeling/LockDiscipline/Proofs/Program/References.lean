import LockDiscipline.Proofs.Program.Entry
/-!
# What expressions refer to

An expression refers to what is recorded for it in the finished program. By its kind this is what the
scopes hold, a member of the class in which the receiver has its members, a member of a class around or a
class. Since the members of a class do not change any more once its code is gone through, the lookup in the
finished program finds what was found then.
-/

namespace LockDiscipline

namespace Resolving

open Program (Grows)

/-- A class that is declared where it stands has the symbol with which it is returned. -/
theorem isClass_of_resolveNested (decl : ClassDecl) {draft : TrackedDraft} (hdraft : draft.program.WellFormed)
    (hnodup : (TreeNode.classDecl decl).numbers.Nodup) {id : SymbolId}
    (h : ((resolveNested decl).run draft).1 = some id) :
    ((resolveNested decl).run draft).2.program.IsClass id := by
  have hnested := declareNested_spec decl hdraft
  cases hfound : ((declareNested decl).run draft).1 with
  | none =>
      have hrun : ((resolveNested decl).run draft).1 = none := by
        obtain ⟨node, name, kind, modifiers, typeParams, superclass, interfaces, members, span⟩ := decl
        rw [resolveNested, run_bind, hfound]
        rfl
      rw [hrun] at h
      cases h
  | some found =>
      have hrun : (resolveNested decl).run draft = (do
          inScope (.classBody found) (resolveMembers decl.members)
          return some found : Tracked (Option SymbolId)).run ((declareNested decl).run draft).2 := by
        obtain ⟨node, name, kind, modifiers, typeParams, superclass, interfaces, members, span⟩ := decl
        rw [resolveNested, run_bind, hfound]
      rw [hrun] at h ⊢
      obtain rfl : found = id := Option.some.inj h
      obtain ⟨huse, huse', hinfo, -, -⟩ := hnested.declared hnodup found hfound
      obtain rfl := Option.some.inj (huse.symm.trans huse')
      have hgrows : Grows (∃ part ∈ [(⟨.declared, .classDecl decl⟩ : Part)], part.Nests)
          ((declareNested decl).run draft).2.program
          ((inScope (.classBody found) (resolveMembers decl.members)).run
            ((declareNested decl).run draft).2).2.program :=
        (covers_resolveMembers decl.members).grows_classBody _ (hnested.declares.wellFormed hdraft)
      exact Program.IsClass.mono ⟨_, hinfo⟩ hgrows

namespace ComesTo

variable {nests : Prop} {program : Program} {classes : List SymbolId} {draft : TrackedDraft}
  {node : NodeId} {span : Span} {id : SymbolId}

/-- A selection refers to a class, or to the field of the class in which its member is looked up. -/
theorem select_member {object : Expr} {name : String}
    (h : ComesTo nests program classes ⟨node, .select object name, span⟩ draft)
    (huse : program.use? node = some id) :
    program.IsClass id ∨ ∃ type,
      ((resolveExpr ⟨node, .select object name, span⟩).run draft).2.receiver? node = some (some type) ∧
        program.findField? type name = some id := by
  refine (h.select_cases huse).imp_right fun ⟨type, _, hfield, hrun⟩ => ⟨type, ?_, ?_⟩
  · rw [hrun]
    exact receiver?_looking ..
  · have hdenoted := ((covers_plain object).grows (visiting draft node) h.wellFormed).wellFormed
      h.wellFormed
    obtain ⟨hretained, -⟩ := h.kept_before hrun (.useValue node id) hdenoted
    obtain ⟨symbol, owner, hinherits, -, -⟩ := hdenoted.findField? hfield
    have htype := Program.lt_size_of_isSubclass hinherits.isSubclass hinherits.isClass
    exact (hretained.findField?_eq htype hdenoted name).trans hfield

/-- A call on a receiver refers to the method of the class in which its member is looked up. -/
theorem callOn_member {receiver : Expr} {method : String} {args : List Expr}
    (h : ComesTo nests program classes ⟨node, .call (some receiver) method args, span⟩ draft)
    (huse : program.use? node = some id) :
    ∃ type, ((resolveExpr ⟨node, .call (some receiver) method args, span⟩).run draft).2.receiver? node =
        some (some type) ∧ program.findMethod? type method args.length = some id := by
  obtain ⟨type, -, hmethod, hrun⟩ := h.callOn_found huse
  refine ⟨type, ?_, ?_⟩
  · rw [hrun]
    exact receiver?_looking ..
  · have hcovers := (covers_plains args).bind fun _ => covers_plain receiver
    have hdenoted := (hcovers.grows (visiting draft node) h.wellFormed).wellFormed h.wellFormed
    obtain ⟨hretained, -⟩ := h.kept_before hrun (.useValue node id) hdenoted
    obtain ⟨symbol, owner, hinherits, -, -⟩ := hdenoted.findMethod? hmethod
    have htype := Program.lt_size_of_isSubclass hinherits.isSubclass hinherits.isClass
    exact (hretained.findMethod?_eq htype hdenoted method args.length).trans hmethod

/-- What is found and recorded as a type behind some parts of an expression is a class. -/
private theorem isClass_of_useType {kind : ExprKind} {middle : TrackedDraft} {found : Option SymbolId}
    {last : Tracked Denotation} (h : ComesTo nests program classes ⟨node, kind, span⟩ draft)
    (hrun : (resolveExpr ⟨node, kind, span⟩).run draft = last.run middle)
    (hlast : (last.run middle).2 = ((useType node found).run middle).2)
    (hunused : middle.program.use? node = none)
    (hfound : found = some id → program.IsClass id) (huse : program.use? node = some id) :
    program.IsClass id := by
  rw [h.uses node (TreeNode.ownIds_subset_numbers (List.mem_singleton_self _)), hrun, hlast,
    use?_useType, hunused, Option.or_none] at huse
  exact hfound huse

/-- What is found as a type at the place of an expression and recorded for it is a class. -/
private theorem isClass_of_typeHere {kind : ExprKind} {type : String} {last : Tracked Denotation}
    (h : ComesTo nests program classes ⟨node, kind, span⟩ draft)
    (hrun : (resolveExpr ⟨node, kind, span⟩).run draft = last.run (visiting draft node))
    (hlast : (last.run (visiting draft node)).2 =
      ((useType node ((findTypeHere type).run (visiting draft node)).1).run (visiting draft node)).2)
    (huse : program.use? node = some id) : program.IsClass id :=
  h.isClass_of_useType hrun hlast (h.fresh (.here _))
    (fun hfound => h.isClass_of_findTypeHere (.refl False (visiting draft node).program) rfl h.grows
      hfound) huse

/-- The creation of an instance refers to a class. -/
theorem new_isClass {type : String} {args : List Expr} {body : Option ClassDecl}
    (h : ComesTo nests program classes ⟨node, .new type args body, span⟩ draft)
    (huse : program.use? node = some id) : program.IsClass id := by
  have hargs := covers_plains args
  have hgrows := hargs.grows (visiting draft node) h.wellFormed
  have haround := hargs.enclosingClasses_eq (visiting draft node)
  have hargsIn : exprParts .plain args ⊆ (ExprKind.new type args body).parts :=
    List.subset_append_left _ _
  cases body with
  | none =>
      generalize hafter : ((resolveExprs args).run (visiting draft node)).2 = after at hgrows haround
      let last : Tracked Denotation := do
        let _ ← useType node ((findTypeHere type).run after).1
        return .value ((findTypeHere type).run after).1
      have hrun : (resolveExpr ⟨node, .new type args none, span⟩).run draft = last.run after := by
        have hhere : ((findTypeHere type).run after).2 = after := by rw [run_findTypeHere]
        rw [run_resolveExpr, resolveExprKind, run_bind, hafter, run_bind, hhere]
      have hlast : Covers [node] .nil last := (Covers.useType node _).finish fun _ => .pure _
      obtain ⟨-, hlater⟩ := h.kept_before hrun hlast (hgrows.wellFormed h.wellFormed)
      have hunused := h.unused hargs (by rw [Course.parts_ofParts]; exact hargsIn)
      rw [hafter] at hunused
      exact h.isClass_of_useType hrun rfl hunused
        (fun hfound => h.isClass_of_findTypeHere hgrows haround hlater hfound) huse
  | some body =>
      let created := (resolveNested body).run ((resolveExprs args).run (visiting draft node)).2
      let last : Tracked Denotation := do
        let _ ← useType node created.1
        return .value created.1
      have hrun : (resolveExpr ⟨node, .new type args (some body), span⟩).run draft =
          last.run created.2 := by
        rw [run_resolveExpr, resolveExprKind]
        rfl
      have hlast : Covers [node] .nil last := (Covers.useType node _).finish fun _ => .pure _
      have hcovers := hargs.bind fun _ => covers_resolveNested body
      have hwellFormed := (hcovers.grows (visiting draft node) h.wellFormed).wellFormed h.wellFormed
      obtain ⟨-, hlater⟩ := h.kept_before hrun hlast hwellFormed
      have hnodup : (TreeNode.classDecl body).numbers.Nodup := by
        refine (List.nodup_cons.mp h.nodup_parts).2.sublist ?_
        have hmem : nestedPart body ∈ (ExprKind.new type args (some body)).parts :=
          List.mem_append_right _ (List.mem_singleton_self _)
        exact TreeNode.numbers_sublist_numbersOf hmem
      refine h.isClass_of_useType hrun rfl (h.unused hcovers ?_) (fun hfound => ?_) huse
      · rw [Course.parts_append, Course.parts_ofParts]
        exact List.Subset.refl _
      · exact (isClass_of_resolveNested body (hgrows.wellFormed h.wellFormed) hnodup hfound).mono hlater

/-- An expression that is no bare name, no selection and no call refers to nothing but a class. -/
theorem isClass_of_use? {kind : ExprKind} (h : ComesTo nests program classes ⟨node, kind, span⟩ draft)
    (huse : program.use? node = some id) (hname : ∀ name, kind ≠ .name name)
    (hselect : ∀ object name, kind ≠ .select object name)
    (hcall : ∀ receiver method args, kind ≠ .call receiver method args) : program.IsClass id := by
  cases kind with
  | name name => exact absurd rfl (hname name)
  | select object name => exact absurd rfl (hselect object name)
  | call receiver method args => exact absurd rfl (hcall receiver method args)
  | new type args body => exact h.new_isClass huse
  | qualifiedThis type =>
      refine h.isClass_of_typeHere (by rw [run_resolveExpr, resolveExprKind]) (?_ : _ =
        ((useType node ((findTypeHere type).run (visiting draft node)).1).run (visiting draft node)).2)
        huse
      rw [run_bind, run_findTypeHere]
      dsimp only
      split
      · next hfound => rw [hfound]; rfl
      · next hfound => rw [hfound]; rfl
  | classLiteral type =>
      refine h.isClass_of_typeHere (by rw [run_resolveExpr, resolveExprKind]) (?_ : _ =
        ((useType node ((findTypeHere type).run (visiting draft node)).1).run (visiting draft node)).2)
        huse
      rw [run_bind, run_findTypeHere]
      rfl
  | _ => cases huse.symm.trans (h.use?_eq_none rfl)

end ComesTo
end Resolving
end LockDiscipline
