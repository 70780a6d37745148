import LockDiscipline.Check.Access
import LockDiscipline.Proofs.Grammar.DeclarationNumbers
import LockDiscipline.Proofs.Grammar.Heads
import LockDiscipline.Proofs.Tree.Visiting
/-!
# What stands before a dot

An operand before a dot is evaluated before the member that is selected from it, is called on it or is
created in it. It is a part of what is read where a member or a call stands behind the dot, so that the
analysis of the whole meets all that it meets in the operand. The creation of an inner instance is read as
if nothing stood before the dot: no construct of the operand is in what is read, and the analysis does not
meet it. Selections by `this`, `class` and `super`, in front of which a type stands, are not considered.
-/

namespace LockDiscipline

/-- A token that begins a member behind a dot: its name, or the type arguments of a call. -/
def TokenKind.beginsMember : TokenKind → Bool
  | .ident _ | .symbol .less => true
  | _ => false

/-- An expression selects from an operand or is a call on it. -/
def ExprKind.IsMemberOf (object : Expr) : ExprKind → Prop
  | .select receiver _ => receiver = object
  | .call receiver _ _ => receiver = some object
  | _ => False

/-- The operand of a selection or a call is visited with it. -/
theorem ExprKind.IsMemberOf.visited {object expr : Expr} (h : expr.kind.IsMemberOf object) :
    object.visited <:+: expr.visited := by
  obtain ⟨id, kind, span⟩ := expr
  cases kind with
  | select receiver name =>
      obtain rfl : receiver = object := h
      exact (List.suffix_cons _ _).isInfix
  | call receiver method args =>
      obtain rfl : receiver = some object := h
      exact (List.prefix_append _ _).isInfix.trans (List.suffix_cons _ _).isInfix
  | _ => exact False.elim h

/-- What is visited is scanned. -/
theorem Viewpoint.scanExpr_infix {object expr : Expr} (h : object.visited <:+: expr.visited)
    (view : Viewpoint) (held : LockSet) : view.scanExpr held object <:+: view.scanExpr held expr := by
  obtain ⟨before, behind, heq⟩ := h
  refine ⟨before.flatMap (view.scanNode held), behind.flatMap (view.scanNode held), ?_⟩
  simp only [scanExpr, scanExprs, visitedExprs, List.append_nil, ← heq, List.flatMap_append]

theorem Expr.mem_visited_self (expr : Expr) : expr ∈ expr.visited := by
  obtain ⟨id, kind, span⟩ := expr
  exact List.mem_cons_self

/-- What is visited in an expression bears numbers of the expression. -/
theorem Expr.id_mem_numbers_of_mem_visited {expr inner : Expr} (h : inner ∈ expr.visited) :
    inner.id ∈ expr.numbers := by
  obtain ⟨path, hwithin, -⟩ := TreeNode.mem_visitedIn.mp (show inner ∈ (TreeNode.expr expr).visitedIn from h)
  exact hwithin.id_mem_numbers

namespace Grammar

/-- Where a member stands behind the dot, a selection from the operand or a call on it is read. -/
theorem yields_readAfterDot_member (rules : Rules) (object : Expr) (start : Nat) :
    Yields (·.current.kind.beginsMember) (readAfterDot rules object start) fun expr _ =>
      expr.kind.IsMemberOf object := by
  refine Yields.currentKind.bind fun kind => .given
    (fun cursor h => show kind.beginsMember from h.2 ▸ h.1) fun hmember => ?_
  split
  case h_1 name =>
    refine .skip fun _ => .skip fun isCall => .ite (fun _ => ?_) fun _ => ?_
    · exact .skip fun args => .mkExpr start fun _ _ _ _ => rfl
    · exact .mkExpr start fun _ _ _ _ => rfl
  case h_2 => exact .skip fun _ => .skip fun method => .skip fun args => .mkExpr start fun _ _ _ _ => rfl
  case h_7 => exact .failExpected _
  all_goals cases hmember

variable {depth : Nat} {object expr : Expr} {start : Nat} {cursor after : Cursor}

/-- Behind a dot a creation is read, whatever stands before the dot. -/
theorem run_readAfterDot_new (rules : Rules) (hkind : cursor.current.kind = .keyword .new) :
    (readAfterDot rules object start).run cursor = (readNew rules start).run cursor := by
  have hread : currentKind.run cursor = .ok (.keyword .new) cursor := by rw [← hkind]; rfl
  rw [readAfterDot, EStateM.run_bind, hread]

/-- What an operand before a dot comes to, if its numbers are handed out. Where a member stands behind the dot,
the operand is the receiver of what is read, is visited with it, and all that is met in the one is met in the
other. Where a creation stands behind the dot, nothing of the operand is in what is read. -/
theorem visited_readAfterDot_iff (hobject : ∀ id ∈ object.numbers, id < cursor.nextId)
    (hkind : cursor.current.kind.beginsMember ∨ cursor.current.kind = .keyword .new)
    (hrun : (readAfterDot (rules depth) object start).run cursor = .ok expr after) :
    (object.visited <:+: expr.visited ↔ cursor.current.kind.beginsMember) ∧
      (cursor.current.kind.beginsMember → expr.kind.IsMemberOf object ∧
        ∀ view held, Viewpoint.scanExpr view held object <:+: Viewpoint.scanExpr view held expr) ∧
      (¬cursor.current.kind.beginsMember → object.numbers.Disjoint expr.numbers) := by
  have hmember (h : cursor.current.kind.beginsMember) : expr.kind.IsMemberOf object :=
    yields_readAfterDot_member _ object start cursor expr after h hrun
  have hcreation (h : ¬cursor.current.kind.beginsMember) : object.numbers.Disjoint expr.numbers := by
    rw [run_readAfterDot_new _ (hkind.resolve_left h)] at hrun
    have hnumbers := numbers_readNew (numbered_rules depth) start cursor.nextId cursor (.nil (Nat.le_refl _))
    rw [hrun] at hnumbers
    exact fun id hid hid' => Nat.not_lt.mpr (hnumbers.bounds id hid').1 (hobject id hid)
  refine ⟨⟨fun hvisited => ?_, fun h => (hmember h).visited⟩,
    fun h => ⟨hmember h, Viewpoint.scanExpr_infix (hmember h).visited⟩, hcreation⟩
  by_contra h
  have hself : object ∈ expr.visited := hvisited.subset object.mem_visited_self
  exact hcreation h (Expr.id_mem_numbers_of_mem_visited object.mem_visited_self)
    (Expr.id_mem_numbers_of_mem_visited hself)

/-- A variable before a dot. -/
def outerInstance : Expr :=
  ⟨0, .name "o", ⟨0, 1⟩⟩

/-- The place behind the dot in the creation of an instance that is inner to that of the variable. -/
def behindOuterInstance : Cursor :=
  { Cursor.start ((Lexer.tokenize "o.new C()".toList).tokens.drop 2) with lastEnd := 2, nextId := 1 }

/-- The numbers of the expressions that are visited in a result. -/
private def visitedNumbers? : EStateM.Result SyntaxError Cursor Expr → Option (List NodeId)
  | .ok expr _ => some (expr.visited.map (·.id))
  | .error _ _ => none

private theorem exists_run_outerInstance : ∃ expr after,
    (readAfterDot (rules 8) outerInstance 0).run behindOuterInstance = .ok expr after ∧
      expr.visited.map (·.id) = [1] := by
  have hread : visitedNumbers? ((readAfterDot (rules 8) outerInstance 0).run behindOuterInstance) = some [1] := by
    decide +kernel
  cases hrun : (readAfterDot (rules 8) outerInstance 0).run behindOuterInstance with
  | ok expr after =>
      rw [hrun] at hread
      exact ⟨expr, after, rfl, Option.some.inj hread⟩
  | error error after =>
      rw [hrun] at hread
      cases hread

private theorem outerInstance_numbers : ∀ id ∈ outerInstance.numbers, id < behindOuterInstance.nextId := by
  decide +kernel

private theorem behindOuterInstance_kind : behindOuterInstance.current.kind = .keyword .new := by
  decide +kernel

theorem visited_readAfterDot_outerInstance :
    (∀ id ∈ outerInstance.numbers, id < behindOuterInstance.nextId) ∧
      behindOuterInstance.current.kind = .keyword .new ∧
      ∃ expr after, (readAfterDot (rules 8) outerInstance 0).run behindOuterInstance = .ok expr after ∧
        outerInstance.numbers.Disjoint expr.numbers := by
  obtain ⟨expr, after, hrun, -⟩ := exists_run_outerInstance
  obtain ⟨-, -, hdisjoint⟩ :=
    visited_readAfterDot_iff outerInstance_numbers (.inr behindOuterInstance_kind) hrun
  refine ⟨outerInstance_numbers, behindOuterInstance_kind, expr, after, hrun, hdisjoint ?_⟩
  rw [behindOuterInstance_kind]
  exact Bool.false_ne_true

/-- The instance in which an inner one is created is no part of what is read. -/
theorem exists_readAfterDot_not_mem_visited :
    behindOuterInstance.current.kind = .keyword .new ∧
      ∃ expr after, (readAfterDot (rules 8) outerInstance 0).run behindOuterInstance = .ok expr after ∧
        outerInstance ∉ expr.visited := by
  obtain ⟨expr, after, hrun, hnumbers⟩ := exists_run_outerInstance
  refine ⟨behindOuterInstance_kind, expr, after, hrun, fun hmem => ?_⟩
  have hnumber : outerInstance.id ∈ expr.visited.map (·.id) := List.mem_map_of_mem hmem
  rw [hnumbers] at hnumber
  exact Nat.zero_ne_one (List.mem_singleton.mp hnumber)

end Grammar
end LockDiscipline
