import LockDiscipline.Lock.Released
import LockDiscipline.Check.Access
import LockDiscipline.Proofs.Tree.Parentheses
/-!
# Locks without extra parentheses

The binder of source expressions goes through parentheses to what stands in them. So an expression is the same
lock with and without extra parentheses anywhere in it, and what requires a lock or releases one does the same.
The error for an expression that is no lock may differ: it shows a selection from an expression in parentheses
merely as an expression, and the selection without these parentheses by its dotted name.
-/

namespace LockDiscipline

/-- Two results are the same one, or they are errors for one expression, and the second one shows a dotted name
of it that extra parentheses hide from the first one. -/
inductive NotALock.Blurs (extra : NodeId → Bool) {α : Type} : Except NotALock α → Except NotALock α → Prop where
  | refl (result : Except NotALock α) : Blurs extra result result
  | hidden {expr : Expr} (hname : expr.HidesName extra) :
      Blurs extra (.error (.ofExpr expr)) (.error (.ofExpr (expr.strip extra)))

namespace NotALock

variable {extra : NodeId → Bool} {α β : Type}

theorem Blurs.bind {result result' : Except NotALock α} {next next' : α → Except NotALock β}
    (h : Blurs extra result result') (hnext : ∀ value, Blurs extra (next value) (next' value)) :
    Blurs extra (result >>= next) (result' >>= next') := by
  cases h with
  | refl =>
      cases result with
      | error error => exact .refl _
      | ok value => exact hnext value
  | hidden hname => exact .hidden hname

theorem blurs_ofExpr {expr : Expr} (hkind : ∀ inner, expr.kind ≠ .paren inner) :
    Blurs extra (.error (.ofExpr expr) : Except NotALock α) (.error (.ofExpr (expr.strip extra))) := by
  by_cases hname : expr.HidesName extra
  · exact .hidden hname
  · have hofExpr : ofExpr (expr.strip extra) = ofExpr expr := by
      rw [ofExpr, not_not.mp hname]
      obtain ⟨id, kind, span⟩ := expr
      cases kind with
      | paren inner => exact absurd rfl (hkind inner)
      | _ => rfl
    rw [hofExpr]
    exact .refl _

end NotALock

open NotALock

namespace Viewpoint

variable (view : Viewpoint) (extra : NodeId → Bool)

/-! ### Source expressions -/

theorem blurs_resolved (expr : Expr) (hkind : ∀ inner, expr.kind ≠ .paren inner) :
    Blurs extra (view.resolved expr) (view.resolved (expr.strip extra)) := by
  have hid : (expr.strip extra).id = expr.id := by
    obtain ⟨id, kind, span⟩ := expr
    cases kind with
    | paren inner => exact absurd rfl (hkind inner)
    | _ => rfl
  rw [resolved, resolved, hid]
  cases view.program.use? expr.id with
  | none => exact blurs_ofExpr hkind
  | some id => exact .refl _

mutual

/-- An expression is bound to what it is bound to without extra parentheses. -/
theorem blurs_bindSource (allowArgs : Bool) : ∀ expr : Expr,
    Blurs extra (view.bindSource allowArgs expr) (view.bindSource allowArgs (expr.strip extra))
  | ⟨id, .paren inner, span⟩ => by
      have hinner := blurs_bindSource allowArgs inner
      rw [bindSource, Expr.strip, ExprKind.strip, Expr.shed]
      split
      · exact hinner
      · exact hinner
  | ⟨id, .select object name, span⟩ => by
      refine (view.blurs_resolved extra ⟨id, .select object name, span⟩ nofun).bind fun member => ?_
      refine (Blurs.refl _).bind fun symbol => ?_
      split
      · exact .refl _
      · exact (blurs_bindSource false object).bind fun base => .refl _
  | ⟨id, .call receiver method args, span⟩ => by
      have hargs : (stripExprs extra args).isEmpty = args.isEmpty := by rw [stripExprs_eq, List.isEmpty_map]
      simp only [Expr.strip, ExprKind.strip, Expr.shed, bindSource, hargs]
      split
      · exact blurs_ofExpr nofun
      · refine (view.blurs_resolved extra ⟨id, .call receiver method args, span⟩ nofun).bind fun member => ?_
        refine (Blurs.refl _).bind fun symbol => ?_
        split
        · exact .refl _
        · exact (blurs_bindReceiver receiver).bind fun base => .refl _
  | ⟨_, .qualifiedThis _, _⟩ | ⟨_, .classLiteral _, _⟩ | ⟨_, .name _, _⟩ | ⟨_, .this, _⟩
  | ⟨_, .super, _⟩ => .refl _
  | ⟨_, .int _, _⟩ | ⟨_, .float _, _⟩ | ⟨_, .string _, _⟩ | ⟨_, .char _, _⟩ | ⟨_, .bool _, _⟩
  | ⟨_, .null, _⟩ | ⟨_, .new .., _⟩ | ⟨_, .newArray .., _⟩ | ⟨_, .arrayInit _, _⟩ | ⟨_, .index .., _⟩
  | ⟨_, .unary .., _⟩ | ⟨_, .binary .., _⟩ | ⟨_, .assign .., _⟩ | ⟨_, .conditional .., _⟩
  | ⟨_, .instanceOf .., _⟩ | ⟨_, .cast .., _⟩ | ⟨_, .lambda .., _⟩ | ⟨_, .methodRef .., _⟩ => .refl _

/-- A receiver is bound to what it is bound to without extra parentheses. -/
theorem blurs_bindReceiver : ∀ receiver : Option Expr,
    Blurs extra (view.bindReceiver receiver) (view.bindReceiver (stripOption extra receiver))
  | none => .refl _
  | some receiver => (blurs_bindSource false receiver).bind fun _ => .refl _

end

/-- An expression is the same lock without extra parentheses, or no lock in both cases. -/
theorem blurs_bindExpr (expr : Expr) : Blurs extra (view.bindExpr expr) (view.bindExpr (expr.strip extra)) :=
  (view.blurs_bindSource extra false expr).bind fun _ => .refl _

theorem blurs_bindAccess (access : Expr) :
    Blurs extra (view.bindAccess access) (view.bindAccess (access.strip extra)) :=
  (view.blurs_bindSource extra true access).bind fun _ => .refl _

/-- An access requires the same lock without extra parentheses. -/
theorem blurs_requiredLock (guard : LockExpr) (access : Expr) :
    Blurs extra (view.requiredLock guard access) (view.requiredLock guard (access.strip extra)) := by
  rw [requiredLock, requiredLock]
  split
  · exact (view.blurs_bindAccess extra access).bind fun _ => .refl _
  · exact .refl _

theorem blurs_lockFor (access : Expr) (member : NamedSymbol) (guard : String) :
    Blurs extra (view.lockFor access member guard) (view.lockFor (access.strip extra) member guard) := by
  rw [lockFor, lockFor]
  cases view.ofMember? member with
  | none => exact .refl _
  | some declaring => exact (Blurs.refl _).bind fun guard => view.blurs_requiredLock extra guard access

/-! ### Releases -/

theorem releaseOf?_strip (receiver : Expr) (method : String) :
    view.releaseOf? (receiver.strip extra) method = view.releaseOf? receiver method := by
  have hreceiver := view.blurs_bindExpr extra receiver
  rw [releaseOf?, releaseOf?]
  generalize view.bindExpr receiver = bound, view.bindExpr (receiver.strip extra) = bound' at hreceiver ⊢
  cases hreceiver <;> rfl

/-- Extra parentheses release nothing themselves. -/
theorem releaseAt?_kept (expr : Expr) : (expr.kept? extra).bind view.releaseAt? = view.releaseAt? expr := by
  obtain ⟨id, kind, span⟩ := expr
  cases kind with
  | paren inner =>
      rw [Expr.kept?]
      split <;> rfl
  | call receiver method args =>
      cases receiver with
      | none => rfl
      | some receiver =>
          cases args with
          | nil =>
              exact view.releaseOf?_strip extra receiver method
          | cons arg rest => rfl
  | _ => rfl

theorem releases_strip (finallyBody : List Stmt) :
    view.releases (stripStmts extra finallyBody) = view.releases finallyBody := by
  rw [releases, exprsIn_strip, List.filterMap_filterMap, releases]
  congr 1
  funext expr
  exact view.releaseAt?_kept extra expr

/-- A final block releases the same locks without extra parentheses. -/
theorem releasedLocks_strip (finallyBody : Option (List Stmt)) :
    view.releasedLocks (stripStmts? extra finallyBody) = view.releasedLocks finallyBody := by
  cases finallyBody with
  | none => rfl
  | some body => rw [stripStmts?, releasedLocks, Option.getD_some, releases_strip]; rfl

end Viewpoint
end LockDiscipline
