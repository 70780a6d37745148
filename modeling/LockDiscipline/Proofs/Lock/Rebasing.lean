import LockDiscipline.Proofs.Lock.Selection
/-!
# Receivers and relative guards

To carry a relative guard over to a receiver is to put the receiver in the place of `this` at the root of the
guard, below the chain of members that the guard selects. So receivers act on relative locks: `this` changes
nothing, to carry over twice is to carry over once to a receiver that was carried over itself, and different
receivers give different locks. This is why taking `obj.mu` covers the members of `obj` that `mu` guards and
those of no other object. Locks are compared as `LockExpr.same` does, up to the names that they display.
-/

namespace LockDiscipline
namespace LockExpr

theorem isRelative_iff {lock : LockExpr} : lock.isRelative ↔ lock.root = .this := by
  simp [isRelative]

/-- A relative lock can be carried over to any receiver. -/
theorem exists_rebase {lock : LockExpr} (h : lock.isRelative) (receiver : LockExpr) :
    ∃ carried, rebase receiver lock = .ok carried := by
  induction lock with
  | this => exact ⟨receiver, rfl⟩
  | select base member ih =>
      obtain ⟨carried, hcarried⟩ := ih h
      exact ⟨.select carried member, by rw [rebase, hcarried]⟩
  | _ => cases h

/-- Only a relative lock is carried over to a receiver. -/
theorem exists_rebase_iff {guard : LockExpr} (receiver : LockExpr) :
    (∃ lock, rebase receiver guard = .ok lock) ↔ guard.isRelative := by
  constructor
  · rintro ⟨lock, hlock⟩
    induction guard generalizing lock with
    | this => rfl
    | select base member ih =>
        rw [rebase] at hlock
        cases hbase : rebase receiver base with
        | ok lock' => exact ih lock' hbase
        | error error =>
            rw [hbase] at hlock
            cases hlock
    | _ => cases hlock
  · exact fun hrelative => exists_rebase hrelative receiver

/-- A member is selected from what it is selected from, carried over. -/
theorem rebase_select (receiver base : LockExpr) (member : LockSymbol) :
    rebase receiver (.select base member) = do return .select (← rebase receiver base) member := by
  rw [rebase]
  cases rebase receiver base <;> rfl

theorem rebase_this {guard : LockExpr} (h : guard.isRelative) : rebase .this guard = .ok guard := by
  induction guard with
  | this => rfl
  | select base member ih => rw [rebase, ih h]
  | _ => cases h

/-- A lock that is carried over has the root of the receiver. -/
theorem root_rebase {receiver guard lock : LockExpr} (h : rebase receiver guard = .ok lock) :
    lock.root = receiver.root := by
  induction guard generalizing lock with
  | this => rw [Except.ok.inj h]
  | select base member ih =>
      rw [rebase_select] at h
      obtain ⟨lock', hlock', hlock⟩ := bind_eq_ok.mp h
      have hroot : lock'.root = receiver.root := ih hlock'
      rwa [← Except.ok.inj hlock]
  | _ => cases h

/-- To carry over to a relative receiver and then to another one is to carry over to the first receiver as it
is carried over to the other one. Where the guard is not relative, both fail alike. -/
theorem rebase_rebase {receiver : LockExpr} (h : receiver.isRelative) (guard other : LockExpr) :
    (rebase receiver guard >>= rebase other) = (rebase other receiver >>= (rebase · guard)) := by
  obtain ⟨carried, hcarried⟩ := exists_rebase h other
  rw [hcarried, ok_bind]
  induction guard with
  | this => exact hcarried
  | select base member ih =>
      calc (rebase receiver (.select base member) >>= rebase other)
        _ = (rebase receiver base >>= fun lock => rebase other (.select lock member)) := by
            rw [rebase_select]
            cases rebase receiver base <;> rfl
        _ = ((rebase receiver base >>= rebase other) >>= fun lock => pure (.select lock member)) := by
            simp only [rebase_select, bind_assoc]
        _ = rebase carried (.select base member) := by rw [ih, rebase_select]
  | _ => rfl

/-- Carrying one guard over to two receivers gives the same lock only if the receivers are the same. -/
theorem same_rebase_iff {receiver receiver' guard lock lock' : LockExpr}
    (h : rebase receiver guard = .ok lock) (h' : rebase receiver' guard = .ok lock') :
    lock.same lock' ↔ receiver.same receiver' := by
  rw [same_iff, same_iff]
  induction guard generalizing lock lock' with
  | this => rw [Except.ok.inj h, Except.ok.inj h']
  | select base member ih =>
      rw [rebase_select] at h h'
      obtain ⟨inner, hinner, hlock⟩ := bind_eq_ok.mp h
      obtain ⟨inner', hinner', hlock'⟩ := bind_eq_ok.mp h'
      rw [← Except.ok.inj hlock, ← Except.ok.inj hlock', ← ih hinner hinner']
      simp [erase]
  | _ => cases h

end LockExpr

namespace Viewpoint

/-- An access to a member with an absolute guard requires the guard itself. -/
theorem requiredLock_of_absolute (view : Viewpoint) {guard : LockExpr} (h : guard.isRelative = false)
    (access : Expr) : view.requiredLock guard access = .ok guard := by
  rw [requiredLock, h]
  rfl

/-- An access to a member with a relative guard requires the guard carried over to the receiver. -/
theorem requiredLock_of_relative {view : Viewpoint} {guard : LockExpr} (h : guard.isRelative) {access : Expr}
    {receiver : LockExpr} {member : LockSymbol} (haccess : view.bindAccess access = .ok (.select receiver member)) :
    view.requiredLock guard access = LockExpr.rebase receiver guard := by
  rw [requiredLock, if_pos h, haccess, ok_bind]

end Viewpoint

/-- Receivers act on relative guards. A guard can be carried over to a receiver exactly if it is relative.
`this` leaves it as it is, receivers that are carried over one after the other are carried over together, the
root becomes that of the receiver, and no two receivers give the same lock. So accesses to a member with a
relative guard require the same lock exactly if their receivers are the same, and with a guard that is not
relative every access requires the guard. -/
theorem LockExpr.rebase_acts (guard : LockExpr) :
    (∀ receiver, (∃ lock, rebase receiver guard = .ok lock) ↔ guard.root = .this) ∧
    (guard.root = .this → rebase .this guard = .ok guard) ∧
    (∀ receiver other, receiver.root = .this →
      (rebase receiver guard >>= rebase other) = (rebase other receiver >>= (rebase · guard))) ∧
    (∀ receiver lock, rebase receiver guard = .ok lock → lock.root = receiver.root) ∧
    (∀ receiver receiver' lock lock', rebase receiver guard = .ok lock → rebase receiver' guard = .ok lock' →
      (lock.same lock' ↔ receiver.same receiver')) ∧
    (∀ (view view' : Viewpoint) (access access' : Expr) (receiver receiver' : LockExpr)
      (member member' : LockSymbol), guard.isRelative →
      view.bindAccess access = .ok (.select receiver member) →
      view'.bindAccess access' = .ok (.select receiver' member') →
      ∃ required required', view.requiredLock guard access = .ok required ∧
        view'.requiredLock guard access' = .ok required' ∧
          (required.same required' ↔ receiver.same receiver')) ∧
    (∀ (view : Viewpoint) (access : Expr), guard.isRelative = false →
      view.requiredLock guard access = .ok guard) := by
  have hrequired (view view' : Viewpoint) (access access' : Expr) (receiver receiver' : LockExpr)
      (member member' : LockSymbol) (hguard : guard.isRelative)
      (haccess : view.bindAccess access = .ok (.select receiver member))
      (haccess' : view'.bindAccess access' = .ok (.select receiver' member')) :
      ∃ required required', view.requiredLock guard access = .ok required ∧
        view'.requiredLock guard access' = .ok required' ∧
          (required.same required' ↔ receiver.same receiver') := by
    obtain ⟨required, hlock⟩ := exists_rebase hguard receiver
    obtain ⟨required', hlock'⟩ := exists_rebase hguard receiver'
    exact ⟨required, required', (Viewpoint.requiredLock_of_relative hguard haccess).trans hlock,
      (Viewpoint.requiredLock_of_relative hguard haccess').trans hlock', same_rebase_iff hlock hlock'⟩
  refine ⟨fun receiver => (exists_rebase_iff receiver).trans isRelative_iff, ?_, ?_, ?_, ?_, hrequired, ?_⟩
  · exact fun hroot => rebase_this (isRelative_iff.mpr hroot)
  · exact fun receiver other hroot => rebase_rebase (isRelative_iff.mpr hroot) guard other
  · exact fun receiver lock hlock => root_rebase hlock
  · exact fun receiver receiver' lock lock' hlock hlock' => same_rebase_iff hlock hlock'
  · exact fun view access habsolute => view.requiredLock_of_absolute habsolute access

/-- A chain of members is carried over to `a.b`, which is carried over to `c` itself. -/
example :
    let mu := LockExpr.select (.select .this ⟨1, "peer"⟩) ⟨2, "mu"⟩
    (LockExpr.rebase (.select .this ⟨3, "b"⟩) mu >>= LockExpr.rebase (.localVar ⟨4, "c"⟩)) =
      .ok (.select (.select (.select (.localVar ⟨4, "c"⟩) ⟨3, "b"⟩) ⟨1, "peer"⟩) ⟨2, "mu"⟩) := by
  rfl

end LockDiscipline
