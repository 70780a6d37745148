import LockDiscipline.Lock.Released
import LockDiscipline.Proofs.Lock.Sets
import LockDiscipline.Proofs.Tree.Visiting
/-!
# The locks that a final block releases

A final block is searched for calls that release a lock. Which calls these are does not depend on the search:
`ReleasedIn` says of a lock that some call in the statements releases it, and the search finds these locks and
no others. What follows from the rule alone, such as that two blocks one after the other release what either
of them does, is therefore true of the search.
-/

namespace LockDiscipline
namespace Viewpoint

/-- Methods that release the instances of a class of the library. -/
inductive Releaser : String → String → Prop where
  | unlock : Releaser "unlock" Library.lockName
  | leave : Releaser "leave" Library.monitorName

/-- A lock is one of the two halves of a lock for readers and writers. -/
def IsHalfOf (view : Viewpoint) (half whole : LockExpr) : Prop :=
  ∃ member symbol, half = .select whole member ∧ view.program.symbol? member.id = some symbol ∧
    symbol.isMethodOfArity 0 ∧ (symbol.name = "readLock" ∨ symbol.name = "writeLock") ∧
      view.isA whole Library.readWriteLockName

/-- An expression is a call that releases a lock: the lock is its receiver, or the receiver is one half of it. -/
def Releases (view : Viewpoint) (call : Expr) (lock : LockExpr) : Prop :=
  ∃ receiver method libraryName bound, call.kind = .call (some receiver) method [] ∧
    Releaser method libraryName ∧ view.bindExpr receiver = .ok bound ∧ view.isA bound libraryName ∧
      (lock = bound ∨ view.IsHalfOf bound lock)

/-- Statements release a lock: so does a call in them around which there is neither a class nor a lambda nor a
label of a case. -/
def ReleasedIn (view : Viewpoint) (body : List Stmt) (lock : LockExpr) : Prop :=
  ∃ stmt ∈ body, ∃ call, (TreeNode.stmt stmt).Visits call ∧ view.Releases call lock

variable (view : Viewpoint)

theorem releaserOf?_eq_some {method libraryName : String} :
    releaserOf? method = some libraryName ↔ Releaser method libraryName := by
  constructor
  · intro h
    unfold releaserOf? at h
    split at h
    case isTrue hunlock =>
      obtain rfl := beq_iff_eq.mp hunlock
      exact Option.some.inj h ▸ .unlock
    case isFalse =>
      split at h
      case isTrue hleave =>
        obtain rfl := beq_iff_eq.mp hleave
        exact Option.some.inj h ▸ .leave
      case isFalse => cases h
  · rintro (_ | _) <;> rfl

theorem selectsHalf_iff {member : LockSymbol} :
    view.selectsHalf member ↔ ∃ symbol, view.program.symbol? member.id = some symbol ∧
      symbol.isMethodOfArity 0 ∧ (symbol.name = "readLock" ∨ symbol.name = "writeLock") := by
  simp [selectsHalf, Option.any_eq_true]

theorem whole?_eq_some {half whole : LockExpr} :
    view.whole? half = some whole ↔ view.IsHalfOf half whole := by
  unfold whole?
  constructor
  · intro h
    split at h
    case h_1 base member =>
      split at h
      case isTrue hcond =>
        obtain ⟨hhalf, hwhole⟩ := Bool.and_eq_true_iff.mp hcond
        obtain ⟨symbol, hsymbol, harity, hname⟩ := view.selectsHalf_iff.mp hhalf
        obtain rfl := Option.some.inj h
        exact ⟨member, symbol, rfl, hsymbol, harity, hname, hwhole⟩
      case isFalse => cases h
    case h_2 => cases h
  · rintro ⟨member, symbol, rfl, hsymbol, harity, hname, hwhole⟩
    have hhalf := view.selectsHalf_iff.mpr ⟨symbol, hsymbol, harity, hname⟩
    simp only [hhalf, hwhole, Bool.and_self, if_true]

/-- What a single expression contributes to the locks that are found. -/
theorem mem_released_iff {call : Expr} {lock : LockExpr} :
    (∃ release, view.releaseAt? call = some release ∧ lock ∈ release.released) ↔ view.Releases call lock := by
  constructor
  · rintro ⟨release, hrelease, hlock⟩
    unfold releaseAt? at hrelease
    split at hrelease
    case h_2 => cases hrelease
    case h_1 receiver method hcall =>
      obtain ⟨libraryName, hreleaser, hrelease⟩ := Option.bind_eq_some_iff.mp hrelease
      split at hrelease
      case h_1 error hbind =>
        obtain rfl := Option.some.inj hrelease
        cases hlock
      case h_2 bound hbind =>
        split at hrelease
        case isFalse => cases hrelease
        case isTrue hisA =>
          obtain rfl := Option.some.inj hrelease
          refine ⟨receiver, method, libraryName, bound, hcall, releaserOf?_eq_some.mp hreleaser, hbind, hisA, ?_⟩
          exact (List.mem_cons.mp hlock).imp_right fun hwhole =>
            view.whole?_eq_some.mp (Option.mem_toList.mp hwhole)
  · rintro ⟨receiver, method, libraryName, bound, hcall, hreleaser, hbind, hisA, hlock⟩
    refine ⟨.locks (bound :: (view.whole? bound).toList), ?_, ?_⟩
    · simp [releaseAt?, hcall, releaseOf?, releaserOf?_eq_some.mpr hreleaser, hbind, hisA]
    · exact List.mem_cons.mpr (hlock.imp_right fun hhalf =>
        Option.mem_toList.mpr (view.whole?_eq_some.mpr hhalf))

theorem mem_releases_iff {body : List Stmt} {lock : LockExpr} :
    lock ∈ (view.releases body).flatMap (·.released) ↔ view.ReleasedIn body lock := by
  simp only [releases, List.mem_flatMap, List.mem_filterMap, mem_exprsIn]
  constructor
  · rintro ⟨release, ⟨call, ⟨stmt, hstmt, hvisits⟩, hrelease⟩, hlock⟩
    exact ⟨stmt, hstmt, call, hvisits, view.mem_released_iff.mp ⟨release, hrelease, hlock⟩⟩
  · rintro ⟨stmt, hstmt, call, hvisits, hreleases⟩
    obtain ⟨release, hrelease, hlock⟩ := view.mem_released_iff.mpr hreleases
    exact ⟨release, ⟨call, ⟨stmt, hstmt, hvisits⟩, hrelease⟩, hlock⟩

theorem contains_releasedLocks (body : List Stmt) (lock : LockExpr) :
    (view.releasedLocks (some body)).contains lock ↔ ∃ released, view.ReleasedIn body released ∧ lock.same released := by
  rw [releasedLocks, LockSet.contains_ofList, List.any_eq_true]
  exact exists_congr fun released => and_congr_left fun _ => view.mem_releases_iff

theorem releasedIn_append {first second : List Stmt} {lock : LockExpr} :
    view.ReleasedIn (first ++ second) lock ↔ view.ReleasedIn first lock ∨ view.ReleasedIn second lock := by
  simp only [ReleasedIn, List.mem_append, or_and_right, exists_or]

theorem contains_releasedLocks_append (first second : List Stmt) (lock : LockExpr) :
    (view.releasedLocks (some (first ++ second))).contains lock =
      ((view.releasedLocks (some first)).contains lock || (view.releasedLocks (some second)).contains lock) := by
  rw [Bool.eq_iff_iff, Bool.or_eq_true_iff]
  simp only [contains_releasedLocks, releasedIn_append, or_and_right, exists_or]

/-- The locks that a final block is found to release are listed without duplicates and are exactly those that
calls in the block release, and statements one after the other release what the first or the second do. -/
theorem releasedLocks_exact (body : List Stmt) :
    (view.releasedLocks (some body)).Distinct ∧
    (∀ lock ∈ (view.releasedLocks (some body)).toList, view.ReleasedIn body lock) ∧
    (∀ lock, (view.releasedLocks (some body)).contains lock ↔
      ∃ released, view.ReleasedIn body released ∧ lock.same released) ∧
    (∀ following lock, (view.releasedLocks (some (body ++ following))).contains lock =
      ((view.releasedLocks (some body)).contains lock || (view.releasedLocks (some following)).contains lock)) := by
  refine ⟨LockSet.distinct_ofList _, ?_, view.contains_releasedLocks body, view.contains_releasedLocks_append body⟩
  exact fun lock hlock => view.mem_releases_iff.mp (LockSet.mem_of_mem_ofList hlock)

end Viewpoint
end LockDiscipline
