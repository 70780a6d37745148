import LockDiscipline.Proofs.Program.Steps
/-!
# Notes on a resolution

What a resolution leaves in a program does not tell in which class an expression was resolved, nor where a
member was looked up that was not found. Both are told by notes that are taken meanwhile. A resolution with
these notes is the resolution: `Program.program_draftOf` says that it makes the same program of a unit, so that
what is found in its drafts is what the resolver does when no notes are taken.
-/

namespace LockDiscipline

/-- Notes on the expressions that are resolved and on the classes in which members are looked up. -/
structure Footprints where
  /-- The expressions resolved so far, each with the class whose code it is in, the last one first. -/
  visits : List (NodeId × Option SymbolId)
  /-- The selections and the calls on a receiver resolved so far, each with the class in which its member is
  looked up, the last one first. -/
  receivers : List (NodeId × Option SymbolId)

instance : NoteTaking Footprints where
  visited node self notes := { notes with visits := (node, self) :: notes.visits }
  lookedIn node type notes := { notes with receivers := (node, type) :: notes.receivers }

/-- A program while its names are resolved, with notes on that. -/
abbrev TrackedDraft := Draft Footprints

/-- Computations that extend a program and take notes. -/
abbrev Tracked := Resolving Footprints

namespace Draft

/-- The expressions that were resolved, each with the class whose code it is in, the last one first. -/
def visits (draft : TrackedDraft) : List (NodeId × Option SymbolId) :=
  draft.notes.visits

/-- The selections and the calls on a receiver, each with the class in which its member was looked up, the last
one first. -/
def receivers (draft : TrackedDraft) : List (NodeId × Option SymbolId) :=
  draft.notes.receivers

/-- The class in which the member of a selection or call was looked up, if it was. -/
def receiver? (draft : TrackedDraft) (node : NodeId) : Option (Option SymbolId) :=
  draft.receivers.lookup node

theorem receiver?_congr {before after : TrackedDraft} (h : after.receivers = before.receivers) (node : NodeId) :
    after.receiver? node = before.receiver? node :=
  congrArg (·.lookup node) h

end Draft

namespace Program

/-- The draft from which the names of a unit are resolved, without any notes so far. -/
def startDraft (unit : CompilationUnit) : TrackedDraft :=
  start unit ⟨[], []⟩

theorem program_startDraft (unit : CompilationUnit) : (startDraft unit).program =
    { Library.declareAll (.empty unit.package) with imports := typeImports unit.imports } := rfl

/-- The draft in which all names of a unit are resolved. -/
def draftOf (unit : CompilationUnit) : TrackedDraft :=
  ((Resolving.resolveUnit unit).run (startDraft unit)).2

/-- The names of a unit are resolved alike whatever notes are taken. -/
theorem resolve_eq {N : Type} [NoteTaking N] (unit : CompilationUnit) (notes : N) :
    let draft := ((Resolving.resolveUnit unit).run (start unit notes)).2
    resolve unit = (draft.program, draft.trace) := by
  intro draft
  obtain ⟨later, hrun⟩ := (Resolving.built_resolveUnit unit).run_withNotes (start unit notes) ()
  have hplain : (Resolving.resolveUnit unit).run (start unit ()) = ((), draft.withNotes later) := hrun
  rw [resolve, hplain]
  rfl

theorem program_resolveUnit {N : Type} [NoteTaking N] (unit : CompilationUnit) (notes : N) :
    ((Resolving.resolveUnit unit).run (start unit notes)).2.program = ofUnit unit :=
  (congrArg Prod.fst (resolve_eq unit notes)).symm

theorem program_draftOf (unit : CompilationUnit) : (draftOf unit).program = ofUnit unit :=
  program_resolveUnit unit _

end Program
end LockDiscipline
