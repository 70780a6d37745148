import LockDiscipline.Program.Basic
/-!
# The lock types of the library

The classes of the library that the analysis knows, with those of their methods that matter to it.
They are declared before any unit and so have the first symbol numbers, each class followed by its
methods. A unit finds them by their qualified names, and by their simple names where nothing nearer
bears the name.
-/

namespace LockDiscipline

namespace Library

/-- The class of all objects. -/
def objectName : String := "java.lang.Object"

/-- The type of locks that `unlock` releases. -/
def lockName : String := "java.util.concurrent.locks.Lock"

/-- The type of locks with a half for readers and a half for writers. -/
def readWriteLockName : String := "java.util.concurrent.locks.ReadWriteLock"

/-- The type of locks that `leave` releases. -/
def monitorName : String := "com.google.common.util.concurrent.Monitor"

/-- A library class with its supertypes and its methods without parameters, each with the type that
it returns. -/
structure LibraryClass where
  name : String
  kind : ClassKind
  supertypes : List String
  methods : List (String × String)
deriving DecidableEq, Repr, Inhabited

/-- The known classes of the library, in the order of their declaration. -/
def classes : List LibraryClass :=
  [ ⟨objectName, .class, [], []⟩,
    ⟨lockName, .interface, [],
      [("lock", "void"), ("lockInterruptibly", "void"), ("tryLock", "boolean"),
        ("unlock", "void"), ("newCondition", "java.util.concurrent.locks.Condition")]⟩,
    ⟨"java.util.concurrent.locks.Condition", .interface, [],
      [("await", "void"), ("signal", "void"), ("signalAll", "void")]⟩,
    ⟨"java.util.concurrent.locks.ReentrantLock", .class, [lockName],
      [("isHeldByCurrentThread", "boolean"), ("isLocked", "boolean")]⟩,
    ⟨readWriteLockName, .interface, [], [("readLock", lockName), ("writeLock", lockName)]⟩,
    ⟨"java.util.concurrent.locks.ReentrantReadWriteLock", .class, [readWriteLockName],
      [("isWriteLocked", "boolean")]⟩,
    ⟨monitorName, .class, [],
      [("enter", "void"), ("leave", "void"), ("tryEnter", "boolean"),
        ("isOccupiedByCurrentThread", "boolean")]⟩ ]

/-- Declare a method of a library class. -/
def declareMethod (owner : SymbolId) (program : Program) (method : String × String) : Program :=
  let (id, program) :=
    program.declare method.1 (.method owner false false 0) (some method.2) none default
  program.updateMembers owner fun members =>
    { members with methods := members.methods ++ [(method.1, id)] }

/-- Declare a library class with its methods. A supertype is declared before the classes that
inherit from it, so it is known here. -/
def declareClass (program : Program) (decl : LibraryClass) : Program :=
  let simple := Text.lastSegment decl.name
  let info : ClassInfo :=
    { outer := none, isStatic := false, kind := decl.kind, qualifiedName := decl.name
      superclass := none
      interfaces := decl.supertypes.filterMap fun name => program.qualified.lookup name
      members := default }
  let (id, program) := program.declare simple (.classType info) none none default
  let program :=
    { program with
      qualified := program.qualified ++ [(decl.name, id)]
      library := program.library ++ [(simple, id)] }
  decl.methods.foldl (declareMethod id) program

/-- Declare all known classes of the library. -/
def declareAll (program : Program) : Program :=
  classes.foldl declareClass program

end Library
end LockDiscipline
