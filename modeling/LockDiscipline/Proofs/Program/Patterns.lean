import LockDiscipline.Proofs.Grammar.Heads
import LockDiscipline.Proofs.Program.LexicalScope
/-!
# The variables of patterns

A type test may name a variable for the value that it has tested. The name is read and dropped, so that
the tree of the test is the same with it and without it, and no scope ever holds the variable. A name in
the first branch of an `if` therefore refers to what the `if` itself sees under this name: to a variable
declared before the `if` or a field of a class around it, and else to a class. Nothing in the condition
counts. Only a declaration inside the branch gives the name another meaning.
-/

namespace LockDiscipline

/-- A place inside a construct sees what it sees in it, and behind that what the construct sees. -/
theorem Within.marks_append {outer middle : TreeNode} {path : List PathStep} (h : Within outer path middle)
    (rest : List PathStep) : outer.marks (path ++ rest) = middle.marks rest ++ outer.marks path := by
  induction h with
  | here node => exact (List.append_nil _).symm
  | @part node child inner step path hpart _ ih =>
      obtain ⟨⟨part, visible⟩, hseen, rfl⟩ := TreeNode.exists_seen_of_parts hpart
      rw [List.cons_append, TreeNode.marks_cons hseen, TreeNode.marks_cons hseen, ih]
      simp only [List.append_assoc]

theorem PartRole.lastOf_append (role : PartRole) (path rest : List PathStep) :
    lastOf role (path ++ rest) = lastOf (lastOf role path) rest := by
  induction path generalizing role with
  | nil => rfl
  | cons step path ih => exact ih step.role

/-- The first branch of an `if` sees nothing of the condition. -/
theorem marks_branch (node : NodeId) (cond : Expr) (whenTrue : Stmt) (whenFalse : Option Stmt) (span : Span)
    (path : List PathStep) :
    (TreeNode.stmt ⟨node, .ifElse cond whenTrue whenFalse, span⟩).marks (⟨1, .plain⟩ :: path) =
      (TreeNode.stmt whenTrue).marks path := by
  have hseen : (TreeNode.stmt ⟨node, .ifElse cond whenTrue whenFalse, span⟩).course.seen[1]? =
      some ⟨⟨.plain, .stmt whenTrue⟩, []⟩ := rfl
  rw [TreeNode.marks_cons hseen]
  exact (List.append_nil _).trans (List.append_nil _)

/-- A name in the first branch of an `if`, which is no case label and stands in no annotation, refers to what
the `if` sees under the name, unless something inside the branch gives the name another meaning. If the `if`
sees nothing under the name, it refers to a class or to nothing. -/
def CompilationUnit.LooksPastConditions (unit : CompilationUnit) : Prop :=
  ∀ decl ∈ unit.types, ∀ path node cond whenTrue whenFalse span,
    Within (.classDecl decl) path (.stmt ⟨node, .ifElse cond whenTrue whenFalse, span⟩) →
      ∀ inner expr name, Within (.stmt whenTrue) inner (.expr expr) → expr.kind = .name name →
        (∀ step ∈ path ++ inner, step.role.isResolved) → PartRole.lastOf .plain inner ≠ .label →
          (∀ mark ∈ (TreeNode.stmt whenTrue).marks inner, ¬(Program.ofUnit unit).Hides name mark) →
            (∃ id, (Program.ofUnit unit).use? expr.id = some id ∧
              (Program.ofUnit unit).Means ((TreeNode.classDecl decl).marks path) name id) ∨
            (∀ mark ∈ (TreeNode.classDecl decl).marks path, ¬(Program.ofUnit unit).Hides name mark) ∧
              ∀ id, (Program.ofUnit unit).use? expr.id = some id → (Program.ofUnit unit).IsClass id

/-- A type test is read into its operand and its type, whether or not it names a variable. -/
theorem Grammar.yields_readInstanceOf (rules : Rules) (operand : Expr) (start : Nat) :
    Yields (fun _ => True) (readInstanceOf rules operand start) fun expr _ =>
      ∃ type, expr.kind = .instanceOf operand type := by
  refine .skip fun _ => .skip fun _ => .skip fun type => .skip fun kind => ?_
  have hresult : Yields (fun _ => True) (mkExpr (.instanceOf operand type) start) fun expr _ =>
      ∃ type, expr.kind = .instanceOf operand type :=
    .mkExpr start fun _ _ _ _ => ⟨type, rfl⟩
  exact .ite (fun _ => .skip fun _ => hresult) fun _ => hresult

/-- The variable of a pattern is in no tree, and a name in the branch behind a condition refers to what it
refers to before the condition. -/
theorem ParsedUnit.looksPastConditions_ofTokens (tokens : List Token) :
    (ofTokens tokens).unit.LooksPastConditions ∧
      ∀ rules operand start, Grammar.Yields (fun _ => True) (Grammar.readInstanceOf rules operand start)
        fun expr _ => ∃ type, expr.kind = .instanceOf operand type := by
  refine ⟨?_, Grammar.yields_readInstanceOf⟩
  intro decl hdecl path node cond whenTrue whenFalse span hif inner expr name hinner hname hresolved hlabel hfree
  have hnodup := nodup_numbers_ofTokens tokens
  generalize (ofTokens tokens).unit = unit at *
  obtain ⟨id, kind, span'⟩ := expr
  obtain rfl : kind = .name name := hname
  have hbranch : Within (.stmt ⟨node, .ifElse cond whenTrue whenFalse, span⟩) (⟨1, .plain⟩ :: inner)
      (.expr ⟨id, .name name, span'⟩) := .part rfl hinner
  have hsteps : ∀ step ∈ path ++ ⟨1, .plain⟩ :: inner, step.role.isResolved := by
    obtain ⟨hpath, hinner⟩ := List.forall_mem_append.mp hresolved
    exact List.forall_mem_append.mpr ⟨hpath, List.forall_mem_cons.mpr ⟨rfl, hinner⟩⟩
  obtain ⟨draft, hcomes⟩ := (Program.exists_comesAlong hnodup hdecl (hif.trans hbranch) hsteps).resolve_left <| by
    rintro ⟨⟨hlast, -⟩, -⟩
    rw [PartRole.lastOf_append] at hlast
    exact hlabel hlast
  have hmarks : (TreeNode.classDecl decl).marks (path ++ ⟨1, .plain⟩ :: inner) =
      (TreeNode.stmt whenTrue).marks inner ++ (TreeNode.classDecl decl).marks path := by
    rw [hif.marks_append, marks_branch]
  have hsees := hcomes.sees
  rw [hmarks] at hsees
  refine (hcomes.comesTo.means_or_isClass hsees).imp (fun ⟨found, huse, hmeans⟩ =>
    ⟨found, huse, (Program.means_append_iff hfree).mp hmeans⟩) fun ⟨hnothing, hclass⟩ =>
      ⟨fun mark hmark => hnothing mark (List.mem_append_right _ hmark), hclass⟩

/-- A class with a guarded field, and a type test whose variable has the name of the field. -/
def patternTokens : List Token :=
  (Lexer.tokenize ("class A \x7b @GuardedBy(\"this\") String x; void f(Object o) \x7b " ++
    "if (o instanceof String x) \x7b x.length(); \x7d \x7d \x7d").toList).tokens

/-- The branch of an `if` that has one only and tests for a type. -/
private def branch? : TreeNode → Option Stmt
  | .stmt ⟨_, .ifElse ⟨_, .instanceOf _ "String", _⟩ whenTrue none, _⟩ => some whenTrue
  | _ => none

private theorem eq_of_branch? {node : TreeNode} {whenTrue : Stmt} (h : branch? node = some whenTrue) :
    ∃ id cond span, node = .stmt ⟨id, .ifElse cond whenTrue none, span⟩ ∧
      ∃ operand, cond.kind = .instanceOf operand "String" := by
  unfold branch? at h
  split at h
  · obtain rfl := Option.some.inj h
    exact ⟨_, _, _, rfl, _, rfl⟩
  · cases h

private theorem pattern_resolved :
    let unit := (ParsedUnit.ofTokens patternTokens).unit
    ∃ decl ∈ unit.types, ∃ place ∈ (TreeNode.classDecl decl).places,
      ∃ whenTrue ∈ (branch? place.node).toList, ∃ inner ∈ (TreeNode.stmt whenTrue).places,
        ((TreeNode.stmt whenTrue).marks inner.path).isEmpty ∧
        ∃ expr ∈ inner.node.expr?.toList, expr.dottedName? = some "x" ∧
          ((Program.ofUnit unit).usedSymbol? expr.id).any NamedSymbol.isField := by
  decide +kernel

/-- A name in the branch behind a type test can refer to a field, although the test declares a variable of the
name and nothing is declared in between. -/
theorem exists_pattern_names_field :
    let unit := (ParsedUnit.ofTokens patternTokens).unit
    (ParsedUnit.ofTokens patternTokens).errors = [] ∧
    ∃ decl ∈ unit.types, ∃ path node cond whenTrue span,
      Within (.classDecl decl) path (.stmt ⟨node, .ifElse cond whenTrue none, span⟩) ∧
        (∃ operand, cond.kind = .instanceOf operand "String") ∧
        ∃ inner expr, Within (.stmt whenTrue) inner (.expr expr) ∧ expr.dottedName? = some "x" ∧
          (TreeNode.stmt whenTrue).marks inner = [] ∧
            ∃ symbol, (Program.ofUnit unit).usedSymbol? expr.id = some symbol ∧ symbol.isField := by
  refine ⟨by decide +kernel, ?_⟩
  obtain ⟨decl, hdecl, ⟨path, node⟩, hplace, whenTrue, hbranch, ⟨inner, node'⟩, hinner, hmarks, expr, hexpr,
    hname, hfield⟩ := pattern_resolved
  obtain ⟨id, cond, span, rfl, hcond⟩ := eq_of_branch? (Option.mem_toList.mp hbranch)
  obtain rfl := TreeNode.eq_expr_of_expr? (Option.mem_toList.mp hexpr)
  exact ⟨decl, hdecl, path, id, cond, whenTrue, span, TreeNode.mem_places.mp hplace, hcond, inner, expr,
    TreeNode.mem_places.mp hinner, hname, List.isEmpty_iff.mp hmarks, (Option.any_eq_true _ _).mp hfield⟩

end LockDiscipline
