import LockDiscipline.Proofs.Check.Retouched
import LockDiscipline.Proofs.Check.Skips
import LockDiscipline.Proofs.Check.UnitOrder
/-!
# Methods that take their monitors

Declaring a method `synchronized` takes away findings and never adds one. The modifier concerns a single flag
of a single symbol: it plays no part in what names mean, in the locks that guards name or in the locks that
accesses require. It is read only where the analysis enters the body of the method, and what is held there is
held all the way in. So other units of code report what they reported before, and the body of the method
reports no more than that.
-/

namespace LockDiscipline

/-! ### Where a method is declared -/

namespace Within

/-- A member of a class is among the members of the class that the path to it leads to. -/
theorem exists_class_of_member {outer : ClassDecl} {path : List PathStep} {member : Member}
    (h : Within (.classDecl outer) path (.member member)) :
    ∃ front index decl, path = front ++ [⟨index, .member decl.id⟩] ∧
      Within (.classDecl outer) front (.classDecl decl) ∧ member ∈ decl.members := by
  rcases List.eq_nil_or_concat path with rfl | ⟨front, ⟨index, role⟩, rfl⟩
  · cases h
  · rw [List.concat_eq_append] at h ⊢
    obtain ⟨middle, hfront, hlast⟩ := h.split
    cases hlast with
    | part hpart hinner =>
        cases hinner with
        | here =>
            cases Fits.of_mem_parts (List.mem_of_getElem? hpart) with
            | member hmember => exact ⟨front, index, _, rfl, hfront, hmember⟩
            | inCode _ _ hcode _ => cases hcode
            | declared hdeclared => cases hdeclared

/-- The body of a method is a part of the member that is this method. -/
theorem exists_member_of_method {outer : ClassDecl} {path : List PathStep} {decl : MethodDecl}
    (h : Within (.classDecl outer) path (.code (.method decl))) :
    ∃ front step member, path = front ++ [step] ∧ step.role = .code ∧
      Within (.classDecl outer) front (.member member) ∧ member.kind = .method decl := by
  obtain ⟨front, step, rfl, hstep⟩ := h.ends_with_body
  obtain ⟨middle, hfront, hlast⟩ := h.split
  cases hlast with
  | part hpart hinner =>
      cases hinner with
      | here =>
          have hmem := List.mem_of_getElem? hpart
          by_cases hnode : ∃ member, middle = .member member
          · obtain ⟨member, rfl⟩ := hnode
            refine ⟨front, step, member, rfl, hstep, hfront, ?_⟩
            obtain ⟨id, kind, span⟩ := member
            cases kind with
            | method other => simp_all [TreeNode.parts, MemberKind.parts, Modifiers.parts, exprParts]
            | enumConstant name args body =>
                simp_all [TreeNode.parts, MemberKind.parts, exprParts, nestedPart]
            | _ => simp_all [TreeNode.parts, MemberKind.parts, Modifiers.parts, exprParts]
          · obtain ⟨expr, inner, -, hlambda⟩ := TreeNode.eq_lambda_of_mem_parts hmem rfl
              fun member hmember => hnode ⟨member, hmember⟩
            cases hlambda

end Within

namespace CompilationUnit

variable {unit : CompilationUnit}

/-- The method whose body is a unit of code is a member of a class that the search finds. -/
theorem exists_declaring_of_mem_bodies {visiting : CodeUnit} (hvisiting : visiting ∈ unit.bodies)
    {decl : MethodDecl} (hbody : visiting.body = .method decl) :
    ∃ declaring ∈ (CodeUnits.ofUnit (.ofUnit unit) unit).classes,
      ∃ member ∈ declaring.decl.members, member.kind = .method decl := by
  obtain ⟨outer, houter, path, hwithin, hfollow⟩ := mem_bodies.mp hvisiting
  rw [hbody] at hwithin
  obtain ⟨front, step, member, rfl, -, hmember, hkind⟩ := hwithin.exists_member_of_method
  obtain ⟨around, index, owner, rfl, howner, hmem⟩ := hmember.exists_class_of_member
  -- The search came through the class, so that it has a symbol.
  rw [List.append_assoc, TreeNode.follow, List.foldlM_append] at hfollow
  obtain ⟨self, hself, hfollow⟩ := Option.bind_eq_some_iff.mp hfollow
  obtain ⟨id, hid, -⟩ := Option.bind_eq_some_iff.mp hfollow
  exact ⟨⟨owner, id⟩, mem_classes.mpr ⟨outer, houter, around, howner, ⟨self, hself⟩, hid⟩, member, hmem,
    hkind⟩

/-- Whether the symbol of a method takes its monitor is told by the modifiers of the method, before and after
they are retouched. -/
theorem exists_monitors (hnodup : unit.numbers.Nodup) {retouch : Retouch} [retouch.KeepsNames]
    (hregular : retouch.Regular) {visiting : CodeUnit} (hvisiting : visiting ∈ unit.bodies) {decl : MethodDecl}
    (hbody : visiting.body = .method decl) :
    ∃ inInterface method method', (Program.ofUnit unit).usedSymbol? decl.id = some method ∧
      (Program.ofUnit (unit.retouch retouch)).usedSymbol? decl.id = some method' ∧
        method.isSynchronized =
          (method.isMethod && (decl.modifiers.keywords.contains .synchronized && !inInterface)) ∧
        method'.isSynchronized = (method.isMethod &&
          ((retouch.keywords decl.id decl.modifiers.keywords).contains .synchronized && !inInterface)) := by
  have hmatches := Program.matches_ofUnit hregular unit
  obtain ⟨declaring, hdeclaring, ⟨number, kind, span⟩, hmember, rfl⟩ :=
    exists_declaring_of_mem_bodies hvisiting hbody
  have hdeclaring' : declaring.retouch retouch ∈
      (CodeUnits.ofUnit (.ofUnit (unit.retouch retouch)) (unit.retouch retouch)).classes := by
    rw [CodeUnits.classes_retouch retouch hmatches.use?_eq]
    exact List.mem_map_of_mem hdeclaring
  have hmember' : Member.retouch retouch ⟨number, .method decl, span⟩ ∈
      (declaring.decl.retouch retouch).members := by
    rw [ClassDecl.members_retouch]
    exact List.mem_map_of_mem hmember
  obtain ⟨id, method, huse, hsymbol, -, -, hsync, -⟩ :=
    carries_of_mem_classes hnodup hdeclaring hmember (List.mem_singleton_self _)
  obtain ⟨id', method', huse', hsymbol', -, -, hsync', -⟩ :=
    carries_of_mem_classes (numbers_retouch retouch unit ▸ hnodup) hdeclaring' hmember'
      (List.mem_singleton_self _)
  have hid : id' = id := by
    simp only [MethodDecl.id_retouch] at huse'
    exact Option.some.inj (huse'.symm.trans ((hmatches.use?_eq decl.id).trans huse))
  subst hid
  obtain ⟨hnone, -⟩ | ⟨symbol, symbol', hfound, hfound', hmethod⟩ := hmatches.symbol?_cases id'
  · cases hsymbol.symm.trans hnone
  obtain rfl := Option.some.inj (hsymbol.symm.trans hfound)
  obtain rfl := Option.some.inj (hsymbol'.symm.trans hfound')
  refine ⟨_, method, method', ?_, ?_, hsync, ?_⟩
  · rw [Program.usedSymbol?, huse, Option.bind_some, hsymbol]
  · rw [Program.usedSymbol?, ← decl.id_retouch retouch, huse', Option.bind_some, hsymbol']
  · have hkeywords : (decl.retouch retouch).modifiers.has .synchronized =
        (retouch.keywords decl.id decl.modifiers.keywords).contains .synchronized := by
      cases decl
      rfl
    rw [hsync', hmethod.isMethod_eq, hkeywords]
    simp only [ClassUnit.retouch, ClassDecl.kind_retouch]

/-- A unit of code holds the same locks on entry if the modifier `synchronized` is on its method as before. -/
theorem entryLocks_retouch (hnodup : unit.numbers.Nodup) {retouch : Retouch} [retouch.KeepsNames]
    (hregular : retouch.Regular) {visiting : CodeUnit} (hvisiting : visiting ∈ unit.bodies)
    (hkeywords : ∀ decl, visiting.body = .method decl →
      (retouch.keywords decl.id decl.modifiers.keywords).contains .synchronized =
        decl.modifiers.keywords.contains .synchronized) :
    (visiting.retouch retouch).entryLocks (.ofUnit (unit.retouch retouch)) =
      visiting.entryLocks (.ofUnit unit) := by
  have hview := visiting.view_retouch (Program.matches_ofUnit hregular unit)
  obtain ⟨body, self⟩ := visiting
  cases body with
  | method decl =>
      apply hview.entryLocks_eq decl
      intro method method' hsome hsome'
      obtain ⟨inInterface, method, method', hused, hused', hflag, hflag'⟩ :=
        exists_monitors hnodup hregular hvisiting rfl
      obtain rfl := Option.some.inj (hsome.symm.trans hused)
      obtain rfl := Option.some.inj (hsome'.symm.trans hused')
      rw [hflag', hflag, hkeywords decl rfl]
  | initializer body => rfl
  | lambda body => rfl

end CompilationUnit

/-! ### One more monitor -/

/-- The modifier `synchronized` is added to the method with a number. -/
def Retouch.synchronize (node : NodeId) : Retouch where
  span := fun span => span
  keywords id keywords := if id = node then keywords ++ [.synchronized] else keywords

instance Retouch.keepsNames_synchronize (node : NodeId) : (synchronize node).KeepsNames :=
  ⟨fun _ _ => rfl⟩

theorem Retouch.regular_synchronize (node : NodeId) : (synchronize node).Regular := by
  intro id keywords
  by_cases hid : id = node <;> simp [synchronize, hid]

/-- The unit with the modifier `synchronized` added to the method or constructor with a number. -/
def CompilationUnit.synchronize (unit : CompilationUnit) (node : NodeId) : CompilationUnit :=
  unit.retouch (.synchronize node)

namespace CodeUnit

/-- The accesses of a unit of code that the first rule reports. -/
def unguarded (program : Program) (unit : CodeUnit) : List Access :=
  (unit.accesses program).filter (!·.isSatisfied)

/-- What the first rule reports in a unit of code: where a lock is missing, and which one. -/
def reported (program : Program) (unit : CodeUnit) : List (NodeId × LockExpr) :=
  (unit.unguarded program).map fun access => (access.expr.id, access.required)

/-- Whether a unit of code is the body of the method with a number. -/
def isMethod (unit : CodeUnit) (node : NodeId) : Bool :=
  match unit.body with
  | .method decl => decl.id == node
  | _ => false

/-- If more is held at each access, then no more is reported. -/
theorem reported_sublist {retouch : Retouch} {program program' : Program} {unit unit' : CodeUnit}
    {holds : LockSet → LockSet → Prop}
    (hholds : ∀ held held', holds held held' → ∀ lock, held.contains lock → held'.contains lock)
    (h : List.Forall₂ (Access.Matches retouch holds) (unit.accesses program) (unit'.accesses program')) :
    (unit'.reported program').Sublist (unit.reported program) := by
  simp only [reported, unguarded]
  generalize unit.accesses program = accesses at h ⊢
  generalize unit'.accesses program' = accesses' at h ⊢
  induction h with
  | nil => exact .slnil
  | @cons access access' rest rest' hmatches hrest ih =>
      have hsatisfied : access.isSatisfied → access'.isSatisfied := by
        intro hheld
        rw [Access.isSatisfied, hmatches.required]
        exact hholds _ _ hmatches.held _ hheld
      rw [List.filter_cons, List.filter_cons]
      by_cases hheld' : access'.isSatisfied
      · by_cases hheld : access.isSatisfied
        · simpa [hheld, hheld'] using ih
        · simpa [hheld, hheld'] using ih.cons _
      · have hheld : ¬access.isSatisfied := fun hheld => hheld' (hsatisfied hheld)
        simpa [hheld, hheld', hmatches.id_eq, hmatches.required] using ih

/-- If the same is held at each access, then the same is reported. -/
theorem reported_eq {retouch : Retouch} {program program' : Program} {unit unit' : CodeUnit}
    (h : List.Forall₂ (Access.Matches retouch (· = ·)) (unit.accesses program) (unit'.accesses program')) :
    unit'.reported program' = unit.reported program := by
  simp only [reported, unguarded]
  generalize unit.accesses program = accesses at h ⊢
  generalize unit'.accesses program' = accesses' at h ⊢
  induction h with
  | nil => rfl
  | @cons access access' rest rest' hmatches hrest ih =>
      have hsatisfied : access'.isSatisfied = access.isSatisfied := by
        rw [Access.isSatisfied, hmatches.required, ← hmatches.held, Access.isSatisfied]
      rw [List.filter_cons, List.filter_cons, hsatisfied]
      cases access.isSatisfied
      · simpa [hmatches.id_eq, hmatches.required] using ih
      · simpa using ih

end CodeUnit

namespace CompilationUnit

variable {unit : CompilationUnit} (hnodup : unit.numbers.Nodup) (node : NodeId) {visiting : CodeUnit}
  (hvisiting : visiting ∈ unit.bodies)
include hnodup hvisiting

/-- What a unit of code holds on entry is still held with one more monitor. -/
theorem contains_entryLocks_synchronize {lock : LockExpr}
    (hheld : (visiting.entryLocks (.ofUnit unit)).contains lock) :
    ((visiting.retouch (.synchronize node)).entryLocks (.ofUnit (unit.synchronize node))).contains lock := by
  have hregular := Retouch.regular_synchronize node
  have hview := visiting.view_retouch (Program.matches_ofUnit hregular unit)
  obtain ⟨body, self⟩ := visiting
  cases body with
  | method decl =>
      apply hview.contains_entryLocks decl _ hheld
      intro method method' hsome hsome' hsync
      obtain ⟨inInterface, method, method', hused, hused', hflag, hflag'⟩ :=
        exists_monitors hnodup hregular hvisiting rfl
      obtain rfl := Option.some.inj (hsome.symm.trans hused)
      obtain rfl := Option.some.inj (hsome'.symm.trans hused')
      rw [hflag, Bool.and_eq_true, Bool.and_eq_true] at hsync
      rw [hflag', Bool.and_eq_true, Bool.and_eq_true]
      refine ⟨hsync.1, ?_, hsync.2.2⟩
      by_cases hid : decl.id = node
      · simp [Retouch.synchronize, hid]
      · simpa [Retouch.synchronize, hid] using hsync.2.1
  | initializer body => exact hheld
  | lambda body => exact hheld

/-- Any other unit of code holds the same on entry. -/
theorem entryLocks_synchronize (hother : visiting.isMethod node = false) :
    (visiting.retouch (.synchronize node)).entryLocks (.ofUnit (unit.synchronize node)) =
      visiting.entryLocks (.ofUnit unit) := by
  apply entryLocks_retouch hnodup (Retouch.regular_synchronize node) hvisiting
  intro decl hbody
  have hid : decl.id ≠ node := by simpa [CodeUnit.isMethod, hbody] using hother
  simp only [Retouch.synchronize, if_neg hid]

end CompilationUnit

/-- Taking more locks never creates a finding. With `synchronized` added to any method or constructor, the
units of code are the same ones; each reports a part of what it reported before, and if it is not the body
of this method, it reports all of it. -/
theorem ParsedUnit.reported_synchronize (source : List Char) (node : NodeId) :
    let unit := (ofSource source).unit
    let unit' := unit.synchronize node
    unit'.bodies = unit.bodies.map (·.retouch (.synchronize node)) ∧
      ∀ visiting ∈ unit.bodies,
        let visiting' := visiting.retouch (.synchronize node)
        (visiting'.reported (.ofUnit unit')).Sublist (visiting.reported (.ofUnit unit)) ∧
          (visiting.isMethod node = false →
            visiting'.reported (.ofUnit unit') = visiting.reported (.ofUnit unit)) := by
  intro unit unit'
  have hnodup : unit.numbers.Nodup := nodup_numbers_ofTokens (Lexer.tokenize source).tokens
  have hmatches : (Program.ofUnit unit).Matches _ (.ofUnit unit') :=
    Program.matches_ofUnit (Retouch.regular_synchronize node) unit
  refine ⟨CodeUnits.bodies_retouch _ hmatches.use?_eq unit, fun visiting hvisiting => ⟨?_, fun hother => ?_⟩⟩
  · apply CodeUnit.reported_sublist (fun _ _ hholds => hholds) (visiting.accesses_retouch hmatches _)
    intro path lock hheld
    rw [Viewpoint.contains_heldAlong, Bool.or_eq_true] at hheld ⊢
    exact hheld.imp_left (CompilationUnit.contains_entryLocks_synchronize hnodup node hvisiting)
  · apply CodeUnit.reported_eq (visiting.accesses_retouch hmatches _)
    intro path
    rw [← CompilationUnit.entryLocks_synchronize hnodup node hvisiting hother]

/-- The finding in the first method goes away when it takes its monitor, and the one in the second stays. -/
example :
    let source := ("class A \x7b @GuardedBy(\"this\") int x; void f() \x7b x = 1; \x7d " ++
      "void g() \x7b x = 2; \x7d \x7d").toList
    let unit := (ParsedUnit.ofSource source).unit
    unit.bodies.map (·.reported (.ofUnit unit)) = [[(5, .this)], [(11, .this)]] ∧
      (unit.synchronize 4).bodies.map (·.reported (.ofUnit (unit.synchronize 4))) =
        [[], [(11, .this)]] := by
  decide +kernel

end LockDiscipline
