import LockDiscipline.Check.Run
import LockDiscipline.Proofs.Check.Homes
import LockDiscipline.Proofs.Grammar.DeclarationSpans
/-!
# The order of the units

The analysis goes from unit to unit, and the report is sorted by place, where ties stay in the order in
which they were found. Here it is shown that the order of the units does not matter: no unit passes anything
on to the next one, and findings of different units never begin at one place. Expressions of different units
may well stand inside of one another, a lambda in the arguments of a call for instance, but there is a body
between them, and the body of a lambda or of a class does not begin where the expression around it does.
Ties inside of a unit are real and stay as they are.
-/

namespace LockDiscipline

/-! ### Stable sorting by a key -/

section Sorting

variable {α : Type} {key : α → Nat} {first second : List α}

/-- Lists that are sorted by a key are equal if they agree for each value of the key. -/
theorem eq_of_sorted_of_filter_eq (hfirst : first.Pairwise (key · ≤ key ·))
    (hsecond : second.Pairwise (key · ≤ key ·))
    (h : ∀ value, first.filter (key · = value) = second.filter (key · = value)) : first = second := by
  have hsubset {list list' : List α} {item : α}
      (h : ∀ value, list.filter (key · = value) = list'.filter (key · = value))
      (hitem : item ∈ list) : item ∈ list' := by
    have hmem : item ∈ list.filter (key · = key item) := by simpa using hitem
    rw [h] at hmem
    exact List.mem_of_mem_filter hmem
  induction first generalizing second with
  | nil =>
      symm
      apply List.eq_nil_iff_forall_not_mem.mpr
      intro item hitem
      exact List.not_mem_nil (hsubset (fun value => (h value).symm) hitem)
  | cons item rest ih =>
      cases second with
      | nil => exact absurd (hsubset h List.mem_cons_self) List.not_mem_nil
      | cons item' rest' =>
          -- Both lists begin with a member of the least key, and so with the same one.
          have hle : key item ≤ key item' := by
            rcases List.mem_cons.mp (hsubset (fun value => (h value).symm) List.mem_cons_self) with
              heq | hmem
            · rw [heq]
            · exact List.rel_of_pairwise_cons hfirst hmem
          have hge : key item' ≤ key item := by
            rcases List.mem_cons.mp (hsubset h List.mem_cons_self) with heq | hmem
            · rw [heq]
            · exact List.rel_of_pairwise_cons hsecond hmem
          have hkey : key item' = key item := Nat.le_antisymm hge hle
          have hhead := h (key item)
          simp only [List.filter_cons, hkey, decide_true, if_true] at hhead
          obtain ⟨rfl, hrest⟩ := List.cons.inj hhead
          congr 1
          apply ih hfirst.of_cons hsecond.of_cons
          intro value
          by_cases hvalue : key item = value
          · rw [← hvalue]
            exact hrest
          · simpa [List.filter_cons, hvalue] using h value

/-- A sort by a key yields what is in order. -/
theorem pairwise_mergeSort_key (list : List α) :
    (list.mergeSort (key · ≤ key ·)).Pairwise (key · ≤ key ·) := by
  have hsorted : (list.mergeSort (key · ≤ key ·)).Pairwise
      fun first second => decide (key first ≤ key second) :=
    List.pairwise_mergeSort (by simpa using fun _ _ _ => Nat.le_trans)
      (by simpa using fun _ _ => Nat.le_total _ _) list
  simpa using hsorted

/-- A stable sort by a key keeps the members with one value of the key in their order. -/
theorem filter_mergeSort (list : List α) (value : Nat) :
    (list.mergeSort (key · ≤ key ·)).filter (key · = value) = list.filter (key · = value) := by
  have hsorted : (list.filter (key · = value)).Pairwise
      fun first second => decide (key first ≤ key second) := by
    apply List.pairwise_of_forall_mem_list
    intro item hitem item' hitem'
    have hkey : key item = value := by simpa using List.of_mem_filter hitem
    have hkey' : key item' = value := by simpa using List.of_mem_filter hitem'
    simp [hkey, hkey']
  have hkept : (list.filter (key · = value)).Sublist (list.mergeSort (key · ≤ key ·)) :=
    List.sublist_mergeSort (by simpa using fun _ _ _ => Nat.le_trans)
      (by simpa using fun _ _ => Nat.le_total _ _) hsorted List.filter_sublist
  symm
  apply List.Sublist.eq_of_length
  · simpa using hkept.filter (key · = value)
  · exact ((List.mergeSort_perm list _).filter _).length_eq.symm

/-- Lists that agree for each value of a key are equal when they are sorted by it. -/
theorem mergeSort_eq_of_filter_eq
    (h : ∀ value, first.filter (key · = value) = second.filter (key · = value)) :
    first.mergeSort (key · ≤ key ·) = second.mergeSort (key · ≤ key ·) := by
  apply eq_of_sorted_of_filter_eq (pairwise_mergeSort_key first) (pairwise_mergeSort_key second)
  intro value
  rw [filter_mergeSort, filter_mergeSort, h]

/-- Sources may be gone through in any order if no two of them yield anything. -/
theorem flatMap_eq_of_perm {β : Type} {sources sources' : List α} {yield : α → List β}
    (hperm : sources.Perm sources')
    (h : sources.Pairwise fun source source' => yield source = [] ∨ yield source' = []) :
    sources.flatMap yield = sources'.flatMap yield := by
  induction hperm with
  | nil => rfl
  | cons source _ ih =>
      rw [List.flatMap_cons, List.flatMap_cons, ih h.of_cons]
  | swap source source' rest =>
      rcases List.rel_of_pairwise_cons h List.mem_cons_self with hnil | hnil <;>
        simp [List.flatMap_cons, hnil]
  | trans hperm _ ih ih' =>
      rw [ih h, ih' ((hperm.pairwise_iff fun hyield => hyield.symm).mp h)]

end Sorting

/-! ### Where the bodies of other units begin -/

/-- A body that is not the body of a member is the body of a lambda. -/
theorem TreeNode.eq_lambda_of_mem_parts {node : TreeNode} {part : Part} (h : part ∈ node.parts)
    {body : UnitBody} (hbody : part.node = .code body) (hnode : ∀ member, node ≠ .member member) :
    ∃ expr inner, node = .expr expr ∧ body = .lambda inner := by
  obtain ⟨role, child⟩ := part
  dsimp only at hbody
  subst hbody
  cases node with
  | expr node =>
      obtain ⟨id, kind, span⟩ := node
      cases kind with
      | lambda params inner =>
          obtain ⟨-, hinner⟩ := Part.mk.inj (List.mem_singleton.mp h)
          exact ⟨_, inner, rfl, TreeNode.code.inj hinner⟩
      | _ => simp [parts, ExprKind.parts, exprParts, nestedPart] at h
  | stmt node =>
      obtain ⟨id, kind, span⟩ := node
      cases kind <;> simp [parts, StmtKind.parts, exprParts, stmtParts, nestedPart] at h
  | member member => exact absurd rfl (hnode member)
  | code outer =>
      cases outer with
      | lambda inner => cases inner <;> simp [parts, UnitBody.parts, exprParts, stmtParts] at h
      | _ => simp [parts, UnitBody.parts, stmtParts] at h
  | _ => simp [parts, Modifiers.parts, exprParts, stmtParts] at h

variable {tokens : List Token}

/-- What is inside of a construct and in another body than the construct itself begins behind the start of the
construct. -/
theorem Within.start_lt_of_isBody {node inner : TreeNode} {path : List PathStep} {low : Nat}
    (h : Within node path inner) (hnode : ∀ member, node ≠ .member member) (hsound : node.Sound tokens)
    (hlow : ∀ span, node.HasSpan span → low ≤ span.start) (hbody : ∃ step ∈ path, step.role.isBody)
    {span : Span} (hspan : inner.HasSpan span) : low < span.start := by
  induction h with
  | here => exact absurd hbody (by simp)
  | @part node child inner step path hpart hinner ih =>
      have hmem := List.mem_of_getElem? hpart
      have hspanned := hsound [] node (.here node)
      have hchild : child.HasSpan span := hspan.of_within hinner
      -- If the first step leads on in the same body, then there is a body further in.
      have hfurther (hrole : step.role.isBody = false) (hmember : ∀ member, child ≠ .member member) :
          low < span.start := by
        apply ih hmember (hsound.of_mem_parts hmem) _ _ hspan
        · exact fun span hspan => hlow span (TreeNode.hasSpan_iff.mpr (.inr ⟨_, hmem, hspan⟩))
        · obtain ⟨last, hlast, hbody⟩ := hbody
          rcases List.mem_cons.mp hlast with rfl | hlast
          · rw [hrole] at hbody
            cases hbody
          · exact ⟨last, hlast, hbody⟩
      obtain ⟨index, role⟩ := step
      cases Fits.of_mem_parts hmem with
      | body body =>
          obtain ⟨expr, inner, rfl, rfl⟩ := TreeNode.eq_lambda_of_mem_parts hmem rfl hnode
          have hstart := hspanned.lambda expr.span (List.mem_singleton_self _) _ hmem inner rfl span hchild
          exact Nat.lt_of_le_of_lt (hlow _ (.of_mem (List.mem_singleton_self _))) hstart
      | member hmember =>
          have hstart := hspanned.members _ rfl _ hmember span hchild
          exact Nat.lt_of_le_of_lt (hlow _ (.of_mem (List.mem_singleton_self _))) hstart
      | inCode _ hrole hcode _ =>
          apply hfurther
          · cases role <;> first | rfl | cases hrole
          · rintro member rfl
            cases hcode
      | declared hdeclared =>
          apply hfurther rfl
          rintro member rfl
          cases hdeclared
      | _ => exact hfurther rfl nofun

namespace CompilationUnit

variable {unit : CompilationUnit}

theorem HasAt.trans {path path' : List PathStep} {node inner : TreeNode} (h : unit.HasAt path node)
    (hinner : Within node path' inner) : unit.HasAt (path ++ path') inner := by
  cases path with
  | nil => exact h.elim
  | cons step rest =>
      obtain ⟨child, hchild, hwithin⟩ := h
      exact ⟨child, hchild, hwithin.trans hinner⟩

theorem HasAt.split {path path' : List PathStep} {node inner : TreeNode} (hnode : unit.HasAt path node)
    (hinner : unit.HasAt (path ++ path') inner) : Within node path' inner := by
  cases path with
  | nil => exact hnode.elim
  | cons step rest =>
      obtain ⟨child, hchild, hwithin⟩ := hnode
      obtain ⟨child', hchild', hwithin'⟩ := hinner
      obtain ⟨-, rfl⟩ := Part.mk.inj (Option.some.inj (hchild.symm.trans hchild'))
      obtain ⟨middle, hmiddle, hbehind⟩ := hwithin'.split
      exact hwithin.unique hmiddle ▸ hbehind

/-- An expression that is looked at stands in the body of its unit, and no other body lies between them. -/
theorem exists_hasAt_of_visits {visiting : CodeUnit} (hvisiting : visiting ∈ unit.bodies) {expr : Expr}
    (hvisits : visiting.Visits expr) :
    ∃ outer inner, unit.HasAt outer (.code visiting.body) ∧
      (∃ front step, outer = front ++ [step] ∧ step.role = .code) ∧
        Within (.code visiting.body) inner (.expr expr) ∧ ∀ step ∈ inner, step.role.isBody = false := by
  obtain ⟨decl, hdecl, outer, houter, -⟩ := mem_bodies.mp hvisiting
  obtain ⟨inner, hinner, hopen, -⟩ := hvisits
  obtain ⟨index, hindex⟩ := List.getElem?_of_mem hdecl
  have hpart : unit.parts[index]? = some ⟨.declared, .classDecl decl⟩ := by
    rw [parts, List.getElem?_map, hindex]
    rfl
  obtain ⟨front, step, rfl, hstep⟩ := houter.ends_with_body
  exact ⟨⟨index, .declared⟩ :: (front ++ [step]), inner, ⟨_, hpart, houter⟩,
    ⟨⟨index, .declared⟩ :: front, step, rfl, hstep⟩, hinner,
    fun step hstep => PartRole.isBody_of_isOpen (hopen step hstep)⟩

section Starts

variable {low high : Nat} (hlaid : Laid tokens low high (TreeNode.itemsOf unit.parts))
include hlaid

/-- Of expressions one of which stands inside of the other, in another body, the outer one begins first. -/
private theorem start_lt_of_inside {outer outer' inner inner' : List PathStep} {expr expr' : Expr}
    (houter : ∃ front step, outer = front ++ [step] ∧ step.role = .code)
    (houter' : ∃ front step, outer' = front ++ [step] ∧ step.role = .code)
    (hinner : ∀ step ∈ inner, step.role.isBody = false)
    (hinner' : ∀ step ∈ inner', step.role.isBody = false)
    (h : unit.HasAt (outer ++ inner) (.expr expr)) (h' : unit.HasAt (outer' ++ inner') (.expr expr'))
    (hinside : outer ++ inner <+: outer' ++ inner') (hne : outer ≠ outer') :
    expr.span.start < expr'.span.start := by
  obtain ⟨rest, hrest⟩ := hinside
  have hwithin : Within (.expr expr) rest (.expr expr') := h.split (hrest ▸ h')
  have hsound : (TreeNode.expr expr).Sound tokens := fun path node hnode => hlaid.spanned (h.trans hnode)
  apply hwithin.start_lt_of_isBody nofun hsound
    (fun span hspan => (hsound.within_span rfl hspan).1) _ (.of_mem (List.mem_singleton_self _))
  by_contra hnone
  apply hne
  have hbetween : ∀ step ∈ inner ++ rest, step.role.isBody = false := by
    intro step hstep
    rcases List.mem_append.mp hstep with hstep | hstep
    · exact hinner step hstep
    · by_contra hbody
      exact hnone ⟨step, hstep, by simpa using hbody⟩
  apply (eq_of_append_eq_append houter houter' hbetween hinner' _).1
  rw [← List.append_assoc]
  exact hrest

/-- Expressions that different units look at do not begin at one place. -/
theorem pairwise_starts (hnodup : unit.numbers.Nodup) :
    unit.bodies.Pairwise fun first second => ∀ expr expr',
      first.Visits expr → second.Visits expr' → expr.span.start ≠ expr'.span.start := by
  apply (pairwise_bodies hnodup).imp_of_mem
  intro first second hfirst hsecond hids expr expr' hvisits hvisits'
  obtain ⟨outer, inner, houter, hlast, hinner, hbodies⟩ := exists_hasAt_of_visits hfirst hvisits
  obtain ⟨outer', inner', houter', hlast', hinner', hbodies'⟩ := exists_hasAt_of_visits hsecond hvisits'
  have hexpr : unit.HasAt (outer ++ inner) (.expr expr) := houter.trans hinner
  have hexpr' : unit.HasAt (outer' ++ inner') (.expr expr') := houter'.trans hinner'
  have hne : outer ≠ outer' := by
    rintro rfl
    have hbody : first.body = second.body := TreeNode.code.inj (houter.unique houter')
    obtain ⟨path, hwithin, hsite⟩ := hvisits
    exact hids expr expr ⟨path, hwithin, hsite⟩ ⟨path, hbody ▸ hwithin, hsite⟩ rfl
  by_cases hinside : outer ++ inner <+: outer' ++ inner'
  · exact (start_lt_of_inside hlaid hlast hlast' hbodies hbodies' hexpr hexpr' hinside hne).ne
  by_cases hinside' : outer' ++ inner' <+: outer ++ inner
  · exact (start_lt_of_inside hlaid hlast' hlast hbodies' hbodies hexpr' hexpr hinside' hne.symm).ne'
  -- Neither stands inside of the other one, so they have no bytes in common.
  have hspans := hlaid.spansNest
  have hlt := (hspans.covers _ _ hexpr expr.span (List.mem_singleton_self _)).lt
  have hlt' := (hspans.covers _ _ hexpr' expr'.span (List.mem_singleton_self _)).lt
  rcases hspans.apart _ _ _ _ hexpr hexpr' hinside hinside' with hstop | hstop
  · exact (Nat.lt_of_lt_of_le hlt hstop).ne
  · exact (Nat.lt_of_lt_of_le hlt' hstop).ne'

end Starts
end CompilationUnit

/-! ### Findings in the order of their places -/

namespace CheckSubject

/-- Findings in the order of their places. Those at one place stay in their order. -/
def inPlaceOrder (findings : List Diagnostic) : List Diagnostic :=
  findings.mergeSort (sortKey · ≤ sortKey ·)

/-- The subject with its units of code in another order. -/
def reorder (subject : CheckSubject) (bodies : List CodeUnit) : CheckSubject :=
  { subject with units := { subject.units with bodies } }

/-- A finding in a unit is at a place that the unit looks at. -/
theorem exists_visits_of_mem_findings {program : Program} {visiting : CodeUnit} {finding : Diagnostic}
    (h : finding ∈ visiting.findings program) :
    ∃ expr, visiting.Visits expr ∧ sortKey finding = expr.span.start + 1 := by
  obtain ⟨access, haccess, rfl⟩ := List.mem_map.mp h
  exact ⟨access.expr, CodeUnit.visits_of_mem_accesses (List.mem_of_mem_filter haccess), rfl⟩

/-- At one place there are findings of one unit only, so that they are the same ones for any order of the
units. -/
theorem filter_findings_reorder (source : List Char) (options : CheckOptions) {bodies : List CodeUnit}
    (hperm : bodies.Perm (ofUnit (ParsedUnit.ofSource source).unit).units.bodies) (rule : CheckRule)
    (place : Nat) :
    (((ofUnit (ParsedUnit.ofSource source).unit).reorder bodies).findings options rule).filter
        (sortKey · = place) =
      ((ofUnit (ParsedUnit.ofSource source).unit).findings options rule).filter (sortKey · = place) := by
  cases rule with
  | invalidGuard => rfl
  | unguardedAccess =>
      obtain ⟨low, high, hlaid⟩ := ParsedUnit.exists_laid_ofTokens (Lexer.inOrder_tokens source)
      have hnodup := ParsedUnit.nodup_numbers_ofTokens (Lexer.tokenize source).tokens
      have hstarts := CompilationUnit.pairwise_starts hlaid hnodup
      rw [findings, findings, List.filter_flatMap, List.filter_flatMap]
      symm
      apply flatMap_eq_of_perm hperm.symm
      apply hstarts.imp
      intro first second hne
      by_cases hnil : (first.findings (.ofUnit (ParsedUnit.ofSource source).unit)).filter
        (sortKey · = place) = []
      · exact .inl hnil
      · right
        obtain ⟨finding, hfinding⟩ := List.exists_mem_of_ne_nil _ hnil
        obtain ⟨hfinding, hplace⟩ := List.mem_filter.mp hfinding
        apply List.filter_eq_nil_iff.mpr
        intro finding' hfinding' hplace'
        obtain ⟨expr, hvisits, hkey⟩ := exists_visits_of_mem_findings hfinding
        obtain ⟨expr', hvisits', hkey'⟩ := exists_visits_of_mem_findings hfinding'
        apply hne expr expr' hvisits hvisits'
        simp only [decide_eq_true_eq] at hplace hplace'
        omega

/-- The units of code of a source may be analysed in any order: what the first rule finds is the same in the
order of places, and so is what is reported for all rules. -/
theorem inPlaceOrder_reorder (source : List Char) (options : CheckOptions) (bodies : List CodeUnit)
    (hperm : bodies.Perm (ofUnit (ParsedUnit.ofSource source).unit).units.bodies) :
    let subject := ofUnit (ParsedUnit.ofSource source).unit
    inPlaceOrder ((subject.reorder bodies).findings options .unguardedAccess) =
        inPlaceOrder (subject.findings options .unguardedAccess) ∧
      (subject.reorder bodies).ruleFindings options = subject.ruleFindings options := by
  have hfilter := filter_findings_reorder source options hperm
  constructor
  · exact mergeSort_eq_of_filter_eq (hfilter .unguardedAccess)
  · apply mergeSort_eq_of_filter_eq
    intro place
    rw [List.filter_flatMap, List.filter_flatMap]
    exact List.flatMap_congr fun rule _ => hfilter rule place

/-- Lambdas inside of a call of a guarded method, one of which accesses two guarded fields at one place. -/
def lambdaSource : List Char :=
  ("class A \x7b @GuardedBy(\"this\") A a; @GuardedBy(\"this\") void g() \x7b \x7d " ++
    "void f() \x7b a.a.h(() -> a.a.g(), () -> a); \x7d \x7d").toList

private theorem sortKeys_lambdas :
    let subject := ofUnit (ParsedUnit.ofSource lambdaSource).unit
    (subject.findings .default .unguardedAccess).map sortKey = [78, 78, 90, 90, 90, 105] ∧
      ((subject.reorder subject.units.bodies.reverse).findings .default .unguardedAccess).map sortKey =
        [105, 90, 90, 90, 78, 78] := by
  decide +kernel

theorem inPlaceOrder_reverse_lambdas :
    let subject := ofUnit (ParsedUnit.ofSource lambdaSource).unit
    let reversed := subject.reorder subject.units.bodies.reverse
    (subject.findings .default .unguardedAccess).map sortKey = [78, 78, 90, 90, 90, 105] ∧
      (reversed.findings .default .unguardedAccess).map sortKey = [105, 90, 90, 90, 78, 78] ∧
        subject.units.bodies.reverse.Perm subject.units.bodies ∧
          inPlaceOrder (reversed.findings .default .unguardedAccess) =
              inPlaceOrder (subject.findings .default .unguardedAccess) ∧
            reversed.ruleFindings .default = subject.ruleFindings .default :=
  ⟨sortKeys_lambdas.1, sortKeys_lambdas.2, List.reverse_perm _,
    inPlaceOrder_reorder lambdaSource .default _ (List.reverse_perm _)⟩

end CheckSubject
end LockDiscipline
