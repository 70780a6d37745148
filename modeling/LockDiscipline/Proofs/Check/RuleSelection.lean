import LockDiscipline.Check.Run
import LockDiscipline.Proofs.Check.UnitOrder
/-!
# The selection of rules

To select rules is to filter a report: the check with a selection finds what the check without one finds, in
the same order, less what the rules report that do not run. The report is sorted by place when all rules have
run, so that this rests on a stable sort, and on each finding telling by its code which rule it comes from.
Syntax errors and problems with names bear codes of no rule, and no selection touches them.

Which rules a selection lets run is not considered here. It is any set of rules, whatever the patterns say.
-/

namespace LockDiscipline

/-- A stable sort by a key may be done before or after members are left out. -/
theorem filter_mergeSort_comm {α : Type} {key : α → Nat} (keep : α → Bool) (list : List α) :
    (list.mergeSort (key · ≤ key ·)).filter keep = (list.filter keep).mergeSort (key · ≤ key ·) := by
  refine eq_of_sorted_of_filter_eq ((pairwise_mergeSort_key list).filter keep)
    (pairwise_mergeSort_key (list.filter keep)) fun value => ?_
  calc ((list.mergeSort (key · ≤ key ·)).filter keep).filter (key · = value)
    _ = ((list.mergeSort (key · ≤ key ·)).filter (key · = value)).filter keep := List.filter_comm ..
    _ = (list.filter (key · = value)).filter keep := by rw [filter_mergeSort]
    _ = (list.filter keep).filter (key · = value) := List.filter_comm ..
    _ = ((list.filter keep).mergeSort (key · ≤ key ·)).filter (key · = value) := (filter_mergeSort ..).symm

namespace CheckOptions

/-- The same options without a selection of rules. -/
def unselective (options : CheckOptions) : CheckOptions :=
  { options with rules := [], excludes := [] }

/-- Whether a finding is one of a rule that does not run, which its code tells. -/
def drops (options : CheckOptions) (finding : Diagnostic) : Bool :=
  CheckRule.all.any fun rule => finding.code == some rule.id && !options.runs rule.id

/-- Without a selection every rule runs. -/
theorem runs_unselective (options : CheckOptions) (id : String) : options.unselective.runs id = true :=
  rfl

/-- The findings of a rule are dropped together, if the rule does not run. -/
theorem drops_eq {options : CheckOptions} {finding : Diagnostic} {rule : CheckRule}
    (h : finding.code = some rule.id) : options.drops finding = !options.runs rule.id := by
  cases rule <;> simp [drops, CheckRule.all, CheckRule.id, h]

/-- A finding whose code is the name of no rule is not dropped. -/
theorem drops_eq_false {options : CheckOptions} {finding : Diagnostic}
    (h : ∀ rule : CheckRule, finding.code ≠ some rule.id) : options.drops finding = false := by
  simp [drops, h]

theorem drops_syntaxError (options : CheckOptions) (error : SyntaxError) :
    options.drops error.diagnostic = false := by
  apply drops_eq_false
  rintro (_ | _) <;> simp [SyntaxError.diagnostic, CheckRule.id]

theorem drops_nameProblem (options : CheckOptions) (problem : NameProblem) :
    options.drops problem.diagnostic = false := by
  apply drops_eq_false
  rintro (_ | _) <;> cases problem <;> simp [NameProblem.diagnostic, CheckRule.id]

end CheckOptions

namespace CheckSubject

variable {subject : CheckSubject} {options : CheckOptions}

/-- Every finding of a rule bears the name of the rule. -/
theorem code_of_mem_findings {rule : CheckRule} {finding : Diagnostic}
    (h : finding ∈ subject.findings options rule) : finding.code = some rule.id := by
  cases rule with
  | unguardedAccess =>
      obtain ⟨unit, -, hunit⟩ := List.mem_flatMap.mp h
      obtain ⟨access, -, rfl⟩ := List.mem_map.mp hunit
      rfl
  | invalidGuard =>
      obtain ⟨unit, -, hunit⟩ := List.mem_flatMap.mp h
      obtain ⟨declared, -, hdeclared⟩ := List.mem_filterMap.mp hunit
      split at hdeclared
      · cases hdeclared
      · obtain rfl := Option.some.inj hdeclared
        rfl

/-- What a rule finds does not depend on the selection. -/
theorem findings_unselective (rule : CheckRule) :
    subject.findings options.unselective rule = subject.findings options rule := by
  cases rule <;> rfl

/-- The findings of a rule are all kept if the rule runs, and otherwise none of them. -/
theorem filter_findings (rule : CheckRule) :
    (subject.findings options rule).filter (!options.drops ·) =
      if options.runs rule.id then subject.findings options rule else [] := by
  have hkept : ∀ finding ∈ subject.findings options rule,
      (!options.drops finding) = options.runs rule.id := by
    intro finding hfinding
    rw [CheckOptions.drops_eq (code_of_mem_findings hfinding), Bool.not_not]
  rw [List.filter_congr hkept]
  split <;> simp [*]

/-- To run some of the rules is to run all of them and to leave out what the others find. -/
theorem flatMap_filter_runs (rules : List CheckRule) :
    (rules.filter (options.runs ·.id)).flatMap (subject.findings options) =
      (rules.flatMap (subject.findings options.unselective)).filter (!options.drops ·) := by
  induction rules with
  | nil => rfl
  | cons rule rules ih =>
      rw [List.flatMap_cons, List.filter_append, findings_unselective, filter_findings, ← ih, List.filter_cons]
      split
      · exact List.flatMap_cons
      · rfl

theorem ruleFindings_eq_filter : subject.ruleFindings options =
    (subject.ruleFindings options.unselective).filter (!options.drops ·) := by
  have hall : CheckRule.all.filter (options.unselective.runs ·.id) = CheckRule.all :=
    List.filter_eq_self.mpr fun rule _ => options.runs_unselective rule.id
  rw [ruleFindings, ruleFindings, filter_mergeSort_comm, hall, flatMap_filter_runs]

end CheckSubject

/-- A check with a selection of rules finds what the check without one finds, in the same order, less the
findings of the rules that do not run. No syntax error and no problem with a name is left out. -/
theorem diagnostics_checkSource_eq_filter (file : String) (source : List Char) (options : CheckOptions) :
    (checkSource file source options).diagnostics =
        (checkSource file source options.unselective).diagnostics.filter (!options.drops ·) ∧
      (∀ error : SyntaxError, options.drops error.diagnostic = false) ∧
      ∀ problem : NameProblem, options.drops problem.diagnostic = false := by
  refine ⟨?_, options.drops_syntaxError, options.drops_nameProblem⟩
  have hunread (errors : List SyntaxError) :
      (errors.map (·.diagnostic)).filter (!options.drops ·) = errors.map (·.diagnostic) := by
    refine List.filter_eq_self.mpr (List.forall_mem_map.mpr fun error _ => ?_)
    rw [options.drops_syntaxError, Bool.not_false]
  have hnames (problems : List NameProblem) :
      (problems.map (·.diagnostic)).filter (!options.drops ·) = problems.map (·.diagnostic) := by
    refine List.filter_eq_self.mpr (List.forall_mem_map.mpr fun problem _ => ?_)
    rw [options.drops_nameProblem, Bool.not_false]
  simp only [checkSource, checkFindings]
  split
  · rw [List.filter_append, hnames, ← CheckSubject.ruleFindings_eq_filter]
  · rw [hunread]

end LockDiscipline
