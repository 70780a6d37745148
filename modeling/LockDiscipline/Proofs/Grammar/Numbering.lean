import Mathlib.Data.List.Count
import LockDiscipline.Grammar.Program
import LockDiscipline.Proofs.Tree.Numbers
/-!
# Numbers handed out while reading

The nodes of a tree get their numbers from a counter that the cursor carries. `Grammar.Numbers` says
of a reader that the numbers in what it returns were handed out while it ran, each once, even after
the errors that it recovered from. Readers in sequence hand out different numbers, and what is read
may be dropped but not used twice.
-/

namespace LockDiscipline.Grammar

/-- Numbers handed out since the counter stood at `low` and until it stood at `high`, each once. -/
structure HandedOut (low high : NodeId) (ids : List NodeId) : Prop where
  le : low ≤ high
  nodup : ids.Nodup
  bounds : ∀ id ∈ ids, low ≤ id ∧ id < high

namespace HandedOut

variable {low middle high : NodeId} {ids ids' : List NodeId}

theorem nil (h : low ≤ high) : HandedOut low high [] :=
  ⟨h, List.nodup_nil, fun _ hmem => absurd hmem List.not_mem_nil⟩

theorem of_subperm (h : HandedOut low high ids) (hsub : ids'.Subperm ids) :
    HandedOut low high ids' := by
  refine ⟨h.le, ?_, fun id hid => h.bounds id (hsub.subset hid)⟩
  obtain ⟨sublist, hperm, hsublist⟩ := hsub
  exact hperm.nodup_iff.mp (h.nodup.sublist hsublist)

/-- Numbers handed out one time and the next are different. -/
theorem append (hfirst : HandedOut low middle ids) (hsecond : HandedOut middle high ids') :
    HandedOut low high (ids ++ ids') := by
  refine ⟨Nat.le_trans hfirst.le hsecond.le, hfirst.nodup.append hsecond.nodup ?_, fun id hid => ?_⟩
  · intro id hid hid'
    exact Nat.lt_irrefl _ (Nat.lt_of_lt_of_le (hfirst.bounds id hid).2 (hsecond.bounds id hid').1)
  · rcases List.mem_append.mp hid with hid | hid
    · exact ⟨(hfirst.bounds id hid).1, Nat.lt_of_lt_of_le (hfirst.bounds id hid).2 hsecond.le⟩
    · exact ⟨Nat.le_trans hfirst.le (hsecond.bounds id hid).1, (hsecond.bounds id hid).2⟩

end HandedOut

/-- What occurs nowhere more often than it is held can be taken from what is held. -/
theorem subperm_of_count {ids held : List NodeId}
    (h : ∀ id, ids.count id ≤ held.count id) : ids.Subperm held :=
  List.subperm_iff_count.mpr h

/-- The numbers in the outcome of a reader were handed out since the counter stood at `low`. -/
def Outcome {α : Type} (low : NodeId) (ids : α → List NodeId) :
    EStateM.Result SyntaxError Cursor α → Prop
  | .ok value cursor => HandedOut low cursor.nextId (ids value)
  | .error _ cursor => low ≤ cursor.nextId

/-- If the numbers `held` were handed out before a reader runs, then the numbers in its value were
handed out when it is done. -/
def Numbers {α : Type} (held : List NodeId) (ids : α → List NodeId) (reader : Reader α) : Prop :=
  ∀ low cursor, HandedOut low cursor.nextId held → Outcome low ids (reader.run cursor)

/-- A reader whose value holds no numbers. -/
abbrev Quiet {α : Type} (reader : Reader α) : Prop :=
  Numbers [] (fun _ => []) reader

namespace Numbers

variable {α β : Type} {held held' : List NodeId} {ids ids'' : α → List NodeId}
  {ids' : β → List NodeId} {reader : Reader α} {next : α → Reader β}

/-- Readers in sequence hand out different numbers. -/
theorem bind (hreader : Numbers [] ids reader)
    (hnext : ∀ value, Numbers (held ++ ids value) ids' (next value)) :
    Numbers held ids' (reader >>= next) := by
  intro low cursor hheld
  have hfirst := hreader cursor.nextId cursor (.nil (Nat.le_refl _))
  rw [EStateM.run_bind]
  cases houtcome : reader.run cursor with
  | ok value middle =>
      rw [houtcome] at hfirst
      exact hnext value low middle (hheld.append hfirst)
  | error error middle =>
      rw [houtcome] at hfirst
      exact Nat.le_trans hheld.le hfirst

/-- A reader may use what is held for its own value. -/
theorem consume (hreader : Numbers held ids reader)
    (hnext : ∀ value, Numbers (ids value) ids' (next value)) :
    Numbers held ids' (reader >>= next) := by
  intro low cursor hheld
  have hfirst := hreader low cursor hheld
  rw [EStateM.run_bind]
  cases houtcome : reader.run cursor with
  | ok value middle =>
      rw [houtcome] at hfirst
      exact hnext value low middle hfirst
  | error error middle => rwa [houtcome] at hfirst

/-- A reader whose value holds no numbers changes nothing of what is held. -/
theorem skip (hreader : Quiet reader) (hnext : ∀ value, Numbers held ids' (next value)) :
    Numbers held ids' (reader >>= next) :=
  hreader.bind fun value => (List.append_nil held).symm ▸ hnext value

/-- What is held may be returned or dropped, and not be doubled. -/
theorem pure {value : α} (hsub : (ids value).Subperm held) :
    Numbers held ids (Pure.pure value) :=
  fun _ _ hheld => hheld.of_subperm hsub

theorem weaken (h : Numbers held ids reader) (hheld : held.Subperm held')
    (hids : ∀ value, (ids'' value).Subperm (ids value)) : Numbers held' ids'' reader := by
  intro low cursor hheld'
  have houtcome := h low cursor (hheld'.of_subperm hheld)
  cases hrun : reader.run cursor with
  | ok value after =>
      rw [hrun] at houtcome
      exact HandedOut.of_subperm houtcome (hids value)
  | error error after =>
      rw [hrun] at houtcome
      exact houtcome

/-- The numbers in what is read may be forgotten. -/
theorem quiet (h : Numbers [] ids reader) : Quiet reader :=
  h.weaken (.refl _) fun _ => List.nil_subperm

theorem map {transform : α → β} (hreader : Numbers [] ids reader)
    (hsub : ∀ value, (ids' (transform value)).Subperm (ids value)) :
    Numbers [] ids' (transform <$> reader) := by
  rw [map_eq_pure_bind]
  exact hreader.bind fun value => .pure (hsub value)

/-- A reader chosen by a test, with the same continuation either way. -/
theorem choose {found : Bool} {other : Reader α} (hreader : Numbers [] ids reader)
    (hother : Numbers [] ids other)
    (hnext : ∀ value, Numbers (held ++ ids value) ids' (next value)) :
    Numbers held ids' (if found then reader >>= next else other >>= next) := by
  cases found with
  | true => exact hreader.bind hnext
  | false => exact hother.bind hnext

theorem ite {condition : Prop} [Decidable condition] {first second : Reader α}
    (hfirst : Numbers held ids first) (hsecond : Numbers held ids second) :
    Numbers held ids (if condition then first else second) := by
  split
  · exact hfirst
  · exact hsecond

end Numbers

/-! ### The cursor -/

section Cursor

variable {α : Type} {held : List NodeId} {ids : α → List NodeId}

theorem numbers_throw (error : SyntaxError) : Numbers held ids (throw error : Reader α) :=
  fun _ _ hheld => hheld.le

theorem quiet_get : Quiet (get : Reader Cursor) :=
  fun _ _ hheld => hheld

theorem quiet_modify {change : Cursor → Cursor}
    (h : ∀ cursor, (change cursor).nextId = cursor.nextId) : Quiet (modify change) := by
  intro low cursor hheld
  change HandedOut low (change cursor).nextId []
  rwa [h]

theorem nextId_advance (cursor : Cursor) : cursor.advance.nextId = cursor.nextId := by
  rw [Cursor.advance]
  split
  · rfl
  · split <;> rfl

theorem quiet_advance : Quiet advance :=
  quiet_modify nextId_advance

theorem quiet_currentKind : Quiet currentKind :=
  quiet_get.skip fun _ => .pure (.refl _)

theorem quiet_currentStart : Quiet currentStart :=
  quiet_get.skip fun _ => .pure (.refl _)

theorem quiet_peek (count : Nat) : Quiet (peek count) :=
  quiet_get.skip fun _ => .pure (.refl _)

theorem quiet_ahead (test : List Token → Bool) : Quiet (ahead test) :=
  quiet_get.skip fun _ => .pure (.refl _)

theorem quiet_atEnd : Quiet atEnd :=
  quiet_currentKind.skip fun _ => .pure (.refl _)

theorem quiet_atSymbol (sign : Symbol) : Quiet (atSymbol sign) :=
  quiet_currentKind.skip fun _ => .pure (.refl _)

theorem quiet_atKeyword (word : Keyword) : Quiet (atKeyword word) :=
  quiet_currentKind.skip fun _ => .pure (.refl _)

theorem quiet_spanFrom (start : Nat) : Quiet (spanFrom start) :=
  quiet_get.skip fun _ => .pure (.refl _)

theorem quiet_loopBound : Quiet loopBound :=
  quiet_get.skip fun _ => .pure (.refl _)

theorem quiet_acceptSymbol (sign : Symbol) : Quiet (acceptSymbol sign) := by
  refine (quiet_atSymbol sign).skip fun found => ?_
  cases found with
  | true => exact quiet_advance.skip fun _ => .pure (.refl _)
  | false => exact .pure (.refl _)

theorem quiet_acceptKeyword (word : Keyword) : Quiet (acceptKeyword word) := by
  refine (quiet_atKeyword word).skip fun found => ?_
  cases found with
  | true => exact quiet_advance.skip fun _ => .pure (.refl _)
  | false => exact .pure (.refl _)

theorem numbers_failExpected (expected : Expectation) :
    Numbers held ids (failExpected expected : Reader α) :=
  quiet_get.skip fun _ => numbers_throw _

theorem numbers_failTooDeep : Numbers held ids (failTooDeep : Reader α) :=
  quiet_get.skip fun _ => numbers_throw _

theorem quiet_expectSymbol (sign : Symbol) : Quiet (expectSymbol sign) :=
  quiet_get.skip fun _ => .ite (quiet_advance.skip fun _ => .pure (.refl _))
    (numbers_failExpected _)

theorem quiet_expectKeyword (word : Keyword) : Quiet (expectKeyword word) :=
  quiet_get.skip fun _ => .ite (quiet_advance.skip fun _ => .pure (.refl _))
    (numbers_failExpected _)

theorem quiet_expectName : Quiet expectName := by
  refine quiet_currentKind.skip fun kind => ?_
  split
  · exact quiet_advance.skip fun _ => .pure (.refl _)
  · exact numbers_failExpected _

/-- A fresh number is the next one of the counter. -/
theorem numbers_freshId : Numbers [] (fun id => [id]) freshId := by
  intro low cursor hheld
  refine ⟨Nat.le_succ_of_le hheld.le, List.nodup_singleton _, fun id hid => ?_⟩
  obtain rfl := List.mem_singleton.mp hid
  exact ⟨hheld.le, Nat.lt_succ_self _⟩

theorem quiet_recordError (error : SyntaxError) : Quiet (recordError error) :=
  fun _ _ hheld => hheld

/-- A failure leaves the cursor where it was found. -/
theorem run_attempt (reader : Reader α) (cursor : Cursor) :
    (attempt reader).run cursor = match reader.run cursor with
      | .ok value after => .ok (.ok value) after
      | .error error after => .ok (.error error) after := by
  simp only [attempt, EStateM.run, tryCatch, tryCatchThe, MonadExceptOf.tryCatch,
    EStateM.tryCatch, Functor.map, EStateM.map]
  cases reader cursor <;> rfl

/-- The numbers in the value of a reader, if it succeeded. -/
def outcomeIds (ids : α → List NodeId) : Except SyntaxError α → List NodeId
  | .ok value => ids value
  | .error _ => []

/-- What a reader that failed has read is dropped. -/
theorem numbers_attempt {reader : Reader α} (h : Numbers [] ids reader) :
    Numbers [] (outcomeIds ids) (attempt reader) := by
  intro low cursor hheld
  have houtcome := h low cursor hheld
  rw [run_attempt]
  cases hrun : reader.run cursor with
  | ok value after => rwa [hrun] at houtcome
  | error error after =>
      rw [hrun] at houtcome
      exact .nil houtcome

theorem numbers_readWhen (found : Bool) {reader : Reader α} (h : Numbers [] ids reader) :
    Numbers [] (fun value => value.toList.flatMap ids) (readWhen found reader) := by
  cases found with
  | true => exact h.map fun value => subperm_of_count fun id => by simp
  | false => exact .pure (.refl _)

theorem quiet_readWhen (found : Bool) {reader : Reader α} (h : Quiet reader) :
    Quiet (readWhen found reader) :=
  (numbers_readWhen found h).quiet

theorem numbers_withLambdas (allowed restored : Bool) {reader : Reader α}
    (h : Numbers [] ids reader) : Numbers [] ids (withLambdas allowed restored reader) := by
  have hmodify (lambdas : Bool) : Quiet (modify ({ · with lambdas }) : Reader Unit) :=
    quiet_modify fun _ => rfl
  refine (hmodify allowed).skip fun _ => (numbers_attempt h).bind fun outcome =>
    (hmodify restored).skip fun _ => ?_
  cases outcome with
  | ok value => exact .pure (.refl _)
  | error error => exact numbers_throw error

end Cursor

/-! ### Loops -/

section Loops

variable {α : Type} {ids : α → List NodeId}

/-- What a step yields, or what it was given where it yields nothing. -/
def stepIds (ids : α → List NodeId) (value : α) : Option α → List NodeId
  | some next => ids next
  | none => ids value

/-- A loop hands out numbers if every step keeps those of its state and adds some. -/
theorem numbers_iterate (ids : α → List NodeId) {held : List NodeId}
    {step : α → Reader (Option α)} {value : α} (hheld : (ids value).Subperm held)
    (hstep : ∀ value, Numbers (ids value) (stepIds ids value) (step value)) :
    Numbers held ids (iterate step value) := by
  have hbounded (bound : Nat) (value : α) :
      Numbers (ids value) ids (iterateUpTo step bound value) := by
    induction bound generalizing value with
    | zero => exact numbers_failTooDeep
    | succ bound ih =>
        intro low cursor hheld
        have houtcome := hstep value low cursor hheld
        rw [iterateUpTo, EStateM.run_bind]
        cases hrun : (step value).run cursor with
        | error error after => rwa [hrun] at houtcome
        | ok next after =>
            rw [hrun] at houtcome
            cases next with
            | some next => exact ih next low after houtcome
            | none => exact houtcome
  exact quiet_loopBound.skip fun bound => (hbounded bound value).weaken hheld fun _ => .refl _

theorem quiet_iterate {step : α → Reader (Option α)} {value : α}
    (hstep : ∀ value, Quiet (step value)) : Quiet (iterate step value) :=
  numbers_iterate (fun _ => []) (.refl _) fun value => (hstep value).weaken (.refl _) fun next => by
    cases next <;> exact .refl _

/-- Values that are collected, the last one first, hold the numbers of all of them. -/
theorem numbers_collect (ids : α → List NodeId) {step : Reader (Option α)}
    (hstep : Numbers [] (fun value => value.toList.flatMap ids) step) :
    Numbers [] (fun values => values.flatMap ids) (collect step) := by
  refine Numbers.bind (numbers_iterate (fun values : List α => values.flatMap ids) (.refl _)
    fun values => hstep.bind fun value => ?_) fun values =>
      .pure (values.reverse_perm.flatMap_right ids).subperm
  cases value with
  | some value => exact .pure (subperm_of_count fun id => by simp +arith [stepIds])
  | none => exact .pure (subperm_of_count fun id => by simp [stepIds])

theorem numbers_separated (separator : Symbol) {item : Reader α} (h : Numbers [] ids item) :
    Numbers [] (fun values => values.flatMap ids) (separated separator item) := by
  refine h.bind fun first => (numbers_collect ids ?_).bind fun others => .pure (.refl _)
  refine (quiet_acceptSymbol separator).skip fun found => ?_
  cases found with
  | true => exact h.bind fun value => .pure (subperm_of_count fun id => by simp)
  | false => exact .pure (.refl _)

theorem numbers_enumerated (close separator : Symbol) {item : Reader α} (h : Numbers [] ids item) :
    Numbers [] (fun values => values.flatMap ids) (enumerated close separator item) := by
  refine Numbers.bind (numbers_iterate (fun scan : List α × Bool => scan.1.flatMap ids)
    (List.nil_subperm) fun scan => ?_) fun scan =>
      .pure (scan.1.reverse_perm.flatMap_right ids).subperm
  refine (quiet_atSymbol close).skip fun closing => quiet_atEnd.skip fun ended => .ite ?_ ?_
  · exact .pure (.refl _)
  · refine h.bind fun value => (quiet_acceptSymbol separator).skip fun more => .pure ?_
    exact subperm_of_count fun id => by simp +arith [stepIds]

theorem quiet_collect {step : Reader (Option α)} (hstep : Quiet step) : Quiet (collect step) :=
  (numbers_collect (fun _ => []) (hstep.weaken (.refl _) fun value => by simp)).quiet

theorem quiet_separated (separator : Symbol) {item : Reader α} (h : Quiet item) :
    Quiet (separated separator item) :=
  (numbers_separated separator h).quiet

end Loops

end LockDiscipline.Grammar
