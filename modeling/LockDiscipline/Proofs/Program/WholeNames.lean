import LockDiscipline.Proofs.Program.Entry
/-!
# Names that are found as a whole

The resolver looks up the member of a selection in the class of what it is selected from. Where that is of no
known class, the dotted name that the selection spells may still name a type, and the selection refers to this
type then. Both can be told from a draft, which keeps in which class a member was looked up and what every
node refers to. Nothing that the resolver does takes either away, so that a name which is found as a whole
at one point is seen to be one in the end.
-/

namespace LockDiscipline

/-- A node refers to something although what it is selected from was of no known class: it spells the name of
a type as a whole. -/
def Draft.NamesWhole (draft : TrackedDraft) (node : NodeId) : Prop :=
  (node, none) ∈ draft.receivers ∧ (draft.program.use? node).isSome

instance (draft : TrackedDraft) (node : NodeId) : Decidable (draft.NamesWhole node) :=
  inferInstanceAs (Decidable (_ ∧ _))

namespace Resolving

/-- Whatever was found as a whole before a computation is so after it. -/
def Gathers {α : Type} (build : Tracked α) : Prop :=
  ∀ (draft : TrackedDraft) (node : NodeId), draft.NamesWhole node → (build.run draft).2.NamesWhole node

namespace Gathers

variable {α β : Type}

theorem bind {build : Tracked α} {next : α → Tracked β} (hbuild : Gathers build)
    (hnext : ∀ value, Gathers (next value)) : Gathers (build >>= next) :=
  fun draft node h => hnext _ _ node (hbuild draft node h)

theorem of_keepsPlace {build : Tracked α} (hplace : KeepsPlace build) : Gathers build := by
  rintro draft node ⟨hreceiver, huse⟩
  refine ⟨?_, hplace.uses draft node huse⟩
  rwa [(hplace.samePlace draft).receivers]

theorem pure (value : α) : Gathers (Pure.pure value : Tracked α) :=
  of_keepsPlace (.pure value)

theorem updateScopes (change : ScopeStack → ScopeStack) : Gathers (updateScopes change) :=
  fun _ _ h => h

theorem visit (node : NodeId) : Gathers (visit node) :=
  fun _ _ h => h

theorem lookIn (node : NodeId) (type : Option SymbolId) : Gathers (lookIn node type) :=
  fun _ _ h => ⟨List.mem_cons_of_mem _ h.1, h.2⟩

end Gathers

/-! ### Names -/

theorem keepsPlace_currentClass? : KeepsPlace currentClass? :=
  .bind .get fun _ => .pure _

theorem keepsPlace_findTypeHere (type : String) : KeepsPlace (findTypeHere type) := by
  refine .bind keepsPlace_currentClass? fun context? => ?_
  cases context? with
  | none => exact .pure none
  | some context => exact .ask _

theorem keepsPlace_useValue (node : NodeId) (id : SymbolId) : KeepsPlace (useValue node id) :=
  .bind (.setUse node id) fun _ => .ask _

theorem keepsPlace_useType (node : NodeId) (found : Option SymbolId) : KeepsPlace (useType node found) := by
  cases found with
  | none => exact .pure _
  | some id => exact .bind (.setUse node id) fun _ => .pure _

theorem keepsPlace_useMethod (node : NodeId) (found : Option SymbolId) :
    KeepsPlace (useMethod node found) := by
  cases found with
  | none => exact .pure _
  | some id => exact keepsPlace_useValue node id

theorem keepsPlace_findVariable (name : String) : KeepsPlace (findVariable name) :=
  .bind .get fun _ => .pure _

theorem keepsPlace_resolveName (node : NodeId) (name : String) : KeepsPlace (resolveName node name) := by
  refine .bind (keepsPlace_findVariable name) fun found => ?_
  cases found with
  | some id => exact keepsPlace_useValue node id
  | none => exact .bind (keepsPlace_findTypeHere name) fun found => keepsPlace_useType node found

theorem gathers_resolveSelect (node : NodeId) (qualifier : Denotation) (name : String)
    (dotted : Option String) : Gathers (resolveSelect node qualifier name dotted) := by
  refine .bind (.lookIn node _) fun _ => .of_keepsPlace ?_
  cases qualifier.memberClass? with
  | some owner =>
      refine .bind (.ask _) fun field? => ?_
      cases field? with
      | some field => exact keepsPlace_useValue node field
      | none => exact .bind (.ask _) fun found => keepsPlace_useType node found
  | none =>
      cases dotted with
      | none => exact .pure _
      | some dotted => exact .bind (keepsPlace_findTypeHere dotted) fun found => keepsPlace_useType node found

/-- A selection from something of no known class refers to nothing if it is not found as a whole. -/
theorem run_resolveSelect_of_not_namesWhole {node : NodeId} {qualifier : Denotation} {name dotted : String}
    {draft : TrackedDraft} (hclass : qualifier.memberClass? = none)
    (hwhole : ¬((resolveSelect node qualifier name (some dotted)).run draft).2.NamesWhole node) :
    (resolveSelect node qualifier name (some dotted)).run draft =
      (resolveSelect node qualifier name none).run draft := by
  have hrun : (resolveSelect node qualifier name (some dotted)).run draft =
      (useType node ((findTypeHere dotted).run draft).1).run (looking draft node none) :=
    run_resolveSelect_of_none hclass
  rw [hrun] at hwhole ⊢
  cases hfound : ((findTypeHere dotted).run draft).1 with
  | some id =>
      rw [hfound] at hwhole
      refine absurd ⟨List.mem_cons_self, ?_⟩ hwhole
      rw [use?_useType, Option.some_or, Option.isSome_some]
  | none =>
      rw [resolveSelect.eq_def, run_bind, run_lookIn, hclass]
      rfl

theorem keepsPlace_findScopedMethod (method : String) (arity : Nat) :
    KeepsPlace (findScopedMethod method arity) := by
  unfold findScopedMethod
  split
  · exact .pure none
  · exact .bind .get fun _ => .pure _

theorem keepsPlace_localType (type : Option String) (init : Denotation) : KeepsPlace (localType type init) := by
  unfold localType
  split
  · exact .pure _
  · exact .ask _

theorem keepsPlace_findConstant (selector : Option SymbolId) (kind : ExprKind) :
    KeepsPlace (findConstant selector kind) := by
  unfold findConstant
  split
  · exact .ask _
  · exact .pure none

/-! ### Variables -/

theorem gathers_declareVariable (name : String) (type : Option String) (node : Option NodeId) (span : Span)
    (isParameter : Bool) : Gathers (declareVariable name type node span isParameter) := by
  refine .bind (.of_keepsPlace keepsPlace_currentClass?) fun context? => ?_
  cases context? with
  | none => exact .pure ()
  | some context =>
      refine .bind (.of_keepsPlace (.declare ..)) fun id => .bind (.updateScopes _) fun _ => ?_
      cases node with
      | none => exact .pure ()
      | some node => exact .of_keepsPlace (.setUse node id)

theorem gathers_declareParams (params : List Param) : Gathers (declareParams params) := by
  induction params with
  | nil => exact .pure ()
  | cons param rest ih => exact .bind (gathers_declareVariable _ _ _ _ _) fun _ => ih

theorem gathers_declareLambdaParams (span : Span) (names : List String) :
    Gathers (declareLambdaParams span names) := by
  induction names with
  | nil => exact .pure ()
  | cons name rest ih => exact .bind (gathers_declareVariable _ _ _ _ _) fun _ => ih

end Resolving
end LockDiscipline
