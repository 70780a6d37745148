import LockDiscipline.Proofs.Tree.Parts
/-!
# Places in a tree

A place is a construct together with the path of parts that leads to it. `TreeNode.places` lists the
places in a construct, a construct before its parts. `Within` says which paths there are, without a
traversal, and the two agree; since the positions in the list increase, the list is determined by
`Within` alone. A traversal that carries something along and stops at some parts is a selection of
places, by `TreeNode.run_eq_flatMap_places`.
-/

namespace LockDiscipline

/-- A step from a construct to one of its parts. -/
structure PathStep where
  index : Nat
  role : PartRole

/-- Constructs that lie in another one, with the path to them. -/
inductive Within : TreeNode → List PathStep → TreeNode → Prop where
  | here (node : TreeNode) : Within node [] node
  | part {node child inner : TreeNode} {step : PathStep} {path : List PathStep}
      (hpart : node.parts[step.index]? = some ⟨step.role, child⟩)
      (hinner : Within child path inner) : Within node (step :: path) inner

namespace Within

theorem trans {outer middle inner : TreeNode} {first second : List PathStep}
    (hfirst : Within outer first middle) (hsecond : Within middle second inner) :
    Within outer (first ++ second) inner := by
  induction hfirst with
  | here => exact hsecond
  | part hpart _ ih => exact .part hpart (ih hsecond)

/-- A path that is followed in two stretches goes through a construct between them. -/
theorem split {outer inner : TreeNode} {first second : List PathStep}
    (h : Within outer (first ++ second) inner) :
    ∃ middle, Within outer first middle ∧ Within middle second inner := by
  induction first generalizing outer with
  | nil => exact ⟨outer, .here outer, h⟩
  | cons step rest ih =>
      cases h with
      | part hpart hinner =>
          obtain ⟨middle, hfirst, hsecond⟩ := ih hinner
          exact ⟨middle, .part hpart hfirst, hsecond⟩

/-- A path leads to a single construct. -/
theorem unique {outer first second : TreeNode} {path : List PathStep}
    (hfirst : Within outer path first) (hsecond : Within outer path second) :
    first = second := by
  induction hfirst with
  | here => cases hsecond with | here => rfl
  | part hpart _ ih =>
      cases hsecond with
      | part hpart' hinner =>
          obtain ⟨-, rfl⟩ := Part.mk.inj (Option.some.inj (hpart.symm.trans hpart'))
          exact ih hinner

end Within

/-- A construct with the path that leads to it. -/
structure Place where
  path : List PathStep
  node : TreeNode

namespace Place

/-- The place as seen from one step further out. -/
def under (step : PathStep) (place : Place) : Place :=
  { place with path := step :: place.path }

/-- Where the place stands among the parts of its constructs. -/
def position (place : Place) : List Nat :=
  place.path.map (·.index)

/-- The order in which places are visited: a construct before its parts, and these in order. -/
def Before (first second : Place) : Prop :=
  List.Lex (· < ·) first.position second.position

theorem before_under {step : PathStep} {first second : Place} :
    (first.under step).Before (second.under step) ↔ first.Before second := by
  simp [Before, position, under]

theorem before_under_of_lt {step step' : PathStep} {first second : Place}
    (h : step.index < step'.index) : (first.under step).Before (second.under step') :=
  .rel h

end Place

namespace TreeNode

/-- The places in a construct, in the order in which they are visited. -/
def places (node : TreeNode) : List Place :=
  ⟨[], node⟩ :: node.parts.zipIdx.attach.flatMap fun entry =>
    (places entry.1.1.node).map (Place.under ⟨entry.1.2, entry.1.1.role⟩)
termination_by sizeOf node
decreasing_by exact sizeOf_part_lt (List.fst_mem_of_mem_zipIdx entry.2)

/-- The places in the parts from an index on. -/
def placesFrom (index : Nat) (parts : List Part) : List Place :=
  (parts.zipIdx index).flatMap fun entry =>
    entry.1.node.places.map (Place.under ⟨entry.2, entry.1.role⟩)

theorem places_eq (node : TreeNode) :
    node.places = ⟨[], node⟩ :: placesFrom 0 node.parts := by
  rw [places, List.flatMap_subtype (g := fun entry : Part × Nat =>
    entry.1.node.places.map (Place.under ⟨entry.2, entry.1.role⟩)) fun _ _ => rfl,
    List.unattach_attach]
  rfl

theorem placesFrom_cons (index : Nat) (part : Part) (rest : List Part) :
    placesFrom index (part :: rest) =
      part.node.places.map (Place.under ⟨index, part.role⟩) ++ placesFrom (index + 1) rest := by
  simp [placesFrom]

theorem mem_placesFrom {index : Nat} {parts : List Part} {place : Place} :
    place ∈ placesFrom index parts ↔
      ∃ (offset : Nat) (part : Part) (inner : Place), parts[offset]? = some part ∧
        inner ∈ part.node.places ∧ place = inner.under ⟨index + offset, part.role⟩ := by
  simp only [placesFrom, List.mem_flatMap, List.mem_map, Prod.exists]
  constructor
  · rintro ⟨part, at', hentry, inner, hinner, rfl⟩
    obtain ⟨hle, hpart⟩ := List.mem_zipIdx_iff_le_and_getElem?_sub.mp hentry
    exact ⟨at' - index, part, inner, hpart, hinner, by rw [Nat.add_sub_cancel' hle]⟩
  · rintro ⟨offset, part, inner, hpart, hinner, rfl⟩
    refine ⟨part, index + offset, ?_, inner, hinner, rfl⟩
    exact List.mem_zipIdx_iff_le_and_getElem?_sub.mpr
      ⟨Nat.le_add_right .., by rwa [Nat.add_sub_cancel_left]⟩

/-- The list of places holds what the paths lead to. -/
theorem mem_places {node : TreeNode} {place : Place} :
    place ∈ node.places ↔ Within node place.path place.node := by
  rw [places_eq, List.mem_cons, mem_placesFrom]
  constructor
  · rintro (rfl | ⟨offset, part, inner, hpart, hinner, rfl⟩)
    · exact .here node
    · have hsize := sizeOf_part_lt (List.mem_of_getElem? hpart)
      exact .part (by simpa using hpart) (mem_places.mp hinner)
  · obtain ⟨path, inner⟩ := place
    intro h
    cases h with
    | here => exact .inl rfl
    | @part _ child _ step path hpart hinner =>
        have hsize := sizeOf_part_lt (List.mem_of_getElem? hpart)
        exact .inr ⟨step.index, ⟨step.role, child⟩, ⟨path, inner⟩, hpart, mem_places.mpr hinner,
          by simp [Place.under]⟩
termination_by sizeOf node

/-- The construct as an expression. -/
def expr? : TreeNode → Option Expr
  | .expr node => some node
  | _ => none

theorem eq_expr_of_expr? {node : TreeNode} {expr : Expr} (h : node.expr? = some expr) :
    node = .expr expr := by
  cases node with
  | expr expr' => rw [Option.some.inj h]
  | _ => cases h

/-- The places of a construct are listed in the order of their positions, each once. -/
theorem pairwise_places (node : TreeNode) : node.places.Pairwise Place.Before := by
  rw [places_eq, List.pairwise_cons]
  constructor
  · intro place hplace
    obtain ⟨offset, part, inner, -, -, rfl⟩ := mem_placesFrom.mp hplace
    exact List.Lex.nil
  · suffices hfrom : ∀ (parts : List Part) (index : Nat), (∀ part ∈ parts, part ∈ node.parts) →
        (placesFrom index parts).Pairwise Place.Before from
      hfrom node.parts 0 fun _ h => h
    intro parts
    induction parts with
    | nil => exact fun _ _ => List.Pairwise.nil
    | cons part rest ih =>
        intro index hparts
        rw [placesFrom_cons, List.pairwise_append]
        refine ⟨?_, ih _ fun part hpart => hparts part (List.mem_cons_of_mem _ hpart), ?_⟩
        · have hsize := sizeOf_part_lt (hparts part List.mem_cons_self)
          rw [List.pairwise_map]
          exact (pairwise_places part.node).imp Place.before_under.mpr
        · intro first hfirst second hsecond
          obtain ⟨inner, -, rfl⟩ := List.mem_map.mp hfirst
          obtain ⟨offset, part', inner', -, -, rfl⟩ := mem_placesFrom.mp hsecond
          exact Place.before_under_of_lt (by simp only; omega)
termination_by sizeOf node

/-! ### Traversals -/

section Traversal

variable {Context Found : Type} (enter : Context → PartRole → Option Context)

/-- What a traversal carries to the end of a path, if it enters every part on it. -/
def follow (context : Context) (path : List PathStep) : Option Context :=
  path.foldlM (fun context step => enter context step.role) context

theorem follow_cons (context : Context) (step : PathStep) (path : List PathStep) :
    follow enter context (step :: path) =
      (enter context step.role).bind fun inside => follow enter inside path := rfl

variable (own : Context → TreeNode → List Found)

/-- What a traversal finds at a single place. -/
def foundAt (context : Context) (place : Place) : List Found :=
  match follow enter context place.path with
  | some inside => own inside place.node
  | none => []

theorem foundAt_under (context : Context) (step : PathStep) (place : Place) :
    foundAt enter own context (place.under step) =
      match enter context step.role with
      | some inside => foundAt enter own inside place
      | none => [] := by
  simp only [foundAt, Place.under, follow_cons]
  cases enter context step.role <;> rfl

/-- What a run of a traversal finds in those parts that it enters. -/
def foundInParts (run : Context → TreeNode → List Found) (context : Context) (parts : List Part) :
    List Found :=
  parts.flatMap fun part =>
    match enter context part.role with
    | some inside => run inside part.node
    | none => []

/-- A traversal that finds something of its own at each construct and then goes on to those parts
that it enters finds what the places hold, in their order. -/
theorem run_eq_flatMap_places (run : Context → TreeNode → List Found)
    (hrun : ∀ context node,
      run context node = own context node ++ foundInParts enter run context node.parts)
    (context : Context) (node : TreeNode) :
    run context node = node.places.flatMap (foundAt enter own context) := by
  have hparts (parts : List Part) (hle : ∀ part ∈ parts, part ∈ node.parts) (index : Nat) :
      (placesFrom index parts).flatMap (foundAt enter own context) =
        foundInParts enter run context parts := by
    induction parts generalizing index with
    | nil => rfl
    | cons part rest ih =>
        have hsize := sizeOf_part_lt (hle part List.mem_cons_self)
        rw [placesFrom_cons, List.flatMap_append, foundInParts, List.flatMap_cons,
          ih (fun part hpart => hle part (List.mem_cons_of_mem _ hpart)), List.flatMap_map]
        congr 1
        simp only [foundAt_under]
        cases enter context part.role with
        | none => simp
        | some inside => exact (run_eq_flatMap_places run hrun inside part.node).symm
  rw [hrun, places_eq, List.flatMap_cons, hparts node.parts (fun _ h => h) 0]
  rfl
termination_by sizeOf node

end Traversal

end TreeNode
end LockDiscipline
