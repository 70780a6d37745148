import LockDiscipline.Proofs.Program.Lookup
import LockDiscipline.Proofs.Program.Recast
import LockDiscipline.Proofs.Tree.Retouch
/-!
# Classes of retouched trees

The resolver goes through a retouched tree as it goes through the tree itself: all names mean the same, and
the programs match. This is a statement about two runs, so it is made for pairs of computations: `Mirrors`
says that one of them does to a draft what the other one does to a draft that it matches, and returns the
same. There is one lemma for each way to compute and one for each step of the resolver. This module goes as
far as classes are declared and their supertypes linked.
-/

namespace LockDiscipline

/-- Drafts are the same up to the spans and the monitors in their programs, and up to which expressions were
gone through. -/
structure Draft.Matches (move : Span → Span) (draft draft' : TrackedDraft) : Prop where
  program : draft.program.Matches move draft'.program
  scopes : draft'.scopes = draft.scopes
  nestedCounts : draft'.nestedCounts = draft.nestedCounts
  receivers : draft'.receivers = draft.receivers
  trace : draft'.trace = draft.trace

namespace Program

/-! ### Changes of matching programs -/

theorem recast_declare (move : Span → Span) (program : Program) (name : String) (kind : SymbolKind)
    (type guard : Option String) (span : Span) :
    (program.declare name kind type guard span).2.recast move =
      ((program.recast move).declare name kind.unlocked type guard
        (moveAt move program.symbols.size span)).2 := by
  simp [declare, recast, NamedSymbol.recast]

theorem recast_addProblem (move : Span → Span) (program : Program) (problem : NameProblem) :
    (program.addProblem problem).recast move =
      (program.recast move).addProblem (problem.recast move) := by
  simp [addProblem, recast]

theorem recast_updateClass (move : Span → Span) (program : Program) (type : SymbolId)
    (change : ClassInfo → ClassInfo) :
    (program.updateClass type change).recast move = (program.recast move).updateClass type change := by
  simp only [updateClass, recast, Program.mk.injEq, and_true]
  apply Array.ext_getElem?
  intro index
  simp only [Array.getElem?_mapIdx, Array.getElem?_modify]
  by_cases hindex : type = index
  · simp only [if_pos hindex, Option.map_map]
    congr 1
    funext symbol
    obtain ⟨id, name, kind, declared, guard, span⟩ := symbol
    cases kind <;> rfl
  · simp only [if_neg hindex]

namespace Matches

variable {move : Span → Span} {program program' : Program} (h : program.Matches move program')
include h

theorem declare (name : String) {kind kind' : SymbolKind} (hkind : kind'.unlocked = kind.unlocked)
    (hmembers : ∀ info, kind = .classType info → info.members = default) (type guard : Option String)
    (span : Span) : (program.declare name kind type guard span).2.Matches move
      (program'.declare name kind' type guard (move span)).2 where
  recast_eq := by
    rw [recast_declare, recast_declare, h.recast_eq, hkind, moveAt_id, moveAt_of_le move h.size_le, id_eq]
  size_le := by
    rw [size_declare]
    exact Nat.le_succ_of_le h.size_le
  apart := h.apart.declare name type span hmembers fun _ => h.size_le

theorem setUse (node : NodeId) (symbol : SymbolId) :
    (program.setUse node symbol).Matches move (program'.setUse node symbol) where
  recast_eq := congrArg (·.setUse node symbol) h.recast_eq
  size_le := h.size_le
  apart := h.apart.of_eq rfl rfl

theorem addProblem {problem problem' : NameProblem} (hproblem : problem'.recast id = problem.recast move) :
    (program.addProblem problem).Matches move (program'.addProblem problem') where
  recast_eq := by rw [recast_addProblem, recast_addProblem, h.recast_eq, hproblem]
  size_le := h.size_le
  apart := h.apart.of_eq rfl rfl

theorem qualified_eq : program'.qualified = program.qualified :=
  congrArg (·.qualified) h.recast_eq

theorem withQualified (qualified : List (String × SymbolId)) :
    { program with qualified }.Matches move { program' with qualified } where
  recast_eq := congrArg (fun program => { program with qualified }) h.recast_eq
  size_le := h.size_le
  apart := h.apart.of_eq rfl rfl

theorem withTopLevel {topLevel : List (String × SymbolId)} (htop : ∀ entry ∈ topLevel, program.Own entry.2) :
    { program with topLevel }.Matches move { program' with topLevel } where
  recast_eq := congrArg (fun program => { program with topLevel }) h.recast_eq
  size_le := h.size_le
  apart := h.apart.withTopLevel htop

theorem updateClass (type : SymbolId) {change : ClassInfo → ClassInfo}
    (hchange : ∀ info, program.OwnTable info.members → program.OwnTable (change info).members) :
    (program.updateClass type change).Matches move (program'.updateClass type change) where
  recast_eq := by rw [recast_updateClass, recast_updateClass, h.recast_eq]
  size_le := (program.size_updateClass type change).symm ▸ h.size_le
  apart := h.apart.updateClass type hchange

/-- A table may change as long as it lists symbols of the unit only. -/
theorem updateMembers (type : SymbolId) {change : MemberTable → MemberTable}
    (hchange : ∀ members, program.OwnTable members → program.OwnTable (change members)) :
    (program.updateMembers type change).Matches move (program'.updateMembers type change) :=
  h.updateClass type fun info => hchange info.members

theorem spanOf_eq {symbol : SymbolId} (hown : program.Own symbol) :
    program'.spanOf symbol = move (program.spanOf symbol) := by
  have hown' : program'.Own symbol := ⟨hown.1, h.size_eq.symm ▸ hown.2⟩
  calc program'.spanOf symbol
    _ = (program'.recast id).spanOf symbol := (program'.spanOf_recast id hown').symm
    _ = (program.recast move).spanOf symbol := by rw [h.recast_eq]
    _ = move (program.spanOf symbol) := program.spanOf_recast move hown

end Matches
end Program

namespace Resolving

/-- A computation does to a draft what the other one does to the other draft, and takes no symbol away. -/
structure MirrorsAt {α : Type} (move : Span → Span) (build build' : Tracked α) (draft draft' : TrackedDraft) :
    Prop where
  value_eq : (build'.run draft').1 = (build.run draft).1
  matches_run : (build.run draft).2.Matches move (build'.run draft').2
  size_le : draft.program.symbols.size ≤ (build.run draft).2.program.symbols.size

/-- A computation does to a draft what the other one does to a draft that it matches. -/
def Mirrors {α : Type} (move : Span → Span) (build build' : Tracked α) : Prop :=
  ∀ draft draft', draft.Matches move draft' → MirrorsAt move build build' draft draft'

/-- A computation does the same as the other one if it is given a symbol of the unit. -/
def MirrorsGiven {α : Type} (move : Span → Span) (symbol : SymbolId) (build build' : Tracked α) : Prop :=
  ∀ draft draft', draft.Matches move draft' → draft.program.Own symbol →
    MirrorsAt move build build' draft draft'

/-- A computation does the same as the other one and returns a symbol of the unit. -/
def MirrorsNew (move : Span → Span) (build build' : Tracked SymbolId) : Prop :=
  ∀ draft draft', draft.Matches move draft' →
    MirrorsAt move build build' draft draft' ∧ (build.run draft).2.program.Own (build.run draft).1

theorem MirrorsAt.bind {α β : Type} {move : Span → Span} {build build' : Tracked α}
    {next next' : α → Tracked β} {draft draft' : TrackedDraft} (hbuild : MirrorsAt move build build' draft draft')
    (hnext : MirrorsAt move (next (build.run draft).1) (next' (build.run draft).1) (build.run draft).2
      (build'.run draft').2) : MirrorsAt move (build >>= next) (build' >>= next') draft draft' := by
  have hvalue : ((build' >>= next').run draft') = (next' (build.run draft).1).run (build'.run draft').2 := by
    rw [← hbuild.value_eq]
    rfl
  constructor
  case value_eq =>
    rw [hvalue]
    exact hnext.value_eq
  case matches_run =>
    rw [hvalue]
    exact hnext.matches_run
  case size_le => exact Nat.le_trans hbuild.size_le hnext.size_le

/-- A computation may go on with what it finds in the program. -/
theorem MirrorsAt.ask_bind {α β : Type} {move : Span → Span} {question question' : Program → β}
    {next next' : β → Tracked α} {draft draft' : TrackedDraft}
    (h : MirrorsAt move (next (question draft.program)) (next' (question' draft'.program)) draft draft') :
    MirrorsAt move (ask question >>= next) (ask question' >>= next') draft draft' :=
  ⟨h.value_eq, h.matches_run, h.size_le⟩

namespace Mirrors

variable {α β : Type} {move : Span → Span}

theorem pure (value : α) : Mirrors move (Pure.pure value) (Pure.pure value) :=
  fun _ _ h => ⟨rfl, h, Nat.le_refl _⟩

theorem bind {build build' : Tracked α} {next next' : α → Tracked β}
    (hbuild : Mirrors move build build') (hnext : ∀ value, Mirrors move (next value) (next' value)) :
    Mirrors move (build >>= next) (build' >>= next') := by
  intro draft draft' h
  have hat := hbuild draft draft' h
  exact hat.bind (hnext _ _ _ hat.matches_run)

/-- A computation may be followed by another one that does not depend on what it returns. -/
theorem andThen {build build' : Tracked α} {next next' : Tracked β}
    (hbuild : Mirrors move build build') (hnext : Mirrors move next next') :
    Mirrors move (build >>= fun _ => next) (build' >>= fun _ => next') :=
  hbuild.bind fun _ => hnext

/-- A symbol of the unit stays one when other things are computed. -/
theorem bind_given {symbol : SymbolId} {build build' : Tracked α} {next next' : α → Tracked β}
    (hbuild : Mirrors move build build') (hnext : ∀ value, MirrorsGiven move symbol (next value) (next' value)) :
    MirrorsGiven move symbol (build >>= next) (build' >>= next') := by
  intro draft draft' h hown
  have hat := hbuild draft draft' h
  exact hat.bind (hnext _ _ _ hat.matches_run (hown.mono hat.size_le))

/-- Where a computation goes on with what it finds in the program, the other one may find something else
there. -/
theorem ask_bind {question : Program → β} {question' : Program → β} {next next' : β → Tracked α}
    (hnext : ∀ program program', program.Matches move program' →
      Mirrors move (next (question program)) (next' (question' program'))) :
    Mirrors move (ask question >>= next) (ask question' >>= next') :=
  fun draft draft' h => (hnext draft.program draft'.program h.program draft draft' h).ask_bind

/-- A computation may go on with the draft itself. -/
theorem get_bind {next next' : TrackedDraft → Tracked α}
    (hnext : ∀ draft draft', draft.Matches move draft' → Mirrors move (next draft) (next' draft')) :
    Mirrors move (get >>= next) (get >>= next') :=
  fun draft draft' h =>
    have hat := hnext draft draft' h draft draft' h
    ⟨hat.value_eq, hat.matches_run, hat.size_le⟩

/-- What does not depend on spans and monitors is found in both programs. -/
theorem ask {question : Program → α}
    (hquestion : ∀ move program, question (program.recast move) = question program) :
    Mirrors move (ask question) (ask question) :=
  fun _ _ h => ⟨h.program.congr question hquestion, h, Nat.le_refl _⟩

theorem update {change change' : Program → Program}
    (h : ∀ program program', program.Matches move program' →
      (change program).Matches move (change' program'))
    (hsize : ∀ program, (change program).symbols.size = program.symbols.size) :
    Mirrors move (update change) (update change') :=
  fun _ _ hdraft => ⟨rfl, { hdraft with program := h _ _ hdraft.program }, Nat.le_of_eq (hsize _).symm⟩

theorem tell (event : TraceEvent) : Mirrors move (tell event) (tell event) := by
  intro draft draft' h
  refine ⟨rfl, { h with trace := ?_ }, Nat.le_refl _⟩
  change draft'.trace ++ [event] = draft.trace ++ [event]
  rw [h.trace]

end Mirrors

namespace MirrorsNew

variable {α : Type} {move : Span → Span} {build build' : Tracked SymbolId}

theorem mirrors (h : MirrorsNew move build build') : Mirrors move build build' :=
  fun draft draft' hmatches => (h draft draft' hmatches).1

/-- What follows is given the symbol that was returned. -/
theorem bind {next next' : SymbolId → Tracked α} (hbuild : MirrorsNew move build build')
    (hnext : ∀ symbol, MirrorsGiven move symbol (next symbol) (next' symbol)) :
    Mirrors move (build >>= next) (build' >>= next') := by
  intro draft draft' h
  obtain ⟨hat, hown⟩ := hbuild draft draft' h
  exact hat.bind (hnext _ _ _ hat.matches_run hown)

/-- What follows may return the symbol as well. -/
theorem andReturn {next next' : SymbolId → Tracked SymbolId} (hbuild : MirrorsNew move build build')
    (hnext : ∀ symbol, Mirrors move (next symbol) (next' symbol))
    (hreturn : ∀ symbol draft, ((next symbol).run draft).1 = symbol) :
    MirrorsNew move (build >>= next) (build' >>= next') := by
  intro draft draft' h
  obtain ⟨hat, hown⟩ := hbuild draft draft' h
  have hrest := hnext (build.run draft).1 _ _ hat.matches_run
  refine ⟨hat.bind hrest, ?_⟩
  show ((next _).run (build.run draft).2).2.program.Own ((next _).run (build.run draft).2).1
  rw [hreturn]
  exact hown.mono hrest.size_le

end MirrorsNew

/-! ### Declaring classes -/

section Steps

variable {move : Span → Span}

theorem mirrors_declare (name : String) {kind kind' : SymbolKind} (hkind : kind'.unlocked = kind.unlocked)
    (hmembers : ∀ info, kind = .classType info → info.members = default) (type guard : Option String)
    (span : Span) :
    MirrorsNew move (declare name kind type guard span) (declare name kind' type guard (move span)) := by
  intro draft draft' h
  refine ⟨⟨h.program.size_eq, ?_, ?_⟩, ?_⟩
  · exact { h with program := h.program.declare name hkind hmembers type guard span }
  · exact (draft.program.size_declare name kind type guard span).symm ▸ Nat.le_succ _
  · exact ⟨h.program.size_le, (draft.program.size_declare name kind type guard span).symm ▸ Nat.lt_succ_self _⟩

theorem mirrors_setUse (node : NodeId) (symbol : SymbolId) :
    Mirrors move (setUse node symbol) (setUse node symbol) :=
  .update (fun _ _ h => h.setUse node symbol) fun _ => rfl

/-- A problem with a symbol of the unit is noted with the place of the symbol. -/
theorem mirrors_addDuplicate {make : Span → NameProblem} {make' : Span → NameProblem}
    (hmake : ∀ previous, (make' (move previous)).recast id = (make previous).recast move)
    (previous : SymbolId) :
    MirrorsGiven move previous (update fun program => program.addProblem (make (program.spanOf previous)))
      (update fun program => program.addProblem (make' (program.spanOf previous))) := by
  intro draft draft' h hown
  refine ⟨rfl, { h with program := h.program.addProblem ?_ }, Nat.le_refl _⟩
  rw [h.program.spanOf_eq hown, hmake]

/-- What is entered into a table of symbols of the unit is one itself, and so is what was there before it. -/
theorem own_enterOnce {program : Program} (name : String) {symbol : SymbolId}
    {entries : List (String × SymbolId)} (hentries : ∀ entry ∈ entries, program.Own entry.2)
    (hown : program.Own symbol) :
    (∀ previous, (enterOnce name symbol entries).1 = some previous → program.Own previous) ∧
      ∀ entry ∈ (enterOnce name symbol entries).2, program.Own entry.2 := by
  unfold enterOnce
  split
  case h_1 previous hlookup =>
    constructor
    · intro other hother
      obtain rfl := Option.some.inj hother
      exact hentries _ (Program.mem_of_lookup_eq_some hlookup)
    · exact hentries
  case h_2 =>
    constructor
    · rintro other ⟨⟩
    · intro entry hentry
      rcases List.mem_append.mp hentry with hentry | hentry
      · exact hentries entry hentry
      · obtain rfl := List.mem_singleton.mp hentry
        exact hown

theorem mirrors_enterField (owner : SymbolId) (name : String) (symbol : SymbolId) (span : Span) :
    MirrorsGiven move symbol (enterField owner name symbol span)
      (enterField owner name symbol (move span)) := by
  intro draft draft' h hown
  apply MirrorsAt.ask_bind
  have hfields : (draft'.program.members owner).fields = (draft.program.members owner).fields :=
    h.program.congr (fun program => (program.members owner).fields) fun move program => by
      rw [Program.members_recast]
  have hentered := own_enterOnce name (h.program.apart.members owner).field hown
  rw [hfields]
  cases hresult : enterOnce name symbol (draft.program.members owner).fields with
  | mk previous? fields =>
      rw [hresult] at hentered
      cases previous? with
      | some previous => exact mirrors_addDuplicate (by intro _; rfl) previous draft draft' h (hentered.1 _ rfl)
      | none =>
          have htable : ∀ members : MemberTable, draft.program.OwnTable members →
              draft.program.OwnTable { members with fields } :=
            fun members hmembers => ⟨hentered.2, hmembers.memberClass⟩
          refine ⟨rfl, { h with program := h.program.updateMembers owner htable }, ?_⟩
          exact Nat.le_of_eq (draft.program.size_updateClass owner _).symm

theorem mirrors_declareField (owner : SymbolId) (name : String) (type guard : Option String)
    (isStatic : Bool) (node : NodeId) (span : Span) :
    Mirrors move (declareField owner name type guard isStatic node span)
      (declareField owner name type guard isStatic node (move span)) := by
  apply MirrorsNew.bind (mirrors_declare name rfl (by rintro _ ⟨⟩) type guard span)
  intro symbol
  apply Mirrors.bind_given (mirrors_setUse node symbol)
  intro _
  exact mirrors_enterField owner name symbol span

/-- A member class is entered, or there is one of its name, which is a symbol of the unit. -/
theorem mirrorsAt_enterMemberClass (owner : SymbolId) (name : String) {symbol : SymbolId}
    {draft draft' : TrackedDraft} (h : draft.Matches move draft') (hown : draft.program.Own symbol) :
    MirrorsAt move (enterMemberClass owner name symbol) (enterMemberClass owner name symbol) draft draft' ∧
      ∀ previous, ((enterMemberClass owner name symbol).run draft).1 = some previous →
        draft.program.Own previous := by
  have hclasses : (draft'.program.members owner).classes = (draft.program.members owner).classes :=
    h.program.congr (fun program => (program.members owner).classes) fun move program => by
      rw [Program.members_recast]
  have hentered := own_enterOnce name (h.program.apart.members owner).memberClass hown
  refine ⟨?_, hentered.1⟩
  apply MirrorsAt.ask_bind
  rw [hclasses]
  have htable : ∀ members : MemberTable, draft.program.OwnTable members → draft.program.OwnTable
      { members with classes := (enterOnce name symbol (draft.program.members owner).classes).2 } :=
    fun members hmembers => ⟨hmembers.field, hentered.2⟩
  refine ⟨rfl, { h with program := h.program.updateMembers owner htable }, ?_⟩
  exact Nat.le_of_eq (draft.program.size_updateClass owner _).symm

end Steps

/-! ### Declaring retouched classes -/

end Resolving

/-- A retouch that the resolver does not notice: static methods stay static. -/
def Retouch.Regular (retouch : Retouch) : Prop :=
  ∀ id keywords, (retouch.keywords id keywords).contains .static = keywords.contains .static

namespace Resolving

section Declaring

variable {retouch : Retouch}

theorem mirrors_declareFields [retouch.KeepsNames] (owner : SymbolId) (modifiers : Modifiers) (type : String)
    (isStatic : Bool) (declarators : List Declarator) :
    Mirrors retouch.span (declareFields owner modifiers type isStatic declarators)
      (declareFields owner (modifiers.retouch retouch) type isStatic
        (declarators.map (·.retouch retouch))) := by
  induction declarators with
  | nil => exact .pure ()
  | cons declarator rest ih =>
      apply Mirrors.bind
      · simp only [Retouch.guardedBy?_modifiers, Declarator.name_retouch, retouch.name_eq,
          Declarator.id_retouch, Declarator.span_retouch]
        apply mirrors_declareField
      · intro _
        exact ih

theorem mirrors_declareMethod (hregular : retouch.Regular) (owner : SymbolId) (method : MethodDecl)
    (inInterface : Bool) :
    Mirrors retouch.span (declareMethod owner method inInterface)
      (declareMethod owner (method.retouch retouch) inInterface) := by
  obtain ⟨id, name, modifiers, typeParams, returnType, params, throws, body, span⟩ := method
  have hguard : ({ modifiers.retouch retouch with keywords := retouch.keywords id modifiers.keywords } :
      Modifiers).guardedBy? = modifiers.guardedBy? :=
    Retouch.guardedBy?_of_annotations retouch (modifiers.annotations_retouch retouch)
  apply Mirrors.bind
  · dsimp only [MethodDecl.retouch]
    rw [hguard]
    apply MirrorsNew.mirrors
    apply mirrors_declare _ _ (by rintro _ ⟨⟩)
    simp only [SymbolKind.unlocked, Modifiers.has, hregular id modifiers.keywords, retouchParams_eq, List.length_map]
  · intro symbol
    apply Mirrors.bind (mirrors_setUse _ _)
    intro _
    apply Mirrors.update
    · intro program program' h
      exact h.updateMembers owner fun _ hmembers => ⟨hmembers.field, hmembers.memberClass⟩
    · intro program
      exact program.size_updateClass owner _

end Declaring

theorem mirrors_declareClassSymbol {move : Span → Span} (node : NodeId) (name : String) (kind : ClassKind)
    (outer : Option SymbolId) (qualifiedName : String) (isStatic : Bool) (span : Span) :
    MirrorsNew move (declareClassSymbol node name kind outer qualifiedName isStatic span)
      (declareClassSymbol node name kind outer qualifiedName isStatic (move span)) := by
  apply MirrorsNew.andReturn (mirrors_declare name rfl (by rintro _ ⟨⟩; rfl) none none span) _ fun _ _ => rfl
  intro symbol
  apply Mirrors.bind (mirrors_setUse node symbol)
  intro _
  apply Mirrors.bind
  · apply Mirrors.update
    · intro program program' h
      rw [h.qualified_eq]
      exact h.withQualified _
    · intro program
      rfl
  · intro _
    exact .pure symbol

section Classes

variable {retouch : Retouch}

mutual

theorem mirrors_declareClass [retouch.KeepsNames] (hregular : retouch.Regular) (outer : Option SymbolId)
    (name qualifiedName : String) (isStatic : Bool) :
    ∀ decl : ClassDecl, MirrorsNew retouch.span (declareClass outer name qualifiedName isStatic decl)
      (declareClass outer name qualifiedName isStatic (decl.retouch retouch))
  | ⟨node, ownName, kind, _, _, _, _, members, span⟩ => by
      apply MirrorsNew.andReturn
        (mirrors_declareClassSymbol node name kind outer qualifiedName isStatic span) _ fun _ _ => rfl
      intro symbol
      apply Mirrors.bind
        (mirrors_declareMembers hregular symbol qualifiedName ownName (kind == .interface) members)
      intro _
      exact .pure symbol

theorem mirrors_declareMembers [retouch.KeepsNames] (hregular : retouch.Regular) (owner : SymbolId)
    (qualifiedName className : String) (inInterface : Bool) :
    ∀ members : List Member,
      Mirrors retouch.span (declareMembers owner qualifiedName className inInterface members)
        (declareMembers owner qualifiedName className inInterface (retouchMembers retouch members))
  | [] => .pure ()
  | ⟨node, kind, span⟩ :: rest => by
      apply Mirrors.bind
        (mirrors_declareMember hregular owner qualifiedName className inInterface node span kind)
      intro _
      exact mirrors_declareMembers hregular owner qualifiedName className inInterface rest

theorem mirrors_declareMember [retouch.KeepsNames] (hregular : retouch.Regular) (owner : SymbolId)
    (qualifiedName className : String) (inInterface : Bool)
    (node : NodeId) (span : Span) : ∀ kind : MemberKind,
      Mirrors retouch.span (declareMember owner qualifiedName className inInterface node span kind)
        (declareMember owner qualifiedName className inInterface node (retouch.span span)
          (kind.retouch retouch))
  | .field modifiers type declarators => by
      simp only [declareMember, MemberKind.retouch, retouchDeclarators_eq, Retouch.has_modifiers]
      exact mirrors_declareFields owner modifiers type _ declarators
  | .enumConstant name _ _ =>
      mirrors_declareField owner name (some className) none true node span
  | .method method => mirrors_declareMethod hregular owner method inInterface
  | .initializer _ _ => .pure ()
  | .classDecl decl => by
      simp only [declareMember, MemberKind.retouch, ClassDecl.modifiers_retouch, ClassDecl.kind_retouch,
        ClassDecl.name_retouch, ClassDecl.span_retouch, Retouch.has_modifiers]
      apply MirrorsNew.bind
        (mirrors_declareClass hregular (some owner) decl.name (qualifiedName ++ "." ++ decl.name) _ decl)
      intro symbol draft draft' h hown
      obtain ⟨hat, hprevious⟩ := mirrorsAt_enterMemberClass owner decl.name h hown
      apply hat.bind
      cases hresult : ((enterMemberClass owner decl.name symbol).run draft).1 with
      | none => exact Mirrors.pure () _ _ hat.matches_run
      | some previous =>
          exact mirrors_addDuplicate (by intro _; rfl) previous _ _ hat.matches_run
            ((hprevious previous hresult).mono hat.size_le)

end

end Classes

/-! ### Linking supertypes -/

section Links

variable {move : Span → Span}

theorem mirrors_findSupertype (scope : SymbolId) (type : String) :
    Mirrors move (findSupertype scope type) (findSupertype scope type) := by
  apply Mirrors.bind
  · apply Mirrors.ask
    intro move program
    have hfind : (program.recast move).findType? scope = program.findType? scope :=
      funext (program.findType?_recast move scope)
    rw [hfind]
  · intro found
    dsimp only
    split
    · apply Mirrors.bind (.tell _)
      intro _
      exact .pure found
    · exact .pure found

theorem mirrors_findSupertypes (scope : SymbolId) (types : List String) :
    Mirrors move (findSupertypes scope types) (findSupertypes scope types) := by
  induction types with
  | nil => exact .pure []
  | cons type rest ih =>
      apply Mirrors.bind (mirrors_findSupertype scope type)
      intro found
      apply Mirrors.bind ih
      intro others
      exact .pure _

theorem mirrors_setSupertypes (symbol : SymbolId) (superclass : Option SymbolId)
    (interfaces : List SymbolId) (span : Span) :
    Mirrors move (setSupertypes symbol superclass interfaces span)
      (setSupertypes symbol superclass interfaces (move span)) := by
  apply Mirrors.get_bind
  intro draft draft' h
  have hacyclic : draft'.program.isSubclass = draft.program.isSubclass := by
    funext type ancestor
    exact h.program.congr (·.isSubclass type ancestor) fun move program =>
      program.isSubclass_recast move type ancestor
  have hname : (draft'.program.symbol? symbol).map (·.name) =
      (draft.program.symbol? symbol).map (·.name) := by
    have hsymbol := congrArg (Option.map (·.name)) (h.program.symbol?_map symbol)
    simpa only [Option.map_map, Function.comp_def, NamedSymbol.name_recast] using hsymbol
  have hlink : Mirrors move (update (·.updateClass symbol fun info => { info with
      superclass := superclass.filter fun supertype => !draft.program.isSubclass supertype symbol
      interfaces := interfaces.filter fun supertype => !draft.program.isSubclass supertype symbol }))
      (update (·.updateClass symbol fun info => { info with
        superclass := superclass.filter fun supertype => !draft.program.isSubclass supertype symbol
        interfaces := interfaces.filter fun supertype => !draft.program.isSubclass supertype symbol })) :=
    .update (fun _ _ h => h.updateClass symbol fun _ hmembers => hmembers)
      fun program => program.size_updateClass symbol _
  dsimp only
  rw [hacyclic, hname]
  split
  · apply Mirrors.bind
    · apply Mirrors.update
      · intro program program' h
        exact h.addProblem rfl
      · intro program
        rfl
    · intro _
      exact hlink
  · exact hlink

end Links

section LinkedClasses

variable {retouch : Retouch}

mutual

theorem mirrors_linkClass (symbol : SymbolId) : ∀ decl : ClassDecl,
    Mirrors retouch.span (linkClass symbol decl) (linkClass symbol (decl.retouch retouch))
  | ⟨_, _, _, _, _, superclass, interfaces, members, span⟩ => by
      apply Mirrors.bind (.ask fun move program => by simp only [Program.outerClass?_recast])
      intro scope
      have hrest (superclass : Option SymbolId) : Mirrors retouch.span
          (do
            let interfaces ← findSupertypes scope interfaces
            setSupertypes symbol superclass interfaces span
            linkMembers members)
          (do
            let interfaces ← findSupertypes scope interfaces
            setSupertypes symbol superclass interfaces (retouch.span span)
            linkMembers (retouchMembers retouch members)) := by
        apply Mirrors.bind (mirrors_findSupertypes scope interfaces)
        intro interfaces
        apply Mirrors.bind (mirrors_setSupertypes symbol superclass interfaces span)
        intro _
        exact mirrors_linkMembers members
      cases superclass with
      | none => exact .bind (.pure none) hrest
      | some type => exact .bind (mirrors_findSupertype scope type) hrest

theorem mirrors_linkMembers : ∀ members : List Member,
    Mirrors retouch.span (linkMembers members) (linkMembers (retouchMembers retouch members))
  | [] => .pure ()
  | ⟨_, kind, _⟩ :: rest => by
      apply Mirrors.bind (mirrors_linkMember kind)
      intro _
      exact mirrors_linkMembers rest

theorem mirrors_linkMember : ∀ kind : MemberKind,
    Mirrors retouch.span (linkMember kind) (linkMember (kind.retouch retouch))
  | .classDecl decl => by
      simp only [linkMember, MemberKind.retouch, ClassDecl.id_retouch]
      apply Mirrors.bind (.ask fun move program => program.use?_recast move decl.id)
      intro symbol?
      cases symbol? with
      | none => exact .pure ()
      | some symbol => exact mirrors_linkClass symbol decl
  | .field _ _ _ | .method _ | .initializer _ _ | .enumConstant _ _ _ => .pure ()

end

end LinkedClasses

end Resolving
end LockDiscipline
