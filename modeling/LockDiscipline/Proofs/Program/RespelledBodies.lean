import LockDiscipline.Proofs.Program.Provenance
import LockDiscipline.Proofs.Program.RespelledNames
/-!
# Units in which a local variable is respelled

The second part of the resolver goes through the bodies of classes. Two runs are compared: the run on the respelled
tree does to the respelled draft what the run on the tree does to the draft. What is recorded for a number in the end
decides whether the name there is respelled, so it is assumed of a part of the run that the numbers in it keep what
the part records for them; `Resolving.Settled` says so. That computations in step are done alike then is shown by
induction on what is done in step, and `CompilationUnit.Respellable.respell_ofUnit` says what comes of it: in the
respelled unit the names mean what they mean in the unit.
-/

namespace LockDiscipline
namespace Resolving

/-! ### Runs that are settled -/

/-- The numbers for which uses are recorded when parts are gone through, and some more numbers. -/
def Records (ids : List NodeId) (parts : List Part) (id : NodeId) : Prop :=
  id ∈ ids ∨ Part.Reached parts id

theorem Records.mem {ids : List NodeId} {parts : List Part} {id : NodeId} (h : Records ids parts id) :
    id ∈ ids ++ TreeNode.numbersOf parts :=
  List.mem_append.mpr (h.imp_right Part.Reached.mem_numbersOf)

theorem Records.of_parts {role : PartRole} {node : TreeNode} {course : Course} {id : NodeId}
    (hseen : course.seen.Perm node.resolved) (h : Records (node.recordedIds role) course.parts id) :
    Records [] [⟨role, node⟩] id := by
  refine .inr (Part.Reached.singleton_iff.mpr ?_)
  rcases h with hid | ⟨part, hpart, hreaches⟩
  · exact .here hid
  · obtain ⟨hpart', hrole⟩ := TreeNode.mem_parts_of_resolved hseen hpart
    exact hreaches.of_part hpart' hrole

/-- What is recorded between two programs for some numbers is what is recorded for them in the end. Before it the
variable was recorded for none of them, and after it the respelling still fits. -/
structure Settled (respelling : Respelling) (final : Program) (recorded : NodeId → Prop) (before after : Program) :
    Prop where
  fits : respelling.Fits after
  uses : ∀ id, recorded id → final.use? id = after.use? id
  clear : ∀ id, recorded id → before.use? id ≠ some respelling.symbol

namespace Settled

variable {respelling : Respelling} {final before middle after : Program} {recorded recorded' : NodeId → Prop}

theorem mono (h : Settled respelling final recorded before after) (himp : ∀ id, recorded' id → recorded id) :
    Settled respelling final recorded' before after :=
  ⟨h.fits, fun id hid => h.uses id (himp id hid), fun id hid => h.clear id (himp id hid)⟩

/-- What is settled after two computations was so after the first one. -/
theorem first {classes : Prop} (h : Settled respelling final recorded before after)
    (hgrows : Program.Grows classes middle after) (himp : ∀ id, recorded' id → recorded id)
    (huses : ∀ id, recorded' id → after.use? id = middle.use? id) :
    Settled respelling final recorded' before middle :=
  ⟨h.fits.of_grows hgrows, fun id hid => (h.uses id (himp id hid)).trans (huses id hid),
    fun id hid => h.clear id (himp id hid)⟩

/-- What is settled after two computations is so after the second one. -/
theorem second (h : Settled respelling final recorded before after) (himp : ∀ id, recorded' id → recorded id)
    (huses : ∀ id, recorded' id → middle.use? id = before.use? id) :
    Settled respelling final recorded' middle after :=
  ⟨h.fits, fun id hid => h.uses id (himp id hid), fun id hid => huses id hid ▸ h.clear id (himp id hid)⟩

end Settled

/-! ### What is done in step -/

/-- From wherever a computation is ready for its parts and settled, the other one is done alike. -/
def RespellsAlong (respelling : Respelling) (final : Program) {α : Type} (ids : List NodeId) (course : Course)
    (build build' : Tracked α) : Prop :=
  ∀ ⦃draft : TrackedDraft⦄, Ready ids course.parts draft → draft.Placed →
    Settled respelling final (Records ids course.parts) draft.program (build.run draft).2.program →
      Respells respelling build build' draft

section Bodies

variable {respelling : Respelling} {final : Program}

namespace RespellsAlong

variable {α β : Type} {ids ids' : List NodeId} {course course' : Course} {build build' : Tracked α}

theorem bind {next next' : α → Tracked β} (h : RespellsAlong respelling final ids course build build')
    (hcovers : Covers ids course build) (hnext : ∀ value, RespellsAlong respelling final ids' course' (next value)
      (next' value)) (hcovers' : ∀ value, Covers ids' course' (next value)) :
    RespellsAlong respelling final (ids ++ ids') (course ++ course') (build >>= next) (build' >>= next') := by
  intro draft hready hplaced hsettled
  rw [Course.parts_append] at hready hsettled
  rw [run_bind] at hsettled
  have hmiddle := hcovers.ready_next hready
  have hapart {id : NodeId} (hid : Records ids' course'.parts id) : id ∉ ids ++ TreeNode.numbersOf course.parts :=
    fun hmem => (List.mem_append.mp hid.mem).elim (hready.disjoint hmem).1 (hready.disjoint hmem).2
  have hfirst := h hready.left hplaced (hsettled.first ((hcovers' _).grows _ hmiddle.wellFormed)
    (fun id => Or.imp (List.mem_append_left _) fun hid => Part.Reached.append_iff.mpr (.inl hid))
    fun id hid => (hcovers' _).uses _ hmiddle.wellFormed id (hready.disjoint hid.mem).1
      fun hreached => (hready.disjoint hid.mem).2 hreached.mem_numbersOf)
  refine hfirst.bind (hnext _ hmiddle hfirst.placed (hsettled.second
    (fun id => Or.imp (List.mem_append_right _) fun hid => Part.Reached.append_iff.mpr (.inr hid))
    fun id hid => hcovers.uses draft hready.wellFormed id (fun hmem => hapart hid (List.mem_append_left _ hmem))
      fun hreached => hapart hid (List.mem_append_right _ hreached.mem_numbersOf)))

theorem weaken (h : RespellsAlong respelling final ids course build build') (hids : ids.Sublist ids')
    (hseen : course.seen.Perm course'.seen) : RespellsAlong respelling final ids' course' build build' := by
  intro draft hready hplaced hsettled
  refine h (hready.weaken hids (hseen.map _)) hplaced (hsettled.mono fun id => Or.imp (hids.subset ·) ?_)
  rintro ⟨part, hpart, hreaches⟩
  exact ⟨part, (hseen.map _).mem_iff.mp hpart, hreaches⟩

theorem inScope {kind : ScopeKind} (hkind : kind.class? = none)
    (h : RespellsAlong respelling final ids course build build') (hcovers : Covers ids course build) :
    RespellsAlong respelling final ids course.confined (inScope kind build) (inScope kind build') := by
  intro draft hready hplaced hsettled
  rw [Course.parts_confined] at hready hsettled
  obtain ⟨bindings, hbinds, -⟩ := hcovers.scopes { draft with scopes := draft.scopes.push kind }
  refine .inScope hplaced (h (hready.push hkind) (hplaced.push ?_) hsettled)
    (hcovers.grows { draft with scopes := draft.scopes.push kind } hready.wellFormed) hbinds.pop
  rw [hkind]
  nofun

/-- A construct is gone through alike when its parts are. -/
theorem of_parts {role : PartRole} {node : TreeNode} (hseen : course.seen.Perm node.resolved)
    (hrole : role ≠ .nested) (hclass : ∀ decl, node ≠ .classDecl decl)
    (h : RespellsAlong respelling final (node.recordedIds role) course build build') :
    RespellsAlong respelling final [] (.one ⟨role, node⟩) build build' :=
  fun _ hready hplaced hsettled =>
    h (hready.of_parts hseen hrole hclass) hplaced (hsettled.mono fun _ => .of_parts hseen)

section Kinds

variable {id : NodeId} {kind kind' : ExprKind} {span : Span}
  (h : RespellsAlong respelling final [id] (kind.course span) (resolveExprKind id span kind)
    (resolveExprKind id span kind'))
include h

theorem expr (role : PartRole) (hrole : role ≠ .nested) :
    RespellsAlong respelling final [] (.one ⟨role, .expr ⟨id, kind, span⟩⟩) (resolveExpr ⟨id, kind, span⟩)
      (resolveExpr ⟨id, kind', span⟩) := by
  intro draft hready hplaced hsettled
  have hseen : (kind.course span).seen.Perm (TreeNode.expr ⟨id, kind, span⟩).resolved :=
    .of_eq (TreeNode.resolved_expr ⟨id, kind, span⟩).symm
  have hready' : Ready [id] (kind.course span).parts draft := hready.of_parts hseen hrole nofun
  rw [run_resolveExpr] at hsettled
  exact .resolveExpr (@h (visiting draft id) { hready' with } { hplaced with } (hsettled.mono fun _ => .of_parts hseen))

/-- A label is gone through as an expression unless it names a constant. -/
theorem label (selector : Option SymbolId)
    (hkind' : kind' = (kind.retouch (respelling.retouch final)).respell (respelling.nameAt final id))
    (hcovers : Covers [] (.one ⟨.label, .expr ⟨id, kind, span⟩⟩) (resolveExpr ⟨id, kind, span⟩)) :
    RespellsAlong respelling final [] (.one ⟨.label, .expr ⟨id, kind, span⟩⟩)
      (resolveLabel selector ⟨id, kind, span⟩) (resolveLabel selector ⟨id, kind', span⟩) := by
  subst hkind'
  intro draft hready hplaced hsettled
  have hseen : (kind.course span).seen.Perm (TreeNode.expr ⟨id, kind, span⟩).resolved :=
    .of_eq (TreeNode.resolved_expr ⟨id, kind, span⟩).symm
  have hready' : Ready [id] (kind.course span).parts draft := hready.of_parts hseen nofun nofun
  have hfits := hsettled.fits.of_grows ((Covers.label selector hcovers).grows draft hready.wellFormed)
  rw [Covers.run_resolveLabel] at hsettled
  refine .resolveLabel hplaced (findConstant_nameAt hfits hready.wellFormed selector id kind fun huse => ?_)
    fun hnone => ?_
  · -- A constant would be recorded, which is no variable.
    refine Option.eq_none_iff_forall_ne_some.mpr fun constant hconstant => ?_
    rw [hconstant, Option.elim_some] at hsettled
    obtain ⟨name, type, -, hfield⟩ := Covers.exists_of_findConstant hconstant
    have hid := hsettled.uses id (.inr (Part.Reached.singleton_iff.mpr (.here (List.mem_singleton_self id))))
    rw [huse] at hid
    obtain rfl := Option.some.inj (hid.trans ((Program.use?_setUse ..).trans (if_pos rfl)))
    exact hfits.findField?_ne hready.wellFormed type name hfield
  · rw [hnone, Option.elim_none, run_resolveExpr] at hsettled
    exact @h (visiting draft id) { hready' with } { hplaced with } (hsettled.mono fun _ => .of_parts hseen)

end Kinds

/-- A local variable is declared under its new name if it is the one that is respelled. -/
theorem localVariable (name : String) (type : Option String) (node : NodeId) (span : Span) :
    RespellsAlong respelling final [node] (.declares [.node node name])
      (declareVariable name type (some node) span false)
      (declareVariable (respelling.nameAt final node name) type (some node) span false) := by
  intro draft hready hplaced hsettled
  refine .declareVariable hplaced name type (some node) span false fun hcurrent => ?_
  obtain ⟨context, hself⟩ := Option.ne_none_iff_exists'.mp hcurrent
  obtain ⟨-, symbol, hsymbol, hname, -, -⟩ := declareVariable_symbol name type (some node) span false hself
  have huse : final.use? node = some draft.program.symbols.size := by
    rw [hsettled.uses node (.inl (List.mem_singleton_self node)),
      run_declareVariable name type (some node) span false hself]
    exact (Program.use?_setUse ..).trans (if_pos rfl)
  by_cases hid : draft.program.symbols.size = respelling.symbol
  · rw [if_pos hid]
    rw [hid] at hsymbol huse
    exact (if_pos ⟨huse, hname ▸ (hsettled.fits.isLocal hsymbol).1⟩).symm
  · rw [if_neg hid]
    exact (respelling.nameAt_of_ne final (by rw [huse]; exact fun heq => hid (Option.some.inj heq)) name).symm

/-! Classes are gone through in their scopes. -/

section Members

variable {role : PartRole} {decl : ClassDecl} {members' : Tracked Unit}
  (h : RespellsAlong respelling final [] (.ofParts (memberParts decl.members)) (resolveMembers decl.members) members')
  (hcovers : Covers [] (.ofParts (memberParts decl.members)) (resolveMembers decl.members))
include h hcovers

/-- The members of a class that is declared are gone through alike. -/
theorem classBody {id : SymbolId} {draft : TrackedDraft} (hdraft : draft.program.WellFormed)
    (hnodup : (TreeNode.classDecl decl).numbers.Nodup) (huse : draft.program.use? decl.id = some id)
    (hdeclared : draft.program.Declared draft.scopes.currentClass? decl) (hplaced : draft.Placed)
    (hsettled : Settled respelling final (Records [] [⟨role, .classDecl decl⟩]) draft.program
      ((Resolving.inScope (.classBody id) (resolveMembers decl.members)).run draft).2.program) :
    Respells respelling (Resolving.inScope (.classBody id) (resolveMembers decl.members))
      (Resolving.inScope (.classBody id) members') draft := by
  have hready := ready_inside hdraft hnodup huse hdeclared
  rw [← Course.parts_ofParts (memberParts decl.members)] at hready
  obtain ⟨bindings, hbinds, -⟩ := hcovers.scopes (inside draft id)
  refine .inScope hplaced (h hready (hplaced.push ?_) (hsettled.mono fun number hnumber => ?_))
    (hcovers.grows (inside draft id) hdraft) hbinds.pop
  · rintro _ ⟨⟩
    obtain ⟨huse', hinfo, -⟩ := hdeclared
    obtain rfl := Option.some.inj (huse.symm.trans huse')
    exact ⟨_, hinfo⟩
  · rw [Course.parts_ofParts] at hnumber
    refine .inr (Part.Reached.singleton_iff.mpr (reaches_of_memberParts ?_))
    exact hnumber.resolve_left List.not_mem_nil

theorem memberClass {decl' : ClassDecl} (hid : decl'.id = decl.id)
    (hmembers : resolveMembers decl'.members = members') :
    RespellsAlong respelling final [] (.one ⟨.declared, .classDecl decl⟩) (resolveMemberClass decl)
      (resolveMemberClass decl') := by
  subst hmembers
  intro draft hready hplaced hsettled
  have hdeclared := hready.declared _ (List.mem_singleton_self _) nofun decl rfl
  have hnodup : (TreeNode.classDecl decl).numbers.Nodup := by
    simpa [TreeNode.numbersOf] using hready.nodup
  obtain ⟨id, huse⟩ := hdeclared.exists_use?
  rw [run_resolveMemberClass, huse, Option.elim_some] at hsettled
  have hbody := h.classBody hcovers hready.wellFormed hnodup huse hdeclared hplaced hsettled
  obtain ⟨node, name, kind, modifiers, typeParams, superclass, interfaces, members, span⟩ := decl
  obtain ⟨node', name', kind', modifiers', typeParams', superclass', interfaces', members', span'⟩ := decl'
  obtain rfl : node' = node := hid
  refine .bind (.ask hplaced rfl) ?_
  rw [run_ask, huse]
  exact hbody

/-- A local or anonymous class is declared and linked alike, since its nodes keep their names, and then gone through
in its scope. -/
theorem nested {decl' : ClassDecl} (hdecl' : decl' = decl.retouch (respelling.retouch final))
    (hmembers : resolveMembers decl'.members = members') :
    RespellsAlong respelling final [] (.one (nestedPart decl)) (resolveNested decl) (resolveNested decl') := by
  subst hmembers
  intro draft hready hplaced hsettled
  have hnodup : (TreeNode.classDecl decl).numbers.Nodup := by
    simpa [nestedPart, TreeNode.numbersOf] using hready.nodup
  have hnested := declareNested_spec decl hready.wellFormed
  obtain ⟨self, info, hself, hinfo⟩ := hready.current
  obtain ⟨id, hid⟩ := Option.isSome_iff_exists.mp (hnested.some self info hself hinfo)
  obtain ⟨huse, hdeclared⟩ := hnested.declared hnodup id hid
  have hmiddle := hnested.declares.wellFormed hready.wellFormed
  have hscopes := ((keepsPlace_declareNested decl).samePlace draft).scopes
  rw [run_resolveNested, hid, Option.elim_some] at hsettled
  have hfits := hsettled.fits.of_grows (@Covers.grows_classBody decl id .nested hcovers _ hmiddle)
  have hne {number : NodeId} (hnumber : number ∈ decl.declaring) :=
    hfits.use?_ne_of_declared hdeclared (fun _ htype => (hplaced.isClass htype).mono hnested.declares.grows) hnumber
  have hdeclare : declareNested decl' = (declareNested decl : Tracked _) := by
    rw [hdecl']
    refine declareNested_ofNames _ decl fun number hnumber => respelling.nameAt_of_ne final ?_
    rw [hsettled.uses number (.inr (Part.Reached.singleton_iff.mpr (.here hnumber))),
      hcovers.uses_classBody _ hmiddle (ClassDecl.not_reaches_of_declaring hnodup hnumber)]
    exact hne hnumber
  have hnest : Respells respelling (declareNested decl) (declareNested decl') draft := by
    rw [hdeclare]
    refine ⟨respells_declareNested respelling hready.wellFormed hplaced.inClasses (fun _ => hplaced.isClass) hnodup,
      hplaced.grow hnested.declares.grows (inClasses_declareNested hready.wellFormed hplaced.inClasses
        (fun _ => hplaced.isClass) hnodup) fun item hitem => .inl ?_⟩
    rwa [hscopes] at hitem
  have hbody := h.classBody hcovers hmiddle hnodup huse (by rwa [hscopes]) hnest.placed
    ⟨hsettled.fits, hsettled.uses, fun number hnumber => ?_⟩
  · clear hdecl'
    obtain ⟨node, name, kind, modifiers, typeParams, superclass, interfaces, members, span⟩ := decl
    obtain ⟨node', name', kind', modifiers', typeParams', superclass', interfaces', members', span'⟩ := decl'
    refine .bind hnest ?_
    rw [hid]
    exact hbody.bind (.pure hbody.placed _)
  · by_cases hmem : number ∈ decl.declaring
    · exact hne hmem
    · rw [hnested.declares.uses number hmem]
      exact hsettled.clear number hnumber

end Members

end RespellsAlong

/-- What is done in step on the retouched tree is done alike on the respelled draft. -/
theorem InStep.respells {α : Type} {ids : List NodeId} {course : Course} {build build' : Tracked α}
    (h : InStep (respelling.shedding final) ids course build build') :
    RespellsAlong respelling final ids course build build' := by
  induction h with
  | pure value => exact fun _ _ hplaced _ => .pure hplaced value
  | bind hfirst hsecond ihfirst ihsecond =>
      exact ihfirst.bind hfirst.covers ihsecond fun value => (hsecond value).covers
  | weaken _ hids hseen _ ih => exact ih.weaken hids hseen
  | inScope kind hkind h ih => exact ih.inScope hkind h.covers
  | currentClass? => exact fun _ _ hplaced _ => .currentClass? hplaced
  | superclass context => exact fun _ _ hplaced _ => .superclass hplaced context
  | used node => exact fun _ _ hplaced _ => .ask hplaced rfl
  | findTypeHere type => exact fun _ _ hplaced _ => .findTypeHere hplaced type
  | setUse node id => exact fun _ _ hplaced _ => .setUse hplaced node id
  | useType node found => exact fun _ _ hplaced _ => .useType hplaced node found
  | useMethod node found => exact fun _ _ hplaced _ => .useMethod hplaced node found
  | findScopedMethod method arity => exact fun _ _ hplaced _ => .findScopedMethod hplaced method arity
  | useMethodOf node type method arity => exact fun _ _ hplaced _ => .useMethodOf hplaced node type method arity
  | @resolveName node name hname =>
      intro draft hready hplaced hsettled
      have hfits := hsettled.fits.of_grows ((Covers.resolveName node name).grows draft hready.wellFormed)
      have hnode := List.mem_singleton_self node
      exact .resolveName hplaced hready.wellFormed hfits hname (hsettled.uses node (.inl hnode))
        (hsettled.clear node (.inl hnode))
  | @resolveSelect node object name span _ qualifier =>
      intro draft hready hplaced hsettled
      have hfits := hsettled.fits.of_grows ((Covers.resolveSelect node qualifier name _).grows draft hready.wellFormed)
      have hstrip : (object.retouch (respelling.shedding final).retouch).strip (respelling.shedding final).extra =
          object.retouch (respelling.retouch final) := Expr.strip_none _
      rw [hstrip]
      exact .resolveSelect hplaced hfits node qualifier name (respelling.dottedName?_retouch final object name)
  | localType type init => exact fun _ _ hplaced _ => .localType hplaced type init
  | localVariable name type node span => exact .localVariable name type node span
  | parameter name type node span =>
      exact fun _ _ hplaced hsettled => .declareParameter hplaced name type (some node) span hsettled.fits
  | lambdaParams span names =>
      exact fun _ _ hplaced hsettled => .declareLambdaParams hplaced span names hsettled.fits
  | unfold hunfolds _ ih =>
      obtain ⟨rfl, hseen, -, hrole, -, hclass⟩ := hunfolds
      exact ih.of_parts hseen hrole hclass
  | @expr id kind kind' span role hrole h ih =>
      have hshed : Expr.shed (respelling.shedding final).extra
          ⟨id, kind', (respelling.shedding final).retouch.span span⟩ = ⟨id, kind', span⟩ :=
        Expr.shed_none _
      rw [hshed]
      exact ih.expr role hrole
  | @stmt id kind span build' role hrole h ih =>
      exact .of_parts (.of_eq (TreeNode.resolved_stmt ⟨id, kind, span⟩).symm) hrole nofun ih
  | @label id kind span selector h ih =>
      exact ih.label selector (ExprKind.strip_none _) (.expr .label nofun h.covers)
  | @nested decl h ih =>
      exact ih.nested h.covers (ClassDecl.strip_none _)
        (by rw [ClassDecl.members_strip, ClassDecl.members_retouch, retouchMembers_eq])
  | @memberClass decl h ih =>
      exact ih.memberClass h.covers (by rw [ClassDecl.id_strip, ClassDecl.id_retouch])
        (by rw [ClassDecl.members_strip, ClassDecl.members_retouch, retouchMembers_eq])

/-- The bodies of top-level classes are gone through alike. -/
theorem respells_resolveTopLevel (classes : List (SymbolId × ClassDecl)) {draft : TrackedDraft}
    (hdraft : draft.program.WellFormed) (hnodup : (TreeNode.numbersOf (classParts classes)).Nodup)
    (htop : TopLevel draft.program classes) (hscopes : draft.scopes.currentClass? = none) (hplaced : draft.Placed)
    (hadmits : ∀ entry ∈ classes, (respelling.shedding final).Admits (.classDecl entry.2))
    (hsettled : Settled respelling final (Part.Reached (classParts classes)) draft.program
      ((resolveTopLevel classes).run draft).2.program) :
    Respells respelling (resolveTopLevel classes)
      (resolveTopLevel (classes.map fun entry => (entry.1, entry.2.retouch (respelling.retouch final)))) draft := by
  induction classes generalizing draft with
  | nil => exact .pure hplaced ()
  | cons entry rest ih =>
      replace hnodup : ((TreeNode.classDecl entry.2).numbers ++
        TreeNode.numbersOf (classParts rest)).Nodup := hnodup
      obtain ⟨hentry, hadmits⟩ := List.forall_mem_cons.mp hadmits
      obtain ⟨⟨huse, hdeclared⟩, htop⟩ := List.forall_mem_cons.mp htop
      have hpass := passes_classBody entry.1 entry.2 hdraft
      have hdraft' := hpass.grows.wellFormed hdraft
      have hpass' := passes_resolveTopLevel rest hdraft'
      have hbinds := ScopeStack.Binds.of_eq hpass.scopes
      have hfirst : Covered (.one ⟨.declared, .classDecl entry.2⟩) draft
          ((inScope (.classBody entry.1) (resolveMembers entry.2.members)).run draft).2 :=
        .classBody hdraft hnodup.of_append_left huse (hscopes ▸ hdeclared)
          (covers_resolveMembers entry.2.members)
      have hapart {id : NodeId} (hid : id ∈ (TreeNode.classDecl entry.2).numbers)
          (hrest : id ∈ TreeNode.numbersOf (classParts rest)) : False :=
        List.disjoint_of_nodup_append hnodup hid hrest
      have hmembers : RespellsAlong respelling final [] (.ofParts (memberParts entry.2.members))
          (resolveMembers entry.2.members) (resolveMembers (entry.2.retouch (respelling.retouch final)).members) := by
        have hsame := congrArg ClassDecl.members (entry.2.retouch (respelling.retouch final)).strip_none
        rw [← hsame, ClassDecl.members_strip, ClassDecl.members_retouch, ← retouchMembers_eq]
        exact (inStep_resolveMembers entry.2.members fun member hmember =>
          hentry.child (by simp [TreeNode.parts, hmember])).respells
      have hreached {id : NodeId} : Part.Reached (classParts (entry :: rest)) id ↔
          Part.Reached [⟨.declared, .classDecl entry.2⟩] id ∨ Part.Reached (classParts rest) id :=
        @Part.Reached.append_iff [_] (classParts rest) id
      have hsettled' : Settled respelling final (Records [] [⟨.declared, .classDecl entry.2⟩]) draft.program
          ((inScope (.classBody entry.1) (resolveMembers entry.2.members)).run draft).2.program := by
        refine hsettled.first hpass'.grows (fun id hid => ?_) fun id hid => ?_
        · exact hreached.mpr (.inl (hid.resolve_left List.not_mem_nil))
        · refine hpass'.uses id fun hreached => hapart ?_ hreached.mem_numbersOf
          exact (Part.Reached.singleton_iff.mp (hid.resolve_left List.not_mem_nil)).mem_numbers
      have hbody := hmembers.classBody (covers_resolveMembers entry.2.members) hdraft hnodup.of_append_left huse
        (hscopes ▸ hdeclared) hplaced hsettled'
      refine hbody.bind (ih hdraft' hnodup.of_append_right ?_ (hbinds.currentClass?_eq.trans hscopes) hbody.placed
        hadmits (hsettled.second (fun id hid => hreached.mpr (.inr hid)) fun id hid => ?_))
      · exact TopLevel.mono htop hpass.grows hfirst.retained.keepsFields fun id hid => hpass.uses id fun hreached =>
          hapart (Part.Reached.singleton_iff.mp hreached).mem_numbers hid
      · exact hpass.uses id fun hreached =>
          hapart (Part.Reached.singleton_iff.mp hreached).mem_numbers hid.mem_numbersOf

end Bodies

end Resolving

namespace Program

open Resolving

section Units

variable {unit : CompilationUnit} (hnodup : unit.numbers.Nodup)
include hnodup

/-- What is declared and linked is no variable and lies in classes. -/
theorem around_linkedDraft {id : SymbolId} {symbol : NamedSymbol}
    (hsymbol : (linkedDraft unit).program.symbol? id = some symbol) :
    symbol.isVariable = false ∧
      ∀ ⦃type⦄, symbol.kind.around? = some type → (linkedDraft unit).program.IsClass type := by
  have hdeclares := (linkUnit_spec unit).2.1
  rcases Nat.lt_or_ge id (startDraft unit).program.symbols.size with hlt | hle
  · obtain ⟨old, hold⟩ : ∃ old, (startDraft unit).program.symbol? id = some old := ⟨_, Array.getElem?_eq_getElem hlt⟩
    obtain ⟨later, hlater, hbecomes⟩ := hdeclares.grows.symbol? hold
    obtain rfl := Option.some.inj (hsymbol.symm.trans hlater)
    refine ⟨?_, fun type haround => ?_⟩
    · cases hbecomes with
      | same => exact (unguarded_start unit id _ hold).2.2
      | learned => rfl
    · exact (InClasses.start unit hold (hbecomes.around?_eq ▸ haround)).mono hdeclares.grows
  · obtain ⟨node, hnode, huse⟩ := hdeclares.recorded (hnodup.sublist unit.declaring_sublist_numbers) id hle
      (lt_size_of_symbol?_eq_some hsymbol)
    obtain ⟨decl, hdecl, hnode⟩ := List.mem_flatMap.mp hnode
    obtain ⟨id', symbol', huse', hsymbol', haround⟩ := (declared_linkedDraft hnodup hdecl).around nofun hnode
    obtain rfl := Option.some.inj (huse.symm.trans huse')
    obtain rfl := Option.some.inj (hsymbol.symm.trans hsymbol')
    exact haround

theorem placed_linkedDraft : (linkedDraft unit).Placed where
  inClasses _ _ hsymbol := (around_linkedDraft hnodup hsymbol).2
  items item hitem := by
    rw [scopes_linkedDraft] at hitem
    cases hitem

/-- No variable is respelled before the bodies are gone through. -/
theorem respell_linkedDraft (respelling : Respelling) :
    (linkedDraft unit).respell respelling = linkedDraft unit := by
  have hprogram : (linkedDraft unit).program.respell respelling = (linkedDraft unit).program := by
    rw [respell]
    congr 1
    apply Array.ext_getElem?
    intro id
    rw [Array.getElem?_map]
    cases hsymbol : (linkedDraft unit).program.symbols[id]? with
    | none => rfl
    | some symbol =>
        exact congrArg some (symbol.respell_of_not_variable respelling (around_linkedDraft hnodup hsymbol).1)
  have hscopes : (linkedDraft unit).scopes.respell respelling = (linkedDraft unit).scopes := by
    rw [scopes_linkedDraft]
    rfl
  rw [Draft.respell, hprogram, hscopes]

/-- Nothing is recorded for the variable before the bodies are gone through. -/
theorem use?_linkedDraft_ne {respelling : Respelling} (hfits : respelling.Fits (linkedDraft unit).program)
    (node : NodeId) : (linkedDraft unit).program.use? node ≠ some respelling.symbol := by
  by_cases hnode : node ∈ unit.types.flatMap ClassDecl.declaring
  · obtain ⟨decl, hdecl, hnode⟩ := List.mem_flatMap.mp hnode
    have houter : ∀ ⦃type⦄, none = some type → (linkedDraft unit).program.IsClass type :=
      fun type hsome => absurd hsome.symm (Option.some_ne_none type)
    exact hfits.use?_ne_of_declared (declared_linkedDraft hnodup hdecl) houter hnode
  · have hstart := (linkUnit_spec unit).2.1.uses node hnode
    change (linkedDraft unit).program.use? node = (startDraft unit).program.use? node at hstart
    rw [hstart, use?, program_startDraft, uses_declareAll]
    exact (Option.some_ne_none respelling.symbol).symm

end Units

end Program

/-! ### Respellable units -/

/-- The bare names in a construct. -/
def TreeNode.bareNames (node : TreeNode) : List String :=
  node.places.filterMap fun place =>
    match place.node with
    | .expr ⟨_, .name name, _⟩ => some name
    | _ => none

/-- The bare names in a unit. -/
def CompilationUnit.bareNames (unit : CompilationUnit) : List String :=
  unit.types.flatMap fun decl => (TreeNode.classDecl decl).bareNames

theorem Shedding.Admits.of_not_mem {respelling : Respelling} {node : TreeNode}
    (hfresh : respelling.new ∉ node.bareNames) (final : Program) : (respelling.shedding final).Admits node where
  hides := .of_none node
  spells path id name span hwithin := by
    let place : Place := ⟨path, .expr ⟨id, .name name, span⟩⟩
    have hplace : place ∈ node.places := TreeNode.mem_places.mpr hwithin
    have hname : name ∈ node.bareNames := List.mem_filterMap.mpr ⟨place, hplace, rfl⟩
    exact fun heq => hfresh (heq ▸ hname)

/-- A local variable of a unit can be respelled if the respelling fits and no bare name is the new one. -/
structure CompilationUnit.Respellable (respelling : Respelling) (unit : CompilationUnit) : Prop where
  nodup : unit.numbers.Nodup
  fits : respelling.Fits (.ofUnit unit)
  fresh : respelling.new ∉ unit.bareNames

/-- A unit in which a local variable is respelled. -/
def CompilationUnit.respell (respelling : Respelling) (unit : CompilationUnit) : CompilationUnit :=
  unit.retouch (respelling.retouch (.ofUnit unit))

namespace CompilationUnit.Respellable

open Resolving

variable {unit : CompilationUnit} {respelling : Respelling} (h : unit.Respellable respelling)
include h

/-- The classes of the respelled unit are declared and linked alike, since their nodes keep their names. -/
theorem run_linkUnit_respell : (linkUnit (unit.respell respelling)).run (Program.startDraft unit) =
    (((linkUnit unit).run (Program.startDraft unit)).1.map fun entry =>
      (entry.1, entry.2.retouch (respelling.retouch (.ofUnit unit))), Program.linkedDraft unit) := by
  have hlinked := h.fits.of_grows (Program.grows_ofUnit unit)
  have hkept : ∀ node ∈ unit.types.flatMap ClassDecl.declaring, ∀ spelled,
      respelling.nameAt (.ofUnit unit) node spelled = spelled := by
    intro node hnode
    obtain ⟨decl, hdecl, hnode⟩ := List.mem_flatMap.mp hnode
    refine respelling.nameAt_of_ne (.ofUnit unit) ?_
    rw [Program.use?_ofUnit_of_declaring h.nodup hdecl hnode]
    exact Program.use?_linkedDraft_ne h.nodup hlinked node
  have hdeclare : declareTopLevel unit.package (unit.types.map (·.retouch (respelling.retouch (.ofUnit unit)))) =
      (declareTopLevel unit.package unit.types : Tracked _) :=
    declareTopLevel_ofNames _ unit.package unit.types hkept
  have hzip (ids : List SymbolId) : ids.zip (unit.types.map (·.retouch (respelling.retouch (.ofUnit unit)))) =
      (ids.zip unit.types).map fun entry => (entry.1, entry.2.retouch (respelling.retouch (.ofUnit unit))) := by
    rw [List.zip_map_right]
    rfl
  have hlink (ids : List SymbolId) : linkTopLevel ((ids.zip unit.types).map fun entry =>
      (entry.1, entry.2.retouch (respelling.retouch (.ofUnit unit)))) =
        (linkTopLevel (ids.zip unit.types) : Tracked Unit) :=
    linkTopLevel_ofNames (respelling.nameAt (.ofUnit unit)) (ids.zip unit.types)
  rw [linkUnit]
  simp only [respell, CompilationUnit.retouch, hdeclare, hzip, hlink]
  rfl

/-- The bodies of the respelled unit are gone through alike. -/
theorem respells_bodies : Respells respelling (resolveTopLevel ((linkUnit unit).run (Program.startDraft unit)).1)
    (resolveTopLevel (((linkUnit unit).run (Program.startDraft unit)).1.map fun entry =>
      (entry.1, entry.2.retouch (respelling.retouch (.ofUnit unit))))) (Program.linkedDraft unit) := by
  obtain ⟨hparts, -, htop⟩ := linkUnit_spec unit
  have hlinked := h.fits.of_grows (Program.grows_ofUnit unit)
  have hmem {entry : SymbolId × ClassDecl} (hentry : entry ∈ ((linkUnit unit).run (Program.startDraft unit)).1) :
      entry.2 ∈ unit.types := by
    have hpart : (⟨.declared, .classDecl entry.2⟩ : Part) ∈ unit.parts :=
      hparts ▸ List.mem_map.mpr ⟨entry, hentry, rfl⟩
    obtain ⟨decl, hdecl, heq⟩ := List.mem_map.mp hpart
    exact TreeNode.classDecl.inj (Part.mk.inj heq).2 ▸ hdecl
  have hadmits {decl : ClassDecl} (hdecl : decl ∈ unit.types) :
      (respelling.shedding (.ofUnit unit)).Admits (.classDecl decl) :=
    .of_not_mem (fun hname => h.fresh (List.mem_flatMap.mpr ⟨decl, hdecl, hname⟩)) _
  have hprogram : ((resolveTopLevel ((linkUnit unit).run (Program.startDraft unit)).1).run
      (Program.linkedDraft unit)).2.program = .ofUnit unit := Program.program_draftOf unit
  exact respells_resolveTopLevel _ (Program.wellFormed_linkedDraft unit) (by rw [hparts]; exact h.nodup)
    (htop h.nodup) (by rw [Program.scopes_linkedDraft]; rfl) (Program.placed_linkedDraft h.nodup)
    (fun entry hentry => hadmits (hmem hentry))
    ⟨hprogram ▸ h.fits, fun id _ => by rw [hprogram],
      fun id _ => Program.use?_linkedDraft_ne h.nodup hlinked id⟩

/-- The symbols of the unit lie in classes. -/
theorem applies : respelling.Applies (.ofUnit unit) where
  toFits := h.fits
  wellFormed := Program.wellFormed_ofUnit unit
  inClasses := by
    rw [← Program.program_draftOf, Program.draftOf_eq]
    exact h.respells_bodies.placed.inClasses

/-- In the respelled unit everything is resolved as it is in the unit, up to the name of the variable. -/
theorem respell_draftOf : Program.draftOf (unit.respell respelling) = (Program.draftOf unit).respell respelling := by
  have hrun := h.run_linkUnit_respell
  have hat := h.respells_bodies.at_draft
  rw [RespellsAt, Program.respell_linkedDraft h.nodup] at hat
  have hstart : Program.startDraft (unit.respell respelling) = Program.startDraft unit :=
    Program.start_retouch (respelling.retouch (.ofUnit unit)) unit
  have hlinked : Program.linkedDraft (unit.respell respelling) = Program.linkedDraft unit := by
    rw [Program.linkedDraft, hstart, hrun]
  rw [Program.draftOf_eq, Program.draftOf_eq, hstart, hlinked, hrun]
  dsimp only
  rw [hat]
  simp only [Draft.respell, Program.respell, CompilationUnit.respell, CompilationUnit.retouch, List.length_map,
    Array.size_map]

/-- In the respelled unit the names mean what they mean in the unit, and the variable bears its new name. -/
theorem respell_ofUnit : Program.ofUnit (unit.respell respelling) = (Program.ofUnit unit).respell respelling := by
  rw [← Program.program_draftOf, h.respell_draftOf, ← Program.program_draftOf unit]
  rfl

end CompilationUnit.Respellable
end LockDiscipline
