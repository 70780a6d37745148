import Mathlib.Order.Defs.Unbundled
import LockDiscipline.Proofs.Program.Unit
/-!
# Supertypes

The search for the supertypes of a class finds exactly the classes that can be reached by the links to
superclasses and interfaces, each of them once and the class itself first. No class can be reached from
itself: links are only ever set together for one class, to classes that do not inherit from it, so a new
link is never part of a cycle. Hence inheritance is a partial order in the program of every unit.
-/

namespace LockDiscipline

namespace Program

variable {program later : Program}

/-- One class has another as its superclass or as an interface. -/
def Extends (program : Program) (id supertype : SymbolId) : Prop :=
  supertype ∈ program.supertypes id

/-- No class inherits from itself by any links. -/
def Acyclic (program : Program) : Prop :=
  ∀ id, ¬Relation.TransGen program.Extends id id

/-! ### The search -/

theorem searchSupertypes_prefix (steps : Nat) (pending seen : List SymbolId) :
    ∃ more, program.searchSupertypes steps pending seen = seen ++ more := by
  induction steps generalizing pending seen with
  | zero => exact ⟨[], (List.append_nil seen).symm⟩
  | succ steps ih =>
      cases pending with
      | nil => exact ⟨[], (List.append_nil seen).symm⟩
      | cons id pending =>
          obtain ⟨more, hmore⟩ := ih (pending ++ unseen seen (program.supertypes id))
            (seen ++ unseen seen (program.supertypes id))
          exact ⟨unseen seen (program.supertypes id) ++ more, by
            rw [searchSupertypes, hmore, List.append_assoc]⟩

/-- The search for supertypes begins with the class itself. -/
theorem exists_ancestors_eq (program : Program) (id : SymbolId) :
    ∃ more, program.ancestors id = id :: more :=
  searchSupertypes_prefix (program.symbols.size + 1) [id] [id]

theorem nodup_searchSupertypes (steps : Nat) (pending : List SymbolId) {seen : List SymbolId}
    (hseen : seen.Nodup) : (program.searchSupertypes steps pending seen).Nodup := by
  induction steps generalizing pending seen with
  | zero => exact hseen
  | succ steps ih =>
      cases pending with
      | nil => exact hseen
      | cons id pending => exact ih _ (nodup_append_unseen hseen _)

theorem nodup_ancestors (program : Program) (id : SymbolId) : (program.ancestors id).Nodup :=
  nodup_searchSupertypes _ _ (List.nodup_singleton id)

/-- A search from classes that can be reached meets only classes that can be reached. -/
theorem reaches_of_mem_searchSupertypes {root : SymbolId} (steps : Nat)
    {pending seen : List SymbolId}
    (hpending : ∀ id ∈ pending, Relation.ReflTransGen program.Extends root id)
    (hseen : ∀ id ∈ seen, Relation.ReflTransGen program.Extends root id) :
    ∀ id ∈ program.searchSupertypes steps pending seen,
      Relation.ReflTransGen program.Extends root id := by
  induction steps generalizing pending seen with
  | zero => exact hseen
  | succ steps ih =>
      cases pending with
      | nil => exact hseen
      | cons id pending =>
          obtain ⟨hid, hpending⟩ := List.forall_mem_cons.mp hpending
          have hfresh : ∀ other ∈ unseen seen (program.supertypes id),
              Relation.ReflTransGen program.Extends root other :=
            fun other hother => hid.tail (mem_unseen hother).1
          exact ih (List.forall_mem_append.mpr ⟨hpending, hfresh⟩)
            (List.forall_mem_append.mpr ⟨hseen, hfresh⟩)

theorem mem_seen_or_mem_unseen {seen ids : List SymbolId} {id : SymbolId} (h : id ∈ ids) :
    id ∈ seen ∨ id ∈ unseen seen ids := by
  induction ids generalizing seen with
  | nil => cases h
  | cons first rest ih =>
      rw [unseen]
      rcases List.mem_cons.mp h with rfl | h
      · by_cases hseen : seen.contains id
        · exact .inl (List.contains_iff_mem.mp hseen)
        · rw [if_neg hseen]
          exact .inr List.mem_cons_self
      · split
        · exact ih h
        · rcases ih h with hseen | hunseen
          · exact (List.mem_cons.mp hseen).elim (fun heq => .inr (heq ▸ List.mem_cons_self)) .inl
          · exact .inr (List.mem_cons_of_mem _ hunseen)

/-- A search that has the steps for all classes that there are leaves out no supertype of a class that
it meets: when it ends, no class is pending. -/
theorem closed_searchSupertypes {bound : Nat}
    (hsuper : ∀ id, ∀ supertype ∈ program.supertypes id, supertype < bound) (steps : Nat)
    {pending seen : List SymbolId} (hseen : ∀ id ∈ seen, id < bound) (hnodup : seen.Nodup)
    (hsteps : pending.length + bound ≤ steps + seen.length)
    (hclosed : ∀ id ∈ seen, id ∈ pending ∨ program.supertypes id ⊆ seen) :
    ∀ id ∈ program.searchSupertypes steps pending seen,
      program.supertypes id ⊆ program.searchSupertypes steps pending seen := by
  induction steps generalizing pending seen with
  | zero =>
      have hlength : seen.length ≤ bound := by
        have hsub : seen ⊆ List.range bound := fun id hid => List.mem_range.mpr (hseen id hid)
        simpa using (hnodup.subperm hsub).length_le
      obtain rfl : pending = [] := List.length_eq_zero_iff.mp (by omega)
      exact fun id hid => (hclosed id hid).resolve_left List.not_mem_nil
  | succ steps ih =>
      cases pending with
      | nil => exact fun id hid => (hclosed id hid).resolve_left List.not_mem_nil
      | cons first pending =>
          rw [searchSupertypes]
          refine ih (fun id hid => ?_) (nodup_append_unseen hnodup _) ?_ fun id hid => ?_
          · rcases List.mem_append.mp hid with hid | hid
            · exact hseen id hid
            · exact hsuper first id (mem_unseen hid).1
          · rw [List.length_append, List.length_append]
            rw [List.length_cons] at hsteps
            omega
          · rcases List.mem_append.mp hid with hid | hid
            · rcases hclosed id hid with hpending | hsub
              · rcases List.mem_cons.mp hpending with rfl | hpending
                · exact .inr fun supertype hsupertype =>
                    List.mem_append.mpr (mem_seen_or_mem_unseen hsupertype)
                · exact .inl (List.mem_append_left _ hpending)
              · exact .inr (List.Subset.trans hsub (List.subset_append_left _ _))
            · exact .inl (List.mem_append_right _ hid)

namespace WellFormed

variable (hprogram : program.WellFormed)
include hprogram

/-- The search for the supertypes of a class finds what can be reached from the class. -/
theorem mem_ancestors {id ancestor : SymbolId} :
    ancestor ∈ program.ancestors id ↔ Relation.ReflTransGen program.Extends id ancestor := by
  refine ⟨fun h => ?_, fun h => ?_⟩
  · have hroot : ∀ other ∈ [id], Relation.ReflTransGen program.Extends id other :=
      List.forall_mem_singleton.mpr .refl
    exact reaches_of_mem_searchSupertypes _ hroot hroot ancestor h
  · obtain ⟨more, hmore⟩ := exists_ancestors_eq program id
    by_cases hid : id < program.symbols.size
    · have hclosed : ∀ other ∈ program.ancestors id,
          program.supertypes other ⊆ program.ancestors id :=
        closed_searchSupertypes (fun _ _ h => hprogram.supertype_lt _ h) _
          (List.forall_mem_singleton.mpr hid) (List.nodup_singleton id)
          (by rw [List.length_singleton]; omega) fun _ hother => .inl hother
      induction h with
      | refl => rw [hmore]; exact List.mem_cons_self
      | tail _ hextends ih => exact hclosed _ ih hextends
    · -- What is no symbol has no supertypes.
      have hnil : program.supertypes id = [] := by
        rw [supertypes, classInfo?, symbol?_eq_none_of_le (Nat.le_of_not_lt hid)]
        rfl
      rcases Relation.ReflTransGen.cases_head h with rfl | ⟨supertype, hextends, -⟩
      · rw [hmore]; exact List.mem_cons_self
      · rw [Extends, hnil] at hextends
        cases hextends

theorem isSubclass_iff {id ancestor : SymbolId} :
    program.isSubclass id ancestor ↔ Relation.ReflTransGen program.Extends id ancestor :=
  List.contains_iff_mem.trans hprogram.mem_ancestors

end WellFormed

/-! ### Links never close a cycle -/

theorem Acyclic.congr (h : program.Acyclic)
    (hsuper : ∀ id, later.supertypes id = program.supertypes id) : later.Acyclic := by
  have heq : later.Extends = program.Extends := by
    funext id supertype
    rw [Extends, Extends, hsuper]
  rw [Acyclic, heq]
  exact h

section Link

variable {id : SymbolId}
  (hlinked : ∀ {other supertype}, later.Extends other supertype → other ≠ id →
    program.Extends other supertype)
include hlinked

/-- What leads to the class that is linked did so before. -/
private theorem reaches_of_linked {other : SymbolId}
    (h : Relation.ReflTransGen later.Extends other id) :
    Relation.ReflTransGen program.Extends other id := by
  induction h using Relation.ReflTransGen.head_induction_on with
  | refl => exact .refl
  | @head other next hextends _ ih =>
      by_cases heq : other = id
      · rw [heq]
      · exact .head (hlinked hextends heq) ih

/-- A path either avoids the class that is linked or leads through it. -/
private theorem avoids_or_through {other ancestor : SymbolId}
    (h : Relation.TransGen later.Extends other ancestor) :
    Relation.TransGen program.Extends other ancestor ∨
      Relation.ReflTransGen later.Extends other id ∧
        Relation.TransGen later.Extends id ancestor := by
  induction h with
  | single hextends =>
      by_cases heq : other = id
      · subst heq
        exact .inr ⟨.refl, .single hextends⟩
      · exact .inl (.single (hlinked hextends heq))
  | @tail middle last hpath hextends ih =>
      rcases ih with hold | ⟨hto, hfrom⟩
      · by_cases heq : middle = id
        · subst heq
          exact .inr ⟨hpath.to_reflTransGen, .single hextends⟩
        · exact .inl (hold.tail (hlinked hextends heq))
      · exact .inr ⟨hto, hfrom.tail hextends⟩

/-- Links from one class to classes that do not inherit from it close no cycle, however many are set
at once. -/
private theorem Acyclic.link (h : program.Acyclic)
    (hnew : ∀ {supertype}, later.Extends id supertype →
      ¬Relation.ReflTransGen program.Extends supertype id) : later.Acyclic := by
  intro other hcycle
  rcases avoids_or_through hlinked hcycle with hold | ⟨hto, hfrom⟩
  · exact h other hold
  · obtain ⟨supertype, hextends, hback⟩ :=
      Relation.TransGen.head'_iff.mp (hfrom.trans_left hto)
    exact hnew hextends (reaches_of_linked hlinked hback)

end Link

/-- A class that is linked extends what it is linked to, and the others extend what they did. -/
private theorem extends_updateClass {id other supertype : SymbolId} {superclass : Option SymbolId}
    {interfaces : List SymbolId}
    (h : (program.updateClass id fun info => { info with superclass, interfaces }).Extends other
      supertype) :
    other = id ∧ supertype ∈ superclass.toList ++ interfaces ∨ program.Extends other supertype := by
  rw [Extends, supertypes, classInfo?_updateClass] at h
  cases hinfo : program.classInfo? other with
  | none =>
      rw [hinfo] at h
      cases h
  | some info =>
      rw [hinfo, Option.map_some] at h
      by_cases heq : other = id
      · rw [if_pos heq] at h
        exact .inl ⟨heq, h⟩
      · rw [if_neg heq] at h
        refine .inr ?_
        rw [Extends, supertypes, hinfo]
        exact h

theorem Change.acyclic {classes : Prop} (h : program.Change classes later)
    (hprogram : program.WellFormed) (hacyclic : program.Acyclic) : later.Acyclic := by
  cases h with
  | use | problem | topLevel => exact hacyclic.congr fun _ => rfl
  | «variable» name kind type span hkind =>
      exact hacyclic.congr (program.supertypes_declare _ _ _ _ fun info h => (h ▸ hkind).elim)
  | field => exact hacyclic.congr (program.supertypes_declare _ _ _ _ (by rintro _ ⟨⟩))
  | method => exact hacyclic.congr fun _ => program.supertypes_addMethod ..
  | classType name info span _ _ hsuper =>
      exact hacyclic.congr (program.supertypes_declare _ _ _ _ fun info' h =>
        SymbolKind.classType.inj h ▸ hsuper)
  | table owner change => exact hacyclic.congr (program.supertypes_updateMembers owner change)
  | supertypes id superclass interfaces _ _ hsuper =>
      have hlinked {other supertype : SymbolId} (hextends : (program.updateClass id fun info =>
          { info with superclass, interfaces }).Extends other supertype) (hne : other ≠ id) :
          program.Extends other supertype :=
        (extends_updateClass hextends).resolve_left fun h => hne h.1
      refine Acyclic.link hlinked hacyclic fun hextends hreaches => ?_
      rcases extends_updateClass hextends with ⟨-, hmem⟩ | hold
      · have hsub := hprogram.isSubclass_iff.mpr hreaches
        rw [hsuper _ hmem] at hsub
        cases hsub
      · exact hacyclic id (.head' hold hreaches)

theorem Grows.acyclic {classes : Prop} (h : Grows classes program later)
    (hprogram : program.WellFormed) (hacyclic : program.Acyclic) : later.Acyclic := by
  induction h with
  | refl => exact hacyclic
  | tail hgrows hchange ih => exact hchange.acyclic (Grows.wellFormed hgrows hprogram) ih

/-! ### The library -/

/-- Every class is declared after its supertypes. -/
def Descends (program : Program) : Prop :=
  ∀ id, ∀ supertype ∈ program.supertypes id, supertype < id

theorem Descends.acyclic (h : program.Descends) : program.Acyclic := by
  have hlt {id ancestor : SymbolId} (hpath : Relation.TransGen program.Extends id ancestor) :
      ancestor < id := by
    induction hpath with
    | single hextends => exact h _ _ hextends
    | tail _ hextends ih => exact Nat.lt_trans (h _ _ hextends) ih
  exact fun id hcycle => Nat.lt_irrefl id (hlt hcycle)

theorem Descends.declareLibraryMethod (h : program.Descends) (owner : SymbolId)
    (method : String × String) : (Library.declareMethod owner program method).Descends := by
  intro id
  have hsupertypes : (Library.declareMethod owner program method).supertypes id =
      program.supertypes id := program.supertypes_addMethod ..
  rw [hsupertypes]
  exact h id

theorem Descends.declareLibraryClass (h : program.Descends) (hprogram : program.WellFormed)
    (decl : Library.LibraryClass) : (Library.declareClass program decl).Descends := by
  refine List.foldlRecOn decl.methods _ (fun id supertype hsupertype => ?_)
    fun _ h method _ => h.declareLibraryMethod _ method
  change supertype ∈ (program.declare _ _ none none default).2.supertypes id at hsupertype
  rw [supertypes, classInfo?_declare] at hsupertype
  split at hsupertype
  case h_2 => cases hsupertype
  case h_1 info hinfo =>
    split at hinfo
    case isTrue heq =>
      obtain rfl := Option.some.inj hinfo
      obtain ⟨name, -, hname⟩ := List.mem_filterMap.mp hsupertype
      rw [heq]
      exact (hprogram.qualified_class _ (mem_of_lookup_eq_some hname)).lt_size
    case isFalse =>
      exact h id supertype (by rw [supertypes, hinfo]; exact hsupertype)

theorem Acyclic.withImports (h : program.Acyclic) (imports : List (String × String)) :
    { program with imports }.Acyclic :=
  h.congr fun _ => rfl

theorem acyclic_start (unit : CompilationUnit) : (startDraft unit).program.Acyclic := by
  have hlibrary : (Library.declareAll (.empty unit.package)).WellFormed ∧
      (Library.declareAll (.empty unit.package)).Descends := by
    refine List.foldlRecOn (motive := fun program : Program => program.WellFormed ∧ program.Descends)
      Library.classes _ ⟨.empty unit.package, fun _ _ h => ?_⟩ fun _ h decl _ =>
        ⟨h.1.declareLibraryClass decl, h.2.declareLibraryClass h.1 decl⟩
    simp [empty, supertypes, classInfo?, symbol?] at h
  exact hlibrary.2.acyclic.withImports _

/-! ### The program of a unit -/

theorem acyclic_ofUnit (unit : CompilationUnit) : (ofUnit unit).Acyclic := by
  have hlinked := (grows_linkedDraft unit).acyclic (.library _ _) (acyclic_start unit)
  exact (grows_ofUnit unit).acyclic (wellFormed_linkedDraft unit) hlinked

/-- Inheritance is a partial order where no class inherits from itself by any links. -/
theorem WellFormed.isPartialOrder (hprogram : program.WellFormed) (hacyclic : program.Acyclic) :
    IsPartialOrder SymbolId (program.isSubclass · ·) where
  refl _ := hprogram.isSubclass_iff.mpr .refl
  trans _ _ _ hfirst hsecond := hprogram.isSubclass_iff.mpr
    ((hprogram.isSubclass_iff.mp hfirst).trans (hprogram.isSubclass_iff.mp hsecond))
  antisymm id ancestor hfirst hsecond := by
    by_contra hne
    rcases Relation.reflTransGen_iff_eq_or_transGen.mp (hprogram.isSubclass_iff.mp hfirst) with
      heq | hpath
    · exact hne heq.symm
    · exact hacyclic id (hpath.trans_left (hprogram.isSubclass_iff.mp hsecond))

/-- In the program of any unit, however its supertype clauses are written, no class inherits from
itself by any links, inheritance is a partial order on the classes, and the search for the supertypes of
a class begins with the class and finds each class that can be reached by links exactly once, and no
other. -/
theorem isPartialOrder_isSubclass_ofUnit (unit : CompilationUnit) :
    (ofUnit unit).Acyclic ∧
      IsPartialOrder { id // (ofUnit unit).IsClass id }
        (fun id ancestor => (ofUnit unit).isSubclass id ancestor) ∧
      ∀ id, ((ofUnit unit).ancestors id).head? = some id ∧ ((ofUnit unit).ancestors id).Nodup ∧
        ∀ ancestor, ancestor ∈ (ofUnit unit).ancestors id ↔
          Relation.ReflTransGen (ofUnit unit).Extends id ancestor := by
  have hprogram := wellFormed_ofUnit unit
  have hacyclic := acyclic_ofUnit unit
  have horder := hprogram.isPartialOrder hacyclic
  refine ⟨hacyclic, ?_, fun id => ⟨?_, nodup_ancestors _ id, fun _ => hprogram.mem_ancestors⟩⟩
  · exact
      { refl := fun id => horder.refl id
        trans := fun id middle ancestor => horder.trans id middle ancestor
        antisymm := fun id ancestor hfirst hsecond =>
          Subtype.ext (horder.antisymm id ancestor hfirst hsecond) }
  · obtain ⟨more, hmore⟩ := exists_ancestors_eq (ofUnit unit) id
    rw [hmore]
    rfl

end Program

end LockDiscipline
