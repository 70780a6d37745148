import Mathlib.Data.List.Find
import Mathlib.Data.List.Nodup
import Mathlib.Data.List.Perm.Subperm
import LockDiscipline.Proofs.Program.Lookup
/-!
# Classes that are settled

Once a class is declared and linked, most of what is known of it stays: the class around it, its
supertypes, its fields and its methods. Only its member classes may become more, since a local class
is entered among them where its code is gone through. `Program.Keeps` says that all classes below a
number are settled in this sense. Where all classes of a program are, the lookups that do not ask for
types have the same results later on.
-/

namespace LockDiscipline

/-- What is known of a class, without its member classes. -/
def ClassInfo.settled (info : ClassInfo) : ClassInfo :=
  { info with members := { info.members with classes := [] } }

namespace Program

variable {program later latest : Program} {bound : Nat}

/-- The settled part of what is known of a class. -/
def settled? (program : Program) (id : SymbolId) : Option ClassInfo :=
  (program.classInfo? id).map (·.settled)

theorem settled?_eq_of_classInfo? {id : SymbolId}
    (h : later.classInfo? id = program.classInfo? id) : later.settled? id = program.settled? id := by
  rw [settled?, settled?, h]

/-- The classes below a number are settled, and no symbol but a class ever changes. -/
structure Keeps (bound : Nat) (program later : Program) : Prop where
  size_le : program.symbols.size ≤ later.symbols.size
  symbol? : ∀ {id symbol}, program.symbol? id = some symbol → symbol.classInfo? = none →
    later.symbol? id = some symbol
  settled?_eq : ∀ id < bound, later.settled? id = program.settled? id

/-- All classes of a program are settled. -/
def Retains (program later : Program) : Prop :=
  program.Keeps program.symbols.size later

theorem Grows.keeps {classes : Prop} (h : Grows classes program later)
    (hsettled : ∀ id < bound, later.settled? id = program.settled? id) :
    program.Keeps bound later :=
  ⟨h.size_le, h.symbol?_of_not_class, hsettled⟩

namespace Keeps

theorem refl (bound : Nat) (program : Program) : program.Keeps bound program :=
  ⟨Nat.le_refl _, fun h _ => h, fun _ _ => rfl⟩

theorem trans (hfirst : program.Keeps bound later) (hsecond : later.Keeps bound latest) :
    program.Keeps bound latest where
  size_le := Nat.le_trans hfirst.size_le hsecond.size_le
  symbol? hsymbol hinfo := hsecond.symbol? (hfirst.symbol? hsymbol hinfo) hinfo
  settled?_eq id hid := (hsecond.settled?_eq id hid).trans (hfirst.settled?_eq id hid)

theorem mono {bound' : Nat} (hle : bound' ≤ bound) (h : program.Keeps bound later) :
    program.Keeps bound' later :=
  { h with settled?_eq := fun id hid => h.settled?_eq id (Nat.lt_of_lt_of_le hid hle) }

end Keeps

/-! ### Changes that keep classes -/

theorem settled?_declare {id : SymbolId} (hid : id < program.symbols.size) (name : String)
    (kind : SymbolKind) (type guard : Option String) (span : Span) :
    (program.declare name kind type guard span).2.settled? id = program.settled? id :=
  settled?_eq_of_classInfo? (by rw [classInfo?_declare, if_neg (Nat.ne_of_lt hid)])

theorem settled?_updateClass_of_ne {id owner : SymbolId} (hne : id ≠ owner)
    (change : ClassInfo → ClassInfo) :
    (program.updateClass owner change).settled? id = program.settled? id := by
  rw [settled?, classInfo?_updateClass, settled?]
  simp only [if_neg hne, Option.map_id']

/-- A class that gets one more member class is settled all the same. -/
theorem settled?_updateMembers (owner id : SymbolId) (classes : List (String × SymbolId)) :
    (program.updateMembers owner fun members => { members with classes }).settled? id =
      program.settled? id := by
  rw [settled?, updateMembers, classInfo?_updateClass, settled?, Option.map_map]
  refine congrArg (Option.map · _) (funext fun info => ?_)
  simp only [Function.comp_apply]
  split <;> rfl

/-- Where no class changes, all that is known of the classes stays. -/
theorem Change.classInfo?_eq (h : program.Change False later) (id : SymbolId) :
    later.classInfo? id = program.classInfo? id := by
  cases h with
  | use | problem => rfl
  | «variable» name kind type span hkind =>
      rw [classInfo?_declare]
      split
      case isTrue heq =>
        have hnone : program.classInfo? id = none := by
          rw [Program.classInfo?, symbol?_eq_none_of_le (Nat.le_of_eq heq.symm)]
          rfl
        rw [hnone]
        cases kind with
        | parameter | localVar => rfl
        | _ => exact hkind.elim
      case isFalse => rfl
  | field _ _ _ _ _ _ hclasses => exact hclasses.elim
  | method _ _ _ _ _ _ _ _ hclasses => exact hclasses.elim
  | classType _ _ _ hclasses => exact hclasses.elim
  | table _ _ hclasses => exact hclasses.elim
  | supertypes _ _ _ hclasses => exact hclasses.elim
  | topLevel _ hclasses => exact hclasses.elim

theorem Grows.classInfo?_eq (h : Grows False program later) (id : SymbolId) :
    later.classInfo? id = program.classInfo? id := by
  induction h with
  | refl => rfl
  | tail _ hchange ih => exact (hchange.classInfo?_eq id).trans ih

theorem Retains.of_grows (h : Grows False program later) : program.Retains later :=
  h.keeps fun id _ => settled?_eq_of_classInfo? (h.classInfo?_eq id)

theorem Retains.trans (hfirst : program.Retains later) (hsecond : later.Retains latest) :
    program.Retains latest :=
  Keeps.trans hfirst (hsecond.mono hfirst.size_le)

/-! ### Bounds of searches -/

/-- A problem concerns no search. -/
theorem ancestors_addProblem (problem : NameProblem) (id : SymbolId) :
    (program.addProblem problem).ancestors id = program.ancestors id := by
  have hsearch (steps : Nat) (pending seen : List SymbolId) :
      (program.addProblem problem).searchSupertypes steps pending seen =
        program.searchSupertypes steps pending seen := by
    induction steps generalizing pending seen with
    | zero => rfl
    | succ steps ih =>
        cases pending with
        | nil => rfl
        | cons id pending => exact ih _ _
  exact hsearch _ _ _

theorem mem_unseen {seen ids : List SymbolId} {id : SymbolId} (h : id ∈ unseen seen ids) :
    id ∈ ids ∧ id ∉ seen := by
  induction ids generalizing seen with
  | nil => cases h
  | cons first rest ih =>
      rw [unseen] at h
      split at h
      case isTrue => exact ⟨List.mem_cons_of_mem _ (ih h).1, (ih h).2⟩
      case isFalse hfirst =>
        rcases List.mem_cons.mp h with rfl | h
        · exact ⟨List.mem_cons_self, by simpa using hfirst⟩
        · exact ⟨List.mem_cons_of_mem _ (ih h).1, fun hid => (ih h).2 (List.mem_cons_of_mem _ hid)⟩

theorem nodup_unseen (seen ids : List SymbolId) : (unseen seen ids).Nodup := by
  induction ids generalizing seen with
  | nil => exact List.nodup_nil
  | cons first rest ih =>
      rw [unseen]
      split
      · exact ih seen
      · exact List.nodup_cons.mpr ⟨fun h => (mem_unseen h).2 List.mem_cons_self, ih _⟩

theorem nodup_append_unseen {seen : List SymbolId} (h : seen.Nodup) (ids : List SymbolId) :
    (seen ++ unseen seen ids).Nodup :=
  h.append (nodup_unseen seen ids) fun _ hseen hid => (mem_unseen hid).2 hseen

/-- A search for supertypes that ends within a number of steps does not change with more. Each step
takes one class that is pending, and every class is pending once. -/
theorem searchSupertypes_add {bound : Nat}
    (hsuper : ∀ id, ∀ supertype ∈ program.supertypes id, supertype < bound) (more steps : Nat)
    {pending seen : List SymbolId} (hseen : ∀ id ∈ seen, id < bound) (hnodup : seen.Nodup)
    (hsteps : pending.length + bound ≤ steps + seen.length) :
    program.searchSupertypes (steps + more) pending seen =
      program.searchSupertypes steps pending seen := by
  induction steps generalizing pending seen with
  | zero =>
      have hlength : seen.length ≤ bound := by
        have hsub : seen ⊆ List.range bound := fun id hid => List.mem_range.mpr (hseen id hid)
        simpa using (hnodup.subperm hsub).length_le
      obtain rfl : pending = [] := List.length_eq_zero_iff.mp (by omega)
      cases more <;> rfl
  | succ steps ih =>
      rw [Nat.succ_add]
      cases pending with
      | nil => rfl
      | cons id pending =>
          rw [searchSupertypes, searchSupertypes]
          refine ih (fun other hother => ?_) (nodup_append_unseen hnodup _) ?_
          · rcases List.mem_append.mp hother with hother | hother
            · exact hseen other hother
            · exact hsuper id other (mem_unseen hother).1
          · rw [List.length_append, List.length_append]
            rw [List.length_cons] at hsteps
            omega

/-- A search for supertypes meets only what it starts from and what supertypes there are. -/
theorem lt_of_mem_searchSupertypes {bound : Nat}
    (hsuper : ∀ id, ∀ supertype ∈ program.supertypes id, supertype < bound) (steps : Nat)
    {pending seen : List SymbolId} (hseen : ∀ id ∈ seen, id < bound) :
    ∀ id ∈ program.searchSupertypes steps pending seen, id < bound := by
  induction steps generalizing pending seen with
  | zero => exact hseen
  | succ steps ih =>
      cases pending with
      | nil => exact hseen
      | cons id pending =>
          refine ih fun other hother => ?_
          rcases List.mem_append.mp hother with hother | hother
          · exact hseen other hother
          · exact hsuper id other (mem_unseen hother).1

theorem ancestors_eq_of_supertypes_eq_nil {id : SymbolId} (h : program.supertypes id = []) :
    program.ancestors id = [id] := by
  rw [ancestors, searchSupertypes, h]
  cases program.symbols.size <;> rfl

/-- A class is inherited only by symbols that there are. -/
theorem lt_size_of_isSubclass {id ancestor : SymbolId} (h : program.isSubclass id ancestor)
    (hancestor : program.IsClass ancestor) : id < program.symbols.size := by
  by_contra hid
  have hnone : program.classInfo? id = none := by
    rw [classInfo?, symbol?_eq_none_of_le (Nat.le_of_not_lt hid)]
    rfl
  have hbare : program.supertypes id = [] := by rw [supertypes, hnone]
  rw [isSubclass, ancestors_eq_of_supertypes_eq_nil hbare, List.contains_iff_mem,
    List.mem_singleton] at h
  exact hid (h ▸ hancestor.lt_size)

namespace WellFormed

variable (hprogram : program.WellFormed)
include hprogram

theorem lt_size_of_mem_ancestors {id ancestor : SymbolId} (hid : id < program.symbols.size)
    (h : ancestor ∈ program.ancestors id) : ancestor < program.symbols.size :=
  lt_of_mem_searchSupertypes (fun _ _ h => hprogram.supertype_lt _ h) _
    (List.forall_mem_singleton.mpr hid) ancestor h

/-- The classes around a class do not change with a greater bound, since they are declared before
it. -/
theorem enclosingUpTo_add (more : Nat) {steps : Nat} {id : SymbolId} (hid : id < steps) :
    program.enclosingUpTo (steps + more) id = program.enclosingUpTo steps id := by
  induction steps generalizing id with
  | zero => exact absurd hid (Nat.not_lt_zero id)
  | succ steps ih =>
      rw [Nat.succ_add, enclosingUpTo, enclosingUpTo]
      cases houter : program.outerClass? id with
      | none => rfl
      | some outer =>
          have hlt : outer < steps :=
            Nat.lt_of_lt_of_le (hprogram.outer_lt id houter) (Nat.lt_succ_iff.mp hid)
          dsimp only
          rw [ih hlt]

theorem le_of_mem_enclosingUpTo {steps : Nat} {id around : SymbolId}
    (h : around ∈ program.enclosingUpTo steps id) : around ≤ id := by
  induction steps generalizing id with
  | zero => cases h
  | succ steps ih =>
      rw [enclosingUpTo] at h
      rcases List.mem_cons.mp h with rfl | h
      · exact Nat.le_refl _
      · cases houter : program.outerClass? id with
        | none =>
            rw [houter] at h
            cases h
        | some outer =>
            rw [houter] at h
            exact Nat.le_trans (ih h) (Nat.le_of_lt (hprogram.outer_lt id houter))

end WellFormed

/-! ### Lookups in settled classes -/

/-- Searches agree where they only meet classes with the same supertypes. -/
theorem searchSupertypes_congr {bound : Nat}
    (hclosed : ∀ id, ∀ supertype ∈ program.supertypes id, supertype < bound)
    (heq : ∀ id < bound, later.supertypes id = program.supertypes id) (steps : Nat)
    {pending seen : List SymbolId} (hpending : ∀ id ∈ pending, id < bound) :
    later.searchSupertypes steps pending seen = program.searchSupertypes steps pending seen := by
  induction steps generalizing pending seen with
  | zero => rfl
  | succ steps ih =>
      cases pending with
      | nil => rfl
      | cons id pending =>
          obtain ⟨hid, hpending⟩ := List.forall_mem_cons.mp hpending
          rw [searchSupertypes, searchSupertypes, heq id hid]
          refine ih fun other hother => ?_
          rcases List.mem_append.mp hother with hother | hother
          · exact hpending other hother
          · exact hclosed id other (mem_unseen hother).1

/-- What is settled of a class gives the same with more member classes. -/
private theorem eq_of_settled_eq {α : Type} {info info' : ClassInfo} (h : info'.settled = info.settled)
    (part : ClassInfo → α) (hpart : ∀ info, part info.settled = part info) :
    part info' = part info := by
  rw [← hpart info', h, hpart]

/-- What a class is found to be apart from its member classes, or what is no class. -/
private theorem settled?_cases {id : SymbolId} (h : later.settled? id = program.settled? id) :
    (later.classInfo? id = none ∧ program.classInfo? id = none) ∨
      ∃ info info', program.classInfo? id = some info ∧ later.classInfo? id = some info' ∧
        info'.settled = info.settled := by
  rw [settled?, settled?] at h
  cases hlater : later.classInfo? id with
  | none =>
      rw [hlater, Option.map_none] at h
      exact .inl ⟨rfl, Option.map_eq_none_iff.mp h.symm⟩
  | some info' =>
      rw [hlater, Option.map_some] at h
      obtain ⟨info, hinfo, heq⟩ := Option.map_eq_some_iff.mp h.symm
      exact .inr ⟨info, info', hinfo, rfl, heq.symm⟩

namespace Retains

variable (h : program.Retains later) {id : SymbolId} (hid : id < program.symbols.size)
include h hid

theorem supertypes_eq : later.supertypes id = program.supertypes id := by
  rw [supertypes, supertypes]
  rcases settled?_cases (h.settled?_eq id hid) with ⟨hlater, hprogram⟩ | ⟨info, info', hinfo, hinfo', heq⟩
  · rw [hlater, hprogram]
  · rw [hinfo, hinfo']
    exact eq_of_settled_eq heq (fun info => info.superclass.toList ++ info.interfaces) fun _ => rfl

theorem fields_eq : (later.members id).fields = (program.members id).fields := by
  rcases settled?_cases (h.settled?_eq id hid) with ⟨hlater, hprogram⟩ | ⟨info, info', hinfo, hinfo', heq⟩
  · rw [members_eq_default hlater, members_eq_default hprogram]
  · rw [members_eq_of_classInfo? hinfo, members_eq_of_classInfo? hinfo']
    exact eq_of_settled_eq heq (·.members.fields) fun _ => rfl

theorem methods_eq : (later.members id).methods = (program.members id).methods := by
  rcases settled?_cases (h.settled?_eq id hid) with ⟨hlater, hprogram⟩ | ⟨info, info', hinfo, hinfo', heq⟩
  · rw [members_eq_default hlater, members_eq_default hprogram]
  · rw [members_eq_of_classInfo? hinfo, members_eq_of_classInfo? hinfo']
    exact eq_of_settled_eq heq (·.members.methods) fun _ => rfl

variable (hprogram : program.WellFormed)
include hprogram

theorem ancestors_eq : later.ancestors id = program.ancestors id := by
  have hsuper : ∀ id, ∀ supertype ∈ program.supertypes id, supertype < program.symbols.size :=
    fun _ _ h => hprogram.supertype_lt _ h
  rw [ancestors, ancestors, searchSupertypes_congr hsuper (fun _ hid => h.supertypes_eq hid) _
    (List.forall_mem_singleton.mpr hid)]
  obtain ⟨more, hmore⟩ := Nat.exists_eq_add_of_le h.size_le
  rw [hmore, Nat.add_right_comm]
  refine searchSupertypes_add hsuper more _ (List.forall_mem_singleton.mpr hid)
    (List.nodup_singleton id) ?_
  rw [List.length_singleton]
  omega

theorem findField?_eq (name : String) : later.findField? id name = program.findField? id name := by
  rw [findField?, findField?, h.ancestors_eq hid hprogram, ← List.head?_filterMap,
    ← List.head?_filterMap]
  refine congrArg List.head? (List.filterMap_congr fun ancestor hancestor => ?_)
  rw [h.fields_eq (hprogram.lt_size_of_mem_ancestors hid hancestor)]

theorem methodsNamed_eq (name : String) :
    later.methodsNamed id name = program.methodsNamed id name := by
  rw [methodsNamed, methodsNamed, h.ancestors_eq hid hprogram]
  refine List.flatMap_congr fun ancestor hancestor => ?_
  rw [h.methods_eq (hprogram.lt_size_of_mem_ancestors hid hancestor)]

theorem findMethod?_eq (name : String) (arity : Nat) :
    later.findMethod? id name arity = program.findMethod? id name arity := by
  have harity : (program.methodsNamed id name).find? (later.hasArity arity) =
      (program.methodsNamed id name).find? (program.hasArity arity) := by
    refine List.find?_congr fun method hmethod => ?_
    obtain ⟨symbol, _, hinherits, -⟩ := hprogram.mem_methodsNamed hmethod
    rw [hasArity, hasArity, hinherits.symbol_eq,
      h.symbol? hinherits.symbol_eq (symbol.classInfo?_eq_none_of_owner? hinherits.owner_eq)]
  rw [findMethod?, findMethod?, h.methodsNamed_eq hid hprogram, harity]

end Retains

/-! ### Fields that stay in their tables -/

/-- No class loses a field from its table. -/
structure KeepsFields (program later : Program) : Prop where
  subset : ∀ owner, (program.members owner).fields ⊆ (later.members owner).fields

namespace KeepsFields

theorem refl (program : Program) : program.KeepsFields program :=
  ⟨fun _ => List.Subset.refl _⟩

theorem trans (hfirst : program.KeepsFields later) (hsecond : later.KeepsFields latest) :
    program.KeepsFields latest :=
  ⟨fun owner => List.Subset.trans (hfirst.subset owner) (hsecond.subset owner)⟩

/-- It is enough to look at the classes that there are. -/
theorem of_classInfo? (h : ∀ owner info, program.classInfo? owner = some info →
    info.members.fields ⊆ (later.members owner).fields) : program.KeepsFields later := by
  refine ⟨fun owner => ?_⟩
  cases hinfo : program.classInfo? owner with
  | none =>
      rw [members_eq_default hinfo]
      exact List.nil_subset _
  | some info =>
      rw [members_eq_of_classInfo? hinfo]
      exact h owner info hinfo

theorem declare (program : Program) (name : String) (kind : SymbolKind) (type guard : Option String)
    (span : Span) : program.KeepsFields (program.declare name kind type guard span).2 :=
  of_classInfo? fun owner info hinfo => by
    rw [members_declare (lt_size_of_classInfo?_eq_some hinfo), members_eq_of_classInfo? hinfo]
    exact List.Subset.refl _

theorem updateClass (owner : SymbolId) {change : ClassInfo → ClassInfo}
    (hchange : ∀ info, program.classInfo? owner = some info →
      info.members.fields ⊆ (change info).members.fields) :
    program.KeepsFields (program.updateClass owner change) := by
  refine of_classInfo? fun id info hinfo => ?_
  have hlater := program.classInfo?_updateClass owner change id
  rw [hinfo, Option.map_some] at hlater
  rw [members_eq_of_classInfo? hlater]
  split
  case isTrue heq => exact hchange info (heq ▸ hinfo)
  case isFalse => exact List.Subset.refl _

end KeepsFields

theorem Retains.keepsFields (h : program.Retains later) : program.KeepsFields later :=
  .of_classInfo? fun owner info hinfo => by
    rw [h.fields_eq (lt_size_of_classInfo?_eq_some hinfo), members_eq_of_classInfo? hinfo]
    exact List.Subset.refl _

end Program
end LockDiscipline
