import LockDiscipline.Proofs.Program.Naming
import LockDiscipline.Proofs.Program.Unit
/-!
# The tables of declared classes

When the classes of a unit are declared, each gets a symbol of its own, which knows the class around
it and its member classes, and is entered under its qualified name. `Program.Lays` says this of one
class. What a lookup in these tables finds is thereby told by the declarations: the first class of a
name. Supertypes are set only afterwards.
-/

namespace LockDiscipline

namespace Program

variable {program before middle after : Program}

/-! ### Symbols of declarations -/

/-- Every node for which a use is recorded has a symbol to itself. -/
structure UsesOnce (program : Program) : Prop where
  lt_size : ∀ {node id}, program.use? node = some id → id < program.symbols.size
  inj : ∀ {node node' id}, program.use? node = some id → program.use? node' = some id → node = node'

theorem UsesOnce.declare (h : program.UsesOnce) (name : String) (kind : SymbolKind)
    (type guard : Option String) (span : Span) (node : NodeId) :
    ((program.declare name kind type guard span).2.setUse node program.symbols.size).UsesOnce := by
  have huse (number : NodeId) : ((program.declare name kind type guard span).2.setUse node
      program.symbols.size).use? number =
        if number = node then some program.symbols.size else program.use? number :=
    use?_setUse ..
  have hne {number : NodeId} (hnumber : program.use? number = some program.symbols.size) : False :=
    Nat.lt_irrefl _ (h.lt_size hnumber)
  refine ⟨fun {number id} hid => ?_, fun {number number' id} hid hid' => ?_⟩
  · have hsize : ((program.declare name kind type guard span).2.setUse node
        program.symbols.size).symbols.size = program.symbols.size + 1 := size_declare ..
    rw [hsize]
    rw [huse] at hid
    split at hid
    · exact Option.some.inj hid ▸ Nat.lt_succ_self _
    · exact Nat.lt_succ_of_lt (h.lt_size hid)
  · rw [huse] at hid hid'
    split at hid <;> split at hid'
    · simp [*]
    · obtain rfl := Option.some.inj hid
      exact (hne hid').elim
    · obtain rfl := Option.some.inj hid'
      exact (hne hid).elim
    · exact h.inj hid hid'

/-- Something is declared, in a class if it belongs to one. No other symbol changes, and no supertype
is set. -/
structure Adds (owner? : Option SymbolId) (before after : Program) : Prop where
  symbol? : ∀ {id symbol}, some id ≠ owner? → before.symbol? id = some symbol →
    after.symbol? id = some symbol
  supertypes : ∀ id, after.supertypes id = before.supertypes id
  usesOnce : before.UsesOnce → after.UsesOnce
  library : after.library = before.library
  imports : after.imports = before.imports
  package : after.package = before.package

namespace Adds

variable {owner? : Option SymbolId}

theorem refl (owner? : Option SymbolId) (program : Program) : Adds owner? program program :=
  ⟨fun _ h => h, fun _ => rfl, fun h => h, rfl, rfl, rfl⟩

theorem trans (hfirst : Adds owner? before middle) (hsecond : Adds owner? middle after) :
    Adds owner? before after where
  symbol? hne hsymbol := hsecond.symbol? hne (hfirst.symbol? hne hsymbol)
  supertypes id := (hsecond.supertypes id).trans (hfirst.supertypes id)
  usesOnce h := hsecond.usesOnce (hfirst.usesOnce h)
  library := hsecond.library.trans hfirst.library
  imports := hsecond.imports.trans hfirst.imports
  package := hsecond.package.trans hfirst.package

theorem mono (h : Adds none before after) : Adds owner? before after :=
  { h with symbol? := fun _ hsymbol => h.symbol? nofun hsymbol }

/-- What is declared in a class that is itself new changes no symbol that there was. -/
theorem of_new {owner : SymbolId} (h : Adds (some owner) before after)
    (hnew : before.symbols.size ≤ owner) : Adds none before after where
  symbol? _ hsymbol := h.symbol? (fun heq => Nat.not_lt_of_le hnew
    (Option.some.inj heq ▸ lt_size_of_symbol?_eq_some hsymbol)) hsymbol
  supertypes := h.supertypes
  usesOnce := h.usesOnce
  library := h.library
  imports := h.imports
  package := h.package

theorem declare (program : Program) (name : String) (kind : SymbolKind)
    (type guard : Option String) (span : Span) (node : NodeId)
    (hkind : ∀ info, kind = .classType info → info.superclass = none ∧ info.interfaces = []) :
    Adds none program
      ((program.declare name kind type guard span).2.setUse node program.symbols.size) where
  symbol? _ hsymbol := by
    refine (symbol?_declare ..).trans ?_
    rw [if_neg (Nat.ne_of_lt (lt_size_of_symbol?_eq_some hsymbol)), hsymbol]
  supertypes := program.supertypes_declare name type guard span hkind
  usesOnce h := h.declare ..
  library := rfl
  imports := rfl
  package := rfl

theorem updateMembers (program : Program) (owner : SymbolId)
    (change : MemberTable → MemberTable) :
    Adds (some owner) program (program.updateMembers owner change) where
  symbol? hne hsymbol :=
    (symbol?_updateClass_of_ne program _ fun heq => hne (congrArg some heq)).trans hsymbol
  supertypes := program.supertypes_updateMembers owner change
  usesOnce h := ⟨fun huse => (size_updateClass program owner _).symm ▸ h.lt_size huse, h.inj⟩
  library := rfl
  imports := rfl
  package := rfl

/-- Names and problems are no symbols. -/
theorem of_symbols_eq (hsymbols : after.symbols = before.symbols) (huses : after.uses = before.uses)
    (hlibrary : after.library = before.library) (himports : after.imports = before.imports)
    (hpackage : after.package = before.package) : Adds none before after := by
  obtain ⟨symbols, uses, problems, package, topLevel, qualified, library, imports⟩ := after
  obtain rfl : symbols = before.symbols := hsymbols
  obtain rfl : uses = before.uses := huses
  exact ⟨fun _ h => h, fun _ => rfl, fun h => ⟨h.lt_size, h.inj⟩, hlibrary, himports, hpackage⟩

end Adds

/-! ### Classes with their tables -/

/-- A class is declared as its place says: its symbol has its name, is in the symbol of the class
around it and knows its member classes, of several with one name the first. -/
structure Lays (program : Program) (place : ClassPlace) (id : SymbolId) (symbol : NamedSymbol)
    (info : ClassInfo) : Prop where
  use_eq : program.use? place.decl.id = some id
  symbol_eq : program.symbol? id = some symbol
  name_eq : symbol.name = place.decl.name
  info_eq : symbol.classInfo? = some info
  outer_eq : info.outer = place.around.head?.bind fun outer => program.use? outer.id
  classes_eq : ∀ name, info.members.classes.lookup name =
    (place.decl.memberClass? name).bind fun inner => program.use? inner.id

/-- A class is declared as its place says, with a symbol that is not below a number. -/
def LaysFrom (program : Program) (least : SymbolId) (place : ClassPlace) : Prop :=
  ∃ id symbol info, least ≤ id ∧ program.Lays place id symbol info

variable {place : ClassPlace} {least : SymbolId}

theorem LaysFrom.isSome_use? (h : program.LaysFrom least place) :
    (program.use? place.decl.id).isSome := by
  obtain ⟨id, symbol, info, -, hlays⟩ := h
  rw [hlays.use_eq]
  rfl

theorem LaysFrom.le {least' : SymbolId} (h : program.LaysFrom least place) (hle : least' ≤ least) :
    program.LaysFrom least' place := by
  obtain ⟨id, symbol, info, hid, hlays⟩ := h
  exact ⟨id, symbol, info, Nat.le_trans hle hid, hlays⟩

/-- A class is declared when its symbol and the uses of its nodes stay. -/
theorem Lays.mono {id : SymbolId} {symbol : NamedSymbol} {info : ClassInfo}
    (h : before.Lays place id symbol info) (hsymbol : after.symbol? id = some symbol)
    (huse : ∀ node ∈ place.nodes, after.use? node = before.use? node) :
    after.Lays place id symbol info where
  use_eq := (huse _ (List.mem_append_right _ place.decl.id_mem_declaring)).trans h.use_eq
  symbol_eq := hsymbol
  name_eq := h.name_eq
  info_eq := h.info_eq
  outer_eq := by
    rw [h.outer_eq]
    cases hhead : place.around.head? with
    | none => rfl
    | some outer =>
        refine (huse outer.id (List.mem_append_left _ ?_)).symm
        rw [hhead]
        exact List.mem_singleton_self _
  classes_eq name := by
    rw [h.classes_eq]
    cases hinner : place.decl.memberClass? name with
    | none => rfl
    | some inner =>
        exact (huse inner.id (List.mem_append_right _ (ClassDecl.memberClass?_mem hinner))).symm

theorem LaysFrom.mono {owner? : Option SymbolId} (h : before.LaysFrom least place)
    (hadds : Adds owner? before after) (howner : ∀ owner, owner? = some owner → owner < least)
    (huse : ∀ node ∈ place.nodes, after.use? node = before.use? node) :
    after.LaysFrom least place := by
  obtain ⟨id, symbol, info, hid, hlays⟩ := h
  refine ⟨id, symbol, info, hid, hlays.mono (hadds.symbol? (fun heq => ?_) hlays.symbol_eq) huse⟩
  exact Nat.not_lt_of_le hid (howner id heq.symm)

end Program

namespace Resolving

open Program (Adds)

/-! ### Members -/

/-- Members that are no classes are declared in a class. -/
structure AddsPlain (owner : SymbolId) (before after : Program) : Prop where
  adds : Adds (some owner) before after
  topLevel : after.topLevel = before.topLevel
  qualified : after.qualified = before.qualified
  classes : (after.members owner).classes = (before.members owner).classes

namespace AddsPlain

variable {owner : SymbolId} {before middle after : Program}

theorem refl (owner : SymbolId) (program : Program) : AddsPlain owner program program :=
  ⟨.refl _ _, rfl, rfl, rfl⟩

theorem trans (hfirst : AddsPlain owner before middle) (hsecond : AddsPlain owner middle after) :
    AddsPlain owner before after where
  adds := hfirst.adds.trans hsecond.adds
  topLevel := hsecond.topLevel.trans hfirst.topLevel
  qualified := hsecond.qualified.trans hfirst.qualified
  classes := hsecond.classes.trans hfirst.classes

theorem problem (owner : SymbolId) (program : Program) (problem : NameProblem) :
    AddsPlain owner program (program.addProblem problem) :=
  ⟨.mono (.of_symbols_eq rfl rfl rfl rfl rfl), rfl, rfl, rfl⟩

/-- A change to the tables of a class that leaves the classes alone. -/
theorem updateMembers (program : Program) (owner : SymbolId) (change : MemberTable → MemberTable)
    (hchange : ∀ table, (change table).classes = table.classes) :
    AddsPlain owner program (program.updateMembers owner change) where
  adds := .updateMembers program owner change
  topLevel := rfl
  qualified := rfl
  classes := by
    cases hinfo : program.classInfo? owner with
    | none =>
        have hnone : (program.updateMembers owner change).classInfo? owner = none := by
          rw [Program.updateMembers, Program.classInfo?_updateClass, hinfo]
          rfl
        rw [Program.members_eq_default hnone, Program.members_eq_default hinfo]
    | some info => rw [Program.members_updateMembers hinfo, hchange]

theorem declare {program : Program} (howner : owner < program.symbols.size) (name : String)
    (kind : SymbolKind) (type guard : Option String) (span : Span) (node : NodeId)
    (hkind : ∀ info, kind ≠ .classType info) : AddsPlain owner program
      ((program.declare name kind type guard span).2.setUse node program.symbols.size) where
  adds := (Adds.declare program name kind type guard span node
    fun info hinfo => absurd hinfo (hkind info)).mono
  topLevel := rfl
  qualified := rfl
  classes := congrArg _ (Program.members_declare howner name kind type guard span)

end AddsPlain

section Members

variable {owner : SymbolId} {draft : TrackedDraft}

theorem enterField_adds (name : String) (id : SymbolId) (span : Span) (draft : TrackedDraft) :
    AddsPlain owner draft.program ((enterField owner name id span).run draft).2.program := by
  rw [enterField, run_bind, run_ask]
  dsimp only
  rw [enterOnce]
  cases (draft.program.members owner).fields.lookup name with
  | some previous => exact .problem owner draft.program _
  | none =>
      let fields := (draft.program.members owner).fields ++ [(name, id)]
      exact .updateMembers draft.program owner (fun members => { members with fields }) fun _ => rfl

theorem declareField_adds (howner : owner < draft.program.symbols.size) (name : String)
    (type guard : Option String) (isStatic : Bool) (node : NodeId) (span : Span) :
    AddsPlain owner draft.program
      ((declareField owner name type guard isStatic node span).run draft).2.program := by
  have hdeclared : AddsPlain owner draft.program
      ((declare name (.field owner isStatic) type guard span >>= fun id =>
        setUse node id).run draft).2.program :=
    .declare howner name (.field owner isStatic) type guard span node fun _ h => by cases h
  exact hdeclared.trans (enterField_adds name _ span _)

theorem declareFields_adds (modifiers : Modifiers) (type : String) (isStatic : Bool)
    (declarators : List Declarator) (hdraft : draft.program.WellFormed)
    (howner : owner < draft.program.symbols.size) : AddsPlain owner draft.program
      ((declareFields owner modifiers type isStatic declarators).run draft).2.program := by
  induction declarators generalizing draft with
  | nil => exact .refl owner draft.program
  | cons declarator rest ih =>
      have hfirst := declareField_spec owner declarator.name (some type) isStatic declarator.id
        declarator.span draft hdraft modifiers.guardedBy?
      exact (declareField_adds howner declarator.name (some type) modifiers.guardedBy? isStatic
        declarator.id declarator.span).trans (ih (hfirst.wellFormed hdraft)
          (Nat.lt_of_lt_of_le howner hfirst.grows.size_le))

theorem declareMethod_adds (howner : owner < draft.program.symbols.size) (method : MethodDecl)
    (inInterface : Bool) : AddsPlain owner draft.program
      ((declareMethod owner method inInterface).run draft).2.program := by
  have hdeclared : AddsPlain owner draft.program
      ((declare method.name (.method owner (method.modifiers.has .static)
        (method.modifiers.has .synchronized && !inInterface) method.params.length) method.returnType
          method.modifiers.guardedBy? method.span >>= fun id => setUse method.id id).run
            draft).2.program :=
    .declare howner method.name _ method.returnType _ method.span method.id fun _ h => by cases h
  refine hdeclared.trans (.updateMembers _ owner (fun members => { members with
    methods := members.methods ++ [(method.name, draft.program.symbols.size)] }) fun _ => rfl)

end Members

/-! ### Classes -/

/-- The symbol that a program has for the class with a qualified name among some. -/
def namedAmong (program : Program) (package : Option String) (places : List ClassPlace)
    (name : String) : Option SymbolId :=
  (places.find? (·.qualifiedName package == name)).bind fun place => program.use? place.decl.id

/-- A class is declared with its member classes. -/
structure AddsClass (package : Option String) (place : ClassPlace) (before after : Program) :
    Prop where
  adds : Adds none before after
  topLevel : after.topLevel = before.topLevel
  qualified : ∀ name, after.qualified.lookup name = (before.qualified.lookup name).or
    (namedAmong after package (place.decl.classPlaces place.around) name)
  lays : ∀ inner ∈ place.decl.classPlaces place.around, after.LaysFrom before.symbols.size inner

/-- Members are declared in the innermost of some classes. -/
structure AddsMembers (package : Option String) (around : List ClassDecl) (owner : SymbolId)
    (members : List Member) (before after : Program) : Prop where
  adds : Adds (some owner) before after
  topLevel : after.topLevel = before.topLevel
  qualified : ∀ name, after.qualified.lookup name = (before.qualified.lookup name).or
    (namedAmong after package (memberPlaces around members) name)
  classes : ∀ name, (after.members owner).classes.lookup name =
    ((before.members owner).classes.lookup name).or
      (((memberClasses members).find? (·.name == name)).bind fun inner => after.use? inner.id)
  lays : ∀ place ∈ memberPlaces around members, after.LaysFrom before.symbols.size place

private theorem namedAmong_append {package : Option String} {middle after : Program}
    {first second : List ClassPlace} (name : String) (h : ∀ place ∈ first,
      middle.use? place.decl.id = after.use? place.decl.id ∧ (after.use? place.decl.id).isSome) :
    (namedAmong middle package first name).or (namedAmong after package second name) =
      namedAmong after package (first ++ second) name := by
  rw [namedAmong, namedAmong, namedAmong, List.find?_append]
  exact bind_or_bind fun place hplace => h place (List.mem_of_find?_eq_some hplace)

namespace AddsMembers

variable {package : Option String} {outer : ClassDecl} {around : List ClassDecl} {owner : SymbolId}
  {member : Member} {rest : List Member} {before middle after : TrackedDraft}

theorem of_plain {before after : Program} (h : AddsPlain owner before after)
    (hkind : ∀ inner, member.kind ≠ .classDecl inner) :
    AddsMembers package around owner [member] before after := by
  have hclasses : memberClasses [member] = [] := by
    obtain ⟨node, kind, span⟩ := member
    cases kind with
    | classDecl inner => exact absurd rfl (hkind inner)
    | _ => rfl
  have hplaces : memberPlaces around [member] = [] := by
    rw [memberPlaces_eq, hclasses]
    rfl
  refine ⟨h.adds, h.topLevel, fun name => ?_, fun name => ?_, ?_⟩
  · rw [hplaces, h.qualified, namedAmong, List.find?_nil, Option.bind_none, Option.or_none]
  · rw [hclasses, h.classes, List.find?_nil, Option.bind_none, Option.or_none]
  · rw [hplaces]
    exact fun _ h => absurd h List.not_mem_nil

theorem nil (owner : SymbolId) (program : Program) :
    AddsMembers package around owner [] program program := by
  refine ⟨.refl _ _, rfl, fun name => ?_, fun name => ?_, ?_⟩
  · rw [memberPlaces, namedAmong, List.find?_nil, Option.bind_none, Option.or_none]
  · rw [memberClasses, List.filterMap_nil, List.find?_nil, Option.bind_none, Option.or_none]
  · rw [memberPlaces]
    exact fun _ h => absurd h List.not_mem_nil

/-- What is declared stays while other members of the class are. -/
theorem extend {members : List Member} {before middle after : Program}
    (h : AddsMembers package around owner members before middle) (hplain : AddsPlain owner middle after)
    (huses : after.uses = middle.uses) (howner : owner < before.symbols.size) :
    AddsMembers package around owner members before after := by
  have huse (node : NodeId) : after.use? node = middle.use? node := congrArg (·[node]?) huses
  refine ⟨h.adds.trans hplain.adds, hplain.topLevel.trans h.topLevel, fun name => ?_, fun name => ?_,
    fun place hplace => ?_⟩
  · rw [hplain.qualified, h.qualified]
    simp only [namedAmong, huse]
  · rw [hplain.classes, h.classes]
    simp only [huse]
  · exact (h.lays place hplace).mono hplain.adds (fun _ h => Option.some.inj h ▸ howner)
      fun node _ => huse node

/-- The classes among the first members stay while the others are declared. -/
theorem cons (hfirst : AddsMembers package (outer :: around) owner [member] before.program
      middle.program)
    (hrest : AddsMembers package (outer :: around) owner rest middle.program after.program)
    (hdeclares : Declares (declaringMembers rest) middle after)
    (hsize : before.program.symbols.size ≤ middle.program.symbols.size)
    (howner : owner < before.program.symbols.size)
    (hnodup : (outer.id :: TreeNode.numbersOf (memberParts (member :: rest))).Nodup) :
    AddsMembers package (outer :: around) owner (member :: rest) before.program after.program := by
  have hclasses : memberClasses (member :: rest) = memberClasses [member] ++ memberClasses rest :=
    List.filterMap_append (l := [member])
  have hplaces : memberPlaces (outer :: around) (member :: rest) =
      memberPlaces (outer :: around) [member] ++ memberPlaces (outer :: around) rest := by
    rw [memberPlaces_eq, memberPlaces_eq, memberPlaces_eq, hclasses, List.flatMap_append]
  -- What the first member declares is not declared again.
  have huse : ∀ place ∈ memberPlaces (outer :: around) [member], ∀ node ∈ place.nodes,
      after.program.use? node = middle.program.use? node := by
    intro place hplace node hnode
    have hmem := nodes_subset_of_memberPlaces hplace hnode
    refine hdeclares.uses node fun hdeclaring => ?_
    have hnumber := declaringMembers_subset_numbers rest hdeclaring
    have heq : outer.id :: TreeNode.numbersOf (memberParts (member :: rest)) =
        (outer.id :: TreeNode.numbersOf (memberParts [member])) ++
          TreeNode.numbersOf (memberParts rest) := by
      rw [List.cons_append, ← TreeNode.numbersOf_append]
      rfl
    rw [heq] at hnodup
    refine List.disjoint_of_nodup_append hnodup ?_ hnumber
    exact List.cons_subset_cons _ (declaringMembers_subset_numbers [member]) hmem
  have hlays : ∀ place ∈ memberPlaces (outer :: around) [member],
      after.program.LaysFrom before.program.symbols.size place := fun place hplace =>
    (hfirst.lays place hplace).mono hrest.adds (fun _ h => Option.some.inj h ▸ howner)
      (huse place hplace)
  have hid : ∀ place ∈ memberPlaces (outer :: around) [member],
      middle.program.use? place.decl.id = after.program.use? place.decl.id ∧
        (after.program.use? place.decl.id).isSome := fun place hplace =>
    ⟨(huse place hplace _ (List.mem_append_right _ place.decl.id_mem_declaring)).symm,
      (hlays place hplace).isSome_use?⟩
  refine ⟨hfirst.adds.trans hrest.adds, hrest.topLevel.trans hfirst.topLevel, fun name => ?_,
    fun name => ?_, fun place hplace => ?_⟩
  · rw [hrest.qualified, hfirst.qualified, Option.or_assoc, hplaces, namedAmong_append name hid]
  · rw [hrest.classes, hfirst.classes, Option.or_assoc, hclasses, List.find?_append]
    refine congrArg _ (bind_or_bind fun inner hinner => ?_)
    refine hid ⟨outer :: around, inner⟩ ?_
    rw [memberPlaces_eq]
    exact List.mem_flatMap.mpr ⟨inner, List.mem_of_find?_eq_some hinner, inner.mem_classPlaces _⟩
  · rw [hplaces] at hplace
    rcases List.mem_append.mp hplace with hplace | hplace
    · exact hlays place hplace
    · exact (hrest.lays place hplace).le hsize

end AddsMembers

theorem lookup_enterOnce (name : String) (id : SymbolId) (other : String)
    (entries : List (String × SymbolId)) : (enterOnce name id entries).2.lookup other =
      (entries.lookup other).or (if name == other then some id else none) := by
  rw [enterOnce]
  cases hlookup : entries.lookup name with
  | some previous =>
      dsimp only
      by_cases heq : name = other
      · subst heq
        rw [hlookup]
        rfl
      · rw [if_neg (by simpa using heq), Option.or_none]
  | none =>
      dsimp only
      rw [List.lookup_append, List.lookup_cons, List.lookup_nil]
      simp only [BEq.comm (a := other)]
      split <;> simp [*]

/-- A member class adds the classes in it, and is then entered in the table of its class. -/
private theorem AddsClass.enter {package : Option String} {around : List ClassDecl}
    {owner id : SymbolId} {decl : ClassDecl} {before middle : TrackedDraft} (node : NodeId) (span : Span)
    (h : AddsClass package ⟨around, decl⟩ before.program middle.program)
    (huse : middle.program.use? decl.id = some id) {info : ClassInfo}
    (hinfo : before.program.classInfo? owner = some info) :
    AddsMembers package around owner [⟨node, .classDecl decl, span⟩] before.program
      ((enterMemberClass owner decl.name id).run middle).2.program := by
  obtain ⟨symbol, hsymbol, hsymbolInfo⟩ := Option.bind_eq_some_iff.mp hinfo
  have hmiddle : middle.program.classInfo? owner = some info := by
    rw [Program.classInfo?, h.adds.symbol? (Option.some_ne_none _) hsymbol]
    exact hsymbolInfo
  have hmembers : middle.program.members owner = before.program.members owner := by
    rw [Program.members, Program.members, hmiddle, hinfo]
  have hplaces : memberPlaces around [⟨node, .classDecl decl, span⟩] = decl.classPlaces around :=
    (memberPlaces_eq ..).trans (List.flatMap_singleton ..)
  let classes := (enterOnce decl.name id (middle.program.members owner).classes).2
  have hrun : ((enterMemberClass owner decl.name id).run middle).2.program =
      middle.program.updateMembers owner fun members => { members with classes } := rfl
  have hadds := Adds.updateMembers middle.program owner fun members => { members with classes }
  rw [hrun]
  refine ⟨h.adds.mono.trans hadds, h.topLevel, fun name => ?_, fun name => ?_, fun place hplace => ?_⟩
  · rw [hplaces]
    exact h.qualified name
  · rw [Program.members_updateMembers hmiddle]
    refine (lookup_enterOnce decl.name id name _).trans ?_
    rw [hmembers]
    refine congrArg _ ?_
    change _ = ([decl].find? (·.name == name)).bind _
    rw [List.find?_singleton]
    cases decl.name == name with
    | false => rfl
    | true => exact huse.symm
  · rw [hplaces] at hplace
    refine (h.lays place hplace).mono hadds (fun other hother => ?_) fun node _ => rfl
    exact Option.some.inj hother ▸ Program.lt_size_of_classInfo?_eq_some hinfo

/-- The symbol of a class is declared under the next number, without members as yet. -/
private structure AddsSymbol (decl : ClassDecl) (qualifiedName : String) (outer : Option SymbolId)
    (before after : TrackedDraft) : Prop where
  declares : Declares [decl.id] before after
  adds : Adds none before.program after.program
  topLevel : after.program.topLevel = before.program.topLevel
  qualified : after.program.qualified =
    before.program.qualified ++ [(qualifiedName, before.program.symbols.size)]
  use : after.program.use? decl.id = some before.program.symbols.size
  symbol : ∃ symbol info, after.program.symbol? before.program.symbols.size = some symbol ∧
    symbol.name = decl.name ∧ symbol.classInfo? = some info ∧ info.outer = outer ∧
      info.members = default

private theorem declareClassSymbol_adds (decl : ClassDecl) (outer : Option SymbolId)
    (qualifiedName : String) (isStatic : Bool) {draft : TrackedDraft}
    (hlt : ∀ around, outer = some around → around < draft.program.symbols.size) :
    AddsSymbol decl qualifiedName outer draft ((declareClassSymbol decl.id decl.name decl.kind outer
      qualifiedName isStatic decl.span).run draft).2 := by
  let info : ClassInfo :=
    { outer, isStatic, kind := decl.kind, qualifiedName, superclass := none, interfaces := []
      members := default }
  obtain ⟨hdeclares, huse, -⟩ := declareClassSymbol_spec decl.id decl.name decl.kind outer
    qualifiedName isStatic decl.span hlt
  refine ⟨hdeclares, ?_, rfl, rfl, huse,
    ⟨draft.program.symbols.size, decl.name, .classType info, none, none, decl.span⟩, info,
    (Program.symbol?_declare ..).trans (if_pos rfl), rfl, rfl, rfl, rfl⟩
  refine (Adds.declare draft.program decl.name (.classType info) none none decl.span decl.id
    fun info' hinfo' => ?_).trans (.of_symbols_eq rfl rfl rfl rfl rfl)
  obtain rfl := SymbolKind.classType.inj hinfo'
  exact ⟨rfl, rfl⟩

namespace AddsSymbol

variable {package : Option String} {around : List ClassDecl} {outer : Option SymbolId}
  {decl : ClassDecl} {before middle after : TrackedDraft}

/-- The class is declared with its table when its members are declared as well. -/
theorem lays {qualifiedName : String} (h : AddsSymbol decl qualifiedName outer before middle)
    (hhead : outer = around.head?.bind fun outer => before.program.use? outer.id)
    (hnodup : ((around.head?.map (·.id)).toList ++ (TreeNode.classDecl decl).numbers).Nodup)
    (hdeclares : Declares (declaringMembers decl.members) middle after)
    (hmembers : AddsMembers package (decl :: around) before.program.symbols.size decl.members
      middle.program after.program) :
    after.program.LaysFrom before.program.symbols.size ⟨around, decl⟩ := by
  obtain ⟨symbol, info, hsymbol, hname, hinfo, houter, hempty⟩ := h.symbol
  obtain ⟨symbol', hsymbol', hbecomes⟩ := hdeclares.grows.symbol? hsymbol
  obtain ⟨info', hinfo', houter'⟩ := hbecomes.outer_eq hinfo
  refine ⟨_, symbol', info', Nat.le_refl _, (hdeclares.uses decl.id fun hmem => ?_).trans h.use,
    hsymbol', hbecomes.name_eq.trans hname, hinfo', ?_, fun name => ?_⟩
  · exact not_mem_numbersOf_memberParts hnodup.of_append_right
      (declaringMembers_subset_numbers decl.members hmem)
  · rw [houter', houter, hhead]
    cases hhead' : around.head? with
    | none => rfl
    | some outer =>
        refine ((h.declares.trans hdeclares).uses outer.id fun hmem => ?_).symm
        have hmem' : outer.id ∈ decl.declaring := decl.declaring_eq ▸ hmem
        refine List.disjoint_of_nodup_append hnodup ?_ (decl.declaring_subset_numbers hmem')
        rw [hhead']
        exact List.mem_singleton_self _
  · have hlater : after.program.classInfo? before.program.symbols.size = some info' := by
      rw [Program.classInfo?, hsymbol']
      exact hinfo'
    have hearlier : middle.program.classInfo? before.program.symbols.size = some info := by
      rw [Program.classInfo?, hsymbol]
      exact hinfo
    rw [← Program.members_eq_of_classInfo? hlater, hmembers.classes,
      Program.members_eq_of_classInfo? hearlier, hempty]
    rfl

theorem addsClass (h : AddsSymbol decl (qualifiedNameIn package decl.name around) outer before middle)
    (hhead : outer = around.head?.bind fun outer => before.program.use? outer.id)
    (hnodup : ((around.head?.map (·.id)).toList ++ (TreeNode.classDecl decl).numbers).Nodup)
    (hdeclares : Declares (declaringMembers decl.members) middle after)
    (hmembers : AddsMembers package (decl :: around) before.program.symbols.size decl.members
      middle.program after.program) :
    AddsClass package ⟨around, decl⟩ before.program after.program := by
  have hplaces := decl.classPlaces_eq around
  have hlays := h.lays hhead hnodup hdeclares hmembers
  have huse : after.program.use? decl.id = some before.program.symbols.size :=
    (hdeclares.uses decl.id fun hmem => not_mem_numbersOf_memberParts hnodup.of_append_right
      (declaringMembers_subset_numbers decl.members hmem)).trans h.use
  refine ⟨(h.adds.mono.trans hmembers.adds).of_new (Nat.le_refl _),
    hmembers.topLevel.trans h.topLevel, fun name => ?_, fun place hplace => ?_⟩
  · rw [hmembers.qualified, h.qualified, List.lookup_append, Option.or_assoc, hplaces, namedAmong,
      namedAmong, List.find?_cons, List.lookup_cons, List.lookup_nil, BEq.comm]
    refine congrArg _ ?_
    dsimp only [ClassPlace.qualifiedName]
    cases qualifiedNameIn package decl.name around == name with
    | true => exact huse.symm
    | false => rfl
  · rw [hplaces] at hplace
    rcases List.mem_cons.mp hplace with rfl | hplace
    · exact hlays
    · exact (hmembers.lays place hplace).le h.declares.grows.size_le

end AddsSymbol

mutual

theorem declareClass_adds {package : Option String} {around : List ClassDecl}
    {outer : Option SymbolId} (isStatic : Bool) : ∀ (decl : ClassDecl) {draft : TrackedDraft},
      draft.program.WellFormed → (∀ around, outer = some around → around < draft.program.symbols.size) →
      (outer = around.head?.bind fun outer => draft.program.use? outer.id) →
      ((around.head?.map (·.id)).toList ++ (TreeNode.classDecl decl).numbers).Nodup →
      AddsClass package ⟨around, decl⟩ draft.program ((declareClass outer decl.name
        (qualifiedNameIn package decl.name around) isStatic decl).run draft).2.program
  | ⟨node, name, kind, modifiers, typeParams, superclass, interfaces, members, span⟩, draft,
      hdraft, hlt, houter, hnodup => by
    rw [declareClass]
    let decl : ClassDecl :=
      ⟨node, name, kind, modifiers, typeParams, superclass, interfaces, members, span⟩
    obtain ⟨hsymbol, huse, info, hinfo, -⟩ := declareClassSymbol_spec node name kind outer
      (qualifiedNameIn package name around) isStatic span hlt
    have hnumbers : (node :: TreeNode.numbersOf (memberParts members)).Nodup := by
      have h := hnodup.of_append_right
      rw [TreeNode.numbers_eq] at h
      exact h.sublist ((numbersOf_memberParts decl).cons_cons node)
    have hdeclared := declareMembers_spec draft.program.symbols.size
      (qualifiedNameIn package name around) name (kind == .interface) members
      (hsymbol.wellFormed hdraft) hinfo
    have hadds := declareClassSymbol_adds decl outer (qualifiedNameIn package name around) isStatic
      hlt
    exact hadds.addsClass houter hnodup hdeclared.declares
      (declareMembers_adds decl around (kind == .interface) members (hsymbol.wellFormed hdraft) hinfo
        huse hnumbers)

theorem declareMembers_adds {package : Option String} (outer : ClassDecl) (around : List ClassDecl)
    {owner : SymbolId} (inInterface : Bool) : ∀ (members : List Member) {draft : TrackedDraft}
      {info : ClassInfo}, draft.program.WellFormed → draft.program.classInfo? owner = some info →
      draft.program.use? outer.id = some owner →
      (outer.id :: TreeNode.numbersOf (memberParts members)).Nodup →
      AddsMembers package (outer :: around) owner members draft.program ((declareMembers owner
        (qualifiedNameIn package outer.name around) outer.name inInterface members).run
          draft).2.program
  | [], draft, _, _, _, _, _ => by
    rw [declareMembers]
    exact .nil owner draft.program
  | ⟨node, kind, span⟩ :: rest, draft, info, hdraft, hinfo, huse, hnodup => by
    rw [declareMembers]
    have hsplit : (outer.id :: ((TreeNode.member ⟨node, kind, span⟩).numbers ++
        TreeNode.numbersOf (memberParts rest))).Nodup := hnodup
    have hfirst : AddsMembers package (outer :: around) owner [⟨node, kind, span⟩] draft.program _ :=
      declareMember_adds outer around inInterface node span kind hdraft hinfo huse
        (hsplit.sublist ((List.sublist_append_left _ _).cons_cons _))
    have hspec := declareMember_spec owner (qualifiedNameIn package outer.name around) outer.name
      inInterface node span kind hdraft hinfo
    obtain ⟨info', hinfo', -⟩ := hspec.declares.grows.classInfo? hinfo
    have huse' := (hspec.declares.uses outer.id fun hmem => ?_).trans huse
    · exact hfirst.cons (declareMembers_adds outer around inInterface rest
        (hspec.declares.wellFormed hdraft) hinfo' huse'
        (hsplit.sublist ((List.sublist_append_right _ _).cons_cons _)))
        (declareMembers_spec owner _ outer.name inInterface rest (hspec.declares.wellFormed hdraft)
          hinfo').declares hspec.declares.grows.size_le (Program.lt_size_of_classInfo?_eq_some hinfo)
        hnodup
    · refine (List.nodup_cons.mp hsplit).1 (List.mem_append_left _ ?_)
      exact TreeNode.numbersOf_singleton .declared _ ▸ declaringMembers_subset_numbers _ hmem

theorem declareMember_adds {package : Option String} (outer : ClassDecl) (around : List ClassDecl)
    {owner : SymbolId} (inInterface : Bool) (node : NodeId) (span : Span) :
    ∀ (kind : MemberKind) {draft : TrackedDraft} {info : ClassInfo}, draft.program.WellFormed →
      draft.program.classInfo? owner = some info → draft.program.use? outer.id = some owner →
      (outer.id :: (TreeNode.member ⟨node, kind, span⟩).numbers).Nodup →
      AddsMembers package (outer :: around) owner [⟨node, kind, span⟩] draft.program
        ((declareMember owner (qualifiedNameIn package outer.name around) outer.name inInterface node
          span kind).run draft).2.program
  | .field modifiers type declarators, draft, info, hdraft, hinfo, _, _ => by
    rw [declareMember]
    exact .of_plain (declareFields_adds modifiers type _ declarators hdraft
      (Program.lt_size_of_classInfo?_eq_some hinfo)) nofun
  | .enumConstant name args body, draft, info, hdraft, hinfo, _, _ => by
    rw [declareMember]
    exact .of_plain (declareField_adds (Program.lt_size_of_classInfo?_eq_some hinfo) name _ none true
      node span) nofun
  | .method method, draft, info, hdraft, hinfo, _, _ => by
    rw [declareMember]
    exact .of_plain (declareMethod_adds (Program.lt_size_of_classInfo?_eq_some hinfo) method
      inInterface) nofun
  | .initializer isStatic body, draft, info, hdraft, hinfo, _, _ => by
    rw [declareMember]
    exact .of_plain (.refl owner draft.program) nofun
  | .classDecl decl, draft, info, hdraft, hinfo, huse, hnodup => by
    rw [declareMember]
    have hlt : ∀ around, some owner = some around → around < draft.program.symbols.size :=
      fun _ h => Option.some.inj h ▸ Program.lt_size_of_classInfo?_eq_some hinfo
    have hnumbers : (outer.id :: (TreeNode.classDecl decl).numbers).Nodup := by
      rw [TreeNode.numbers_eq (.member _), TreeNode.parts, MemberKind.parts,
        TreeNode.numbersOf_singleton] at hnodup
      exact hnodup.sublist ((List.sublist_cons_self _ _).cons_cons _)
    let isStatic := decl.modifiers.has .static || decl.kind != .class || inInterface
    have hclass : AddsClass package ⟨outer :: around, decl⟩ draft.program _ :=
      declareClass_adds isStatic decl hdraft hlt huse.symm hnumbers
    have hspec := declareClass_spec (some owner) decl.name
      (qualifiedNameIn package decl.name (outer :: around)) isStatic decl hdraft hlt
    have hentered := hclass.enter node span (hspec.use hnumbers.of_cons) hinfo
    -- A member class of a name that is taken is only a problem.
    have hproblem (previous? : Option SymbolId) (draft : TrackedDraft) :
        let after := ((match previous? with
          | some previous => update fun program =>
              program.addProblem (.duplicateClass decl.name decl.span (program.spanOf previous))
          | none => Pure.pure () : Tracked Unit).run draft).2.program
        AddsPlain owner draft.program after ∧ after.uses = draft.program.uses := by
      cases previous? with
      | some previous => exact ⟨.problem owner draft.program _, rfl⟩
      | none => exact ⟨.refl owner draft.program, rfl⟩
    obtain ⟨hplain, huses⟩ := hproblem _ _
    exact hentered.extend hplain huses (Program.lt_size_of_classInfo?_eq_some hinfo)

end

/-! ### Units -/

/-- Top-level classes are declared, each with its member classes, and entered under their names. -/
structure AddsTypes (package : Option String) (types : List ClassDecl) (before after : Program) :
    Prop where
  adds : Adds none before after
  topLevel : ∀ name, after.topLevel.lookup name = (before.topLevel.lookup name).or
    ((types.find? (·.name == name)).bind fun decl => after.use? decl.id)
  qualified : ∀ name, after.qualified.lookup name = (before.qualified.lookup name).or
    (namedAmong after package (types.flatMap (·.classPlaces [])) name)
  lays : ∀ place ∈ types.flatMap (·.classPlaces []), after.LaysFrom before.symbols.size place

/-- The classes in the first top-level class stay while the others are declared. -/
private theorem AddsTypes.cons {package : Option String} {decl : ClassDecl} {rest : List ClassDecl}
    {before middle after : TrackedDraft}
    (hfirst : AddsTypes package [decl] before.program middle.program)
    (hrest : AddsTypes package rest middle.program after.program)
    (hdeclares : Declares (rest.flatMap ClassDecl.declaring) middle after)
    (hsize : before.program.symbols.size ≤ middle.program.symbols.size)
    (hnodup : ((decl :: rest).flatMap fun decl => (TreeNode.classDecl decl).numbers).Nodup) :
    AddsTypes package (decl :: rest) before.program after.program := by
  have hplaces : [decl].flatMap (·.classPlaces []) = decl.classPlaces [] := List.flatMap_singleton ..
  have huse : ∀ node ∈ decl.declaring, after.program.use? node = middle.program.use? node := by
    intro node hnode
    rw [List.flatMap_cons] at hnodup
    refine hdeclares.uses node fun hmem => ?_
    obtain ⟨other, hother, hdeclaring⟩ := List.mem_flatMap.mp hmem
    exact List.disjoint_of_nodup_append hnodup (decl.declaring_subset_numbers hnode)
      (List.mem_flatMap.mpr ⟨other, hother, other.declaring_subset_numbers hdeclaring⟩)
  have hlays : ∀ place ∈ decl.classPlaces [],
      after.program.LaysFrom before.program.symbols.size place := fun place hplace =>
    (hfirst.lays place (hplaces ▸ hplace)).mono hrest.adds nofun fun node hnode =>
      huse node (ClassDecl.nodes_subset hplace hnode)
  have hid : ∀ place ∈ decl.classPlaces [],
      middle.program.use? place.decl.id = after.program.use? place.decl.id ∧
        (after.program.use? place.decl.id).isSome := fun place hplace =>
    ⟨(huse _ (ClassDecl.nodes_subset hplace (List.mem_append_right _ place.decl.id_mem_declaring))).symm,
      (hlays place hplace).isSome_use?⟩
  refine ⟨hfirst.adds.trans hrest.adds, fun name => ?_, fun name => ?_, fun place hplace => ?_⟩
  · rw [hrest.topLevel, hfirst.topLevel, Option.or_assoc, ← List.singleton_append (l := rest),
      List.find?_append]
    refine congrArg _ (bind_or_bind fun found hfound => ?_)
    obtain rfl := List.mem_singleton.mp (List.mem_of_find?_eq_some hfound)
    exact hid _ (found.mem_classPlaces [])
  · rw [hrest.qualified, hfirst.qualified, Option.or_assoc, hplaces, namedAmong_append name hid,
      List.flatMap_cons]
  · rw [List.flatMap_cons] at hplace
    rcases List.mem_append.mp hplace with hplace | hplace
    · exact hlays place hplace
    · exact (hrest.lays place hplace).le hsize

/-- A top-level class adds the classes in it, and is then entered under its name. -/
private theorem AddsClass.enterTopLevel {package : Option String} {decl : ClassDecl} {id : SymbolId}
    {before middle : TrackedDraft} (h : AddsClass package ⟨[], decl⟩ before.program middle.program)
    (huse : middle.program.use? decl.id = some id) : AddsTypes package [decl] before.program
      ((Resolving.enterTopLevel decl.name id decl.span).run middle).2.program := by
  let topLevel := (enterOnce decl.name id middle.program.topLevel).2
  obtain ⟨problems, hrun⟩ : ∃ problems,
      ((Resolving.enterTopLevel decl.name id decl.span).run middle).2.program =
        { middle.program with topLevel, problems } := by
    rw [Resolving.enterTopLevel, run_bind, run_ask]
    dsimp only [topLevel]
    rw [enterOnce]
    cases middle.program.topLevel.lookup decl.name with
    | some previous => exact ⟨_, rfl⟩
    | none => exact ⟨_, rfl⟩
  have hadds : Adds none middle.program { middle.program with topLevel, problems } :=
    .of_symbols_eq rfl rfl rfl rfl rfl
  have hplaces : [decl].flatMap (·.classPlaces []) = decl.classPlaces [] := List.flatMap_singleton ..
  rw [hrun]
  refine ⟨h.adds.trans hadds, fun name => ?_, fun name => ?_, fun place hplace => ?_⟩
  · refine (lookup_enterOnce decl.name id name _).trans ?_
    rw [h.topLevel, List.find?_singleton]
    refine congrArg _ ?_
    cases decl.name == name with
    | false => rfl
    | true => exact huse.symm
  · rw [hplaces]
    exact h.qualified name
  · rw [hplaces] at hplace
    exact (h.lays place hplace).mono hadds (by simp) fun _ _ => rfl

theorem declareTopLevel_adds (package : Option String) (types : List ClassDecl) {draft : TrackedDraft}
    (hdraft : draft.program.WellFormed)
    (hnodup : (types.flatMap fun decl => (TreeNode.classDecl decl).numbers).Nodup) :
    AddsTypes package types draft.program
      ((declareTopLevel package types).run draft).2.program := by
  induction types generalizing draft with
  | nil =>
      refine ⟨.refl _ _, fun name => ?_, fun name => ?_, fun _ h => absurd h List.not_mem_nil⟩
      · rw [List.find?_nil, Option.bind_none, Option.or_none]
        rfl
      · rw [List.flatMap_nil, namedAmong, List.find?_nil, Option.bind_none, Option.or_none]
        rfl
  | cons decl rest ih =>
      rw [declareTopLevel, run_bind, run_bind, run_bind]
      have hnodup' := List.flatMap_cons ▸ hnodup
      have hspec := declareClass_spec none decl.name (topLevelName package decl.name) false decl
        hdraft (by simp)
      have hclass : AddsClass package ⟨[], decl⟩ draft.program
          ((declareClass none decl.name (topLevelName package decl.name) false decl).run
            draft).2.program :=
        declareClass_adds false decl hdraft (by simp) rfl hnodup'.of_append_left
      have hwell := hspec.declares.wellFormed hdraft
      have hfirst := hclass.enterTopLevel (hspec.use hnodup'.of_append_left)
      have hentered := enterTopLevel_spec decl.name decl.span hwell hspec.isClass
      have hwell' := hentered.wellFormed hwell
      exact hfirst.cons (ih hwell' hnodup'.of_append_right)
        (declareTopLevel_spec package rest hwell').declares
        (Nat.le_trans hspec.declares.grows.size_le hentered.grows.size_le) hnodup

end Resolving

namespace Program

/-! ### The declared program -/

/-- The tables of a program are those that the declarations of a unit tell. -/
structure Tabled (unit : CompilationUnit) (program : Program) : Prop where
  wellFormed : program.WellFormed
  usesOnce : program.UsesOnce
  lays : ∀ place ∈ unit.classPlaces, program.LaysFrom (startDraft unit).program.symbols.size place
  topLevel : ∀ name, program.topLevel.lookup name =
    (unit.types.find? (·.name == name)).bind fun decl => program.use? decl.id
  qualified : ∀ name, program.qualified.lookup name =
    ((startDraft unit).program.qualified.lookup name).or
      (Resolving.namedAmong program unit.package unit.classPlaces name)
  library : program.library = (startDraft unit).program.library
  imports : program.imports = typeImports unit.imports
  package : program.package = unit.package

/-- The draft in which the classes of a unit are declared and have no supertypes as yet. -/
def declaredDraft (unit : CompilationUnit) : TrackedDraft :=
  ((Resolving.declareTopLevel unit.package unit.types).run (startDraft unit)).2

theorem package_declareAll (package : Option String) :
    (Library.declareAll (.empty package)).package = package := by
  refine List.foldlRecOn (motive := fun program : Program => program.package = package)
    Library.classes _ rfl fun program hprogram decl _ => ?_
  exact List.foldlRecOn (motive := fun program : Program => program.package = package) decl.methods _
    hprogram fun _ h _ _ => h

theorem topLevel_declareAll (package : Option String) :
    (Library.declareAll (.empty package)).topLevel = [] := by
  refine List.foldlRecOn (motive := fun program : Program => program.topLevel = [])
    Library.classes _ rfl fun program hprogram decl _ => ?_
  exact List.foldlRecOn (motive := fun program : Program => program.topLevel = []) decl.methods _
    hprogram fun _ h _ _ => h

variable {unit : CompilationUnit} (hnodup : unit.numbers.Nodup)
include hnodup

private theorem addsTypes_declaredDraft : Resolving.AddsTypes unit.package unit.types
    (startDraft unit).program (declaredDraft unit).program := by
  refine Resolving.declareTopLevel_adds unit.package unit.types (.library _ _) ?_
  rw [CompilationUnit.numbers, TreeNode.numbersOf, CompilationUnit.parts, List.flatMap_map] at hnodup
  exact hnodup

theorem tabled_declaredDraft : (declaredDraft unit).program.Tabled unit := by
  have hadds := addsTypes_declaredDraft hnodup
  have hstart : (startDraft unit).program.WellFormed := .library _ _
  have hspec := Resolving.declareTopLevel_spec unit.package unit.types hstart
  have honce : (startDraft unit).program.UsesOnce := by
    have huse (node : NodeId) : (startDraft unit).program.use? node = none := by
      rw [use?, program_startDraft, uses_declareAll]
      rfl
    refine ⟨fun h => ?_, fun h => ?_⟩ <;>
    · rw [huse] at h
      cases h
  refine ⟨hspec.declares.wellFormed hstart, hadds.adds.usesOnce honce, hadds.lays,
    fun name => ?_, hadds.qualified, hadds.adds.library, hadds.adds.imports, ?_⟩
  · rw [hadds.topLevel, program_startDraft, topLevel_declareAll]
    rfl
  · rw [hadds.adds.package, program_startDraft, package_declareAll]

/-- No class of the unit has supertypes when it is declared. -/
theorem supertypes_declaredDraft {id : SymbolId} (hid : (startDraft unit).program.symbols.size ≤ id) :
    (declaredDraft unit).program.supertypes id = [] := by
  rw [(addsTypes_declaredDraft hnodup).adds.supertypes, supertypes, classInfo?,
    symbol?_eq_none_of_le hid]
  rfl

end Program

end LockDiscipline
