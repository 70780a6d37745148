import LockDiscipline.Lock.Guard
import LockDiscipline.Proofs.Lock.Selection
import LockDiscipline.Proofs.Program.DottedTypes
/-!
# Guards that name classes

A guard that selects names from a type is meant to name a member class of the type, or to be no lock. The
binder looks each name up as a type from the class before it, which finds the class itself and whatever is
seen around it as well. So a link can stray: to another class than the member class, or from a part that is
not bound to a class with the dotted name up to there. A guard is bound as it is meant exactly where no link
strays.
-/

namespace LockDiscipline

/-- The object and the name of a selection. -/
def Expr.selection? : Expr → Option (Expr × String)
  | ⟨_, .select object name, _⟩ => some (object, name)
  | _ => none

theorem Expr.selects_of_selection? {object expr : Expr} {name : String}
    (h : expr.selection? = some (object, name)) : object.Selects [name] expr := by
  rw [selection?.eq_def] at h
  split at h
  case h_1 node inner other span =>
    obtain ⟨rfl, rfl⟩ := Prod.mk.inj (Option.some.inj h)
    exact .select node other span .object
  case h_2 => cases h

/-- The class that a name means as seen from a class. -/
def Program.classSeen? (program : Program) (fromClass : SymbolId) (name : String) : Option SymbolId :=
  (program.findType? fromClass name).filter fun id => (program.symbol? id).any (·.isClass)

namespace Viewpoint

/-- The class that a guard reaches when it selects names from a type. -/
def typeReached? (view : Viewpoint) (object : Expr) (type : SymbolId) (names : List String) :
    Option SymbolId :=
  view.program.typeAlong? view.self view.program.classSeen? object.dottedName? (some type) names

/-- What a guard that names a class is bound to: the class object, or nothing where there is no class. -/
def classLock (view : Viewpoint) (guard : String) (found : Option SymbolId) :
    Except NotALock LockExpr :=
  match found.bind view.program.symbol? with
  | some symbol => .ok (.classLiteral (.ofSymbol symbol))
  | none => .error ⟨guard⟩

/-- Where a guard selects names from a type, no part of it names a field: the class before a name has no
field of the name, and the part with the name is not bound to a lock. -/
def NamesNoField (view : Viewpoint) (object : Expr) (type : SymbolId) (names : List String) : Prop :=
  ∀ before name after owner, names = before ++ name :: after →
    view.typeReached? object type before = some owner →
      view.fieldNamed? owner name = none ∧ ∀ lock, view.selectField? (.type owner) name ≠ some (.lock lock)

/-- A link strays. The name means another class than the member class that the class before it has of the
name, if any, or there is no class before it and the dotted name up to there is that of a class. -/
def Strays (view : Viewpoint) (object : Expr) (type : SymbolId) (before : List String) (name : String) :
    Prop :=
  match before.foldlM view.program.memberClass? type with
  | some owner => view.program.classSeen? owner name ≠ view.program.memberClass? owner name
  | none => ∃ head, object.dottedName? = some head ∧
      (view.findType? (Text.join "." (head :: (before ++ [name])))).isSome

variable {view : Viewpoint} {object expr : Expr} {type : SymbolId} {names : List String}

theorem typeReached?_concat (name : String) : view.typeReached? object type (names ++ [name]) =
    (view.typeReached? object type names).elim
      ((object.dottedName?.map fun head => Text.join "." (head :: (names ++ [name]))).bind view.findType?)
      (view.program.classSeen? · name) :=
  Program.typeAlong?_concat names name

/-- From a type a class is selected that is seen from there, if the name is not that of a field. -/
theorem selectField?_type {owner : SymbolId} {name : String} (hfield : view.fieldNamed? owner name = none)
    (hlock : ∀ lock, view.selectField? (.type owner) name ≠ some (.lock lock)) :
    view.selectField? (.type owner) name = (view.program.classSeen? owner name).map .type := by
  have hselect : view.selectField? (.type owner) name =
      (view.program.findType? owner name).bind fun id => (view.select (some (.type owner)) id).toOption := by
    rw [selectField?, memberClass?]
    simp only [Option.bind_eq_bind, Option.bind_some, hfield]
  rw [hselect] at hlock ⊢
  rw [Program.classSeen?]
  cases hfound : view.program.findType? owner name with
  | none => rfl
  | some id =>
      rw [hfound, Option.bind_some] at hlock
      rw [Option.bind_some]
      cases hbound : (view.select (some (.type owner)) id).toOption with
      | some bound =>
          obtain ⟨symbol, hsymbol, ⟨hclass, rfl⟩ | ⟨-, _, lock, -, -, rfl⟩⟩ :=
            select_eq_ok.mp (toOption_eq_some.mp hbound)
          · rw [Option.filter_some, hsymbol, Option.any_some, hclass, if_pos rfl]
            rfl
          · exact absurd hbound (hlock _)
      | none =>
          rw [Option.filter_some, if_neg]
          · rfl
          · intro hclass
            obtain ⟨symbol, hsymbol, hclass⟩ := (Option.any_eq_true _ _).mp hclass
            have hok : view.select (some (.type owner)) id = .ok (.type id) :=
              select_eq_ok.mpr ⟨symbol, hsymbol, .inl ⟨hclass, rfl⟩⟩
            exact nomatch hbound.symm.trans (toOption_eq_some.mpr hok)

/-- A guard that selects names from a type is bound to the class that it reaches, if none of them names a
field. -/
theorem bindGuardExpr?_selects (hselects : object.Selects names expr)
    (hobject : view.bindGuardExpr? object = some (.type type))
    (hfields : view.NamesNoField object type names) :
    view.bindGuardExpr? expr = (view.typeReached? object type names).map .type := by
  induction hselects with
  | object => exact hobject
  | @select names inner node name span hinner ih =>
      have hbefore := ih fun before name' after owner heq =>
        hfields before name' (after ++ [name]) owner (by rw [heq]; simp)
      rw [bindGuardExpr?, hbefore, typeReached?_concat]
      cases hreached : view.typeReached? object type names with
      | some owner =>
          obtain ⟨hfield, hlock⟩ := hfields names name [] owner rfl hreached
          exact selectField?_type hfield hlock
      | none =>
          rw [hinner.dottedName?_eq]
          cases object.dottedName? with
          | none => rfl
          | some head =>
              simp only [Option.map_some, Option.map_none, Option.bind_eq_bind, Option.bind_some,
                Option.elim_none, Text.join_concat]
              cases view.findType? (Text.join "." (head :: names) ++ "." ++ name) <;> rfl

section Units

variable (hprogram : view.program.WellFormed)
include hprogram

/-- What is reached by a name is a symbol that there is. -/
theorem exists_symbol_of_typeReached? {name : String} {id : SymbolId}
    (h : view.typeReached? object type (names ++ [name]) = some id) :
    ∃ symbol, view.program.symbol? id = some symbol := by
  rw [typeReached?_concat] at h
  cases hreached : view.typeReached? object type names with
  | some owner =>
      rw [hreached, Option.elim_some, Program.classSeen?, Option.filter_eq_some_iff] at h
      obtain ⟨symbol, hsymbol, -⟩ := (Option.any_eq_true _ _).mp h.2
      exact ⟨symbol, hsymbol⟩
  | none =>
      rw [hreached, Option.elim_none] at h
      obtain ⟨dotted, -, hfound⟩ := Option.bind_eq_some_iff.mp h
      exact ⟨_, Array.getElem?_eq_getElem (hprogram.findType?_lt hfound)⟩

/-- Different classes are different locks. -/
theorem classLock_inj {guard : String} {first second : Option SymbolId}
    (hfirst : ∀ id, first = some id → ∃ symbol, view.program.symbol? id = some symbol)
    (hsecond : ∀ id, second = some id → ∃ symbol, view.program.symbol? id = some symbol) :
    view.classLock guard first = view.classLock guard second ↔ first = second := by
  refine ⟨fun h => ?_, fun h => h ▸ rfl⟩
  rw [classLock, classLock] at h
  cases first with
  | none =>
      cases second with
      | none => rfl
      | some id =>
          obtain ⟨symbol, hsymbol⟩ := hsecond id rfl
          rw [Option.bind_some, hsymbol] at h
          cases h
  | some id =>
      obtain ⟨symbol, hsymbol⟩ := hfirst id rfl
      cases second with
      | none =>
          rw [Option.bind_some, hsymbol] at h
          cases h
      | some other =>
          obtain ⟨symbol', hsymbol'⟩ := hsecond other rfl
          rw [Option.bind_some, hsymbol, Option.bind_some, hsymbol'] at h
          have hid := congrArg LockSymbol.id (LockExpr.classLiteral.inj (Except.ok.inj h))
          rw [← hprogram.id_eq hsymbol, ← hprogram.id_eq hsymbol']
          exact congrArg some hid

/-- The text of a guard that selects names from a type is bound to the class that it reaches. -/
theorem bindGuard_selects {guard name : String} (hparse : Expr.ofSource guard.toList = .ok expr)
    (hselects : object.Selects (names ++ [name]) expr)
    (hobject : view.bindGuardExpr? object = some (.type type))
    (hfields : view.NamesNoField object type (names ++ [name])) :
    view.bindGuard guard = view.classLock guard (view.typeReached? object type (names ++ [name])) := by
  rw [bindGuard, hparse]
  dsimp only
  rw [bindGuardExpr?_selects hselects hobject hfields]
  cases hreached : view.typeReached? object type (names ++ [name]) with
  | none => rfl
  | some id =>
      obtain ⟨symbol, hsymbol⟩ := exists_symbol_of_typeReached? hprogram hreached
      have hshown := lockSymbol_eq_ok.mpr ⟨symbol, hsymbol, rfl⟩
      rw [Option.map_some, classLock, Option.bind_some, hsymbol]
      dsimp only
      rw [finish, hshown]
      rfl

end Units

/-- Where the links before lead along the member classes, another one does so exactly if it does not
stray. -/
theorem typeReached?_concat_iff {before : List String}
    (hbefore : view.typeReached? object type before = before.foldlM view.program.memberClass? type)
    (name : String) : view.typeReached? object type (before ++ [name]) =
      (before ++ [name]).foldlM view.program.memberClass? type ↔ ¬view.Strays object type before name := by
  rw [typeReached?_concat, hbefore, Program.foldlM_concat, Strays]
  cases before.foldlM view.program.memberClass? type with
  | some owner => exact not_ne_iff.symm
  | none =>
      rw [Option.elim_none, Option.bind_none]
      cases object.dottedName? <;> simp

/-- Where no link strays a guard reaches the member classes. -/
theorem typeReached?_of_not_strays (hstrays : ∀ before name after, names = before ++ name :: after →
    ¬view.Strays object type before name) :
    view.typeReached? object type names = names.foldlM view.program.memberClass? type := by
  induction names using List.reverseRecOn with
  | nil => rfl
  | append_singleton names name ih =>
      have hbefore := ih fun before name' after heq =>
        hstrays before name' (after ++ [name]) (by rw [heq]; simp)
      exact (typeReached?_concat_iff hbefore name).mpr (hstrays names name [] rfl)

/-- A guard that selects names from a type, none of which names a field, is the class object of the class
that it reaches, or no lock where it reaches none. Where the links before the last one do not stray, it is
bound as it is meant, to the member class or not at all, exactly if the last link does not stray either. -/
theorem bindGuard_selectTypes (unit : CompilationUnit) (self : SymbolId) {guard : String}
    {object expr : Expr} {type : SymbolId} {before : List String} {name : String}
    (hparse : Expr.ofSource guard.toList = .ok expr) (hselects : object.Selects (before ++ [name]) expr)
    (hobject : bindGuardExpr? ⟨Program.ofUnit unit, self⟩ object = some (.type type))
    (hfields : NamesNoField ⟨Program.ofUnit unit, self⟩ object type (before ++ [name])) :
    let view : Viewpoint := ⟨Program.ofUnit unit, self⟩
    let meant := view.classLock guard ((before ++ [name]).foldlM view.program.memberClass? type)
    view.bindGuard guard = view.classLock guard (view.typeReached? object type (before ++ [name])) ∧
      ((∀ start next rest, before = start ++ next :: rest → ¬view.Strays object type start next) →
        (view.bindGuard guard = meant ↔ ¬view.Strays object type before name)) := by
  intro view meant
  have hprogram : view.program.WellFormed := Program.wellFormed_ofUnit unit
  have hbound := bindGuard_selects hprogram hparse hselects hobject hfields
  refine ⟨hbound, fun hstrays => ?_⟩
  have hmember : ∀ id, (before ++ [name]).foldlM view.program.memberClass? type = some id →
      ∃ symbol, view.program.symbol? id = some symbol := fun id hid => by
    rw [Program.foldlM_concat] at hid
    obtain ⟨owner, -, hid⟩ := Option.bind_eq_some_iff.mp hid
    exact ⟨_, Array.getElem?_eq_getElem (hprogram.memberClass?_isClass hid).lt_size⟩
  rw [hbound, classLock_inj hprogram (fun _ => exists_symbol_of_typeReached? hprogram) hmember]
  exact typeReached?_concat_iff (typeReached?_of_not_strays hstrays) name

/-- Two classes side by side, with the numbers 24 and 25 behind the library. -/
def besideUnit : CompilationUnit :=
  (ParsedUnit.ofSource "class A \x7b \x7d class B \x7b \x7d".toList).unit

/-- The first of the classes as it sees locks. -/
def besideView : Viewpoint :=
  ⟨Program.ofUnit besideUnit, 24⟩

/-- What the guard `A.B` means there: it is bound, though `A` has neither a member class nor a field `B`. -/
private theorem besideGuard_bound : besideView.program.memberClass? 24 "B" = none ∧
    besideView.fieldNamed? 24 "B" = none ∧
    (∃ expr ∈ (Expr.ofSource "A.B".toList).toOption.toList, ∃ selection ∈ expr.selection?.toList,
      selection.2 = "B" ∧ besideView.bindGuardExpr? selection.1 = some (.type 24)) ∧
    (besideView.bindGuard "A.B").toOption = some (.classLiteral ⟨25, "B"⟩) ∧
    besideView.selectField? (.type 24) "B" = some (.type 25) := by
  decide +kernel

private theorem namesNoField_beside (object : Expr) : besideView.NamesNoField object 24 ["B"] := by
  obtain ⟨-, hfield, -, -, hbound⟩ := besideGuard_bound
  intro before name after owner heq hreached
  obtain ⟨rfl, hrest⟩ | ⟨rest, rfl, hrest⟩ := List.append_eq_cons_iff.mp heq.symm
  · obtain ⟨rfl, rfl⟩ := List.cons.inj hrest
    obtain rfl : 24 = owner := Option.some.inj hreached
    exact ⟨hfield, fun lock hlock => nomatch hbound.symm.trans hlock⟩
  · simp at hrest

theorem bindGuard_selectTypes_beside : ∃ object expr, Expr.ofSource "A.B".toList = .ok expr ∧
    object.Selects ["B"] expr ∧ besideView.bindGuardExpr? object = some (.type 24) ∧
      besideView.NamesNoField object 24 ["B"] ∧
        (besideView.bindGuard "A.B" = besideView.classLock "A.B"
            (["B"].foldlM besideView.program.memberClass? 24) ↔ ¬besideView.Strays object 24 [] "B") := by
  obtain ⟨expr, hexpr, ⟨object, name⟩, hselection, rfl, hobject⟩ := besideGuard_bound.2.2.1
  have hparse := toOption_eq_some.mp (Option.mem_toList.mp hexpr)
  have hselects : object.Selects ([] ++ ["B"]) expr :=
    Expr.selects_of_selection? (Option.mem_toList.mp hselection)
  have hbound := bindGuard_selectTypes besideUnit 24 hparse hselects hobject (namesNoField_beside object)
  exact ⟨object, expr, hparse, hselects, hobject, namesNoField_beside object, hbound.2 fun start next rest heq =>
    absurd heq (by simp)⟩

/-- A guard can select a class from a type that has no member class of the name. -/
theorem exists_bindGuard_not_member : besideView.program.memberClass? 24 "B" = none ∧
    besideView.fieldNamed? 24 "B" = none ∧
    (∃ expr ∈ (Expr.ofSource "A.B".toList).toOption.toList, ∃ selection ∈ expr.selection?.toList,
      selection.2 = "B" ∧ besideView.bindGuardExpr? selection.1 = some (.type 24)) ∧
    (besideView.bindGuard "A.B").toOption = some (.classLiteral ⟨25, "B"⟩) := by
  obtain ⟨hmember, hfield, hparsed, hguard, -⟩ := besideGuard_bound
  exact ⟨hmember, hfield, hparsed, hguard⟩

end Viewpoint
end LockDiscipline
