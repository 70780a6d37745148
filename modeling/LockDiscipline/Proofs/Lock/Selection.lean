import LockDiscipline.Lock.Guard
import LockDiscipline.Lock.Source
/-!
# What a class sees as a lock

What it takes for the steps of binding to succeed, and what they give then: finding a symbol, an
enclosing instance or the receiver that a bare name implies, and selecting a member.
-/

namespace LockDiscipline

theorem ok_bind {ε α β : Type} (value : α) (next : α → Except ε β) :
    Except.ok value >>= next = next value := rfl

/-- A computation in sequence succeeds if both of its steps do. -/
theorem bind_eq_ok {ε α β : Type} {first : Except ε α} {second : α → Except ε β} {result : β} :
    first >>= second = .ok result ↔ ∃ value, first = .ok value ∧ second value = .ok result := by
  cases first with
  | error error => exact ⟨nofun, fun ⟨_, h, _⟩ => nomatch h⟩
  | ok value =>
      refine ⟨fun h => ⟨value, rfl, h⟩, fun ⟨value', h, h'⟩ => ?_⟩
      obtain rfl := Except.ok.inj h
      exact h'

theorem toOption_eq_some {ε α : Type} {computation : Except ε α} {value : α} :
    computation.toOption = some value ↔ computation = .ok value := by
  cases computation with
  | error error => exact ⟨nofun, nofun⟩
  | ok value' => exact ⟨fun h => congrArg _ (Option.some.inj h), fun h => congrArg _ (Except.ok.inj h)⟩

namespace Viewpoint

variable {view : Viewpoint}

theorem symbol_eq_ok {id : SymbolId} {symbol : NamedSymbol} :
    view.symbol id = .ok symbol ↔ view.program.symbol? id = some symbol := by
  rw [Viewpoint.symbol]
  cases view.program.symbol? id with
  | none => exact ⟨nofun, nofun⟩
  | some symbol' =>
      exact ⟨fun h => congrArg _ (Except.ok.inj h), fun h => congrArg _ (Option.some.inj h)⟩

theorem lockSymbol_eq_ok {id : SymbolId} {shown : LockSymbol} :
    view.lockSymbol id = .ok shown ↔
      ∃ symbol, view.program.symbol? id = some symbol ∧ shown = .ofSymbol symbol := by
  rw [lockSymbol, bind_eq_ok]
  refine exists_congr fun symbol => and_congr symbol_eq_ok ?_
  exact ⟨fun h => (Except.ok.inj h).symm, fun h => congrArg _ h.symm⟩

theorem resolved_eq_ok {expr : Expr} {id : SymbolId} :
    view.resolved expr = .ok id ↔ view.program.use? expr.id = some id := by
  rw [resolved]
  cases view.program.use? expr.id with
  | none => exact ⟨nofun, nofun⟩
  | some id' => exact ⟨fun h => congrArg _ (Except.ok.inj h), fun h => congrArg _ (Option.some.inj h)⟩

/-- An instance of the class itself is `this`, one of a class around it is an outer instance. -/
theorem enclosingInstance_eq_ok {type : SymbolId} {lock : LockExpr} :
    view.enclosingInstance type = .ok lock ↔
      (type = view.self ∧ lock = .this) ∨
        (type ≠ view.self ∧ type ∈ view.enclosing ∧
          ∃ symbol, view.program.symbol? type = some symbol ∧ lock = .outer (.ofSymbol symbol)) := by
  rw [enclosingInstance]
  by_cases hself : type = view.self
  · rw [if_pos hself]
    refine ⟨fun h => .inl ⟨hself, (Except.ok.inj h).symm⟩, ?_⟩
    rintro (⟨-, rfl⟩ | ⟨hne, -⟩)
    · rfl
    · exact absurd hself hne
  · rw [if_neg hself]
    by_cases hmem : type ∈ view.enclosing
    · rw [if_pos (List.contains_iff_mem.mpr hmem), bind_eq_ok]
      constructor
      · rintro ⟨shown, hshown, hlock⟩
        obtain ⟨symbol, hsymbol, rfl⟩ := lockSymbol_eq_ok.mp hshown
        exact .inr ⟨hself, hmem, symbol, hsymbol, (Except.ok.inj hlock).symm⟩
      · rintro (⟨heq, -⟩ | ⟨-, -, symbol, hsymbol, rfl⟩)
        · exact absurd heq hself
        · exact ⟨_, lockSymbol_eq_ok.mpr ⟨symbol, hsymbol, rfl⟩, rfl⟩
    · rw [if_neg fun h => hmem (List.contains_iff_mem.mp h)]
      refine ⟨fun h => ?_, ?_⟩
      · obtain ⟨_, -, hthrow⟩ := bind_eq_ok.mp h
        cases hthrow
      · rintro (⟨heq, -⟩ | ⟨-, hmem', -⟩)
        · exact absurd heq hself
        · exact absurd hmem' hmem

/-- The receiver that a bare member name implies is the instance of a class around. -/
theorem implicitReceiver_eq_ok {member : NamedSymbol} {owner : SymbolId} {lock : LockExpr} :
    view.implicitReceiver member owner = .ok lock ↔
      ∃ type, view.enclosing.find? (fun type => view.program.isSubclass type owner) = some type ∧
        view.enclosingInstance type = .ok lock := by
  rw [implicitReceiver]
  cases view.enclosing.find? fun type => view.program.isSubclass type owner with
  | none => exact ⟨nofun, fun ⟨_, h, _⟩ => nomatch h⟩
  | some type =>
      refine ⟨fun h => ⟨type, rfl, h⟩, fun ⟨type', h, h'⟩ => ?_⟩
      obtain rfl := Option.some.inj h
      exact h'

/-- A member is selected from its class if it is static, and else from a lock: the one that is
written before it or the one that its bare name implies. -/
theorem selectBase_eq_ok {base : Option Bound} {member : NamedSymbol} {owner : SymbolId}
    {lock : LockExpr} :
    view.selectBase base member owner = .ok lock ↔
      (member.isStatic ∧ ∃ symbol, view.program.symbol? owner = some symbol ∧
        lock = .typeLiteral (.ofSymbol symbol)) ∨
      (member.isStatic = false ∧ (base = some (.lock lock) ∨
        base = none ∧ view.implicitReceiver member owner = .ok lock)) := by
  rw [selectBase.eq_def]
  cases member.isStatic with
  | true =>
      rw [if_pos rfl, bind_eq_ok]
      constructor
      · rintro ⟨shown, hshown, hlock⟩
        obtain ⟨symbol, hsymbol, rfl⟩ := lockSymbol_eq_ok.mp hshown
        exact .inl ⟨rfl, symbol, hsymbol, (Except.ok.inj hlock).symm⟩
      · rintro (⟨-, symbol, hsymbol, rfl⟩ | ⟨h, -⟩)
        · exact ⟨_, lockSymbol_eq_ok.mpr ⟨symbol, hsymbol, rfl⟩, rfl⟩
        · cases h
  | false =>
      rw [if_neg Bool.false_ne_true]
      rcases base with _ | ⟨lock' | type⟩
      · exact ⟨fun h => .inr ⟨rfl, .inr ⟨rfl, h⟩⟩, by rintro (⟨h, -⟩ | ⟨-, h | ⟨-, h⟩⟩) <;> trivial⟩
      · refine ⟨fun h => .inr ⟨rfl, .inl ?_⟩, ?_⟩
        · rw [Except.ok.inj h]
        · rintro (⟨h, -⟩ | ⟨-, h | ⟨h, -⟩⟩)
          · cases h
          · rw [Bound.lock.inj (Option.some.inj h)]; rfl
          · cases h
      · refine ⟨nofun, ?_⟩
        rintro (⟨h, -⟩ | ⟨-, h | ⟨h, -⟩⟩) <;> cases h

/-- A class is selected as a type, a member as a lock that ends in it. -/
theorem select_eq_ok {base : Option Bound} {id : SymbolId} {bound : Bound} :
    view.select base id = .ok bound ↔
      ∃ member, view.program.symbol? id = some member ∧
        ((member.isClass ∧ bound = .type id) ∨
          (member.isClass = false ∧ ∃ owner lock, member.owner? = some owner ∧
            view.selectBase base member owner = .ok lock ∧
              bound = .lock (.select lock (.ofSymbol member)))) := by
  rw [select, bind_eq_ok]
  refine exists_congr fun member => and_congr symbol_eq_ok ?_
  cases member.isClass with
  | true =>
      rw [if_pos rfl]
      refine ⟨fun h => .inl ⟨rfl, (Except.ok.inj h).symm⟩, ?_⟩
      rintro (⟨-, rfl⟩ | ⟨h, -⟩)
      · rfl
      · cases h
  | false =>
      rw [if_neg Bool.false_ne_true]
      cases member.owner? with
      | none =>
          refine ⟨nofun, ?_⟩
          rintro (⟨h, -⟩ | ⟨-, _, _, h, -⟩) <;> cases h
      | some owner =>
          dsimp only
          rw [bind_eq_ok]
          constructor
          · rintro ⟨lock, hlock, hbound⟩
            exact .inr ⟨rfl, owner, lock, rfl, hlock, (Except.ok.inj hbound).symm⟩
          · rintro (⟨h, -⟩ | ⟨-, owner', lock, howner, hlock, rfl⟩)
            · cases h
            · obtain rfl := Option.some.inj howner
              exact ⟨lock, hlock, rfl⟩

end Viewpoint
end LockDiscipline
