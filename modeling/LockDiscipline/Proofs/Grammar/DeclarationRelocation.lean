import LockDiscipline.Proofs.Grammar.DeclarationSpans
import LockDiscipline.Proofs.Grammar.StatementRelocation
/-!
# Units that stand elsewhere

With the members of classes all rules go along with a relocation of the tokens, whatever the depth to which
they are tied, and so does the reading of a whole file: `ParsedUnit.ofTokens_relocate` says that relocated
tokens spell the relocated unit, with the relocated errors.
-/

namespace LockDiscipline

/-- An import declaration at its new position. -/
def Import.relocate (move : Relocation) (decl : Import) : Import :=
  { decl with span := decl.span.relocate move }

/-- A unit and its errors at their new positions. -/
def ParsedUnit.relocate (move : Relocation) (parsed : ParsedUnit) : ParsedUnit :=
  ⟨parsed.unit.retouch (.relocate move), parsed.errors.map (·.relocate move)⟩

namespace Grammar

/-- What is known of a class body, relocated. -/
def MemberScan.relocate (move : Relocation) (scan : MemberScan) : MemberScan :=
  { scan with members := scan.members.map (·.retouch (.relocate move)) }

/-- What is known of a list of declarations, relocated. -/
def DeclScan.relocate {α : Type} (change : α → α) (scan : DeclScan α) : DeclScan α :=
  { scan with decls := scan.decls.map change }

variable {tokens : List Token} {move : Relocation}

theorem relocates_mkMember {kind kind' : MemberKind} (hkind : kind' = kind.retouch (.relocate move))
    (start : Nat) :
    Relocates tokens move (Member.retouch (.relocate move)) (mkMember kind start)
      (mkMember kind' (move.start start)) := by
  apply steady_freshId.skip
  intro id
  apply (relocates_spanFrom start).bind
  intro span
  exact .pure (by rw [hkind]; rfl)

theorem steady_skipToMember : Steady tokens move skipToMember := by
  apply (steady_iterate _).skip
  · intro depth
    exact .pure rfl
  · intro depth
    apply steady_currentKind.skip
    intro kind
    split
    · exact .pure rfl
    · exact steady_advance.skip fun _ => .ite (.pure rfl) (.pure rfl)
    · exact steady_advance.skip fun _ => .pure rfl
    · exact .ite (.pure rfl) (steady_advance.skip fun _ => .ite (.pure rfl) (.pure rfl))
    · exact steady_advance.skip fun _ => .pure rfl

section Members

variable {rules : Rules} (hrules : rules.Relocating tokens move)
include hrules

theorem relocates_readEnumConstant? (enumName : String) :
    Relocates tokens move (Option.map (Member.retouch (.relocate move)))
      (readEnumConstant? rules enumName) (readEnumConstant? rules enumName) := by
  apply relocates_currentStart.bind
  intro start
  apply (steady_skipAnnotations hrules).skip
  intro _
  apply steady_currentKind.skip
  intro kind
  split
  · apply steady_advance.skip
    intro _
    apply (steady_atSymbol .leftParen).skip
    intro found
    apply Relocates.choose (relocates_readArgs hrules) (.pure rfl)
    intro args
    apply (steady_atSymbol .leftBrace).skip
    intro found
    apply ((relocates_readAnonymousBody hrules enumName start).readWhen found).bind
    intro body
    exact (relocates_mkMember (by simp [MemberKind.retouch]) start).bind fun _ => .pure rfl
  · exact .pure rfl

theorem relocates_readEnumConstants (enumName : String) :
    Relocates tokens move (List.map (Member.retouch (.relocate move))) (readEnumConstants rules enumName)
      (readEnumConstants rules enumName) := by
  apply (relocates_iterate (Prod.map (List.map (Member.retouch (.relocate move))) fun more => more) rfl
    _).bind
  · intro scan
    apply (steady_atSymbol .rightBrace).skip
    intro closing
    have hresult : Relocates tokens move (List.map (Member.retouch (.relocate move)))
        (pure scan.1.reverse) (pure (scan.1.map (·.retouch (.relocate move))).reverse) :=
      .pure (List.map_reverse ..).symm
    exact .ite (steady_endStatement.skip fun _ => hresult) hresult
  · intro scan
    apply Relocates.ite (.pure rfl)
    apply (relocates_readEnumConstant? hrules enumName).bind
    intro constant?
    cases constant? with
    | none => exact .pure rfl
    | some constant => exact (steady_acceptSymbol .comma).skip fun _ => .pure rfl

theorem relocates_readParam? :
    Relocates tokens move (Option.map (Param.retouch (.relocate move))) (readParam? rules)
      (readParam? rules) := by
  apply relocates_currentStart.bind
  intro start
  apply (relocates_readModifiers hrules).bind
  intro modifiers
  apply (steady_type hrules).skip
  intro type
  apply (steady_acceptSymbol .ellipsis).skip
  intro isVarargs
  apply (steady_acceptKeyword .this).skip
  intro receiver
  apply Relocates.ite (.pure rfl)
  apply steady_expectName.skip
  intro name
  apply steady_readDims.skip
  intro dims
  apply steady_freshId.skip
  intro id
  exact (relocates_spanFrom start).bind fun _ => .pure rfl

theorem relocates_readParams :
    Relocates tokens move (List.map (Param.retouch (.relocate move))) (readParams rules)
      (readParams rules) := by
  apply (relocates_expectSymbol .leftParen).bind
  intro _
  apply (relocates_enumerated .rightParen .comma (relocates_readParam? hrules)).bind
  intro params
  apply (relocates_expectSymbol .rightParen).bind
  intro _
  exact .pure (by simp [List.filterMap_map, List.map_filterMap])

theorem relocates_readMethodRest (name : String) (modifiers : Modifiers) (typeParams : List String)
    (returnType : Option String) (start : Nat) :
    Relocates tokens move (MethodDecl.retouch (.relocate move))
      (readMethodRest rules name modifiers typeParams returnType start)
      (readMethodRest rules name (modifiers.retouch (.relocate move)) typeParams returnType
        (move.start start)) := by
  apply steady_freshId.skip
  intro id
  apply (relocates_readParams hrules).bind
  intro params
  apply steady_readDims.skip
  intro _
  apply (steady_acceptKeyword .throws).skip
  intro found
  apply Relocates.choose (steady_readTypeList hrules) (.pure rfl)
  intro throws
  have hbody : Relocates tokens move (MethodDecl.retouch (.relocate move))
      (do
        let body ← readWhen (!(← acceptSymbol .semicolon)) (rules _ .block)
        return ⟨id, name, modifiers, typeParams, returnType, params, throws, body, ← spanFrom start⟩)
      (do
        let body ← readWhen (!(← acceptSymbol .semicolon)) (rules _ .block)
        return ⟨id, name, modifiers.retouch (.relocate move), typeParams, returnType,
          params.map (·.retouch (.relocate move)), throws, body, ← spanFrom (move.start start)⟩) := by
    apply (steady_acceptSymbol .semicolon).skip
    intro bare
    apply ((hrules .block).readWhen (!bare)).bind
    intro body
    apply (relocates_spanFrom start).bind
    intro span
    cases modifiers
    exact .pure (by simp [MethodDecl.retouch, Modifiers.retouch, Nonterminal.change])
  apply (steady_acceptKeyword .default).skip
  intro found
  exact .ite ((hrules .elementValue).bind fun _ => hbody) hbody

theorem relocates_readInitializer (isStatic : Bool) (start : Nat) :
    Relocates tokens move (Member.retouch (.relocate move)) (readInitializer rules isStatic start)
      (readInitializer rules isStatic (move.start start)) := by
  apply (hrules .block).bind
  intro body
  exact relocates_mkMember (by simp [MemberKind.retouch, Nonterminal.change]) start

theorem relocates_readTypedMember (modifiers : Modifiers) (typeParams : List String) (start : Nat) :
    Relocates tokens move (Member.retouch (.relocate move))
      (readTypedMember rules modifiers typeParams start)
      (readTypedMember rules (modifiers.retouch (.relocate move)) typeParams (move.start start)) := by
  apply (steady_acceptKeyword .void).skip
  intro void
  apply Relocates.choose (.pure rfl) (steady_type hrules)
  intro type
  apply relocates_currentStart.bind
  intro nameStart
  apply steady_expectName.skip
  intro name
  apply (steady_atSymbol .leftParen).skip
  intro found
  apply Relocates.ite
  · apply (relocates_readMethodRest hrules name modifiers typeParams (some type) start).bind
    intro method
    exact relocates_mkMember rfl start
  · apply (relocates_readDeclarators hrules name nameStart).bind
    intro declarators
    exact steady_endStatement.skip fun _ => relocates_mkMember (by simp [MemberKind.retouch]) start

theorem relocates_readDeclaredMember (className : String) (start : Nat) :
    Relocates tokens move (Member.retouch (.relocate move)) (readDeclaredMember rules className start)
      (readDeclaredMember rules className (move.start start)) := by
  apply (relocates_readModifiers hrules).bind
  intro modifiers
  apply steady_currentKind.skip
  intro kind
  apply (steady_peek 1).skip
  intro next
  apply Relocates.ite
  · exact (relocates_readClass hrules modifiers start).bind fun _ => relocates_mkMember rfl start
  · apply (steady_readTypeParams hrules).skip
    intro typeParams
    apply steady_currentKind.skip
    intro kind
    apply (steady_peek 1).skip
    intro next
    apply Relocates.ite
    · apply steady_advance.skip
      intro _
      apply (relocates_readMethodRest hrules className modifiers typeParams none start).bind
      intro method
      exact relocates_mkMember rfl start
    · exact relocates_readTypedMember hrules modifiers typeParams start

theorem relocates_readMember? (className : String) :
    Relocates tokens move (Option.map (Member.retouch (.relocate move))) (readMember? rules className)
      (readMember? rules className) := by
  apply relocates_currentStart.bind
  intro start
  apply (steady_acceptSymbol .semicolon).skip
  intro empty
  apply Relocates.ite (.pure rfl)
  apply (steady_atSymbol .leftBrace).skip
  intro found
  apply Relocates.ite
  · exact (relocates_readInitializer hrules false start).bind fun _ => .pure rfl
  · apply (steady_atKeyword .static).skip
    intro isStatic
    apply (steady_peek 1).skip
    intro next
    apply Relocates.ite
    · apply steady_advance.skip
      intro _
      exact (relocates_readInitializer hrules true start).bind fun _ => .pure rfl
    · exact (relocates_readDeclaredMember hrules className start).bind fun _ => .pure rfl

theorem relocates_readMembers (className : String) :
    Relocates tokens move (List.map (Member.retouch (.relocate move))) (readMembers rules className)
      (readMembers rules className) := by
  apply (relocates_iterate (MemberScan.relocate move) rfl _).bind
  · intro scan
    exact .pure (List.map_reverse ..).symm
  · intro scan
    apply (steady_atSymbol .rightBrace).skip
    intro closing
    apply steady_atEnd.skip
    intro ended
    apply Relocates.ite (.pure rfl)
    apply (relocates_readMember? hrules className).attempt
    · intro member?
      cases member? <;> exact .pure rfl
    · intro error hplaced
      apply (relocates_recordError rfl hplaced).bind
      intro more
      apply Relocates.ite
      · exact steady_skipToMember.skip fun _ => .pure rfl
      · exact steady_skipToClosingBrace.skip fun _ => .pure rfl

theorem relocates_readClassBody (className : String) (isEnum : Bool) :
    Relocates tokens move (List.map (Member.retouch (.relocate move)))
      (readClassBody rules className isEnum) (readClassBody rules className isEnum) := by
  apply (relocates_expectSymbol .leftBrace).bind
  intro _
  apply Relocates.choose (relocates_readEnumConstants hrules className) (.pure rfl)
  intro constants
  apply (relocates_readMembers hrules className).bind
  intro members
  apply (relocates_expectSymbol .rightBrace).bind
  intro _
  exact .pure (List.map_append ..).symm

/-- Every rule goes along with a relocation if the rules that it refers to do. -/
theorem relocates_readNonterminal (htokens : InOrder tokens) (hprogress : rules.Consuming none)
    (hlaying : rules.Laying tokens) {α : Type} (nonterminal : Nonterminal α) :
    Relocates tokens move (nonterminal.change move) (readNonterminal rules nonterminal)
      (readNonterminal rules nonterminal) := by
  cases nonterminal with
  | expr => exact relocates_readExpr hrules
  | ternary => exact relocates_readTernary hrules
  | binary least => exact relocates_readBinary hrules least
  | unary => exact relocates_readUnary hrules htokens hprogress hlaying
  | type => exact steady_readType hrules
  | annotationUse => exact relocates_readAnnotationUse hrules
  | elementValue => exact relocates_readElementValue hrules
  | varInit => exact relocates_readVarInit hrules
  | stmt => exact relocates_readStmt hrules
  | block => exact relocates_readBlock hrules
  | classBody className isEnum => exact relocates_readClassBody hrules className isEnum

end Members

theorem relocating_rules (htokens : InOrder tokens) (depth : Nat) : (rules depth).Relocating tokens move := by
  induction depth with
  | zero => exact fun _ => relocates_failTooDeep
  | succ depth ih =>
      exact relocates_readNonterminal ih htokens (consuming_rules_unasked depth)
        (laying_rules htokens depth)

/-! ### Files -/

theorem steady_readPackage : Steady tokens move readPackage := by
  apply (relocates_expectKeyword .package).bind
  intro _
  apply steady_readQualifiedName.skip
  intro name
  exact (relocates_expectSymbol .semicolon).bind fun _ => .pure rfl

theorem relocates_readImport :
    Relocates tokens move (Import.relocate move) readImport readImport := by
  apply (relocates_expectKeyword .import).bind
  intro word
  apply (steady_acceptKeyword .static).skip
  intro isStatic
  apply steady_expectName.skip
  intro first
  apply (steady_iterate _).skip
  · intro scan
    apply (relocates_expectSymbol .semicolon).bind
    intro _
    exact (relocates_spanFrom word.start).bind fun _ => .pure rfl
  · intro scan
    apply Relocates.ite (.pure rfl)
    apply (steady_acceptSymbol .dot).skip
    intro dot
    apply Relocates.ite
    · apply (steady_acceptSymbol .star).skip
      intro star
      exact .ite (.pure rfl) (steady_expectName.skip fun _ => .pure rfl)
    · exact .pure rfl

theorem steady_skipPastSemicolon : Steady tokens move skipPastSemicolon := by
  apply (steady_iterate _).skip
  · intro _
    exact .pure rfl
  · intro _
    apply steady_atEnd.skip
    intro ended
    apply Relocates.ite (.pure rfl)
    apply (steady_acceptSymbol .semicolon).skip
    intro found
    exact .ite (.pure rfl) (steady_advance.skip fun _ => .pure rfl)

theorem steady_skipToTypeDecl : Steady tokens move skipToTypeDecl := by
  apply steady_advance.skip
  intro _
  apply (steady_iterate _).skip
  · intro depth
    exact .pure rfl
  · intro depth
    apply steady_currentKind.skip
    intro kind
    split
    · exact .pure rfl
    · exact steady_advance.skip fun _ => .pure rfl
    · exact steady_advance.skip fun _ => .ite (.pure rfl) (.pure rfl)
    · exact .ite (.pure rfl) (steady_advance.skip fun _ => .pure rfl)

theorem steady_readPackage? : Steady tokens move readPackage? := by
  apply (steady_atKeyword .package).skip
  intro found
  apply Relocates.ite (.pure rfl)
  apply steady_readPackage.attempt
  · intro package
    exact .pure rfl
  · intro error hplaced
    apply (relocates_recordError rfl hplaced).bind
    intro _
    exact steady_skipPastSemicolon.skip fun _ => .pure rfl

theorem relocates_readImports :
    Relocates tokens move (DeclScan.relocate (Import.relocate move)) readImports readImports := by
  apply (relocates_iterate (DeclScan.relocate (Import.relocate move)) rfl _).bind
  · intro scan
    exact .pure (by simp [DeclScan.relocate])
  · intro scan
    apply (steady_atKeyword .import).skip
    intro found
    apply Relocates.ite (.pure rfl)
    apply relocates_readImport.attempt
    · intro decl
      exact .pure rfl
    · intro error hplaced
      apply (relocates_recordError rfl hplaced).bind
      intro more
      exact .ite (steady_skipPastSemicolon.skip fun _ => .pure rfl) (.pure rfl)

section Units

variable {rules : Rules} (hrules : rules.Relocating tokens move)
include hrules

theorem relocates_readTypeDecl :
    Relocates tokens move (ClassDecl.retouch (.relocate move)) (readTypeDecl rules)
      (readTypeDecl rules) := by
  apply relocates_currentStart.bind
  intro start
  apply (relocates_readModifiers hrules).bind
  intro modifiers
  exact relocates_readClass hrules modifiers start

theorem relocates_readTypeDecls :
    Relocates tokens move (List.map (ClassDecl.retouch (.relocate move))) (readTypeDecls rules)
      (readTypeDecls rules) := by
  apply (relocates_iterate (DeclScan.relocate (ClassDecl.retouch (.relocate move))) rfl _).bind
  · intro scan
    exact .pure (List.map_reverse ..).symm
  · intro scan
    apply steady_atEnd.skip
    intro ended
    apply Relocates.ite (.pure rfl)
    apply (steady_acceptSymbol .semicolon).skip
    intro found
    apply Relocates.ite (.pure rfl)
    apply (relocates_readTypeDecl hrules).attempt
    · intro decl
      exact .pure rfl
    · intro error hplaced
      apply (relocates_recordError rfl hplaced).bind
      intro more
      exact .ite (steady_skipToTypeDecl.skip fun _ => .pure rfl) (.pure rfl)

theorem relocates_readUnit :
    Relocates tokens move (CompilationUnit.retouch (.relocate move)) (readUnit rules)
      (readUnit rules) := by
  apply steady_readPackage?.skip
  intro package
  apply relocates_readImports.bind
  intro imports
  apply Relocates.choose (relocates_readTypeDecls hrules) (.pure rfl)
  intro types
  exact .pure rfl

end Units
end Grammar

open Grammar in
/-- Relocated tokens spell the relocated unit, and the errors met in it are relocated and at tokens. -/
theorem ParsedUnit.ofTokens_relocate {tokens : List Token} {move : Relocation} (htokens : InOrder tokens)
    (hended : ∃ token ∈ tokens, token.kind = .eof) (hfaithful : Faithful move tokens)
    (hstart : move.stop 0 = 0) :
    ofTokens (tokens.map (·.relocate move)) = (ofTokens tokens).relocate move ∧
      ∀ error ∈ (ofTokens tokens).errors, error.span.Placed tokens := by
  have hreached : Reached tokens move (.start tokens) :=
    ⟨.refl _, hended, hfaithful, fun _ h => absurd h List.not_mem_nil⟩
  have hcursor : Cursor.start (tokens.map (·.relocate move)) = (Cursor.start tokens).relocate move := by
    simp [Cursor.start, Cursor.relocate, hstart]
  obtain ⟨hrun, hafter⟩ := relocates_readUnit (relocating_rules htokens (depthFor tokens)) _ hreached
  have hdepth : depthFor (tokens.map (·.relocate move)) = depthFor tokens := by
    rw [depthFor, List.length_map, depthFor]
  simp only [ofTokens, hdepth, hcursor, hrun]
  cases houtcome : (readUnit (rules (depthFor tokens))).run (.start tokens) with
  | ok unit cursor =>
      rw [houtcome] at hafter
      exact ⟨rfl, hafter.errors⟩
  | error error cursor =>
      rw [houtcome] at hafter
      constructor
      · simp [relocateResult, ParsedUnit.relocate, Cursor.relocate, CompilationUnit.retouch]
      · intro kept hkept
        rcases List.mem_append.mp hkept with hkept | hlast
        · exact hafter.1.errors kept hkept
        · rw [List.mem_singleton.mp hlast]
          exact hafter.2

end LockDiscipline
