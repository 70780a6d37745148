import LockDiscipline.Proofs.Grammar.StatementNumbers
/-!
# The numbers in a compilation unit

The readers of members and class bodies hand out numbers, so the rules tied together do, to every
depth. It follows that no number occurs twice in a compilation unit, whatever tokens it is read
from.
-/

namespace LockDiscipline

namespace Grammar

section Readers

variable {rules : Rules} (hrules : rules.Numbered)

/-- A new member bears a new number beside those of its parts, which for a method include the number
of the method. -/
theorem numbers_mkMember {held : List NodeId} {kind : MemberKind} (start : Nat)
    (hparts : ∀ id number span, (Member.numbers ⟨number, kind, span⟩).count id ≤
      [number].count id + held.count id) :
    Numbers held Member.numbers (mkMember kind start) := by
  refine numbers_freshId.bind fun number => (quiet_spanFrom start).skip fun span => .pure ?_
  refine subperm_of_count fun id => ?_
  rw [List.count_append, Nat.add_comm]
  exact hparts id number span

theorem quiet_skipToMember : Quiet skipToMember := by
  refine Numbers.skip (quiet_iterate fun depth => ?_) fun _ => .pure (.refl _)
  refine quiet_currentKind.skip fun kind => ?_
  split
  · exact .pure (.refl _)
  · exact quiet_advance.skip fun _ => .ite (.pure (.refl _)) (.pure (.refl _))
  · exact quiet_advance.skip fun _ => .pure (.refl _)
  · exact .ite (.pure (.refl _)) (quiet_advance.skip fun _ =>
      .ite (.pure (.refl _)) (.pure (.refl _)))
  · exact quiet_advance.skip fun _ => .pure (.refl _)

include hrules

theorem numbers_readEnumConstant? (enumName : String) :
    Numbers [] (fun constant => constant.toList.flatMap Member.numbers)
      (readEnumConstant? rules enumName) := by
  have hconstant (name : String) (start : Nat) (args : List Expr) :
      Numbers (args.flatMap Expr.numbers) (fun constant => constant.toList.flatMap Member.numbers)
        (do
          let body ← readWhen (← atSymbol .leftBrace) (readAnonymousBody rules enumName start)
          return some (← mkMember (.enumConstant name args body) start)) := by
    refine (quiet_atSymbol .leftBrace).skip fun found =>
      (numbers_readWhen found (numbers_readAnonymousBody hrules enumName start)).bind fun body => ?_
    refine (numbers_mkMember start fun id number span => ?_).consume fun constant =>
      .pure (subperm_of_count fun id => by simp)
    rw [Member.numbers, TreeNode.numbers_eq]
    simp +arith [TreeNode.ownIds, TreeNode.parts, MemberKind.parts, List.count_cons]
  refine quiet_currentStart.skip fun start => (quiet_skipAnnotations hrules).skip fun _ =>
    quiet_currentKind.skip fun kind => ?_
  split
  · refine quiet_advance.skip fun _ => (quiet_atSymbol .leftParen).skip fun found => .ite ?_ ?_
    · exact (numbers_readArgs hrules).bind fun args => hconstant _ start args
    · exact hconstant _ start []
  · exact .pure (.refl _)

theorem numbers_readEnumConstants (enumName : String) :
    Numbers [] (fun constants => constants.flatMap Member.numbers)
      (readEnumConstants rules enumName) := by
  refine Numbers.bind (numbers_iterate (fun scan : List Member × Bool =>
    scan.1.flatMap Member.numbers) (.refl _) fun scan => .ite (.pure (.refl _)) ?_) fun scan =>
      (quiet_atSymbol .rightBrace).skip fun closing => ?_
  · refine (numbers_readEnumConstant? hrules enumName).bind fun constant => ?_
    cases constant with
    | none => exact .pure (subperm_of_count fun id => by simp [stepIds])
    | some constant =>
        exact (quiet_acceptSymbol .comma).skip fun more => .pure (subperm_of_count fun id => by
          simp +arith [stepIds])
  · have hresult : Numbers ([] ++ scan.1.flatMap Member.numbers)
        (fun constants => constants.flatMap Member.numbers) (Pure.pure scan.1.reverse) :=
      .pure (scan.1.reverse_perm.flatMap_right _).subperm
    exact .ite (quiet_endStatement.skip fun _ => hresult) hresult

theorem numbers_readParam? :
    Numbers [] (fun param => param.toList.flatMap fun param => (TreeNode.param param).numbers)
      (readParam? rules) := by
  refine quiet_currentStart.skip fun start => (numbers_readModifiers hrules).bind fun modifiers =>
    (quiet_type hrules).skip fun type => (quiet_acceptSymbol .ellipsis).skip fun isVarargs =>
      (quiet_acceptKeyword .this).skip fun receiver => .ite (.pure List.nil_subperm) ?_
  refine quiet_expectName.skip fun name => quiet_readDims.skip fun dims =>
    numbers_freshId.bind fun id => (quiet_spanFrom start).skip fun span => .pure ?_
  refine subperm_of_count fun number => ?_
  simp +arith [TreeNode.numbers_eq, TreeNode.ownIds, TreeNode.parts, List.count_cons]

theorem numbers_readParams :
    Numbers [] (fun params => params.flatMap fun param => (TreeNode.param param).numbers)
      (readParams rules) := by
  refine (quiet_expectSymbol .leftParen).skip fun _ =>
    (numbers_enumerated .rightParen .comma (numbers_readParam? hrules)).bind fun params =>
      (quiet_expectSymbol .rightParen).skip fun _ => .pure ?_
  rw [List.filterMap_eq_flatMap_toList, List.flatMap_assoc]
  exact .refl _

/-- The numbers in a method, the number that it bears as a member apart. -/
def methodIds (decl : MethodDecl) : List NodeId :=
  decl.id :: TreeNode.numbersOf (MemberKind.method decl).parts

theorem numbers_readMethodRest (name : String) (modifiers : Modifiers) (typeParams : List String)
    (returnType : Option String) (start : Nat) :
    Numbers modifiers.numbers methodIds
      (readMethodRest rules name modifiers typeParams returnType start) := by
  have hbody (id : NodeId) (params : List Param) (throws : List String) :
      Numbers (modifiers.numbers ++ [id] ++
        params.flatMap fun param => (TreeNode.param param).numbers) methodIds (do
          let body ← readWhen (!(← acceptSymbol .semicolon)) (rules _ .block)
          return ⟨id, name, modifiers, typeParams, returnType, params, throws, body,
            ← spanFrom start⟩) := by
    refine (quiet_acceptSymbol .semicolon).skip fun missing =>
      (numbers_readWhen (!missing) (hrules .block)).bind fun body => (quiet_spanFrom start).skip
        fun span => .pure (subperm_of_count fun number => ?_)
    cases body <;>
      simp +arith [methodIds, MemberKind.parts, TreeNode.numbersOf_singleton, UnitBody.parts,
        Nonterminal.ids, List.count_cons]
  have hdefault (id : NodeId) (params : List Param) (throws : List String) :
      Numbers (modifiers.numbers ++ [id] ++
        params.flatMap fun param => (TreeNode.param param).numbers) methodIds (do
          if ← acceptKeyword .default then
            let _ ← rules _ .elementValue
          let body ← readWhen (!(← acceptSymbol .semicolon)) (rules _ .block)
          return ⟨id, name, modifiers, typeParams, returnType, params, throws, body,
            ← spanFrom start⟩) := by
    refine (quiet_acceptKeyword .default).skip fun found => .ite ?_ (hbody id params throws)
    exact (hrules .elementValue).quiet.skip fun _ => hbody id params throws
  refine numbers_freshId.bind fun id => (numbers_readParams hrules).bind fun params =>
    quiet_readDims.skip fun _ => (quiet_acceptKeyword .throws).skip fun found => .ite ?_ ?_
  · exact (quiet_readTypeList hrules).skip fun throws => hdefault id params throws
  · exact hdefault id params []

theorem numbers_readInitializer (isStatic : Bool) (start : Nat) :
    Numbers [] Member.numbers (readInitializer rules isStatic start) := by
  refine (hrules .block).bind fun body => numbers_mkMember start fun id number span => ?_
  rw [Member.numbers, TreeNode.numbers_eq]
  simp +arith [TreeNode.ownIds, TreeNode.parts, MemberKind.parts, TreeNode.numbersOf_singleton,
    UnitBody.parts, Nonterminal.ids, List.count_cons]

omit hrules in
theorem numbers_mkMethod (decl : MethodDecl) (start : Nat) :
    Numbers (methodIds decl) Member.numbers (mkMember (.method decl) start) := by
  refine numbers_mkMember start fun id number span => ?_
  have hnumbers : Member.numbers ⟨number, .method decl, span⟩ = [number] ++ methodIds decl :=
    TreeNode.numbers_eq _
  exact Nat.le_of_eq (by rw [hnumbers, List.count_append])

theorem numbers_readTypedMember (modifiers : Modifiers) (typeParams : List String) (start : Nat) :
    Numbers modifiers.numbers Member.numbers
      (readTypedMember rules modifiers typeParams start) := by
  have hrest (type : String) : Numbers modifiers.numbers Member.numbers (do
      let nameStart ← currentStart
      let name ← expectName
      if ← atSymbol .leftParen then
        let method ← readMethodRest rules name modifiers typeParams (some type) start
        mkMember (.method method) start
      else
        let declarators ← readDeclarators rules name nameStart
        endStatement
        mkMember (.field modifiers type declarators) start) := by
    refine quiet_currentStart.skip fun nameStart => quiet_expectName.skip fun name =>
      (quiet_atSymbol .leftParen).skip fun found => .ite ?_ ?_
    · exact (numbers_readMethodRest hrules name modifiers typeParams (some type) start).consume
        fun method => numbers_mkMethod method start
    · refine (numbers_readDeclarators hrules name nameStart).bind fun declarators =>
        quiet_endStatement.skip fun _ => numbers_mkMember start fun id number span => ?_
      rw [Member.numbers, TreeNode.numbers_eq]
      simp +arith [TreeNode.ownIds, TreeNode.parts, MemberKind.parts, List.count_cons]
  refine (quiet_acceptKeyword .void).skip fun found => .ite (hrest "void") ?_
  exact (quiet_type hrules).skip hrest

theorem numbers_readDeclaredMember (className : String) (start : Nat) :
    Numbers [] Member.numbers (readDeclaredMember rules className start) := by
  have hclass (modifiers : Modifiers) : Numbers modifiers.numbers Member.numbers (do
      let decl ← readClass rules modifiers start
      mkMember (.classDecl decl) start) := by
    refine (numbers_readClass hrules modifiers start).consume fun decl =>
      numbers_mkMember start fun id number span => ?_
    rw [Member.numbers, TreeNode.numbers_eq]
    simp +arith [TreeNode.ownIds, TreeNode.parts, MemberKind.parts, TreeNode.numbersOf_singleton,
      ClassDecl.numbers, List.count_cons]
  have hmember (modifiers : Modifiers) : Numbers modifiers.numbers Member.numbers (do
      let typeParams ← readTypeParams rules
      if (← currentKind) == .ident className && (← peek 1) == .symbol .leftParen then
        advance
        let method ← readMethodRest rules className modifiers typeParams none start
        mkMember (.method method) start
      else readTypedMember rules modifiers typeParams start) := by
    refine (quiet_readTypeParams hrules).skip fun typeParams => quiet_currentKind.skip fun kind =>
      (quiet_peek 1).skip fun next => .ite (quiet_advance.skip fun _ => ?_) ?_
    · exact (numbers_readMethodRest hrules className modifiers typeParams none start).consume
        fun method => numbers_mkMethod method start
    · exact numbers_readTypedMember hrules modifiers typeParams start
  refine (numbers_readModifiers hrules).bind fun modifiers => quiet_currentKind.skip fun kind =>
    (quiet_peek 1).skip fun next => .ite (hclass modifiers) (hmember modifiers)

theorem numbers_readMember? (className : String) :
    Numbers [] (fun member => member.toList.flatMap Member.numbers)
      (readMember? rules className) := by
  have hsome {reader : Reader Member} (h : Numbers [] Member.numbers reader) :
      Numbers [] (fun member => member.toList.flatMap Member.numbers)
        (do return some (← reader)) :=
    h.bind fun member => .pure (subperm_of_count fun id => by simp)
  refine quiet_currentStart.skip fun start => (quiet_acceptSymbol .semicolon).skip fun stray =>
    .ite (.pure (.refl _)) ((quiet_atSymbol .leftBrace).skip fun found => .ite ?_ ?_)
  · exact hsome (numbers_readInitializer hrules false start)
  · refine (quiet_atKeyword .static).skip fun isStatic => (quiet_peek 1).skip fun next =>
      .ite (quiet_advance.skip fun _ => ?_) ?_
    · exact hsome (numbers_readInitializer hrules true start)
    · exact hsome (numbers_readDeclaredMember hrules className start)

theorem numbers_readMembers (className : String) :
    Numbers [] (fun members => members.flatMap Member.numbers) (readMembers rules className) := by
  refine Numbers.bind (numbers_iterate (fun scan : MemberScan => scan.members.flatMap
    Member.numbers) (.refl _) fun scan => ?_) fun scan =>
      .pure (scan.members.reverse_perm.flatMap_right _).subperm
  have hkept : (scan.members.flatMap Member.numbers).Subperm
      (scan.members.flatMap Member.numbers ++ []) := by
    rw [List.append_nil]
  refine (quiet_atSymbol .rightBrace).skip fun closing => quiet_atEnd.skip fun ended =>
    .ite (.pure (.refl _)) ?_
  refine (numbers_attempt (numbers_readMember? hrules className)).bind fun outcome => ?_
  split
  · exact .pure hkept
  · exact .pure (subperm_of_count fun id => by simp +arith [stepIds, outcomeIds])
  · refine (quiet_recordError _).skip fun more => .ite ?_ ?_
    · exact quiet_skipToMember.skip fun _ => .pure hkept
    · exact quiet_skipToClosingBrace.skip fun _ => .pure hkept

theorem numbers_readClassBody (className : String) (isEnum : Bool) :
    Numbers [] (fun members => members.flatMap Member.numbers)
      (readClassBody rules className isEnum) := by
  have hmembers (constants : List Member) : Numbers (constants.flatMap Member.numbers)
      (fun members => members.flatMap Member.numbers) (do
        let members ← readMembers rules className
        let _ ← expectSymbol .rightBrace
        return constants ++ members) :=
    (numbers_readMembers hrules className).bind fun members =>
      (quiet_expectSymbol .rightBrace).skip fun _ => .pure (subperm_of_count fun id => by simp)
  refine (quiet_expectSymbol .leftBrace).skip fun _ => .ite ?_ (hmembers [])
  exact (numbers_readEnumConstants hrules className).bind hmembers

/-- A rule hands out numbers if those that it refers to do. -/
theorem numbers_readNonterminal {α : Type} (nonterminal : Nonterminal α) :
    Numbers [] nonterminal.ids (readNonterminal rules nonterminal) := by
  cases nonterminal with
  | expr => exact numbers_readExpr hrules
  | ternary => exact numbers_readTernary hrules
  | binary least => exact numbers_readBinary hrules least
  | unary => exact numbers_readUnary hrules
  | type => exact quiet_readType hrules
  | annotationUse => exact numbers_readAnnotationUse hrules
  | elementValue => exact numbers_readElementValue hrules
  | varInit => exact numbers_readVarInit hrules
  | stmt => exact numbers_readStmt hrules
  | block => exact numbers_readBlock hrules
  | classBody className isEnum => exact numbers_readClassBody hrules className isEnum

end Readers

/-- The rules tied together to any depth hand out numbers. -/
theorem numbered_rules (depth : Nat) : (rules depth).Numbered := by
  intro α nonterminal
  induction depth generalizing α with
  | zero => exact numbers_failTooDeep
  | succ depth ih => exact numbers_readNonterminal ih nonterminal

/-! ### Compilation units -/

theorem quiet_readPackage : Quiet readPackage :=
  (quiet_expectKeyword .package).skip fun _ => quiet_readQualifiedName.skip fun _ =>
    (quiet_expectSymbol .semicolon).skip fun _ => .pure (.refl _)

theorem quiet_readImport : Quiet readImport := by
  refine (quiet_expectKeyword .import).skip fun span => (quiet_acceptKeyword .static).skip
    fun isStatic => quiet_expectName.skip fun first => Numbers.skip (quiet_iterate fun scan => ?_)
      fun scan => (quiet_expectSymbol .semicolon).skip fun _ => (quiet_spanFrom _).skip fun _ =>
        .pure (.refl _)
  refine .ite (.pure (.refl _)) ((quiet_acceptSymbol .dot).skip fun dot =>
    .ite ((quiet_acceptSymbol .star).skip fun star => .ite (.pure (.refl _)) ?_) (.pure (.refl _)))
  exact quiet_expectName.skip fun _ => .pure (.refl _)

theorem quiet_skipPastSemicolon : Quiet skipPastSemicolon := by
  refine Numbers.skip (quiet_iterate fun _ => ?_) fun _ => .pure (.refl _)
  refine quiet_atEnd.skip fun ended => .ite (.pure (.refl _)) ?_
  exact (quiet_acceptSymbol .semicolon).skip fun found =>
    .ite (.pure (.refl _)) (quiet_advance.skip fun _ => .pure (.refl _))

theorem quiet_skipToTypeDecl : Quiet skipToTypeDecl := by
  refine quiet_advance.skip fun _ => Numbers.skip (quiet_iterate fun depth => ?_)
    fun _ => .pure (.refl _)
  refine quiet_currentKind.skip fun kind => ?_
  split
  · exact .pure (.refl _)
  · exact quiet_advance.skip fun _ => .pure (.refl _)
  · exact quiet_advance.skip fun _ => .ite (.pure (.refl _)) (.pure (.refl _))
  · exact .ite (.pure (.refl _)) (quiet_advance.skip fun _ => .pure (.refl _))

theorem quiet_readPackage? : Quiet readPackage? := by
  refine (quiet_atKeyword .package).skip fun found => .ite (.pure (.refl _)) ?_
  refine (numbers_attempt quiet_readPackage).quiet.skip fun outcome => ?_
  cases outcome with
  | ok package => exact .pure (.refl _)
  | error error =>
      exact (quiet_recordError error).skip fun _ => quiet_skipPastSemicolon.skip fun _ =>
        .pure (.refl _)

theorem quiet_readImports : Quiet readImports := by
  refine Numbers.skip (quiet_iterate fun scan => ?_) fun _ => .pure (.refl _)
  refine (quiet_atKeyword .import).skip fun found => .ite (.pure (.refl _)) ?_
  refine (numbers_attempt quiet_readImport).quiet.skip fun outcome => ?_
  cases outcome with
  | ok decl => exact .pure (.refl _)
  | error error =>
      refine (quiet_recordError error).skip fun more => .ite ?_ (.pure (.refl _))
      exact quiet_skipPastSemicolon.skip fun _ => .pure (.refl _)

section Unit

variable {rules : Rules} (hrules : rules.Numbered)
include hrules

theorem numbers_readTypeDecl : Numbers [] ClassDecl.numbers (readTypeDecl rules) :=
  quiet_currentStart.skip fun start => (numbers_readModifiers hrules).bind fun modifiers =>
    numbers_readClass hrules modifiers start

theorem numbers_readTypeDecls :
    Numbers [] (fun types => types.flatMap ClassDecl.numbers) (readTypeDecls rules) := by
  refine Numbers.bind (numbers_iterate (fun scan : DeclScan ClassDecl =>
    scan.decls.flatMap ClassDecl.numbers) (.refl _) fun scan => ?_) fun scan =>
      .pure (scan.decls.reverse_perm.flatMap_right _).subperm
  refine quiet_atEnd.skip fun ended => .ite (.pure (.refl _)) ?_
  refine (quiet_acceptSymbol .semicolon).skip fun stray => .ite (.pure (.refl _)) ?_
  refine (numbers_attempt (numbers_readTypeDecl hrules)).bind fun outcome => ?_
  cases outcome with
  | ok decl => exact .pure (subperm_of_count fun id => by simp +arith [stepIds, outcomeIds])
  | error error =>
      have hkept : (scan.decls.flatMap ClassDecl.numbers).Subperm
          (scan.decls.flatMap ClassDecl.numbers ++ []) := by
        rw [List.append_nil]
      refine (quiet_recordError error).skip fun more => .ite ?_ (.pure hkept)
      exact quiet_skipToTypeDecl.skip fun _ => .pure hkept

theorem numbers_readUnit : Numbers [] CompilationUnit.numbers (readUnit rules) := by
  refine quiet_readPackage?.skip fun package => quiet_readImports.skip fun imports => .ite ?_ ?_
  · refine (numbers_readTypeDecls hrules).bind fun types => .pure (subperm_of_count fun id => ?_)
    simp [CompilationUnit.numbers, CompilationUnit.parts]
  · exact .pure (.refl _)

end Unit
end Grammar

/-- No number occurs twice in a compilation unit, whatever tokens it is read from. -/
theorem ParsedUnit.nodup_numbers_ofTokens (tokens : List Token) :
    (ofTokens tokens).unit.numbers.Nodup := by
  have houtcome := Grammar.numbers_readUnit (Grammar.numbered_rules (Grammar.depthFor tokens))
    (Grammar.Cursor.start tokens).nextId (.start tokens) (.nil (Nat.le_refl _))
  rw [ofTokens]
  cases hrun : (Grammar.readUnit (Grammar.rules (Grammar.depthFor tokens))).run
      (.start tokens) with
  | ok unit cursor =>
      rw [hrun] at houtcome
      exact houtcome.nodup
  | error error cursor => exact List.nodup_nil

end LockDiscipline
