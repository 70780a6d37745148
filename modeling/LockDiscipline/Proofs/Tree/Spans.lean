import LockDiscipline.Proofs.Tree.Numbers
import LockDiscipline.Token.Basic
import Mathlib.Data.List.Perm.Subperm
/-!
# Spans in a tree

The spans of the constructs in a tree nest as the constructs do, each of them covers whole tokens, and
expressions that stand beside each other have no bytes in common. `TreeNode.Sound` says this of all that is in
a construct. It is shown bottom-up, for items that are read one after the other: `Laid` says of a list of
items that they are sound, that they lie between two bytes, and that no expression in one of them meets an
expression in another. Statements and classes may overlap as long as the expressions in them do not: the body
of an anonymous class begins where the expression around it does.
-/

namespace LockDiscipline

namespace Span

/-- Two ranges without a byte in common, in either order. -/
def Apart (first second : Span) : Prop :=
  first.stop ≤ second.start ∨ second.stop ≤ first.start

theorem Apart.symm {first second : Span} (h : first.Apart second) : second.Apart first :=
  Or.symm h

theorem Within.trans {inner middle outer : Span} (hinner : inner.Within middle)
    (houter : middle.Within outer) : inner.Within outer :=
  ⟨Nat.le_trans houter.1 hinner.1, Nat.le_trans hinner.2 houter.2⟩

theorem Within.refl (span : Span) : span.Within span :=
  ⟨Nat.le_refl _, Nat.le_refl _⟩

/-- A range that begins where a token does and ends where one does, and is not empty. -/
structure Covers (tokens : List Token) (span : Span) : Prop where
  lt : span.start < span.stop
  start : ∃ token ∈ tokens, token.kind ≠ .eof ∧ token.span.start = span.start
  stop : ∃ token ∈ tokens, token.kind ≠ .eof ∧ token.span.stop = span.stop

end Span

/-- A name is one of the identifiers among tokens. -/
def IsIdentOf (tokens : List Token) (name : String) : Prop :=
  ∃ token ∈ tokens, token.kind = .ident name

namespace TreeNode

/-- The spans that a construct itself bears. A method bears one as a member and one as a method. -/
def ownSpans : TreeNode → List Span
  | .expr node => [node.span]
  | .stmt node => [node.span]
  | .declarator node => [node.span]
  | .catchClause node => [node.span]
  | .classDecl node => [node.span]
  | .member ⟨_, .method decl, span⟩ => [span, decl.span]
  | .member node => [node.span]
  | .param node => [node.span]
  | .resource _ | .switchCase _ | .code _ => []

/-- The names of the variables and constants that a construct itself declares. -/
def declaredNames : TreeNode → List String
  | .declarator node => [node.name]
  | .member ⟨_, .enumConstant name _ _, _⟩ => [name]
  | _ => []

/-- The fields of a member are declared in it by their names. -/
theorem exists_declaredNames {member : Member} {name : String} (h : name ∈ member.fieldNames.map (·.1)) :
    ∃ path inner, Within (.member member) path inner ∧ name ∈ inner.declaredNames := by
  obtain ⟨⟨_, node⟩, hfield, rfl⟩ := List.mem_map.mp h
  obtain ⟨number, kind, span⟩ := member
  cases kind with
  | field modifiers type declarators =>
      obtain ⟨declarator, hdeclarator, heq⟩ := List.mem_map.mp hfield
      obtain ⟨rfl, rfl⟩ := Prod.mk.inj heq
      have hpart : (⟨.declared, .declarator declarator⟩ : Part) ∈
          (TreeNode.member ⟨number, .field modifiers type declarators, span⟩).parts := by
        simp [parts, MemberKind.parts, hdeclarator]
      obtain ⟨index, hindex⟩ := List.getElem?_of_mem hpart
      exact ⟨[⟨index, .declared⟩], _, .part hindex (.here _), List.mem_singleton_self _⟩
  | enumConstant constant args body =>
      obtain ⟨rfl, rfl⟩ := Prod.mk.inj (List.mem_singleton.mp hfield)
      exact ⟨[], _, .here _, List.mem_singleton_self _⟩
  | _ => cases hfield

/-- The annotations that a construct declares something with. -/
def annotations : TreeNode → List AnnotationUse
  | .classDecl node => node.modifiers.annotations
  | .member ⟨_, .field modifiers _ _, _⟩ => modifiers.annotations
  | .member ⟨_, .method decl, _⟩ => decl.modifiers.annotations
  | .param node => node.modifiers.annotations
  | _ => []

/-- A span that a construct or something in it bears. -/
def HasSpan (node : TreeNode) (span : Span) : Prop :=
  ∃ path inner, Within node path inner ∧ span ∈ inner.ownSpans

/-- No expression in one construct meets an expression in another. -/
def Apart (first second : TreeNode) : Prop :=
  ∀ path path' (expr expr' : Expr), Within first path (.expr expr) →
    Within second path' (.expr expr') → expr.span.Apart expr'.span

theorem Apart.symm {first second : TreeNode} (h : first.Apart second) : second.Apart first :=
  fun path path' expr expr' hwithin hwithin' => (h path' path expr' expr hwithin' hwithin).symm

theorem HasSpan.of_mem {node : TreeNode} {span : Span} (h : span ∈ node.ownSpans) :
    node.HasSpan span :=
  ⟨[], node, .here node, h⟩

theorem HasSpan.of_within {node inner : TreeNode} {path : List PathStep} {span : Span}
    (h : inner.HasSpan span) (hinner : Within node path inner) : node.HasSpan span := by
  obtain ⟨path', innermost, hwithin, hspan⟩ := h
  exact ⟨path ++ path', innermost, hinner.trans hwithin, hspan⟩

theorem HasSpan.of_expr {node : TreeNode} {path : List PathStep} {expr : Expr}
    (h : Within node path (.expr expr)) : node.HasSpan expr.span :=
  ⟨path, .expr expr, h, List.mem_singleton_self _⟩

theorem exists_within_of_mem {node : TreeNode} {part : Part} (h : part ∈ node.parts) :
    ∃ step, Within node [step] part.node := by
  obtain ⟨index, hindex⟩ := List.getElem?_of_mem h
  exact ⟨⟨index, part.role⟩, .part hindex (.here part.node)⟩

/-- The spans in a construct are its own ones and those in its parts. -/
theorem hasSpan_iff {node : TreeNode} {span : Span} :
    node.HasSpan span ↔ span ∈ node.ownSpans ∨ ∃ part ∈ node.parts, part.node.HasSpan span := by
  constructor
  · rintro ⟨path, inner, hwithin, hspan⟩
    cases hwithin with
    | here => exact .inl hspan
    | part hpart hinner => exact .inr ⟨_, List.mem_of_getElem? hpart, _, _, hinner, hspan⟩
  · rintro (hspan | ⟨part, hpart, h⟩)
    · exact .of_mem hspan
    · obtain ⟨step, hstep⟩ := exists_within_of_mem hpart
      exact h.of_within hstep

variable (tokens : List Token)

/-- What the spans of a construct and of its parts have to do with each other and with the tokens. The names
that it declares are tokens as well. -/
structure Spanned (node : TreeNode) : Prop where
  covers : ∀ span ∈ node.ownSpans, span.Covers tokens
  own : node.ownSpans.Pairwise fun outer inner => inner.Within outer
  nests : ∀ span ∈ node.ownSpans, ∀ part ∈ node.parts, ∀ inner, part.node.HasSpan inner →
    inner.Within span
  annotated : ∀ use ∈ node.annotations, use.span.Covers tokens ∧
    (∀ span ∈ node.ownSpans, use.span.Within span) ∧
      ∀ value ∈ use.values, value.span.Within use.span
  apart : node.parts.Pairwise fun first second => first.node.Apart second.node
  /-- The parameters of a lambda stand before its body. -/
  lambda : ∀ span ∈ node.ownSpans, ∀ part ∈ node.parts, ∀ body, part.node = .code (.lambda body) →
    ∀ inner, part.node.HasSpan inner → span.start < inner.start
  /-- A class begins before its body. -/
  members : ∀ decl, node = .classDecl decl → ∀ member ∈ decl.members, ∀ inner,
    (TreeNode.member member).HasSpan inner → decl.span.start < inner.start
  named : ∀ name ∈ node.declaredNames, IsIdentOf tokens name

/-- The spans of all that is in a construct are as they should be. -/
def Sound (node : TreeNode) : Prop :=
  ∀ path inner, Within node path inner → inner.Spanned tokens

variable {tokens} {node : TreeNode}

theorem Sound.of_parts (hnode : node.Spanned tokens) (hparts : ∀ part ∈ node.parts, part.node.Sound tokens) :
    node.Sound tokens := by
  intro path inner hwithin
  cases hwithin with
  | here => exact hnode
  | part hpart hinner => exact hparts _ (List.mem_of_getElem? hpart) _ _ hinner

theorem Sound.within (h : node.Sound tokens) {path : List PathStep} {inner : TreeNode}
    (hinner : Within node path inner) : inner.Sound tokens :=
  fun path' innermost hwithin => h (path ++ path') innermost (hinner.trans hwithin)

theorem Sound.of_mem_parts (h : node.Sound tokens) {part : Part} (hpart : part ∈ node.parts) :
    part.node.Sound tokens := by
  obtain ⟨step, hstep⟩ := exists_within_of_mem hpart
  exact h.within hstep

theorem Sound.covers (h : node.Sound tokens) {span : Span} (hspan : node.HasSpan span) :
    span.Covers tokens := by
  obtain ⟨path, inner, hwithin, hspan⟩ := hspan
  exact (h path inner hwithin).covers span hspan

/-- What is in a construct lies in its span. -/
theorem Sound.within_span (h : node.Sound tokens) {outer span : Span} (houter : node.ownSpans = [outer])
    (hspan : node.HasSpan span) : span.Within outer := by
  rcases hasSpan_iff.mp hspan with hspan | ⟨part, hpart, hspan⟩
  · rw [houter] at hspan
    rw [List.mem_singleton.mp hspan]
    exact .refl _
  · exact (h [] node (.here node)).nests outer (by rw [houter]; exact List.mem_singleton_self _) part
      hpart span hspan

end TreeNode

/-! ### Items -/

/-- What a reader returns and has to do with spans: a construct, or an annotation whose arguments will
be parts of what it stands before. -/
inductive Item where
  | construct (node : TreeNode)
  | annotated (use : AnnotationUse)

noncomputable instance : DecidableEq Item :=
  fun first second => Classical.propDecidable (first = second)

namespace Item

/-- The constructs of an item. -/
def constructs : Item → List TreeNode
  | .construct node => [node]
  | .annotated use => use.values.map .expr

/-- The span of an annotation. -/
def spans : Item → List Span
  | .construct _ => []
  | .annotated use => [use.span]

/-- All spans of an item lie behind a byte. -/
def Behind (low : Nat) (item : Item) : Prop :=
  ∀ node ∈ item.constructs, ∀ span, node.HasSpan span → low < span.start

/-- All spans of an item lie between two bytes, and those of the body of a lambda not at the first. -/
structure FitsIn (low high : Nat) (item : Item) : Prop where
  spans : ∀ span ∈ item.spans, span.Within ⟨low, high⟩
  constructs : ∀ node ∈ item.constructs, ∀ span, node.HasSpan span → span.Within ⟨low, high⟩
  behind : ∀ body, item = .construct (.code (.lambda body)) → item.Behind low

/-- No expression in one item meets an expression in another. -/
def Apart (first second : Item) : Prop :=
  ∀ node ∈ first.constructs, ∀ node' ∈ second.constructs, node.Apart node'

theorem Apart.symm {first second : Item} (h : first.Apart second) : second.Apart first :=
  fun node hnode node' hnode' => (h node' hnode' node hnode).symm

/-- An item whose constructs are sound and in which nothing meets. -/
structure Sound (tokens : List Token) (item : Item) : Prop where
  constructs : ∀ node ∈ item.constructs, node.Sound tokens
  apart : item.constructs.Pairwise TreeNode.Apart
  covers : ∀ span ∈ item.spans, span.Covers tokens
  nests : ∀ span ∈ item.spans, ∀ node ∈ item.constructs, ∀ inner, node.HasSpan inner →
    inner.Within span

theorem FitsIn.mono {low high low' high' : Nat} {item : Item} (h : item.FitsIn low high)
    (hwithin : (⟨low, high⟩ : Span).Within ⟨low', high'⟩) : item.FitsIn low' high' :=
  ⟨fun span hspan => (h.spans span hspan).trans hwithin,
    fun node hnode span hspan => (h.constructs node hnode span hspan).trans hwithin,
    fun body hbody node hnode span hspan =>
      Nat.lt_of_le_of_lt hwithin.1 (h.behind body hbody node hnode span hspan)⟩

/-- A body of code is an item of its own. -/
theorem eq_construct_of_code {item : Item} {body : UnitBody}
    (h : TreeNode.code body ∈ item.constructs) : item = .construct (.code body) := by
  cases item with
  | construct node => rw [List.mem_singleton.mp h]
  | annotated use =>
      obtain ⟨value, -, heq⟩ := List.mem_map.mp h
      cases heq

/-- Items in different ranges do not meet. -/
theorem FitsIn.apart {low middle middle' high : Nat} {first second : Item}
    (hfirst : first.FitsIn low middle) (hsecond : second.FitsIn middle' high)
    (hle : middle ≤ middle') : first.Apart second := by
  intro node hnode node' hnode' path path' expr expr' hwithin hwithin'
  refine .inl ?_
  calc expr.span.stop
    _ ≤ middle := (hfirst.constructs node hnode _ (.of_expr hwithin)).2
    _ ≤ middle' := hle
    _ ≤ expr'.span.start := (hsecond.constructs node' hnode' _ (.of_expr hwithin')).1

end Item

/-- An annotation as the only item. -/
def AnnotationUse.items (use : AnnotationUse) : List Item :=
  [.annotated use]

/-- The annotations among modifiers as items. -/
def Modifiers.items (modifiers : Modifiers) : List Item :=
  modifiers.annotations.flatMap AnnotationUse.items

namespace TreeNode

/-- A construct as the only item. -/
def items (node : TreeNode) : List Item :=
  [.construct node]

/-- Parts as items. -/
def itemsOf (parts : List Part) : List Item :=
  parts.flatMap (·.node.items)

/-- What a construct is made of when it is read: annotations and the constructs behind them. -/
def pieces (node : TreeNode) : List Item :=
  node.annotations.flatMap AnnotationUse.items ++
    itemsOf (node.parts.drop (node.annotations.flatMap (·.values)).length)

/-- What is enclosed by a construct and does not begin where it does: the members of a class and the
body of a lambda. -/
def enclosed : TreeNode → List Item
  | .code (.lambda body) => itemsOf (UnitBody.lambda body).parts
  | .classDecl decl => decl.members.flatMap fun member => (TreeNode.member member).items
  | _ => []

/-- The modifiers of a declaration are pieces of it, and so is what stands behind them. -/
theorem pieces_of_modifiers {node : TreeNode} {modifiers : Modifiers} {others : List Part}
    (hparts : node.parts = modifiers.parts ++ others)
    (hannotations : node.annotations = modifiers.annotations) :
    node.pieces = modifiers.items ++ itemsOf others := by
  rw [pieces, hparts, hannotations,
    List.drop_left' (by rw [Modifiers.parts, exprParts, List.length_map])]
  rfl

/-- The arguments of its annotations are the first parts of a construct. -/
theorem nodes_parts (node : TreeNode) :
    node.parts.map (·.node) = node.pieces.flatMap Item.constructs := by
  have hothers (others : List Part) :
      others.map (·.node) = (itemsOf others).flatMap Item.constructs := by
    rw [itemsOf, List.flatMap_assoc]
    exact List.map_eq_flatMap
  have hdeclared (node : TreeNode) {modifiers : Modifiers} {others : List Part}
      (hparts : node.parts = modifiers.parts ++ others)
      (hannotations : node.annotations = modifiers.annotations) :
      node.parts.map (·.node) = node.pieces.flatMap Item.constructs := by
    have hmodifiers : modifiers.parts.map (·.node) = modifiers.items.flatMap Item.constructs := by
      rw [Modifiers.parts, exprParts, List.map_map, List.map_flatMap, Modifiers.items,
        List.flatMap_assoc]
      refine List.flatMap_congr fun use _ => ?_
      rw [AnnotationUse.items, List.flatMap_singleton]
      rfl
    rw [pieces_of_modifiers hparts hannotations, hparts, List.map_append, List.flatMap_append,
      hmodifiers, hothers]
  cases node with
  | classDecl node => exact hdeclared _ rfl rfl
  | param node => exact hdeclared _ (List.append_nil _).symm rfl
  | member node =>
      obtain ⟨id, kind, span⟩ := node
      cases kind with
      | field modifiers type declarators => exact hdeclared _ rfl rfl
      | method decl => exact hdeclared _ (List.append_assoc ..) rfl
      | _ => exact hothers _
  | _ => exact hothers _

end TreeNode

/-! ### What is laid out between two bytes -/

/-- Sound items between two bytes, no two of which meet. -/
structure Laid (tokens : List Token) (low high : Nat) (items : List Item) : Prop where
  sound : ∀ item ∈ items, item.Sound tokens
  inside : ∀ item ∈ items, item.FitsIn low high
  apart : items.Pairwise Item.Apart

namespace Laid

variable {tokens : List Token} {low middle middle' high : Nat} {items items' others : List Item}

theorem nil (low high : Nat) : Laid tokens low high [] :=
  ⟨fun _ h => absurd h List.not_mem_nil, fun _ h => absurd h List.not_mem_nil, .nil⟩

/-- Items may be dropped and put into another order. -/
theorem of_subperm (h : Laid tokens low high items) (hsub : items'.Subperm items) :
    Laid tokens low high items' := by
  refine ⟨fun item hitem => h.sound item (hsub.subset hitem),
    fun item hitem => h.inside item (hsub.subset hitem), ?_⟩
  obtain ⟨sublist, hperm, hsublist⟩ := hsub
  exact (hperm.pairwise_iff fun h => h.symm).mp (h.apart.sublist hsublist)

theorem mono (h : Laid tokens low middle items) (hle : middle ≤ high) :
    Laid tokens low high items :=
  { h with inside := fun item hitem => (h.inside item hitem).mono ⟨Nat.le_refl _, hle⟩ }

/-- What is read behind the items does not meet them. -/
theorem append (hfirst : Laid tokens low middle items) (hsecond : Laid tokens middle' high items')
    (hlow : low ≤ middle') (hmiddle : middle ≤ middle') (hhigh : middle ≤ high) :
    Laid tokens low high (items ++ items') := by
  refine ⟨?_, ?_, List.pairwise_append.mpr ⟨hfirst.apart, hsecond.apart, ?_⟩⟩
  · exact List.forall_mem_append.mpr ⟨hfirst.sound, hsecond.sound⟩
  · exact List.forall_mem_append.mpr ⟨(hfirst.mono hhigh).inside, fun item hitem =>
      (hsecond.inside item hitem).mono ⟨hlow, Nat.le_refl _⟩⟩
  · exact fun item hitem item' hitem' =>
      (hfirst.inside item hitem).apart (hsecond.inside item' hitem') hmiddle

/-- Items may be put together into a construct beside others, if its own spans go around them. An
expression may only stand beside others that it does not meet. -/
theorem wrap {node : TreeNode} (h : Laid tokens low high (others ++ node.pieces))
    (hcovers : ∀ span ∈ node.ownSpans, span.Covers tokens)
    (hown : node.ownSpans.Pairwise fun outer inner => inner.Within outer)
    (haround : ∀ span ∈ node.ownSpans, ∀ item ∈ node.pieces, item.FitsIn span.start span.stop)
    (hinside : ∀ span ∈ node.ownSpans, span.Within ⟨low, high⟩)
    (hothers : node.expr? = none ∨ others = [])
    (hbehind : ∀ item ∈ node.enclosed, item.Behind low ∧ ∀ span ∈ node.ownSpans, item.Behind span.start)
    (hnames : ∀ name ∈ node.declaredNames, IsIdentOf tokens name) :
    Laid tokens low high (others ++ node.items) := by
  have hpieces : Laid tokens low high node.pieces := h.of_subperm (List.sublist_append_right _ _).subperm
  have hpart {part : Part} (hpart : part ∈ node.parts) :
      ∃ item ∈ node.pieces, part.node ∈ item.constructs := by
    rw [← List.mem_flatMap, ← TreeNode.nodes_parts]
    exact List.mem_map_of_mem hpart
  have hspanned : node.Spanned tokens := by
    refine ⟨hcovers, hown, fun span hspan part hmem inner hinner => ?_, fun use huse => ?_, ?_,
      fun span hspan part hmem body hbody inner hinner => ?_, ?_, hnames⟩
    · obtain ⟨item, hitem, hnode⟩ := hpart hmem
      exact (haround span hspan item hitem).constructs _ hnode inner hinner
    · have hitem : Item.annotated use ∈ node.pieces :=
        List.mem_append_left _ (List.mem_flatMap.mpr ⟨use, huse, List.mem_singleton_self _⟩)
      have hsound := hpieces.sound _ hitem
      have hspan : use.span ∈ (Item.annotated use).spans := List.mem_singleton_self _
      refine ⟨hsound.covers _ hspan, fun span hown => (haround span hown _ hitem).spans _ hspan,
        fun value hvalue => hsound.nests _ hspan (.expr value) (List.mem_map_of_mem hvalue) _ ?_⟩
      exact .of_expr (.here _)
    · have hapart : (node.parts.map (·.node)).Pairwise TreeNode.Apart := by
        rw [TreeNode.nodes_parts, List.pairwise_flatMap]
        exact ⟨fun item hitem => (hpieces.sound item hitem).apart, hpieces.apart⟩
      exact List.pairwise_map.mp hapart
    · obtain ⟨item, hitem, hnode⟩ := hpart hmem
      have hcode := item.eq_construct_of_code (hbody ▸ hnode)
      exact (haround span hspan item hitem).behind body hcode part.node hnode inner hinner
    · rintro decl rfl member hmember inner hinner
      have hitem : Item.construct (.member member) ∈ (TreeNode.classDecl decl).enclosed :=
        List.mem_flatMap.mpr ⟨member, hmember, List.mem_singleton_self _⟩
      exact (hbehind _ hitem).2 decl.span (List.mem_singleton_self _) _ (List.mem_singleton_self _)
        inner hinner
  have hsound : node.Sound tokens := by
    refine .of_parts hspanned fun part hmem => ?_
    obtain ⟨item, hitem, hnode⟩ := hpart hmem
    exact (hpieces.sound item hitem).constructs _ hnode
  have hlaid : Laid tokens low high node.items := by
    refine ⟨List.forall_mem_singleton.mpr ⟨List.forall_mem_singleton.mpr hsound,
      List.pairwise_singleton _ _, List.forall_mem_nil _, List.forall_mem_nil _⟩,
      List.forall_mem_singleton.mpr ⟨List.forall_mem_nil _,
        List.forall_mem_singleton.mpr fun span hspan => ?_, fun body hbody =>
          List.forall_mem_singleton.mpr fun span hspan => ?_⟩, List.pairwise_singleton _ _⟩
    · rcases TreeNode.hasSpan_iff.mp hspan with hspan | ⟨part, hmem, hspan⟩
      · exact hinside span hspan
      · obtain ⟨item, hitem, hnode⟩ := hpart hmem
        exact (hpieces.inside item hitem).constructs _ hnode span hspan
    · obtain rfl := Item.construct.inj hbody
      rcases TreeNode.hasSpan_iff.mp hspan with hspan | ⟨part, hmem, hspan⟩
      · cases hspan
      · obtain ⟨item, hitem, hnode⟩ := hpart hmem
        exact (hbehind item hitem).1 _ hnode span hspan
  rcases hothers with hnode | rfl
  · have hothers : Laid tokens low high others := h.of_subperm (List.sublist_append_left _ _).subperm
    refine ⟨List.forall_mem_append.mpr ⟨hothers.sound, hlaid.sound⟩,
      List.forall_mem_append.mpr ⟨hothers.inside, hlaid.inside⟩,
      List.pairwise_append.mpr ⟨hothers.apart, hlaid.apart, ?_⟩⟩
    -- The expressions in the construct are those in its parts, which were beside the others.
    intro other hother item hitem inner hinner inner' hinner' path path' expr expr' hwithin hwithin'
    obtain rfl := List.mem_singleton.mp hitem
    obtain rfl := List.mem_singleton.mp hinner'
    cases hwithin' with
    | here => cases hnode
    | part hindex hwithin' =>
        obtain ⟨piece, hpiece, hmem⟩ := hpart (List.mem_of_getElem? hindex)
        exact (List.pairwise_append.mp h.apart).2.2 other hother piece hpiece inner hinner _ hmem
          path _ expr expr' hwithin hwithin'
  · exact hlaid

/-- A construct whose span goes around all that was read. -/
theorem wrap_span {node : TreeNode} (h : Laid tokens low high (others ++ node.pieces))
    (hspans : ∀ span ∈ node.ownSpans, span = ⟨low, high⟩)
    (hcovers : Span.Covers tokens ⟨low, high⟩) (hothers : node.expr? = none ∨ others = [])
    (hbehind : ∀ item ∈ node.enclosed, item.Behind low)
    (hnames : ∀ name ∈ node.declaredNames, IsIdentOf tokens name) :
    Laid tokens low high (others ++ node.items) := by
  refine h.wrap (fun span hspan => ?_) ?_ (fun span hspan item hitem => ?_) (fun span hspan => ?_) hothers
    (fun item hitem => ⟨hbehind item hitem, fun span hspan => ?_⟩) hnames
  · rw [hspans span hspan]
    exact hcovers
  · refine List.pairwise_of_forall_mem_list fun outer houter inner hinner => ?_
    rw [hspans outer houter, hspans inner hinner]
    exact .refl _
  · rw [hspans span hspan]
    exact h.inside item (List.mem_append_right _ hitem)
  · rw [hspans span hspan]
    exact .refl _
  · rw [hspans span hspan]
    exact hbehind item hitem

/-- A construct that bears no span. -/
theorem wrap_bare {node : TreeNode} (h : Laid tokens low high (others ++ node.pieces))
    (hspans : node.ownSpans = []) (hothers : node.expr? = none ∨ others = [])
    (hbehind : ∀ item ∈ node.enclosed, item.Behind low)
    (hnames : ∀ name ∈ node.declaredNames, IsIdentOf tokens name) :
    Laid tokens low high (others ++ node.items) := by
  refine h.wrap ?_ ?_ ?_ ?_ hothers (fun item hitem => ⟨hbehind item hitem, ?_⟩) hnames <;> rw [hspans]
  · exact List.forall_mem_nil _
  · exact .nil
  · exact List.forall_mem_nil _
  · exact List.forall_mem_nil _
  · exact List.forall_mem_nil _

/-- An expression as a statement, whose span goes from where the expression begins up to all that was
read. -/
theorem wrap_exprStmt {expr : Expr} {id : NodeId}
    (h : Laid tokens low high (others ++ (TreeNode.expr expr).items))
    (hhigh : ∃ token ∈ tokens, token.kind ≠ .eof ∧ token.span.stop = high) :
    Laid tokens low high
      (others ++ (TreeNode.stmt ⟨id, .expr expr, ⟨expr.span.start, high⟩⟩).items) := by
  have hmem : Item.construct (.expr expr) ∈ others ++ (TreeNode.expr expr).items :=
    List.mem_append_right _ (List.mem_singleton_self _)
  have hsound : (TreeNode.expr expr).Sound tokens :=
    (h.sound _ hmem).constructs _ (List.mem_singleton_self _)
  have hspan : (TreeNode.expr expr).HasSpan expr.span := .of_expr (.here _)
  have hcovers := hsound.covers hspan
  have hinside := (h.inside _ hmem).constructs _ (List.mem_singleton_self _) _ hspan
  have hpieces : Laid tokens low high
      (others ++ (TreeNode.stmt ⟨id, .expr expr, ⟨expr.span.start, high⟩⟩).pieces) := h
  refine hpieces.wrap (List.forall_mem_singleton.mpr ⟨Nat.lt_of_lt_of_le hcovers.lt hinside.2, hcovers.start, hhigh⟩)
    (List.pairwise_singleton _ _) (List.forall_mem_singleton.mpr <| List.forall_mem_singleton.mpr
      ⟨List.forall_mem_nil _, List.forall_mem_singleton.mpr fun span hspan => ?_, nofun⟩)
    (List.forall_mem_singleton.mpr ⟨hinside.1, Nat.le_refl _⟩) (.inl rfl) (List.forall_mem_nil _)
    (List.forall_mem_nil _)
  exact (hsound.within_span rfl hspan).trans ⟨Nat.le_refl _, hinside.2⟩

/-- An annotation whose arguments were read goes around them. -/
theorem wrap_use {use : AnnotationUse} (h : Laid tokens low high (use.values.flatMap fun value =>
      (TreeNode.expr value).items)) (hspan : use.span = ⟨low, high⟩)
    (hcovers : Span.Covers tokens ⟨low, high⟩) : Laid tokens low high use.items := by
  have hconstructs : (Item.annotated use).constructs = use.values.map .expr := rfl
  have hitem {node : TreeNode} (hnode : node ∈ (Item.annotated use).constructs) :
      Item.construct node ∈ use.values.flatMap fun value => (TreeNode.expr value).items := by
    obtain ⟨value, hvalue, rfl⟩ := List.mem_map.mp hnode
    exact List.mem_flatMap.mpr ⟨value, hvalue, List.mem_singleton_self _⟩
  have hinside : ∀ node ∈ (Item.annotated use).constructs, ∀ span, node.HasSpan span →
      span.Within ⟨low, high⟩ :=
    fun node hnode => (h.inside _ (hitem hnode)).constructs node (List.mem_singleton_self _)
  refine ⟨List.forall_mem_singleton.mpr ⟨fun node hnode => ?_, ?_, ?_, ?_⟩,
    List.forall_mem_singleton.mpr ⟨?_, hinside, nofun⟩, List.pairwise_singleton _ _⟩
  · exact (h.sound _ (hitem hnode)).constructs node (List.mem_singleton_self _)
  · rw [hconstructs, List.pairwise_map]
    exact (List.pairwise_flatMap.mp h.apart).2.imp fun hvalues =>
      hvalues _ (List.mem_singleton_self _) _ (List.mem_singleton_self _) _
        (List.mem_singleton_self _) _ (List.mem_singleton_self _)
  · exact List.forall_mem_singleton.mpr (hspan ▸ hcovers)
  · exact List.forall_mem_singleton.mpr (hspan ▸ hinside)
  · exact List.forall_mem_singleton.mpr (hspan ▸ .refl _)

/-- A method as the member that it is; its span as a member may go around its span as a method. -/
theorem wrap_method {decl : MethodDecl} {id id' : NodeId}
    (h : Laid tokens low high (TreeNode.member ⟨id, .method decl, decl.span⟩).items)
    (hcovers : Span.Covers tokens ⟨low, high⟩) :
    Laid tokens low high (TreeNode.member ⟨id', .method decl, ⟨low, high⟩⟩).items := by
  obtain ⟨hsound, hinside, -⟩ := h
  have hsound := (List.forall_mem_singleton.mp hsound).constructs _ (List.mem_singleton_self _)
  have hspanned := hsound [] _ (.here _)
  have hdecl : decl.span ∈ [decl.span, decl.span] := List.mem_cons_self
  have hwithin : decl.span.Within ⟨low, high⟩ :=
    (List.forall_mem_singleton.mp hinside).constructs _ (List.mem_singleton_self _) _ (.of_mem hdecl)
  have hparts {span : Span} (hspan : ∃ part ∈ (MemberKind.method decl).parts, part.node.HasSpan span) :
      span.Within decl.span := by
    obtain ⟨part, hpart, hspan⟩ := hspan
    exact hspanned.nests _ hdecl part hpart span hspan
  have hspans : ∀ span ∈ [⟨low, high⟩, decl.span], decl.span.Within span :=
    List.forall_mem_cons.mpr ⟨hwithin, List.forall_mem_singleton.mpr (.refl _)⟩
  have hmember : (TreeNode.member ⟨id', .method decl, ⟨low, high⟩⟩).Spanned tokens := by
    refine ⟨?_, ?_, fun span hspan part hpart inner hinner => ?_, fun use huse => ?_, hspanned.apart,
      fun span hspan part hpart body hbody inner hinner => ?_, nofun, List.forall_mem_nil _⟩
    · exact List.forall_mem_cons.mpr ⟨hcovers, List.forall_mem_singleton.mpr
        (hspanned.covers _ hdecl)⟩
    · exact List.pairwise_pair.mpr hwithin
    · exact (hparts ⟨part, hpart, hinner⟩).trans (hspans span hspan)
    · obtain ⟨huseCovers, huseWithin, hvalues⟩ := hspanned.annotated use huse
      exact ⟨huseCovers, fun span hspan => (huseWithin _ hdecl).trans (hspans span hspan), hvalues⟩
    · exact Nat.lt_of_le_of_lt (hspans span hspan).1
        (hspanned.lambda _ hdecl part hpart body hbody inner hinner)
  refine ⟨List.forall_mem_singleton.mpr ⟨List.forall_mem_singleton.mpr ?_,
    List.pairwise_singleton _ _, List.forall_mem_nil _, List.forall_mem_nil _⟩,
    List.forall_mem_singleton.mpr ⟨List.forall_mem_nil _,
      List.forall_mem_singleton.mpr fun span hspan => ?_, nofun⟩, List.pairwise_singleton _ _⟩
  · exact .of_parts hmember fun part hpart => hsound.of_mem_parts hpart
  · rcases TreeNode.hasSpan_iff.mp hspan with hspan | hspan
    · rcases List.mem_cons.mp hspan with rfl | hspan
      · exact .refl _
      · rw [List.mem_singleton.mp hspan]
        exact hwithin
    · exact (hparts hspan).trans hwithin

end Laid

/-! ### Units -/

/-- In parts that do not meet, expressions are apart unless one of them stands inside of the other. -/
theorem Part.apart_of_not_prefix {tokens : List Token} {parts : List Part}
    (hsound : ∀ part ∈ parts, part.node.Sound tokens)
    (hapart : parts.Pairwise fun first second => first.node.Apart second.node)
    {path path' : List PathStep} {expr expr' : Expr} (h : HasAt parts path (.expr expr))
    (h' : HasAt parts path' (.expr expr')) (hnot : ¬path <+: path') (hnot' : ¬path' <+: path) :
    expr.span.Apart expr'.span := by
  induction path generalizing parts path' with
  | nil => exact h.elim
  | cons step rest ih =>
  cases path' with
  | nil => exact h'.elim
  | cons step' rest' =>
  obtain ⟨child, hchild, hwithin⟩ := h
  obtain ⟨child', hchild', hwithin'⟩ := h'
  by_cases heq : step.index = step'.index
  · obtain ⟨rfl, rfl⟩ := PathStep.eq_of_index_eq hchild hchild' heq
    rw [List.prefix_cons_inj] at hnot hnot'
    have hchildSound := hsound _ (List.mem_of_getElem? hchild)
    cases hwithin with
    | here => exact absurd (List.nil_prefix) hnot
    | @part _ _ _ inside after hpart hinner =>
    cases hwithin' with
    | here => exact absurd (List.nil_prefix) hnot'
    | @part _ _ _ inside' after' hpart' hinner' =>
        have hfirst : HasAt child.parts (inside :: after) (.expr expr) := ⟨_, hpart, hinner⟩
        have hsecond : HasAt child.parts (inside' :: after') (.expr expr') := ⟨_, hpart', hinner'⟩
        exact ih (fun part hmem => hchildSound.of_mem_parts hmem)
          (hchildSound [] child (.here child)).apart hfirst hsecond hnot hnot'
  · exact rel_of_index_ne hapart TreeNode.Apart.symm hchild hchild' heq _ _ _ _ hwithin hwithin'

/-- The spans in a unit nest as its constructs do, and each covers whole tokens. -/
structure CompilationUnit.SpansNest (tokens : List Token) (unit : CompilationUnit) : Prop where
  covers : ∀ path node, unit.HasAt path node → ∀ span ∈ node.ownSpans, span.Covers tokens
  own : ∀ path node, unit.HasAt path node →
    node.ownSpans.Pairwise fun outer inner => inner.Within outer
  nests : ∀ path node step path' inner, unit.HasAt path node → Within node (step :: path') inner →
    ∀ outer ∈ node.ownSpans, ∀ span ∈ inner.ownSpans, span.Within outer
  annotated : ∀ path node, unit.HasAt path node → ∀ use ∈ node.annotations,
    use.span.Covers tokens ∧ (∀ span ∈ node.ownSpans, use.span.Within span) ∧
      ∀ value ∈ use.values, value.span.Within use.span
  apart : ∀ path path' expr expr', unit.HasAt path (.expr expr) → unit.HasAt path' (.expr expr') →
    ¬path <+: path' → ¬path' <+: path → expr.span.Apart expr'.span

/-- What is in a unit is spanned as it should be if its classes are laid out. -/
theorem Laid.spanned {tokens : List Token} {low high : Nat} {unit : CompilationUnit}
    (h : Laid tokens low high (TreeNode.itemsOf unit.parts)) {path : List PathStep} {node : TreeNode}
    (hnode : unit.HasAt path node) : node.Spanned tokens := by
  cases path with
  | nil => exact hnode.elim
  | cons step rest =>
      obtain ⟨child, hchild, hwithin⟩ := hnode
      have hitem : Item.construct child ∈ TreeNode.itemsOf unit.parts :=
        List.mem_flatMap.mpr ⟨_, List.mem_of_getElem? hchild, List.mem_singleton_self _⟩
      exact (h.sound _ hitem).constructs _ (List.mem_singleton_self _) _ _ hwithin

/-- The spans of a unit nest if its classes are laid out. -/
theorem Laid.spansNest {tokens : List Token} {low high : Nat} {unit : CompilationUnit}
    (h : Laid tokens low high (TreeNode.itemsOf unit.parts)) :
    unit.SpansNest tokens := by
  have hsound : ∀ part ∈ unit.parts, part.node.Sound tokens := by
    intro part hpart
    have hitem : Item.construct part.node ∈ TreeNode.itemsOf unit.parts :=
      List.mem_flatMap.mpr ⟨part, hpart, List.mem_singleton_self _⟩
    exact (h.sound _ hitem).constructs _ (List.mem_singleton_self _)
  have hapart : unit.parts.Pairwise fun first second => first.node.Apart second.node :=
    (List.pairwise_flatMap.mp h.apart).2.imp fun hitems =>
      hitems _ (List.mem_singleton_self _) _ (List.mem_singleton_self _) _
        (List.mem_singleton_self _) _ (List.mem_singleton_self _)
  refine ⟨fun path node hnode => (h.spanned hnode).covers, fun path node hnode => (h.spanned hnode).own,
    fun path node step path' inner hnode hinner outer houter span hspan => ?_,
    fun path node hnode => (h.spanned hnode).annotated,
    fun path path' expr expr' hfirst hsecond => Part.apart_of_not_prefix hsound hapart hfirst hsecond⟩
  cases hinner with
  | part hpart hinner =>
      exact (h.spanned hnode).nests outer houter _ (List.mem_of_getElem? hpart) span
        ⟨path', inner, hinner, hspan⟩

end LockDiscipline
