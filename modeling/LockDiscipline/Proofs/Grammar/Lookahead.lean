import LockDiscipline.Proofs.Grammar.DeclarationProgress
/-!
# Types that are scanned as they are read

Before a declaration of local variables or a cast is read, the types at its head are scanned. The scan has no
structure inside of angle brackets: it only counts them, and lets pass whatever tokens may stand in type
arguments. All the same it ends where the type ends that is read there, as long as that has no annotations, for
which the scan does not provide. So what is asked of the tokens behind a type is asked of the right ones.

A reader is described by how the tokens ahead of it are related to those behind it. What lies between them is
nested to any depth; inside of type arguments all that matters is that a scan goes on behind it with as many open
brackets as before. Nothing is said of types that are scanned but cannot be read.
-/

namespace LockDiscipline.Grammar

/-! ### The scan -/

/-- A scan inside of type arguments may go on behind: as many angle brackets are open there as before. -/
def Skips (ahead behind : List Token) : Prop :=
  ∀ depth, 1 ≤ depth → scanTypeArgs depth ahead = scanTypeArgs depth behind

/-- A token of a kind lies ahead, and what is behind it. -/
def Takes (kind : TokenKind) (ahead behind : List Token) : Prop :=
  ∃ token, token.kind = kind ∧ ahead = token :: behind

theorem Skips.refl (tokens : List Token) : Skips tokens tokens :=
  fun _ _ => rfl

theorem Skips.trans {ahead middle behind : List Token} (hfirst : Skips ahead middle) (hsecond : Skips middle behind) :
    Skips ahead behind :=
  fun depth hinside => (hfirst depth hinside).trans (hsecond depth hinside)

namespace Takes

variable {kind : TokenKind} {ahead inner after behind : List Token}

theorem headKind_eq (htakes : Takes kind ahead behind) : headKind ahead = kind := by
  obtain ⟨token, hsame, rfl⟩ := htakes
  exact hsame

theorem drop_eq (htakes : Takes kind ahead behind) : ahead.drop 1 = behind := by
  obtain ⟨token, -, rfl⟩ := htakes
  rfl

/-- Tokens that may stand in type arguments are skipped. -/
theorem skips (htakes : Takes kind ahead behind) (hinArgs : isTypeArgumentToken kind) : Skips ahead behind := by
  obtain ⟨token, rfl, rfl⟩ := htakes
  have hnoOpen : token.kind ≠ .symbol .less := by
    intro hsame
    rw [hsame] at hinArgs
    exact absurd hinArgs (by decide)
  have hnoClose : token.kind ≠ .symbol .greater := by
    intro hsame
    rw [hsame] at hinArgs
    exact absurd hinArgs (by decide)
  intro depth _
  rw [scanTypeArgs, if_neg hnoOpen, if_neg hnoClose, if_pos hinArgs]

/-- Type arguments, as a scan sees them: it ends behind them, or goes on there inside of others. -/
theorem args (hopens : Takes (.symbol .less) ahead inner) (hwithin : Skips inner after)
    (hcloses : Takes (.symbol .greater) after behind) :
    scanTypeArgs 0 ahead = some behind ∧ Skips ahead behind := by
  obtain ⟨first, hisOpen, rfl⟩ := hopens
  obtain ⟨last, hisClose, rfl⟩ := hcloses
  have hnotOpen : last.kind ≠ .symbol .less := by
    rw [hisClose]
    decide
  refine ⟨?_, fun depth hinside => ?_⟩
  · rw [scanTypeArgs, if_pos hisOpen, hwithin 1 (Nat.le_refl 1), scanTypeArgs, if_neg hnotOpen, if_pos hisClose,
      if_pos (Nat.le_refl 1)]
  · rw [scanTypeArgs, if_pos hisOpen, hwithin (depth + 1) (Nat.le_add_left 1 depth), scanTypeArgs, if_neg hnotOpen,
      if_pos hisClose, if_neg (by omega), Nat.add_sub_cancel]

end Takes

/-- The tokens behind the type arguments that may lie ahead. -/
def scanArgs? (tokens : List Token) : Option (List Token) :=
  if headKind tokens = .symbol .less then scanTypeArgs 0 tokens else some tokens

/-- A chain of names with type arguments lies ahead: a scan ends behind it, if its bound allows for as many names
as there are tokens. -/
def NameAhead (ahead behind : List Token) : Prop :=
  ∀ bound, ahead.length < bound → scanTypeSegments bound ahead = some behind

/-- A name with its type arguments is scanned, and then the names behind a dot. -/
theorem scanTypeSegments_succ {name : String} {ahead rest after : List Token} (htakes : Takes (.ident name) ahead rest)
    (hargs : scanArgs? rest = some after) (bound : Nat) : scanTypeSegments (bound + 1) ahead =
      if headKind after = .symbol .dot ∧ (kindAt 1 after).isIdent then scanTypeSegments bound (after.drop 1)
      else some after := by
  obtain ⟨token, hisName, rfl⟩ := htakes
  have hident : token.kind.isIdent := by
    rw [hisName]
    rfl
  rw [scanArgs?] at hargs
  simp only [scanTypeSegments, if_pos hident, hargs]

/-! ### Readers, as relations of what is ahead and what is behind -/

/-- There is no sign of an annotation among tokens. -/
def Unannotated (tokens : List Token) : Prop :=
  ∀ token ∈ tokens, token.kind ≠ .symbol .at

instance (tokens : List Token) : Decidable (Unannotated tokens) :=
  List.decidableBAll (fun token : Token => token.kind ≠ .symbol .at) tokens

theorem Unannotated.of_append {tokens read rest : List Token} (hplain : Unannotated tokens)
    (hwhole : tokens = read ++ rest) : Unannotated read :=
  fun token hpresent => hplain token (hwhole ▸ List.mem_append_left rest hpresent)

/-- Where a reader succeeds, it has read tokens. Unless an annotation is among them, what is ahead of the reader
and what is behind it are related, for its value. -/
def Scans {α : Type} (relation : α → List Token → List Token → Prop) (reader : Reader α) : Prop :=
  ∀ cursor value after, reader.run cursor = .ok value after →
    ∃ read, cursor.rest = read ++ after.rest ∧ (Unannotated read → relation value cursor.rest after.rest)

variable {α β : Type} {kind : TokenKind}

namespace Scans

variable {relation relation' : α → List Token → List Token → Prop}
  {relation'' : β → List Token → List Token → Prop} {reader : Reader α} {next : α → Reader β}

theorem weaken (hscans : Scans relation reader)
    (hweaker : ∀ value ahead behind, relation value ahead behind → relation' value ahead behind) :
    Scans relation' reader := by
  intro cursor value after hrun
  obtain ⟨read, hwhole, hrelated⟩ := hscans cursor value after hrun
  exact ⟨read, hwhole, fun hplain => hweaker _ _ _ (hrelated hplain)⟩

theorem bind {following : α → β → List Token → List Token → Prop} (hfirst : Scans relation reader)
    (hsecond : ∀ value, Scans (following value) (next value))
    (hjoin : ∀ value result ahead middle behind, relation value ahead middle →
      following value result middle behind → relation'' result ahead behind) :
    Scans relation'' (reader >>= next) := by
  intro cursor result after hrun
  rw [EStateM.run_bind] at hrun
  cases hearly : reader.run cursor with
  | error error middle =>
      rw [hearly] at hrun
      cases hrun
  | ok value middle =>
      rw [hearly] at hrun
      obtain ⟨read, hwhole, hrelated⟩ := hfirst cursor value middle hearly
      obtain ⟨read', hwhole', hrelated'⟩ := hsecond value middle result after hrun
      refine ⟨read ++ read', by rw [hwhole, hwhole', List.append_assoc], fun hplain => ?_⟩
      obtain ⟨hplainFirst, hplainSecond⟩ := List.forall_mem_append.mp hplain
      exact hjoin _ _ _ _ _ (hrelated hplainFirst) (hrelated' hplainSecond)

theorem pure {value : α} (hsame : ∀ tokens, relation value tokens tokens) : Scans relation (Pure.pure value) := by
  intro cursor value' after hrun
  cases hrun
  exact ⟨[], rfl, fun _ => hsame _⟩

theorem map {transform : α → β} (hscans : Scans relation reader)
    (hmaps : ∀ value ahead behind, relation value ahead behind → relation'' (transform value) ahead behind) :
    Scans relation'' (reader >>= fun value => Pure.pure (transform value)) := by
  have hreturned (value : α) : Scans (fun result ahead behind => result = transform value ∧ behind = ahead)
      (Pure.pure (transform value)) := pure fun _ => ⟨rfl, rfl⟩
  refine hscans.bind hreturned fun value result ahead middle behind hrelated hsame => ?_
  obtain ⟨rfl, rfl⟩ := hsame
  exact hmaps value ahead behind hrelated

theorem failTooDeep : Scans relation Grammar.failTooDeep :=
  fun _ _ _ hrun => nomatch hrun

theorem failExpected (expected : Expectation) : Scans relation (Grammar.failExpected expected) :=
  fun _ _ _ hrun => nomatch hrun

theorem ite {condition : Prop} [Decidable condition] {first second : Reader α}
    (hwhenTrue : condition → Scans relation first) (hwhenFalse : ¬condition → Scans relation second) :
    Scans relation (if condition then first else second) := by
  split
  · exact hwhenTrue ‹_›
  · exact hwhenFalse ‹_›

/-- What is behind a reader was ahead of it. -/
theorem suffix (hscans : Scans relation reader) :
    Scans (fun value ahead behind => relation value ahead behind ∧ behind <:+ ahead) reader := by
  intro cursor value after hrun
  obtain ⟨read, hwhole, hrelated⟩ := hscans cursor value after hrun
  exact ⟨read, hwhole, fun hplain => ⟨hrelated hplain, read, hwhole.symm⟩⟩

/-- A loop relates what is ahead of it and behind it as its steps do, from the last one back to the first. -/
theorem iterate {loop : α → α → List Token → List Token → Prop} {step : α → Reader (Option α)}
    (hsteps : ∀ value, Scans (fun result ahead middle =>
      match result with
      | none => loop value value ahead middle
      | some next => ∀ last behind, loop next last middle behind → loop value last ahead behind) (step value))
    (value : α) : Scans (loop value) (Grammar.iterate step value) := by
  have hbounded (bound : Nat) (value : α) : Scans (loop value) (iterateUpTo step bound value) := by
    induction bound generalizing value with
    | zero => exact failTooDeep
    | succ bound ih =>
        intro cursor last after hrun
        rw [iterateUpTo, EStateM.run_bind] at hrun
        cases hearly : (step value).run cursor with
        | error error middle =>
            rw [hearly] at hrun
            cases hrun
        | ok result middle =>
            rw [hearly] at hrun
            obtain ⟨read, hwhole, hrelated⟩ := hsteps value cursor result middle hearly
            cases result with
            | none =>
                cases hrun
                exact ⟨read, hwhole, hrelated⟩
            | some next =>
                obtain ⟨read', hwhole', hrelated'⟩ := ih next middle last after hrun
                refine ⟨read ++ read', by rw [hwhole, hwhole', List.append_assoc], fun hplain => ?_⟩
                obtain ⟨hplainFirst, hplainSecond⟩ := List.forall_mem_append.mp hplain
                exact hrelated hplainFirst last after.rest (hrelated' hplainSecond)
  exact fun cursor => hbounded _ value cursor

end Scans

/-- What a reader sees of the tokens ahead holds where the next one begins. -/
theorem Scans.look {shows : List Token → α → Prop} {relation : β → List Token → List Token → Prop}
    {reader : Reader α} {next : α → Reader β} (hlooks : Looks shows reader)
    (hsecond : ∀ value, Scans (fun result ahead behind => shows ahead value → relation result ahead behind)
      (next value)) : Scans relation (reader >>= next) := by
  intro cursor result after hrun
  obtain ⟨value, hsame, hshown⟩ := hlooks cursor
  rw [EStateM.run_bind, hsame] at hrun
  obtain ⟨read, hwhole, hrelated⟩ := hsecond value cursor result after hrun
  exact ⟨read, hwhole, fun hplain => hrelated hplain hshown⟩

theorem takes_advance {cursor : Cursor} (here : headKind cursor.rest = kind) (hinFile : kind ≠ .eof) :
    Takes kind cursor.rest cursor.advance.rest := by
  rw [Cursor.advance]
  cases hrest : cursor.rest with
  | nil => exact absurd (here.symm.trans (by rw [hrest]; rfl)) hinFile
  | cons token behind =>
      rw [hrest] at here
      have hgoesOn : token.kind ≠ .eof := fun hends => hinFile (here.symm.trans hends)
      dsimp only
      rw [if_neg hgoesOn]
      exact ⟨token, here, rfl⟩

theorem exists_read_of_takes {ahead behind : List Token} (htakes : Takes kind ahead behind) :
    ∃ read, ahead = read ++ behind := by
  obtain ⟨token, -, rfl⟩ := htakes
  exact ⟨[token], rfl⟩

/-- What moving over the next token does where the file does not end. -/
theorem scans_advance : Scans (fun _ ahead behind => headKind ahead ≠ .eof → Takes (headKind ahead) ahead behind)
    advance := by
  intro cursor value after hrun
  cases hrun
  obtain ⟨read, hwhole, -⟩ := (Forward.advance cursor).read
  exact ⟨read, hwhole, fun _ hinFile => takes_advance rfl hinFile⟩

theorem Accepts.scans {reader : Reader Bool} (haccepts : Accepts kind reader) (hinFile : kind ≠ .eof) :
    Scans (fun found ahead behind => if found then Takes kind ahead behind
      else headKind ahead ≠ kind ∧ behind = ahead) reader := by
  intro cursor value after hrun
  rw [haccepts cursor] at hrun
  split at hrun
  · next here =>
      cases hrun
      have htakes := takes_advance here hinFile
      obtain ⟨read, hwhole⟩ := exists_read_of_takes htakes
      exact ⟨read, hwhole, fun _ => htakes⟩
  · next hother =>
      cases hrun
      exact ⟨[], rfl, fun _ => ⟨hother, rfl⟩⟩

theorem Expects.scans {reader : Reader α} (hexpects : Expects kind reader) (hinFile : kind ≠ .eof) :
    Scans (fun _ ahead behind => Takes kind ahead behind) reader := by
  intro cursor value after hrun
  by_cases here : headKind cursor.rest = kind
  · obtain ⟨_, hsame⟩ := (hexpects cursor).1 here
    rw [hsame] at hrun
    cases hrun
    have htakes := takes_advance here hinFile
    obtain ⟨read, hwhole⟩ := exists_read_of_takes htakes
    exact ⟨read, hwhole, fun _ => htakes⟩
  · obtain ⟨_, _, hsame⟩ := (hexpects cursor).2 here
    rw [hsame] at hrun
    cases hrun

theorem scans_expectName : Scans (fun name ahead behind => Takes (.ident name) ahead behind) expectName := by
  refine .look looks_currentKind fun kind => ?_
  split
  · next name =>
    refine scans_advance.map fun _ ahead behind hmoved here => ?_
    exact here ▸ hmoved (by rw [here]; nofun)
  · exact .failExpected _

/-- A reader that goes forward reads an annotation where the sign of one lies ahead, if it reads anything. -/
theorem Passes.scans {level : Nat} {reader : Reader α} (hpasses : Passes none level reader) :
    Scans (fun _ ahead behind => headKind ahead = .symbol .at → behind = ahead) reader := by
  intro cursor value after hrun
  have houtcome := @hpasses Anywhere ⟨level, 0⟩ (Nat.le_refl _) cursor trivial (suffices_none _)
  rw [hrun] at houtcome
  obtain ⟨read, hwhole, -⟩ := (Accounts.forward houtcome).read
  refine ⟨read, hwhole, fun hplain hsign => ?_⟩
  cases read with
  | nil => exact hwhole.symm
  | cons token rest =>
      rw [hwhole] at hsign
      exact absurd hsign (hplain token List.mem_cons_self)

namespace Scans

theorem collect {loop : List Token → List Token → Prop} {step : Reader (Option α)}
    (hsteps : Scans (fun result ahead middle =>
      result.elim (loop ahead middle) fun _ => ∀ behind, loop middle behind → loop ahead behind) step) :
    Scans (fun _ => loop) (Grammar.collect step) := by
  refine (@iterate _ (fun _ _ => loop) (collectStep step) (fun values => ?_) []).map fun _ _ _ hrelated => hrelated
  refine hsteps.bind (fun result => (?returned : Scans (fun next ahead behind =>
    next.isSome = result.isSome ∧ behind = ahead) _)) fun result next ahead middle behind hrelated hsame => ?related
  case returned => cases result <;> exact pure fun _ => ⟨rfl, rfl⟩
  case related =>
    obtain ⟨hsame, rfl⟩ := hsame
    cases result with
    | none =>
        cases next with
        | none => exact hrelated
        | some more => cases hsame
    | some value =>
        cases next with
        | none => cases hsame
        | some more => exact fun _ => hrelated

/-- Items with a symbol between them. -/
theorem separated {separator : Symbol} {item : Reader α} {relation more : List Token → List Token → Prop}
    (hitems : Scans (fun _ => relation) item)
    (hends : ∀ tokens, headKind tokens ≠ .symbol separator → more tokens tokens)
    (hgoesOn : ∀ ahead first second behind, Takes (.symbol separator) ahead first → relation first second →
      more second behind → more ahead behind) :
    Scans (fun _ ahead behind => ∃ middle, relation ahead middle ∧ more middle behind)
      (Grammar.separated separator item) := by
  refine hitems.bind (fun first => ?_) fun _ _ _ middle _ hfirst hothers => ⟨middle, hfirst, hothers⟩
  refine (collect ?_).map fun _ _ _ hrelated => hrelated
  have hfurther (found : Bool) : Scans (fun result ahead middle => if found then result.isSome ∧ relation ahead middle
      else result = none ∧ middle = ahead) (do if found then return some (← item) else return none) := by
    refine ite (fun hisFound => ?_) fun hnotFound => ?_
    · exact hitems.map fun _ _ _ hrelated => by rw [if_pos hisFound]; exact ⟨rfl, hrelated⟩
    · exact pure fun _ => by rw [if_neg hnotFound]; exact ⟨rfl, rfl⟩
  refine ((accepts_acceptSymbol separator).scans nofun).bind hfurther ?_
  intro found result ahead first second htaken hnext
  cases found with
  | true =>
      obtain ⟨hpresent, hrelated⟩ := hnext
      obtain ⟨value, rfl⟩ := Option.isSome_iff_exists.mp hpresent
      exact fun behind hlater => hgoesOn _ _ _ _ htaken hrelated hlater
  | false =>
      obtain ⟨rfl, rfl⟩ := hnext
      obtain ⟨hother, rfl⟩ := htaken
      exact hends _ hother

end Scans

/-! ### Inside of type arguments -/

/-- A token that may stand in type arguments is skipped where it is accepted. -/
theorem skips_accepts {reader : Reader Bool} (haccepts : Accepts kind reader) (hinArgs : isTypeArgumentToken kind) :
    Scans (fun _ => Skips) reader := by
  have hinFile : kind ≠ .eof := by
    rintro rfl
    cases hinArgs
  refine (haccepts.scans hinFile).weaken fun found ahead behind htaken => ?_
  cases found with
  | true => exact Takes.skips htaken hinArgs
  | false =>
      obtain ⟨-, rfl⟩ := htaken
      exact .refl _

theorem Scans.skips_bind {reader : Reader α} {next : α → Reader β} (hfirst : Scans (fun _ => Skips) reader)
    (hsecond : ∀ value, Scans (fun _ => Skips) (next value)) : Scans (fun _ => Skips) (reader >>= next) :=
  hfirst.bind hsecond fun _ _ _ _ _ => .trans

section Types

variable {rules : Rules}

/-- A type lies ahead: a scan ends behind it, and inside of type arguments it goes on there. -/
structure TypeAhead (ahead behind : List Token) : Prop where
  scanned : scanType ahead = some behind
  skips : Skips ahead behind

theorem scans_skipAnnotations (hconsuming : rules.Consuming none) :
    Scans (fun _ ahead behind => behind = ahead) (skipAnnotations rules) := by
  refine (Scans.collect ?_).map fun _ _ _ hrelated => hrelated
  refine .look (looks_atSymbol .at) fun found => .ite (fun hisFound => ?_) fun _ => .pure fun _ _ => rfl
  refine (hconsuming .annotationUse).passes.scans.map fun _ ahead middle hstays hsign behind hsame => ?_
  exact hsame.trans (hstays (beq_iff_eq.mp (hsign.trans hisFound)))

theorem skips_readTypeArg (htypes : Scans (fun _ => TypeAhead) (rules _ .type)) :
    Scans (fun _ => Skips) (readTypeArg rules) := by
  have hskipped : Scans (fun _ => Skips) (rules _ .type) := htypes.weaken fun _ _ _ => TypeAhead.skips
  have hbounded (word : String) : Scans (fun _ => Skips) (do return word ++ (← rules _ .type)) :=
    hskipped.map fun _ _ _ hskips => hskips
  refine (skips_accepts (accepts_acceptSymbol .question) rfl).skips_bind fun wildcard => .ite (fun _ => ?_) fun _ => ?_
  · refine (skips_accepts (accepts_acceptKeyword .extends) rfl).skips_bind fun upper => .ite (fun _ => ?_) fun _ => ?_
    · exact hbounded _
    · refine (skips_accepts (accepts_acceptKeyword .super) rfl).skips_bind fun lower => .ite (fun _ => ?_) fun _ => ?_
      · exact hbounded _
      · exact .pure .refl
  · exact hskipped

/-- Type arguments lie ahead: a scan ends behind them, and inside of others it goes on there. -/
structure ArgsAhead (ahead behind : List Token) : Prop where
  scanned : scanTypeArgs 0 ahead = some behind
  skips : Skips ahead behind

/-- Between its brackets a list of type arguments is skipped, up to the closing bracket. -/
theorem scans_insideTypeArgs (htypes : Scans (fun _ => TypeAhead) (rules _ .type)) :
    Scans (fun _ ahead behind => ∃ after, Skips ahead after ∧ Takes (.symbol .greater) after behind) (do
      if ← acceptSymbol .greater then return "<>"
      let args ← separated .comma (readTypeArg rules)
      let _ ← expectSymbol .greater
      return "<" ++ Text.join "," args ++ ">") := by
  have hargs : Scans (fun _ ahead behind => ∃ middle, Skips ahead middle ∧ Skips middle behind)
      (separated .comma (readTypeArg rules)) :=
    (skips_readTypeArg htypes).separated (fun _ _ => .refl _) fun _ _ _ _ hcomma hfirst hothers =>
      (hcomma.skips rfl).trans (hfirst.trans hothers)
  have hclosed (text : String) : Scans (fun _ => Takes (.symbol .greater)) (do
      let _ ← expectSymbol .greater
      return text) := ((expects_expectSymbol .greater).scans nofun).map fun _ _ _ htakes => htakes
  -- What is left between the brackets, if the closing one is not there at once.
  have hcontent (empty : Bool) : Scans (fun _ ahead behind => if empty then behind = ahead
      else ∃ after, Skips ahead after ∧ Takes (.symbol .greater) after behind) (do
        if empty then return "<>"
        let args ← separated .comma (readTypeArg rules)
        let _ ← expectSymbol .greater
        return "<" ++ Text.join "," args ++ ">") := by
    refine .ite (fun hisEmpty => .pure fun _ => by rw [if_pos hisEmpty]) fun hnotEmpty => ?_
    refine hargs.bind (fun _ => hclosed _) fun _ _ _ after _ ⟨_, hfirst, hothers⟩ htakes => ?_
    rw [if_neg hnotEmpty]
    exact ⟨after, hfirst.trans hothers, htakes⟩
  refine ((accepts_acceptSymbol .greater).scans nofun).bind hcontent fun empty _ ahead middle behind htaken hleft => ?_
  cases empty with
  | true =>
      obtain rfl := hleft
      exact ⟨ahead, .refl _, htaken⟩
  | false =>
      obtain ⟨-, rfl⟩ := htaken
      exact hleft

theorem scans_readTypeArgs (htypes : Scans (fun _ => TypeAhead) (rules _ .type)) :
    Scans (fun _ => ArgsAhead) (readTypeArgs rules) := by
  refine ((expects_expectSymbol .less).scans nofun).bind (fun _ => scans_insideTypeArgs htypes) ?_
  rintro _ _ ahead _ behind hopens ⟨_, hwithin, hcloses⟩
  obtain ⟨hscanned, hskips⟩ := hopens.args hwithin hcloses
  exact ⟨hscanned, hskips⟩

/-! ### The readers of types -/

/-- What is read behind a name with its type arguments: the dot, if another name follows it. The loop goes on
then. -/
def NameGoesOn (more : Bool) (after middle : List Token) : Prop :=
  Skips after middle ∧
    if headKind after = .symbol .dot ∧ (kindAt 1 after).isIdent then more = true ∧ middle = after.drop 1
    else more = false ∧ middle = after

/-- What a loop over the names of a type reads from a state that tells whether there are more. -/
def NamesAhead (more : Bool) (ahead behind : List Token) : Prop :=
  if more then NameAhead ahead behind ∧ Skips ahead behind else behind = ahead

theorem namesAhead_of_goesOn {name : String} {more : Bool} {ahead rest after middle behind : List Token}
    (htakes : Takes (.ident name) ahead rest) (hargs : scanArgs? rest = some after) (hskips : Skips rest after)
    (hfewer : after <:+ rest) (hgoesOn : NameGoesOn more after middle) (hlater : NamesAhead more middle behind) :
    NamesAhead true ahead behind := by
  obtain ⟨hdot, hstep⟩ := hgoesOn
  have hwithin : Skips ahead middle := (htakes.skips rfl).trans (hskips.trans hdot)
  have hscanned := scanTypeSegments_succ htakes hargs
  have hshorter : (after.drop 1).length + 1 ≤ ahead.length := by
    obtain ⟨token, -, rfl⟩ := htakes
    exact Nat.succ_le_succ (Nat.le_trans (List.drop_sublist 1 after).length_le hfewer.length_le)
  split at hstep
  · next hanother =>
    obtain ⟨rfl, rfl⟩ := hstep
    obtain ⟨hnames, hothers⟩ := hlater
    refine ⟨fun bound henough => ?_, hwithin.trans hothers⟩
    obtain ⟨bound, rfl⟩ : ∃ lower, bound = lower + 1 := Nat.exists_eq_succ_of_ne_zero (by omega)
    rw [hscanned, if_pos hanother, hnames bound (by omega)]
  · next hlast =>
    obtain ⟨rfl, rfl⟩ := hstep
    obtain rfl : behind = middle := hlater
    refine ⟨fun bound henough => ?_, hwithin⟩
    obtain ⟨bound, rfl⟩ : ∃ lower, bound = lower + 1 := Nat.exists_eq_succ_of_ne_zero (by omega)
    rw [hscanned, if_neg hlast]

theorem scans_dot (text : String) : Scans (fun result after middle => ∃ state : String × Bool,
    result = some state ∧ NameGoesOn state.2 after middle) (do
      if (← atSymbol .dot) && (← peek 1).isIdent then
        advance
        return some (text ++ ".", true)
      else return some (text, false)) := by
  refine .look (looks_atSymbol .dot) fun dot => .look (looks_peek 1) fun next =>
    .ite (fun hisName => ?_) fun hnoName => ?_
  · obtain ⟨hisDot, hisIdent⟩ := Bool.and_eq_true_iff.mp hisName
    refine scans_advance.map fun _ after middle hmoved hfollowed hsign => ⟨_, rfl, ?_⟩
    have here : headKind after = .symbol .dot := beq_iff_eq.mp (hsign.trans hisDot)
    have htakes : Takes (.symbol .dot) after middle := here ▸ hmoved (by rw [here]; nofun)
    refine ⟨htakes.skips rfl, ?_⟩
    rw [if_pos ⟨here, hfollowed ▸ hisIdent⟩]
    exact ⟨rfl, htakes.drop_eq.symm⟩
  · refine .pure fun after hfollowed hsign => ⟨_, rfl, .refl _, ?_⟩
    have hnoDot : ¬(headKind after = .symbol .dot ∧ (kindAt 1 after).isIdent) := by
      rintro ⟨here, hisIdent⟩
      refine hnoName (Bool.and_eq_true_iff.mpr ⟨?_, hfollowed ▸ hisIdent⟩)
      rw [← hsign, here]
      exact beq_self_eq_true _
    rw [if_neg hnoDot]
    exact ⟨rfl, rfl⟩

/-- What is read behind a name: type arguments, if there are any, and a dot, if another name follows it. -/
theorem scans_behindName (htypes : Scans (fun _ => TypeAhead) (rules _ .type)) (text name : String) :
    Scans (fun result rest middle => ∃ state : String × Bool, result = some state ∧
      ∃ after, scanArgs? rest = some after ∧ Skips rest after ∧ after <:+ rest ∧
        NameGoesOn state.2 after middle) (do
        let args ← if ← atSymbol .less then readTypeArgs rules else pure ""
        if (← atSymbol .dot) && (← peek 1).isIdent then
          advance
          return some (text ++ name ++ args ++ ".", true)
        else return some (text ++ name ++ args, false)) := by
  refine .look (looks_atSymbol .less) fun found => .ite (fun hisFound => ?_) fun hnotFound => ?_
  · refine (scans_readTypeArgs htypes).suffix.bind (fun args => scans_dot (text ++ name ++ args)) ?_
    rintro args result rest after middle ⟨⟨hscanned, hskips⟩, hfewer⟩ ⟨state, rfl, hgoesOn⟩ hsign
    refine ⟨state, rfl, after, ?_, hskips, hfewer, hgoesOn⟩
    rw [scanArgs?, if_pos (beq_iff_eq.mp (hsign.trans hisFound)), hscanned]
  · refine (scans_dot (text ++ name ++ "")).weaken ?_
    rintro result rest middle ⟨state, rfl, hgoesOn⟩ hsign
    refine ⟨state, rfl, rest, ?_, .refl _, List.suffix_refl rest, hgoesOn⟩
    rw [scanArgs?, if_neg fun here => hnotFound (hsign.symm.trans (beq_iff_eq.mpr here))]

theorem scans_readTypeName (htypes : Scans (fun _ => TypeAhead) (rules _ .type)) :
    Scans (fun _ => NamesAhead true) (readTypeName rules) := by
  refine (@Scans.iterate _ (fun state _ => NamesAhead state.2) _ ?_ ("", true)).map fun _ _ _ hahead => hahead
  rintro ⟨text, more⟩
  refine .ite (fun hended => .pure fun _ => ?_) fun hgoesOn => ?_
  · obtain rfl : more = false := by simpa using hended
    rfl
  · obtain rfl : more = true := by simpa using hgoesOn
    refine scans_expectName.bind (scans_behindName htypes text) ?_
    rintro name result ahead rest middle htakes ⟨state, rfl, after, hargs, hskips, hfewer, hgoesOn⟩ last behind hlater
    exact namesAhead_of_goesOn htakes hargs hskips hfewer hgoesOn hlater

/-- Pairs of brackets lie ahead. -/
structure DimsAhead (ahead behind : List Token) : Prop where
  scanned : scanDims ahead = behind
  skips : Skips ahead behind

theorem scanDims_of_takes {ahead middle behind : List Token} (hopens : Takes (.symbol .leftBracket) ahead middle)
    (hcloses : Takes (.symbol .rightBracket) middle behind) : scanDims ahead = scanDims behind := by
  obtain ⟨first, hisOpen, rfl⟩ := hopens
  obtain ⟨second, hisClose, rfl⟩ := hcloses
  rw [scanDims, if_pos ⟨hisOpen, hisClose⟩]

theorem scanDims_eq_self {tokens : List Token}
    (hnone : ¬(headKind tokens = .symbol .leftBracket ∧ kindAt 1 tokens = .symbol .rightBracket)) :
    scanDims tokens = tokens := by
  match tokens with
  | [] => rfl
  | [_] => rfl
  | first :: second :: rest => exact if_neg hnone

theorem scans_readDims : Scans (fun _ => DimsAhead) readDims := by
  refine @Scans.iterate _ (fun _ _ => DimsAhead) _ (fun text => ?_) ""
  refine .look (looks_atSymbol .leftBracket) fun bracket => .look (looks_peek 1) fun next => .ite (fun hisPair => ?_) ?_
  · obtain ⟨hisOpen, hisClose⟩ := Bool.and_eq_true_iff.mp hisPair
    have hsecond : Scans (fun result ahead behind => result = some (text ++ "[]") ∧
        (headKind ahead ≠ .eof → Takes (headKind ahead) ahead behind)) (do
          advance
          return some (text ++ "[]")) := scans_advance.map fun _ _ _ hmoved => ⟨rfl, hmoved⟩
    refine scans_advance.bind (fun _ => hsecond) ?_
    rintro _ result ahead middle after hmoved ⟨rfl, hmovedOn⟩ hfollowed hsign _ behind hlater
    have here : headKind ahead = .symbol .leftBracket := beq_iff_eq.mp (hsign.trans hisOpen)
    have hopens : Takes (.symbol .leftBracket) ahead middle := here ▸ hmoved (by rw [here]; nofun)
    have hnext : headKind middle = .symbol .rightBracket := by
      rw [← hopens.drop_eq]
      exact hfollowed.trans (beq_iff_eq.mp hisClose)
    have hcloses : Takes (.symbol .rightBracket) middle after := hnext ▸ hmovedOn (by rw [hnext]; nofun)
    refine ⟨(scanDims_of_takes hopens hcloses).trans hlater.scanned, ?_⟩
    exact (hopens.skips rfl).trans ((hcloses.skips rfl).trans hlater.skips)
  · refine fun hnoPair => .pure fun tokens hfollowed hsign => ⟨scanDims_eq_self ?_, .refl _⟩
    rintro ⟨here, hcloses⟩
    refine hnoPair (Bool.and_eq_true_iff.mpr ⟨?_, ?_⟩)
    · rw [← hsign, here]
      exact beq_self_eq_true _
    · rw [← hfollowed, hcloses]
      exact beq_self_eq_true _

theorem scans_readType (htypes : Scans (fun _ => TypeAhead) (rules _ .type)) (hconsuming : rules.Consuming none) :
    Scans (fun _ => TypeAhead) (readType rules) := by
  have hnamed : Scans (fun _ => TypeAhead) (do
      let name ← readTypeName rules
      return name ++ (← readDims)) := by
    have hdims (name : String) : Scans (fun _ => DimsAhead) (do return name ++ (← readDims)) :=
      scans_readDims.map fun _ _ _ hahead => hahead
    refine (scans_readTypeName htypes).bind hdims ?_
    rintro _ _ ahead middle behind ⟨hnames, hskips⟩ ⟨hdimsScanned, hothers⟩
    refine ⟨?_, hskips.trans hothers⟩
    rw [scanType, hnames _ (Nat.lt_succ_self _), Option.map_some, hdimsScanned]
  have hchecked : Scans (fun _ => TypeAhead) (do
      if !(← currentKind).isIdent then failExpected .type
      let name ← readTypeName rules
      return name ++ (← readDims)) := by
    refine .look looks_currentKind fun kind => .ite (fun _ => ?_) fun _ => hnamed.weaken fun _ _ _ hahead _ => hahead
    have hrefused : Scans (fun _ _ _ => False) (failExpected .type : Reader Unit) := .failExpected _
    exact hrefused.bind (fun _ => hnamed) fun _ _ _ _ _ hnever => hnever.elim
  refine (scans_skipAnnotations hconsuming).bind (fun _ => hchecked) ?_
  rintro _ _ ahead middle behind rfl htypeAhead
  exact htypeAhead

end Types

/-- The scan sees every type that the rules read, to whatever depth they are tied. -/
theorem scans_type (depth : Nat) : Scans (fun _ => TypeAhead) (rules depth _ .type) := by
  induction depth with
  | zero => exact .failTooDeep
  | succ depth ih => exact scans_readType ih (consuming_rules_unasked depth)

/-! ### The bounds of a cast -/

/-- The bounds of a cast behind the first one lie ahead. -/
def BoundsAhead (ahead behind : List Token) : Prop :=
  ∀ bound, ahead.length < bound → scanBounds bound ahead = some behind

theorem boundsAhead_of_ne {tokens : List Token} (hends : headKind tokens ≠ .symbol .amp) :
    BoundsAhead tokens tokens := by
  intro bound henough
  obtain ⟨bound, rfl⟩ : ∃ lower, bound = lower + 1 := Nat.exists_eq_succ_of_ne_zero (by omega)
  rw [scanBounds, if_neg hends]

theorem boundsAhead_of_takes {ahead first second behind : List Token} (htakes : Takes (.symbol .amp) ahead first)
    (htype : TypeAhead first second) (hfewer : second <:+ first) (hothers : BoundsAhead second behind) :
    BoundsAhead ahead behind := by
  intro bound henough
  obtain ⟨bound, rfl⟩ : ∃ lower, bound = lower + 1 := Nat.exists_eq_succ_of_ne_zero (by omega)
  have hshorter := hfewer.length_le
  rw [scanBounds, if_pos htakes.headKind_eq, htakes.drop_eq, htype.scanned]
  obtain ⟨token, -, rfl⟩ := htakes
  rw [List.length_cons] at henough
  exact hothers bound (by omega)

/-- The scan sees the types of a cast as they are read. -/
theorem scans_castTypes (depth : Nat) : Scans (fun _ ahead behind =>
    (scanType ahead).bind (scanBounds (ahead.length + 1)) = some behind) (separated .amp (rules depth _ .type)) := by
  have htypes : Scans (fun _ ahead behind => ∃ middle, (TypeAhead ahead middle ∧ middle <:+ ahead) ∧
      BoundsAhead middle behind) (separated .amp (rules depth _ .type)) :=
    (scans_type depth).suffix.separated (fun _ => boundsAhead_of_ne) fun _ _ _ _ htakes htype =>
      boundsAhead_of_takes htakes htype.1 htype.2
  refine htypes.weaken ?_
  rintro _ ahead behind ⟨middle, ⟨htype, hfewer⟩, hbounds⟩
  rw [htype.scanned]
  exact hbounds _ (Nat.lt_succ_of_le hfewer.length_le)

/-! ### What is asked of the tokens behind a type -/

/-- A name lies ahead, and then a token that may follow a declared variable. -/
def declaresVariable (tokens : List Token) : Bool :=
  (headKind tokens).isIdent &&
    [.symbol .assign, .symbol .semicolon, .symbol .comma, .symbol .colon,
      .symbol .leftBracket].contains (kindAt 1 tokens)

/-- The name of a primitive type lies ahead. -/
def beginsPrimitive (tokens : List Token) : Bool :=
  match headKind tokens with
  | .ident name => primitiveTypes.contains name
  | _ => false

/-- The parenthesis of a cast is closed, and then comes what may be its operand. -/
def closesCast (primitive : Bool) (tokens : List Token) : Bool :=
  headKind tokens == .symbol .rightParen && (primitive || beginsCastOperand (kindAt 1 tokens))

theorem looksLikeLocalDecl_eq {tokens behind : List Token} (hscanned : scanType tokens = some behind) :
    looksLikeLocalDecl tokens = declaresVariable behind := by
  rw [looksLikeLocalDecl, hscanned]
  rfl

theorem looksLikeCast_eq (paren : Token) {tokens behind : List Token}
    (hscanned : (scanType tokens).bind (scanBounds (tokens.length + 1)) = some behind) :
    looksLikeCast (paren :: tokens) = closesCast (beginsPrimitive tokens) behind := by
  rw [looksLikeCast, List.drop_one, List.tail_cons]
  simp only [hscanned]
  rfl

/-- Where a type is read without annotations, to whatever depth the rules are tied, the scan from the same place
finds a type and ends where reading does. So it looks like a declaration of local variables exactly if behind the
type that is read there is a variable with a token that may follow it. The same holds of the types of a cast
behind a parenthesis: it looks like a cast exactly if behind the types that are read the parenthesis is closed and
an operand may begin. -/
theorem scan_ends_with_type (depth : Nat) :
    (∀ cursor text after, (rules depth _ .type).run cursor = .ok text after →
      ∃ read, cursor.rest = read ++ after.rest ∧ (Unannotated read →
        scanType cursor.rest = some after.rest ∧
          looksLikeLocalDecl cursor.rest = declaresVariable after.rest)) ∧
    ∀ cursor texts after, (separated .amp (rules depth _ .type)).run cursor = .ok texts after →
      ∃ read, cursor.rest = read ++ after.rest ∧ (Unannotated read →
        ∀ paren, looksLikeCast (paren :: cursor.rest) = closesCast (beginsPrimitive cursor.rest) after.rest) := by
  constructor
  · intro cursor text after hrun
    obtain ⟨read, hwhole, hseen⟩ := scans_type depth cursor text after hrun
    exact ⟨read, hwhole, fun hplain => ⟨(hseen hplain).scanned, looksLikeLocalDecl_eq (hseen hplain).scanned⟩⟩
  · intro cursor texts after hrun
    obtain ⟨read, hwhole, hseen⟩ := scans_castTypes depth cursor texts after hrun
    exact ⟨read, hwhole, fun hplain paren => looksLikeCast_eq paren (hseen hplain)⟩

/-- The tokens of a declaration, of which the type has nested type arguments, a wildcard and brackets. -/
def nestedTypeTokens : List Token :=
  (Lexer.tokenize "M<? extends L<A[]>,B>.E[] x;".toList).tokens

/-- The tokens behind the first parenthesis of a cast with two bounds. -/
def boundedCastTokens : List Token :=
  (Lexer.tokenize "L<A>&B) y".toList).tokens

private theorem exists_run_nestedType : ∃ after,
    (rules 8 _ .type).run (.start nestedTypeTokens) = .ok "M<? extends L<A[]>,B>.E[]" after ∧
      after.rest.map (·.kind) = [.ident "x", .symbol .semicolon, .eof] :=
  ⟨_, rfl, rfl⟩

private theorem exists_run_boundedCast : ∃ after,
    (separated .amp (rules 8 _ .type)).run (.start boundedCastTokens) = .ok ["L<A>", "B"] after ∧
      after.rest.map (·.kind) = [.symbol .rightParen, .ident "y", .eof] :=
  ⟨_, rfl, rfl⟩

theorem scan_ends_with_type_nested :
    (∃ after, (rules 8 _ .type).run (.start nestedTypeTokens) = .ok "M<? extends L<A[]>,B>.E[]" after ∧
      after.rest.map (·.kind) = [.ident "x", .symbol .semicolon, .eof] ∧
      (∃ read, nestedTypeTokens = read ++ after.rest ∧ Unannotated read) ∧
      scanType nestedTypeTokens = some after.rest ∧
      looksLikeLocalDecl nestedTypeTokens = declaresVariable after.rest) ∧
    ∃ after, (separated .amp (rules 8 _ .type)).run (.start boundedCastTokens) = .ok ["L<A>", "B"] after ∧
      after.rest.map (·.kind) = [.symbol .rightParen, .ident "y", .eof] ∧
      (∃ read, boundedCastTokens = read ++ after.rest ∧ Unannotated read) ∧
      looksLikeCast (default :: boundedCastTokens) =
        closesCast (beginsPrimitive boundedCastTokens) after.rest := by
  obtain ⟨behindType, hrunType, hnextType⟩ := exists_run_nestedType
  obtain ⟨behindCast, hrunCast, hnextCast⟩ := exists_run_boundedCast
  obtain ⟨read, hwhole, hseen⟩ := (scan_ends_with_type 8).1 _ _ _ hrunType
  obtain ⟨bounds, hwholeCast, hseenCast⟩ := (scan_ends_with_type 8).2 _ _ _ hrunCast
  have hplainType : Unannotated nestedTypeTokens := by decide
  have hplainCast : Unannotated boundedCastTokens := by decide
  obtain ⟨hscanned, hdeclares⟩ := hseen (hplainType.of_append hwhole)
  exact ⟨⟨behindType, hrunType, hnextType, ⟨read, hwhole, hplainType.of_append hwhole⟩, hscanned, hdeclares⟩,
    behindCast, hrunCast, hnextCast, ⟨bounds, hwholeCast, hplainCast.of_append hwholeCast⟩,
    hseenCast (hplainCast.of_append hwholeCast) default⟩

end LockDiscipline.Grammar
