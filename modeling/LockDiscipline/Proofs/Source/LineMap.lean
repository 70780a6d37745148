import LockDiscipline.Source.LineMap
import LockDiscipline.Proofs.Token.Layout
import Mathlib.Data.List.DropRight
import Mathlib.Data.Prod.Lex
import Mathlib.Order.Monotone.Basic
/-!
# Lines and columns tell the offset

The statements are about the bytes of a source, since offsets and columns count bytes, while the
line map is read off the characters. The two views meet in a cut of the source at one line: what is
before the line, the line without its newline, and what is after it. Every offset lies in the line
of such a cut or at its end, the table of starts is the one of the cut, and the bisection ends at the
index of the line, whether the offset is in the table or not.

An offset may lie inside of a character. Its line and column are defined all the same.
-/

namespace LockDiscipline

namespace Text

/-! ## Bytes -/

/-- The bytes of a text. -/
def bytes (text : List Char) : List UInt8 :=
  text.flatMap String.utf8EncodeChar

@[simp] theorem bytes_append (first second : List Char) :
    bytes (first ++ second) = bytes first ++ bytes second :=
  List.flatMap_append

@[simp] theorem length_bytes (text : List Char) : (bytes text).length = byteLength text := by
  induction text with
  | nil => rfl
  | cons c rest ih =>
      rw [bytes, List.flatMap_cons, List.length_append, String.length_utf8EncodeChar, byteLength]
      exact congrArg (c.utf8Size + ·) ih

/-- A byte below 128 stands for itself: only the character with this code has it. -/
theorem val_of_mem_utf8EncodeChar {c : Char} {byte : UInt8} (hsmall : byte < 128)
    (hpresent : byte ∈ String.utf8EncodeChar c) : c.val.toNat = byte.toNat := by
  have hbound : byte.toNat < 128 := hsmall
  simp only [String.utf8EncodeChar] at hpresent
  split at hpresent
  · obtain rfl := List.mem_singleton.mp hpresent
    rw [UInt8.toNat_ofNat']
    omega
  · -- All bytes of a longer character have the highest bit.
    exfalso
    split at hpresent
    all_goals
      try split at hpresent
      all_goals
        simp only [List.mem_cons, List.not_mem_nil, or_false] at hpresent
        rcases hpresent with rfl | rfl | rfl | rfl <;> rw [UInt8.toNat_ofNat'] at hbound <;> omega

/-- The byte of a newline. -/
def newline : UInt8 := 10

/-- The byte of a carriage return. -/
def carriageReturn : UInt8 := 13

theorem newline_not_mem_utf8EncodeChar {c : Char} (hother : c ≠ '\n') :
    newline ∉ String.utf8EncodeChar c := by
  intro hpresent
  apply hother
  apply Char.ext
  apply UInt32.toNat_inj.mp
  exact val_of_mem_utf8EncodeChar (by decide) hpresent

theorem newline_not_mem_bytes {text : List Char} (hwhole : '\n' ∉ text) :
    newline ∉ bytes text := by
  intro hpresent
  obtain ⟨c, hinText, hinBytes⟩ := List.mem_flatMap.mp hpresent
  exact newline_not_mem_utf8EncodeChar (fun hsame => hwhole (hsame ▸ hinText)) hinBytes

theorem bytes_concat_newline (text : List Char) :
    bytes (text ++ ['\n']) = bytes text ++ [newline] := by
  rw [bytes_append]
  rfl

theorem bytes_newline_cons (text : List Char) : bytes ('\n' :: text) = newline :: bytes text :=
  rfl

theorem count_newline_bytes (text : List Char) : (bytes text).count newline = text.count '\n' := by
  induction text with
  | nil => rfl
  | cons c rest ih =>
      by_cases hsame : c = '\n'
      · subst hsame
        rw [bytes_newline_cons, List.count_cons_self, List.count_cons_self, ih]
      · rw [bytes, List.flatMap_cons, List.count_append, List.count_cons_of_ne hsame]
        have hnowhere := List.count_eq_zero.mpr (newline_not_mem_utf8EncodeChar hsame)
        rw [hnowhere, Nat.zero_add]
        exact ih

theorem eq_carriageReturn_of_mem_bytes {text : List Char} (hreturns : ∀ c ∈ text, c = '\r')
    {byte : UInt8} (hpresent : byte ∈ bytes text) : byte = carriageReturn := by
  obtain ⟨c, hinText, hinBytes⟩ := List.mem_flatMap.mp hpresent
  obtain rfl := hreturns c hinText
  exact List.mem_singleton.mp hinBytes

/-- Nothing but carriage returns is left of the line from an offset on: the byte there is the
newline behind the line, or one of the carriage returns that end the line. -/
def EndsLine (source : List Char) (offset : Nat) : Prop :=
  ∀ byte ∈ ((bytes source).drop offset).takeWhile (· != newline), byte = carriageReturn

instance (source : List Char) (offset : Nat) : Decidable (EndsLine source offset) :=
  List.decidableBAll (fun byte : UInt8 => byte = carriageReturn)
    (((bytes source).drop offset).takeWhile (· != newline))

/-! ## A source cut at a line -/

/-- A line of a source, without its newline, between what is before and what is after it. -/
structure LineCut (source before line after : List Char) : Prop where
  whole : source = before ++ (line ++ after)
  opens : before = [] ∨ ∃ text, before = text ++ ['\n']
  unbroken : '\n' ∉ line
  closes : after = [] ∨ ∃ text, after = '\n' :: text

namespace LineCut

variable {source before line after : List Char}

theorem newline_cons (hcut : LineCut source before line after) :
    LineCut ('\n' :: source) ('\n' :: before) line after where
  whole := congrArg ('\n' :: ·) hcut.whole
  opens := by
    rcases hcut.opens with rfl | ⟨text, rfl⟩
    · exact .inr ⟨[], rfl⟩
    · exact .inr ⟨'\n' :: text, rfl⟩
  unbroken := hcut.unbroken
  closes := hcut.closes

theorem before_cons {d : Char} (hcut : LineCut source (d :: before) line after) (c : Char) :
    LineCut (c :: source) (c :: d :: before) line after where
  whole := congrArg (c :: ·) hcut.whole
  opens := by
    rcases hcut.opens with hnothing | ⟨text, hsame⟩
    · cases hnothing
    · exact .inr ⟨c :: text, by rw [hsame, List.cons_append]⟩
  unbroken := hcut.unbroken
  closes := hcut.closes

theorem line_cons (hcut : LineCut source [] line after) {c : Char} (hother : c ≠ '\n') :
    LineCut (c :: source) [] (c :: line) after where
  whole := congrArg (c :: ·) hcut.whole
  opens := .inl rfl
  unbroken := by
    intro hpresent
    rcases List.mem_cons.mp hpresent with hsame | hlater
    · exact hother hsame.symm
    · exact hcut.unbroken hlater
  closes := hcut.closes

end LineCut

/-- Every offset of a source lies in a line or at its end. -/
theorem exists_lineCut (source : List Char) {offset : Nat} (hinside : offset ≤ byteLength source) :
    ∃ before line after, LineCut source before line after ∧ byteLength before ≤ offset ∧
      offset ≤ byteLength before + byteLength line := by
  induction source generalizing offset with
  | nil => exact ⟨[], [], [], ⟨rfl, .inl rfl, by simp, .inl rfl⟩, Nat.zero_le _, hinside⟩
  | cons c source ih =>
      have hsize := c.utf8Size_pos
      by_cases hsame : c = '\n'
      · subst hsame
        have hone : '\n'.utf8Size = 1 := rfl
        cases offset with
        | zero =>
            exact ⟨[], [], '\n' :: source, ⟨rfl, .inl rfl, by simp, .inr ⟨source, rfl⟩⟩, le_rfl,
              Nat.zero_le _⟩
        | succ offset =>
            rw [byteLength, hone] at hinside
            have hbehind : offset ≤ byteLength source := by omega
            obtain ⟨before, line, after, hcut, hlow, high⟩ := ih hbehind
            refine ⟨'\n' :: before, line, after, hcut.newline_cons, ?_, ?_⟩
            · rw [byteLength, hone]
              omega
            · rw [byteLength, hone]
              omega
      · rw [byteLength] at hinside
        -- An offset inside of the character is the one in front of the rest.
        have hbehind : offset - c.utf8Size ≤ byteLength source := by omega
        obtain ⟨before, line, after, hcut, hlow, high⟩ := ih hbehind
        cases before with
        | nil =>
            refine ⟨[], c :: line, after, hcut.line_cons hsame, Nat.zero_le _, ?_⟩
            rw [byteLength] at high ⊢
            rw [byteLength]
            omega
        | cons d before =>
            have hpositive := byteLength_pos (List.cons_ne_nil d before)
            refine ⟨c :: d :: before, line, after, hcut.before_cons c, ?_, ?_⟩
            · rw [byteLength]
              omega
            · rw [byteLength]
              omega

/-! ### The bytes up to an offset and from there on -/

namespace LineCut

variable {source before line after : List Char}

theorem byteLength_eq (hcut : LineCut source before line after) :
    byteLength source = byteLength before + (byteLength line + byteLength after) := by
  rw [hcut.whole, byteLength_append, byteLength_append]

theorem rtakeWhile_bytes_before (hcut : LineCut source before line after) :
    (bytes before).rtakeWhile (· != newline) = [] := by
  rcases hcut.opens with rfl | ⟨text, rfl⟩
  · rfl
  · rw [bytes_concat_newline, List.rtakeWhile_concat]
    simp

theorem takeWhile_bytes_after (hcut : LineCut source before line after) :
    (bytes after).takeWhile (· != newline) = [] := by
  rcases hcut.closes with rfl | ⟨text, rfl⟩
  · rfl
  · rw [bytes_newline_cons]
    simp

variable {column : Nat}

theorem take_bytes (hcut : LineCut source before line after) (hinside : column ≤ byteLength line) :
    (bytes source).take (byteLength before + column) =
      bytes before ++ (bytes line).take column := by
  rw [hcut.whole, bytes_append, bytes_append, ← length_bytes before, List.take_length_add_append,
    List.take_append_of_le_length (by rwa [length_bytes])]

theorem drop_bytes (hcut : LineCut source before line after) (hinside : column ≤ byteLength line) :
    (bytes source).drop (byteLength before + column) =
      (bytes line).drop column ++ bytes after := by
  rw [hcut.whole, bytes_append, bytes_append, ← length_bytes before, List.drop_length_add_append,
    List.drop_append_of_le_length (by rwa [length_bytes])]

theorem count_take (hcut : LineCut source before line after) (hinside : column ≤ byteLength line) :
    ((bytes source).take (byteLength before + column)).count newline = before.count '\n' := by
  have hnowhere : ((bytes line).take column).count newline = 0 :=
    List.count_eq_zero.mpr fun hpresent =>
      newline_not_mem_bytes hcut.unbroken (List.mem_of_mem_take hpresent)
  rw [hcut.take_bytes hinside, List.count_append, hnowhere, count_newline_bytes, Nat.add_zero]

theorem length_rtakeWhile (hcut : LineCut source before line after)
    (hinside : column ≤ byteLength line) :
    (((bytes source).take (byteLength before + column)).rtakeWhile (· != newline)).length =
      column := by
  have hall : ∀ byte ∈ ((bytes line).take column).reverse, (byte != newline) = true := by
    intro byte hpresent
    rw [bne_iff_ne]
    rintro rfl
    exact newline_not_mem_bytes hcut.unbroken (List.mem_of_mem_take (List.mem_reverse.mp hpresent))
  have hnone := hcut.rtakeWhile_bytes_before
  rw [List.rtakeWhile, List.reverse_eq_nil_iff] at hnone
  rw [hcut.take_bytes hinside, List.rtakeWhile, List.reverse_append,
    List.takeWhile_append_of_pos hall, hnone]
  simpa using hinside

theorem takeWhile_drop (hcut : LineCut source before line after)
    (hinside : column ≤ byteLength line) :
    ((bytes source).drop (byteLength before + column)).takeWhile (· != newline) =
      (bytes line).drop column := by
  have hall : ∀ byte ∈ (bytes line).drop column, (byte != newline) = true := by
    intro byte hpresent
    rw [bne_iff_ne]
    rintro rfl
    exact newline_not_mem_bytes hcut.unbroken (List.mem_of_mem_drop hpresent)
  rw [hcut.drop_bytes hinside, List.takeWhile_append_of_pos hall, hcut.takeWhile_bytes_after,
    List.append_nil]

/-- A byte of a line that is not among those that end it is one of the trimmed line. -/
theorem getElem?_trimmed (hcut : LineCut source before line after)
    (hinside : column ≤ byteLength line) (hshown : ¬EndsLine source (byteLength before + column)) :
    (bytes (dropRightWhile (· == '\r') line))[column]? =
      (bytes source)[byteLength before + column]? := by
  have hparts : line = dropRightWhile (· == '\r') line ++ line.rtakeWhile (· == '\r') := by
    rw [dropRightWhile, List.rtakeWhile, ← List.reverse_append, List.takeWhile_append_dropWhile,
      List.reverse_reverse]
  generalize dropRightWhile (· == '\r') line = trimmed at hparts ⊢
  have hwithin : column < (bytes trimmed).length := by
    by_contra hbeyond
    apply hshown
    rw [EndsLine, hcut.takeWhile_drop hinside, hparts, bytes_append, List.drop_append,
      List.drop_eq_nil_of_le (by omega), List.nil_append]
    intro byte hpresent
    refine eq_carriageReturn_of_mem_bytes ?_ (List.mem_of_mem_drop hpresent)
    intro c htrailing
    simpa using List.mem_rtakeWhile_imp htrailing
  calc (bytes trimmed)[column]? = (bytes line)[column]? := by
        rw [hparts, bytes_append, List.getElem?_append_left hwithin]
    _ = (bytes source)[byteLength before + column]? := by
        have hshorter : column < (bytes line).length := by
          rw [hparts, bytes_append, List.length_append]
          omega
        rw [hcut.whole, bytes_append, bytes_append, ← length_bytes before,
          List.getElem?_append_right (by omega), Nat.add_sub_cancel_left,
          List.getElem?_append_left hshorter]

end LineCut
end Text

namespace LineMap

/-! ## The table of starts -/

theorem newlineEnds_append (offset : Nat) (first second : List Char) :
    newlineEnds offset (first ++ second) =
      newlineEnds offset first ++ newlineEnds (offset + Text.byteLength first) second := by
  fun_induction newlineEnds offset first with
  | case1 => rfl
  | case2 offset rest ih =>
      rw [List.cons_append, newlineEnds, if_pos rfl, ih, List.cons_append, Text.byteLength,
        Nat.add_assoc]
      rfl
  | case3 offset c rest hother ih =>
      rw [List.cons_append, newlineEnds, if_neg hother, ih, Text.byteLength, Nat.add_assoc]

theorem newlineEnds_eq_nil {text : List Char} (offset : Nat) (hunbroken : '\n' ∉ text) :
    newlineEnds offset text = [] := by
  fun_induction newlineEnds offset text with
  | case1 => rfl
  | case2 offset rest ih => exact absurd List.mem_cons_self hunbroken
  | case3 offset c rest hother ih => exact ih fun hlater => hunbroken (List.mem_cons_of_mem c hlater)

theorem length_newlineEnds (offset : Nat) (text : List Char) :
    (newlineEnds offset text).length = text.count '\n' := by
  fun_induction newlineEnds offset text with
  | case1 => rfl
  | case2 offset rest ih => rw [List.length_cons, ih, List.count_cons_self]
  | case3 offset c rest hother ih => rw [ih, List.count_cons_of_ne hother]

variable {source before line after : List Char}

theorem starts_ofText_of_lineCut (hcut : Text.LineCut source before line after) :
    (ofText source).starts.toList = (0 :: newlineEnds 0 before) ++
      newlineEnds (Text.byteLength before + Text.byteLength line) after := by
  simp only [ofText]
  rw [hcut.whole, newlineEnds_append, newlineEnds_append, newlineEnds_eq_nil _ hcut.unbroken,
    Nat.zero_add, List.nil_append, List.cons_append]

/-- A line begins behind all that is before it. -/
theorem getElem?_starts_of_lineCut (hcut : Text.LineCut source before line after) :
    (ofText source).starts[before.count '\n']? = some (Text.byteLength before) := by
  rw [← Array.getElem?_toList, starts_ofText_of_lineCut hcut,
    List.getElem?_append_left (by simp [length_newlineEnds])]
  rcases hcut.opens with rfl | ⟨text, rfl⟩
  · rfl
  · have hends : newlineEnds 0 (text ++ ['\n']) =
        newlineEnds 0 text ++ [Text.byteLength (text ++ ['\n'])] := by
      rw [newlineEnds_append, Nat.zero_add, Text.byteLength_append]
      rfl
    rw [hends, List.count_append, ← length_newlineEnds 0 text]
    simp

/-- The next line, if there is one, begins behind the newline that ends this one. -/
theorem getElem?_starts_succ_of_lineCut (hcut : Text.LineCut source before line after) :
    (ofText source).starts[before.count '\n' + 1]? =
      if after = [] then none
      else some (Text.byteLength before + Text.byteLength line + 1) := by
  rw [← Array.getElem?_toList, starts_ofText_of_lineCut hcut,
    List.getElem?_append_right (by simp [length_newlineEnds])]
  rcases hcut.closes with rfl | ⟨text, rfl⟩
  · simp [newlineEnds]
  · simp [newlineEnds, length_newlineEnds]

/-! ## The bisection -/

/-- A place tells all about the number in a table: it is there, or it would have to be put in
between the smaller ones and the greater ones. -/
def Places (table : Array Nat) (key : Nat) : Place → Prop
  | .hit index => table[index]? = some key
  | .miss index => index ≤ table.size ∧
      (∀ (position value : Nat), table[position]? = some value → position < index → value < key) ∧
      ∀ (position value : Nat), table[position]? = some value → index ≤ position → key < value

theorem getElem?_lt {table : Array Nat} (hsorted : table.toList.Pairwise (· < ·))
    {first second : Nat} {low high : Nat} (hatFirst : table[first]? = some low)
    (hatSecond : table[second]? = some high) (horder : first < second) : low < high := by
  obtain ⟨hinside, rfl⟩ := Array.getElem?_eq_some_iff.mp hatFirst
  obtain ⟨hwithin, rfl⟩ := Array.getElem?_eq_some_iff.mp hatSecond
  rw [← Array.getElem_toList hinside, ← Array.getElem_toList hwithin]
  exact List.pairwise_iff_getElem.mp hsorted first second hinside hwithin horder

theorem getElem?_le {table : Array Nat} (hsorted : table.toList.Pairwise (· < ·))
    {first second : Nat} {low high : Nat} (hatFirst : table[first]? = some low)
    (hatSecond : table[second]? = some high) (horder : first ≤ second) : low ≤ high := by
  rcases horder.lt_or_eq with hearlier | rfl
  · exact (getElem?_lt hsorted hatFirst hatSecond hearlier).le
  · exact (Option.some.inj (hatFirst.symm.trans hatSecond)).le

/-- The loop keeps what is left of the window below the number and what is right of it above. -/
theorem places_search {table : Array Nat} (hsorted : table.toList.Pairwise (· < ·))
    {key low high : Nat} {hinside : high ≤ table.size} (hwindow : low ≤ high)
    (hbelow : ∀ (position value : Nat), table[position]? = some value → position < low →
      value < key)
    (habove : ∀ (position value : Nat), table[position]? = some value → high ≤ position →
      key < value) :
    Places table key (search table key low high hinside) := by
  fun_induction search table key low high hinside with
  | case1 low high hinside hopen middle hbound here =>
      exact Array.getElem?_eq_some_iff.mpr ⟨hbound, here⟩
  | case2 low high hinside hopen middle hbound hother hsmaller ih =>
      refine ih (by omega) (fun position value hpresent hleft => ?_) habove
      have hleast := getElem?_le hsorted hpresent (Array.getElem?_eq_getElem hbound) (by omega)
      omega
  | case3 low high hinside hopen middle hbound hother hgreater ih =>
      refine ih (by omega) hbelow fun position value hpresent hright => ?_
      have hmost := getElem?_le hsorted (Array.getElem?_eq_getElem hbound) hpresent hright
      omega
  | case4 low high hinside hclosed =>
      refine ⟨hwindow.trans hinside, hbelow, fun position value hpresent hright => ?_⟩
      exact habove position value hpresent (by omega)

/-- The line of an offset is found whether it begins there or before. -/
theorem places_search_starts (lines : LineMap) (offset : Nat) :
    Places lines.starts offset (search lines.starts offset 0 lines.starts.size le_rfl) := by
  refine places_search lines.sorted (Nat.zero_le _) (by simp) fun position value hpresent hright => ?_
  rw [Array.getElem?_eq_none hright] at hpresent
  cases hpresent

/-! ## The line of an offset -/

/-- An offset lies in the line with this index: the line begins at `origin`, which is not behind
the offset, and the next line begins behind it. -/
structure LiesIn (lines : LineMap) (offset index origin : Nat) : Prop where
  start : lines.starts[index]? = some origin
  le : origin ≤ offset
  next : ∀ next, lines.starts[index + 1]? = some next → offset < next

namespace LiesIn

variable {lines : LineMap} {offset later first second origin other : Nat}

/-- The lines of offsets in order are in order. -/
theorem mono (here : lines.LiesIn offset first origin) (hthere : lines.LiesIn later second other)
    (horder : offset ≤ later) : first ≤ second := by
  by_contra hbefore
  obtain ⟨hinside, -⟩ := Array.getElem?_eq_some_iff.mp here.start
  have hfollows : second + 1 < lines.starts.size := by omega
  have hpresent := Array.getElem?_eq_getElem hfollows
  have hbeyond := hthere.next _ hpresent
  have hbound := here.le
  have hstarts := getElem?_le lines.sorted hpresent here.start (by omega)
  omega

theorem unique (here : lines.LiesIn offset first origin)
    (hthere : lines.LiesIn offset second other) : first = second :=
  le_antisymm (here.mono hthere le_rfl) (hthere.mono here le_rfl)

theorem lineCol_eq (here : lines.LiesIn offset (lines.lineIndex offset) origin) :
    lines.lineCol offset = (lines.lineIndex offset + 1, offset - origin + 1) := by
  rw [lineCol, Array.getD_eq_getD_getElem?, here.start, Option.getD_some]

end LiesIn

theorem exists_liesIn_lineIndex (lines : LineMap) (offset : Nat) :
    ∃ origin, lines.LiesIn offset (lines.lineIndex offset) origin := by
  have hplaces := places_search_starts lines offset
  rw [lineIndex]
  cases hfound : search lines.starts offset 0 lines.starts.size le_rfl with
  | hit index =>
      rw [hfound] at hplaces
      exact ⟨offset, hplaces, le_rfl,
        fun next hpresent => getElem?_lt lines.sorted hplaces hpresent (Nat.lt_succ_self index)⟩
  | miss index =>
      rw [hfound] at hplaces
      obtain ⟨hinside, hsmaller, hgreater⟩ := hplaces
      -- The first line begins at zero, so no offset is to be put in before it.
      have hpositive : 0 < index := by
        by_contra hzero
        have hbeyond := hgreater 0 0 lines.first (by omega)
        omega
      have hearlier : index - 1 < lines.starts.size := by omega
      have hpresent := Array.getElem?_eq_getElem hearlier
      refine ⟨_, hpresent, (hsmaller _ _ hpresent (by omega)).le, fun next hlater => ?_⟩
      exact hgreater (index - 1 + 1) next hlater (by omega)

/-- A later offset has a later line, or the same line and a later column. -/
theorem strictMono_lineCol (lines : LineMap) :
    StrictMono fun offset => toLex (lines.lineCol offset) := by
  intro offset later horder
  obtain ⟨origin, here⟩ := lines.exists_liesIn_lineIndex offset
  obtain ⟨other, hthere⟩ := lines.exists_liesIn_lineIndex later
  rw [Prod.Lex.toLex_lt_toLex, here.lineCol_eq, hthere.lineCol_eq]
  rcases (here.mono hthere horder.le).lt_or_eq with hearlier | hsame
  · exact .inl (Nat.succ_lt_succ hearlier)
  · have horigins : origin = other :=
      Option.some.inj (here.start.symm.trans (hsame ▸ hthere.start))
    have hbound := here.le
    exact .inr ⟨congrArg (· + 1) hsame, by simp only; omega⟩

/-! ## Offsets and lines of a source -/

theorem liesIn_of_lineCut (hcut : Text.LineCut source before line after) {column : Nat}
    (hinside : column ≤ Text.byteLength line) :
    (ofText source).LiesIn (Text.byteLength before + column) (before.count '\n')
      (Text.byteLength before) where
  start := getElem?_starts_of_lineCut hcut
  le := Nat.le_add_right _ _
  next := by
    intro next hpresent
    rw [getElem?_starts_succ_of_lineCut hcut] at hpresent
    split at hpresent
    · cases hpresent
    · obtain rfl := Option.some.inj hpresent
      omega

theorem lineCol_of_lineCut (hcut : Text.LineCut source before line after) {column : Nat}
    (hinside : column ≤ Text.byteLength line) :
    (ofText source).lineCol (Text.byteLength before + column) =
      (before.count '\n' + 1, column + 1) := by
  have here := liesIn_of_lineCut hcut hinside
  obtain ⟨origin, hfound⟩ := (ofText source).exists_liesIn_lineIndex (Text.byteLength before + column)
  have hsame := hfound.unique here
  rw [hsame] at hfound
  obtain rfl := Option.some.inj (hfound.start.symm.trans here.start)
  rw [LiesIn.lineCol_eq (hsame ▸ hfound), hsame, Nat.add_sub_cancel_left]

theorem lineStop_of_lineCut (hcut : Text.LineCut source before line after) :
    (ofText source).lineStop source (before.count '\n' + 1) =
      Text.byteLength before + Text.byteLength line := by
  rw [lineStop, lineStart?, getElem?_starts_succ_of_lineCut hcut, hcut.byteLength_eq]
  rcases hcut.closes with rfl | ⟨text, rfl⟩
  · rfl
  · rfl

theorem lineText?_of_lineCut (hcut : Text.LineCut source before line after) :
    (ofText source).lineText? source (before.count '\n' + 1) =
      some (Text.dropRightWhile (· == '\r') line) := by
  have hslice : Text.slice? source (Text.byteLength before)
      (Text.byteLength before + Text.byteLength line) = some line := by
    rw [hcut.whole]
    exact Text.slice?_append before line after
  rw [lineText?, lineStart?, getElem?_starts_of_lineCut hcut, Option.bind_eq_bind, Option.bind_some,
    lineStop_of_lineCut hcut, hslice]
  rfl

open Text in
/-- Lines and columns tell the offset. The line of an offset counts the newlines before it and the
column the bytes behind the last of them; no two offsets have both in common, and their order is the
one of the offsets. A byte of the source that does not end its line is found again in the text of
the line, at the column. -/
theorem ofText_inverts (source : List Char) :
    (∀ offset ≤ (bytes source).length, (ofText source).lineCol offset =
      (((bytes source).take offset).count newline + 1,
        (((bytes source).take offset).rtakeWhile (· != newline)).length + 1)) ∧
    Function.Injective (ofText source).lineCol ∧
    (∀ offset later, offset < later →
      toLex ((ofText source).lineCol offset) < toLex ((ofText source).lineCol later)) ∧
    ∀ offset < (bytes source).length, ¬EndsLine source offset →
      ∃ text, (ofText source).lineText? source ((ofText source).lineCol offset).1 = some text ∧
        (bytes text)[((ofText source).lineCol offset).2 - 1]? = (bytes source)[offset]? := by
  have hincreasing := strictMono_lineCol (ofText source)
  have hcutAt {offset : Nat} (hinside : offset ≤ (bytes source).length) :
      ∃ before line after column, LineCut source before line after ∧
        column ≤ byteLength line ∧ offset = byteLength before + column := by
    obtain ⟨before, line, after, hcut, hlow, high⟩ :=
      exists_lineCut source (hinside.trans_eq (length_bytes source))
    exact ⟨before, line, after, offset - byteLength before, hcut, by omega, by omega⟩
  refine ⟨?place, ?injective, fun offset later horder => hincreasing horder, ?shown⟩
  case place =>
    intro offset hinside
    obtain ⟨before, line, after, column, hcut, hinLine, rfl⟩ := hcutAt hinside
    rw [lineCol_of_lineCut hcut hinLine, hcut.count_take hinLine, hcut.length_rtakeWhile hinLine]
  case injective =>
    intro offset other hsame
    exact hincreasing.injective (congrArg toLex hsame)
  case shown =>
    intro offset hinside hshown
    obtain ⟨before, line, after, column, hcut, hinLine, rfl⟩ := hcutAt hinside.le
    refine ⟨dropRightWhile (· == '\r') line, ?_, ?_⟩
    · rw [lineCol_of_lineCut hcut hinLine, lineText?_of_lineCut hcut]
    · rw [lineCol_of_lineCut hcut hinLine]
      exact hcut.getElem?_trimmed hinLine hshown

/-- A line that begins with a character of two bytes and ends with a carriage return, and another
one. -/
def wideSource : List Char :=
  ['é', '\r', '\n', 'x']

open Text in
theorem ofText_inverts_wideSource :
    1 ≤ (bytes wideSource).length ∧ ¬EndsLine wideSource 1 ∧ EndsLine wideSource 2 ∧
      (ofText wideSource).lineCol 1 = (1, 2) ∧
      toLex ((ofText wideSource).lineCol 1) < toLex ((ofText wideSource).lineCol 4) ∧
      ∃ text, (ofText wideSource).lineText? wideSource 1 = some text ∧
        (bytes text)[1]? = (bytes wideSource)[1]? := by
  have ⟨hplace, _, hincreasing, hshown⟩ := ofText_inverts wideSource
  have hinLine : ¬EndsLine wideSource 1 := by decide
  have here : (ofText wideSource).lineCol 1 = (1, 2) := (hplace 1 (by decide)).trans (by decide)
  have htext := hshown 1 (by decide) hinLine
  rw [here] at htext
  exact ⟨by decide, hinLine, by decide, here, hincreasing 1 4 (by decide), htext⟩

end LineMap
end LockDiscipline
