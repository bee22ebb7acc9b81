import ScriptEngine.Eval.Loop
import ScriptEngine.Proofs.Grammar.Container

/-! The header of a loop over elements. Its three spellings are one loop, except that an `in` between
spaces in the expression is taken for the one that stands behind the name if the name is followed by
`of`. -/

namespace ScriptEngine

/-! Cutting a text. -/

namespace Text

variable {needle before text : List Char} {c : Char}

/-- A needle whose first character is not in a text is found behind it. -/
theorem find?_behind (absent : c ∉ before) (text : List Char) :
    find? (c :: needle) (before ++ text) = (find? (c :: needle) text).map (· + before.length) := by
  induction before with
  | nil => simp
  | cons first before ih =>
    obtain ⟨other, others⟩ := not_or.mp (mt List.mem_cons.mpr absent)
    rw [List.cons_append, find?, if_neg (by simp [other]), ih others, Option.map_map]
    simp only [List.length_cons, Function.comp_def, Nat.add_assoc]

/-- A needle is found at the start of a text that starts with it. -/
theorem find?_start (text : List Char) : find? (c :: needle) (c :: needle ++ text) = some 0 := by
  rw [List.cons_append, find?, ← List.cons_append, if_pos (by simp)]

/-- A text is cut behind what does not contain the first character of the separator. -/
theorem cut?_behind (starts : needle.head? = some c) (absent : c ∉ before) (text : List Char) :
    cut? needle (before ++ text) =
      (cut? needle text).map fun parts => (before ++ parts.1, parts.2) := by
  obtain ⟨needle, rfl⟩ := List.head?_eq_some_iff.mp starts
  unfold cut?
  rw [find?_behind absent, Option.map_map, Option.map_map]
  refine congrArg (Option.map · _) (funext fun offset => ?_)
  have behind : offset + before.length + (c :: needle).length =
      before.length + (offset + (c :: needle).length) := by omega
  simp only [Function.comp_def]
  rw [behind, List.drop_length_add_append, Nat.add_comm offset, List.take_length_add_append]

/-- A text is cut behind its first character if it does not start with the separator. -/
theorem cut?_passed (other : needle.isPrefixOf (c :: text) = false) :
    cut? needle (c :: text) = (cut? needle text).map fun parts => (c :: parts.1, parts.2) := by
  unfold cut?
  rw [find?, other, if_neg Bool.false_ne_true, Option.map_map, Option.map_map]
  refine congrArg (Option.map · _) (funext fun offset => ?_)
  simp only [Function.comp_def]
  rw [Nat.add_right_comm, List.drop_succ_cons, List.take_succ_cons]

/-- A text that starts with the separator is cut there. -/
theorem cut?_start (starts : needle.head? = some c) (text : List Char) :
    cut? needle (needle ++ text) = some ([], text) := by
  obtain ⟨needle, rfl⟩ := List.head?_eq_some_iff.mp starts
  rw [cut?, find?_start, Option.map_some, Nat.zero_add, List.take_zero, List.drop_left]

/-- Trimming keeps what starts and ends without white space. -/
theorem prefix_trim (starts : ∀ c, text.head? = some c → isBlank c = false)
    (ends : ∀ c, text.getLast? = some c → isBlank c = false) (rest : List Char) :
    text <+: trim (text ++ rest) := by
  cases text with
  | nil => exact List.nil_prefix
  | cons first text =>
    have start : trimStart (first :: text ++ rest) = first :: text ++ rest :=
      List.dropWhile_cons_of_neg (by simp [starts first rfl])
    have kept : (first :: text).reverse.dropWhile isBlank = (first :: text).reverse := by
      have trimmed := trim_eq starts ends
      rw [trim, trimStart, List.dropWhile_cons_of_neg (by simp [starts first rfl]), trimEnd,
        List.reverse_eq_iff] at trimmed
      exact trimmed
    -- The end of the text stops what is dropped from behind.
    rw [trim, start, trimEnd, List.reverse_append, List.dropWhile_append, kept]
    split
    case isTrue => exact ⟨[], by simp⟩
    case isFalse =>
      rw [List.reverse_append, List.reverse_reverse]
      exact List.prefix_append _ _

end Text

/-! Parts of a header. -/

namespace IsPart

variable {mark : Char} {text : List Char}

/-- A balanced text is a part if no white space is at its ends. -/
theorem of_ends (starts : ∃ c, text.head? = some c ∧ Text.isBlank c = false)
    (ends : ∀ c, text.getLast? = some c → Text.isBlank c = false)
    (balanced : Balanced (endsPart mark) text) : IsPart mark text := by
  refine ⟨starts, balanced, Text.trim_eq (fun c head => ?_) ends⟩
  obtain ⟨first, found, solid⟩ := starts
  rw [found] at head
  cases head
  exact solid

/-- A part is not split. -/
theorem splitTopLevel_eq (part : IsPart mark text) : splitTopLevel text mark = [text] :=
  by
  have parted : splitTopLevel (listed mark [text]) mark = [text] :=
    splitTopLevel_listed fun _ only => by rwa [List.mem_singleton.mp only]
  exact parted

end IsPart

/-- A text over which an operand may reach is in one piece between semicolons, and between colons. -/
theorem balanced_part {mark : Char} {text : List Char} (separates : mark = ';' ∨ mark = ':')
    (balanced : Balanced Cursor.endsOperand text) : Balanced (endsPart mark) text :=
  balanced.mono fun c ends => by
    simp only [endsPart, Bool.or_eq_true, beq_iff_eq] at ends
    rcases ends with rfl | closes
    · rcases separates with rfl | rfl <;> decide
    · simp [Cursor.endsOperand, closes]

/-! Spellings of headers. -/

/-- The ways to write the header of a loop over elements. -/
inductive EachSpelling where
  | colon
  | within
  | drawn
  deriving DecidableEq, Repr

/-- What stands between the name and the expression. -/
def EachSpelling.link : EachSpelling → List Char
  | .colon => [':']
  | .within => " in ".toList
  | .drawn => " of ".toList

/-- A loop over elements: the name that takes them, perhaps behind `var`, and the expression that
gives them. -/
structure EachHeader where
  declared : Bool
  name : List Char
  source : List Char
  deriving DecidableEq, Repr

namespace EachHeader

variable {header : EachHeader} {spelling : EachSpelling}

/-- The header without a `var` in front. -/
def bare (header : EachHeader) (spelling : EachSpelling) : List Char :=
  header.name ++ (spelling.link ++ header.source)

/-- The header as canonical text. -/
def written (header : EachHeader) (spelling : EachSpelling) : List Char :=
  if header.declared then "var ".toList ++ header.bare spelling else header.bare spelling

/-- The name is an identifier, and the expression is a text over which an operand may reach. -/
structure WellFormed (header : EachHeader) : Prop where
  identifier : Text.isIdentifier header.name = true
  /-- A header that starts with `var` and a space declares the name behind them. -/
  unreserved : header.declared = false → header.name ≠ "var".toList
  starts : ∃ c, header.source.head? = some c ∧ Text.isBlank c = false
  ends : ∀ c, header.source.getLast? = some c → Text.isBlank c = false
  balanced : Balanced Cursor.endsOperand header.source

/-- The loop that is run for a header: behind `of`, an `in` between spaces is looked for first. -/
def taken (header : EachHeader) : EachSpelling → EachHeader
  | .colon => header
  | .within => header
  | .drawn =>
    match Text.cut? " in ".toList (' ' :: header.source) with
    | some (name, source) =>
      { header with
        name := Text.trim (header.name ++ (" of".toList ++ name))
        source := Text.trim source }
    | none => header

/-- What a loop over elements does: the expression is evaluated once, and each of the elements that the
value has is held by the name during a pass. -/
def run (header : EachHeader) (eval : Evaluator) (site : Site) (body : List Char) : Eval Value := do
  let value ← evaluateAs eval .source site header.source
  let elements ← Eval.ofHost ((← get).elements value)
  let visit := fun element =>
    modify (·.defineLocal (String.ofList header.name) (.variable element) site.file)
  eachLoop visit (runPass eval site body) (← passLimit) elements

namespace WellFormed

/-- No white space is in the name. -/
theorem solid (formed : header.WellFormed) {c : Char} (member : c ∈ header.name) :
    Text.isBlank c = false := by
  have word := Text.isWordChar_of_identifier formed.identifier member
  have apart : c ∉ Text.blanks := not_mem_of_none (by decide +kernel) word
  exact Bool.eq_false_iff.mpr fun blank => apart (Text.mem_blanks blank)

/-- The name is not empty. -/
theorem name_starts (formed : header.WellFormed) :
    ∃ c, header.name.head? = some c ∧ Text.isBlank c = false := by
  cases shape : header.name with
  | nil =>
    have identifier := formed.identifier
    rw [shape] at identifier
    cases identifier
  | cons c tail => exact ⟨c, rfl, formed.solid (by rw [shape]; exact List.mem_cons_self)⟩

/-- The name is a text over which an operand may reach. -/
theorem name_balanced (formed : header.WellFormed) : Balanced Cursor.endsOperand header.name :=
  (balanced_of_clear fun _ member =>
    separators_clear (.inr (Text.isWordChar_of_identifier formed.identifier member))).mono
    fun c ends => by simp [endsAnyOperand, ends]

/-- The name is a part between colons. -/
theorem name_isPart (formed : header.WellFormed) : IsPart ':' header.name :=
  .of_ends formed.name_starts (fun _ last => formed.solid (List.mem_of_getLast? last))
    (balanced_part (.inr rfl) formed.name_balanced)

/-- The expression is a part between colons. -/
theorem source_isPart (formed : header.WellFormed) : IsPart ':' header.source :=
  .of_ends formed.starts formed.ends (balanced_part (.inr rfl) formed.balanced)

/-- No white space is at the end of the header. -/
theorem bare_ends (formed : header.WellFormed) (spelling : EachSpelling) (c : Char)
    (last : (header.bare spelling).getLast? = some c) : Text.isBlank c = false := by
  have filled : header.source ≠ [] := by
    obtain ⟨first, starts, _⟩ := formed.starts
    rintro none
    rw [none] at starts
    cases starts
  rw [bare, List.getLast?_append_of_ne_nil _ (by simp [filled]),
    List.getLast?_append_of_ne_nil _ filled] at last
  exact formed.ends c last

/-- The header without `var` is one part where its link is. -/
theorem bare_isPart (formed : header.WellFormed) {mark : Char} (separates : mark = ';' ∨ mark = ':')
    (linked : Balanced (endsPart mark) spelling.link) : IsPart mark (header.bare spelling) := by
  obtain ⟨c, head, solid⟩ := formed.name_starts
  refine .of_ends ⟨c, ?_, solid⟩ (formed.bare_ends spelling) ?_
  · rw [bare, List.head?_append, head, Option.some_or]
  · exact (balanced_part separates formed.name_balanced).append
      (linked.append (balanced_part separates formed.balanced))

/-- The header is one part between semicolons. -/
theorem written_isPart (formed : header.WellFormed) (spelling : EachSpelling) :
    IsPart ';' (header.written spelling) := by
  have part : IsPart ';' (header.bare spelling) :=
    formed.bare_isPart (.inl rfl) (by cases spelling <;> decide)
  unfold written
  -- With the word in front, the part still ends as it did.
  split
  case isFalse => exact part
  case isTrue =>
    refine .of_ends ⟨'v', rfl, by decide⟩ (fun last same => ?_) (.append (by decide) part.balanced)
    have filled : header.bare spelling ≠ [] := by
      obtain ⟨c, head, _⟩ := part.starts
      rintro none
      rw [none] at head
      cases head
    rw [List.getLast?_append_of_ne_nil _ filled] at same
    exact formed.bare_ends spelling last same

/-- Without `var`, the header is what is cut. -/
theorem bare_eq (formed : header.WellFormed) (spelling : EachSpelling) :
    (if "var ".toList.isPrefixOf (header.written spelling) then (header.written spelling).drop 4
      else header.written spelling) = header.bare spelling := by
  unfold written
  cases declared : header.declared with
  | true => simp
  | false =>
    have other : "var ".toList.isPrefixOf (header.bare spelling) = false := by
      refine Bool.eq_false_iff.mpr fun starts => formed.unreserved declared ?_
      obtain ⟨behind, same⟩ := List.isPrefixOf_iff_prefix.mp starts
      -- Both texts start with a word, and something that belongs to no word is behind it.
      have words := congrArg (List.takeWhile Text.isWordChar) same
      obtain ⟨c, others, link, ends⟩ :
          ∃ c others, spelling.link = c :: others ∧ Text.isWordChar c = false := by
        cases spelling <;> exact ⟨_, _, rfl, by decide⟩
      rw [bare, link, List.takeWhile_append_of_pos fun c member =>
          Text.isWordChar_of_identifier formed.identifier member,
        List.cons_append, List.takeWhile_cons_of_neg (by simp [ends]), List.append_nil] at words
      exact words.symm
    simp only [Bool.false_eq_true, if_false, other]

end WellFormed

/-- A header is split into the name and the expression of the loop that is run for it. -/
theorem splitEach?_written (formed : header.WellFormed) (spelling : EachSpelling) :
    splitEach? (header.written spelling) =
      some ((header.taken spelling).name, (header.taken spelling).source) := by
  unfold splitEach?
  simp only [formed.bare_eq]
  have blankless : ' ' ∉ header.name := fun member => by
    have solid := formed.solid member
    revert solid
    decide
  cases spelling with
  | colon =>
    have listed : header.bare .colon = listed ':' [header.name, header.source] := rfl
    rw [listed, splitTopLevel_listed (by simp [formed.name_isPart, formed.source_isPart])]
    rfl
  | within =>
    -- Nothing stands behind a colon, so the first `in` between spaces cuts the header.
    have part : IsPart ':' (header.bare .within) := formed.bare_isPart (.inr rfl) (by decide)
    have cut : Text.cut? " in ".toList (header.bare .within) = some (header.name, header.source) := by
      have start : Text.cut? " in ".toList (" in ".toList ++ header.source) = some ([], header.source) :=
        Text.cut?_start rfl _
      have behind : Text.cut? " in ".toList (header.bare .within) = _ := Text.cut?_behind rfl blankless _
      exact behind.trans ((congrArg (Option.map _) start).trans (by simp))
    simp only [part.splitTopLevel_eq, cut, Option.some_or, Option.map_some, formed.name_isPart.trimmed,
      formed.source_isPart.trimmed]
    rfl
  | drawn =>
    -- `in` is tried before `of`: one in the expression cuts the header within that.
    have part : IsPart ':' (header.bare .drawn) := formed.bare_isPart (.inr rfl) (by decide)
    have inner : Text.cut? " in ".toList (header.bare .drawn) =
        (Text.cut? " in ".toList (' ' :: header.source)).map fun parts =>
          (header.name ++ (" of".toList ++ parts.1), parts.2) := by
      have behind : Text.cut? " in ".toList (header.bare .drawn) = _ := Text.cut?_behind rfl blankless _
      have passed : Text.cut? " in ".toList (' ' :: ("of ".toList ++ header.source)) = _ :=
        Text.cut?_passed rfl
      have word : Text.cut? " in ".toList ("of".toList ++ ' ' :: header.source) = _ :=
        Text.cut?_behind rfl (by decide) _
      exact behind.trans ((congrArg (Option.map _) (passed.trans (congrArg (Option.map _) word))).trans
        (by simp [Option.map_map, Function.comp_def]))
    have outer : Text.cut? " of ".toList (header.bare .drawn) = some (header.name, header.source) := by
      have start : Text.cut? " of ".toList (" of ".toList ++ header.source) = some ([], header.source) :=
        Text.cut?_start rfl _
      have behind : Text.cut? " of ".toList (header.bare .drawn) = _ := Text.cut?_behind rfl blankless _
      exact behind.trans ((congrArg (Option.map _) start).trans (by simp))
    simp only [part.splitTopLevel_eq, inner, outer]
    unfold taken
    cases Text.cut? " in ".toList (' ' :: header.source) with
    | none => simp [formed.name_isPart.trimmed, formed.source_isPart.trimmed]
    | some parts => rfl

/-- Behind `of`, an expression without `in` between spaces is taken as it is. -/
theorem taken_drawn (absent : Text.occurs " in ".toList (' ' :: header.source) = false) :
    header.taken .drawn = header := by
  have uncut : Text.cut? " in ".toList (' ' :: header.source) = none := by
    rw [Text.occurs, Option.isSome_eq_false_iff, Option.isNone_iff_eq_none] at absent
    rw [Text.cut?, absent, Option.map_none]
  simp only [taken, uncut]

/-- The name that is taken instead of the one in front of `of` has a space in it, so that no script
can read what it holds. -/
theorem taken_parted (formed : header.WellFormed)
    (occurs : Text.occurs " in ".toList (' ' :: header.source) = true) :
    ' ' ∈ (header.taken .drawn).name := by
  obtain ⟨⟨name, source⟩, cut⟩ : ∃ parts, Text.cut? " in ".toList (' ' :: header.source) = some parts := by
    rw [← Option.isSome_iff_exists, Text.cut?, Option.isSome_map]
    exact occurs
  -- The blank in front of `of` stays, as the word stands behind it.
  have kept : header.name ++ " of".toList <+: Text.trim (header.name ++ " of".toList ++ name) := by
    obtain ⟨c, head, solid⟩ := formed.name_starts
    refine Text.prefix_trim (fun first same => ?_) (fun last same => ?_) name
    · rw [List.head?_append, head, Option.some_or] at same
      cases same
      exact solid
    · rw [List.getLast?_append_of_ne_nil _ (by simp)] at same
      cases same
      decide
  have named : (header.taken .drawn).name = Text.trim (header.name ++ " of".toList ++ name) := by
    simp only [taken, cut, List.append_assoc]
  rw [named]
  exact kept.subset (by simp)

/-- The loop stands at a cursor, with a header of some spelling and a body; what fails in it is
attributed to a site. -/
structure Stands (header : EachHeader) (spelling : EachSpelling) (body : List Char) (site : Site)
    (cursor : Cursor) : Prop where
  headed : ∃ after, cursor.rest = '(' :: (header.written spelling ++ ')' :: after)
  bodied : ∃ behind, (cursor.advanceBy ((header.written spelling).length + 2)).readBody =
    .ok (body, behind) ∧ behind.site = site

/-- The statement runs the loop that its header is taken for. -/
theorem Stands.runFor_eq {body : List Char} {site : Site} {cursor : Cursor}
    (stands : header.Stands spelling body site cursor) (formed : header.WellFormed) (eval : Evaluator) :
    Prod.fst <$> runFor eval cursor = (header.taken spelling).run eval site body := by
  obtain ⟨after, headed⟩ := stands.headed
  obtain ⟨behind, bodied, rfl⟩ := stands.bodied
  have part := formed.written_isPart spelling
  -- The header is read up to its bracket, and split as it is taken.
  have runs : runFor eval cursor =
      (header.taken spelling).run eval behind.site body >>= fun value => pure (value, behind) := by
    unfold runFor
    rw [readBalanced_text rfl part.balanced.lax headed]
    simp only [Eval.ofRead, pure_bind, bodied, part.splitTopLevel_eq]
    unfold runEach
    rw [splitEach?_written formed]
    rfl
  rw [runs, map_bind]
  simp only [map_pure, bind_pure]

end EachHeader

/-- A loop over elements with a colon and one with `in` are the same computation: the expression is
evaluated, and the name holds each of its elements in turn. One with `of` is this computation too,
exactly if no `in` between spaces is in its expression, inside or outside of literals; otherwise the
name holds nothing, and the loop is one over what stands behind that `in`. -/
theorem each_spellings_agree {header : EachHeader} (formed : header.WellFormed) :
    (∀ (eval : Evaluator) (spelling : EachSpelling) (body : List Char) (site : Site) (cursor : Cursor),
      header.Stands spelling body site cursor →
      Prod.fst <$> runFor eval cursor = (header.taken spelling).run eval site body) ∧
    header.taken .colon = header ∧ header.taken .within = header ∧
    (header.taken .drawn = header ↔ Text.occurs " in ".toList (' ' :: header.source) = false) ∧
    (Text.occurs " in ".toList (' ' :: header.source) = true → ' ' ∈ (header.taken .drawn).name) := by
  refine ⟨fun eval spelling body site cursor stands => stands.runFor_eq formed eval, rfl, rfl,
    ⟨fun same => ?_, EachHeader.taken_drawn⟩, EachHeader.taken_parted formed⟩
  refine Bool.eq_false_iff.mpr fun occurs => ?_
  have parted := EachHeader.taken_parted formed occurs
  rw [same] at parted
  have solid := formed.solid parted
  revert solid
  decide

/-- A loop over the characters of a literal with `in` between spaces. -/
def literalHeader : EachHeader := ⟨false, ['x'], "\"a in b\"".toList⟩

/-- Behind `of`, the loop over the literal is one over half of it. -/
theorem each_spellings_agree_literal :
    literalHeader.WellFormed ∧
    Prod.fst <$> runFor (evaluator 3) (.ofText ⟨"loop", 1⟩ "(x in \"a in b\"){}".toList) =
      literalHeader.run (evaluator 3) ⟨"loop", 1⟩ [] ∧
    Prod.fst <$> runFor (evaluator 3) (.ofText ⟨"loop", 1⟩ "(x of \"a in b\"){}".toList) =
      EachHeader.run ⟨false, "x of \"a".toList, "b\"".toList⟩ (evaluator 3) ⟨"loop", 1⟩ [] := by
  -- The literal is the expression of a well-formed header.
  have formed : literalHeader.WellFormed := {
    identifier := by decide +kernel
    unreserved := by decide
    starts := ⟨'"', rfl, by decide⟩
    ends := fun c last => by
      cases last
      decide
    balanced := by decide }
  have agree := (each_spellings_agree formed).1
  exact ⟨formed, agree _ .within _ _ _ ⟨⟨_, rfl⟩, _, rfl, rfl⟩,
    agree _ .drawn _ _ _ ⟨⟨_, rfl⟩, _, rfl, rfl⟩⟩

end ScriptEngine
