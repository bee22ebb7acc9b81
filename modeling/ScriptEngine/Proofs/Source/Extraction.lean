import ScriptEngine.Proofs.Source.Canonical
import ScriptEngine.Proofs.Source.Passage

/-! What is taken out of brackets in canonical text: the group up to the partner of the bracket, and
properly nested again. -/

namespace ScriptEngine

open Canonical (closer? isCloser)
open Cursor

/-- What stands between the quotes of a literal: characters other than quotes, and pairs of a
backslash and any character. -/
inductive LiteralBody : List Char → Prop where
  | nil : LiteralBody []
  | plain {c : Char} {rest : List Char} (unquoted : c ≠ '"') (slash : c ≠ '\\')
      (behind : LiteralBody rest) : LiteralBody (c :: rest)
  | escape {c : Char} {rest : List Char} (behind : LiteralBody rest) : LiteralBody ('\\' :: c :: rest)

/-- A run of whole literals and of characters outside literals, brackets or not. -/
inductive Unquoted : List Char → Prop where
  | nil : Unquoted []
  | plain {c : Char} {rest : List Char} (unquoted : c ≠ '"') (behind : Unquoted rest) :
    Unquoted (c :: rest)
  | literal {body rest : List Char} (content : LiteralBody body) (behind : Unquoted rest) :
    Unquoted ('"' :: body ++ '"' :: rest)

/-- A run of whole literals, of groups whose brackets are of one kind, and of characters that are
neither quotes nor brackets. -/
inductive ProperlyNested : List Char → Prop where
  | nil : ProperlyNested []
  | plain {c : Char} {rest : List Char} (unquoted : c ≠ '"') (opens : closer? c = none)
      (closes : isCloser c = false) (behind : ProperlyNested rest) : ProperlyNested (c :: rest)
  | literal {body rest : List Char} (content : LiteralBody body) (behind : ProperlyNested rest) :
    ProperlyNested ('"' :: body ++ '"' :: rest)
  | group {opener closer : Char} {inner rest : List Char} (opens : closer? opener = some closer)
      (within : ProperlyNested inner) (behind : ProperlyNested rest) :
    ProperlyNested (opener :: inner ++ closer :: rest)

variable {body text rest due : List Char} {opener closer c : Char}

/-- The text behind a literal is read as code again. -/
theorem LiteralBody.read? {avoid : Char → Bool} (content : LiteralBody body) :
    Nesting.read? avoid ⟨due, .inside⟩ (body ++ '"' :: rest) =
      Nesting.read? avoid ⟨due, .outside⟩ rest := by
  induction content with
  | nil => simp [Nesting.read?, Nesting.step?, Quoting.next]
  | plain unquoted slash _ ih => simpa [Nesting.read?, Nesting.step?, Quoting.next, unquoted, slash] using ih
  | escape _ ih => simpa [Nesting.read?, Nesting.step?, Quoting.next] using ih

/-- Behind a literal, code goes on. -/
theorem LiteralBody.quoting (content : LiteralBody body) :
    (body ++ '"' :: rest).foldl Quoting.next .inside = rest.foldl Quoting.next .outside := by
  induction content with
  | nil => simp [Quoting.next]
  | plain unquoted slash _ ih => simpa [Quoting.next, unquoted, slash] using ih
  | escape _ ih => simpa [Quoting.next] using ih

/-- No literal is left open. -/
theorem Unquoted.outside (unquoted : Unquoted text) :
    text.foldl Quoting.next .outside = .outside := by
  induction unquoted with
  | nil => rfl
  | plain unquoted _ ih => simpa [Quoting.next, unquoted] using ih
  | literal content _ ih => simpa [Quoting.next, content.quoting] using ih

/-- Each group of a properly nested text is closed by the bracket that is due. -/
theorem ProperlyNested.balanced (nested : ProperlyNested text) : Balanced nothing text := by
  -- The induction is on the way in which the text is put together.
  induction nested with
  | nil => exact .nil
  | @plain c rest unquoted opens closes _ ih =>
    have regrouped : Nesting.regroup? [] c = some [] := by simp [Nesting.regroup?, opens, closes]
    unfold Balanced
    rw [Nesting.read?_outside regrouped fun _ => rfl]
    simp only [Quoting.next, if_neg unquoted]
    exact ih
  | literal content _ ih =>
    have regrouped : Nesting.regroup? [] '"' = some [] := rfl
    unfold Balanced
    rw [List.cons_append, Nesting.read?_outside regrouped fun _ => rfl]
    exact content.read?.trans ih
  | group opens _ _ within behind =>
    simpa using (within.group opens rfl).append behind

/-- A text closes the groups that `due` names, one after another, and is properly nested between. -/
def ClosesAll : List Char → List Char → Prop
  | [], text => ProperlyNested text
  | closer :: due, text =>
    ∃ inner rest, text = inner ++ closer :: rest ∧ ProperlyNested inner ∧ ClosesAll due rest

/-- What may stand in front of any properly nested text may stand in front of the first group. -/
theorem ClosesAll.prepend (closes : ClosesAll due text) (first : List Char)
    (joins : ∀ rest, ProperlyNested rest → ProperlyNested (first ++ rest)) :
    ClosesAll due (first ++ text) := by
  cases due with
  | nil => exact joins text closes
  | cons closer due =>
    obtain ⟨inner, rest, rfl, nested, behind⟩ := closes
    exact ⟨first ++ inner, rest, by rw [List.append_assoc], joins inner nested, behind⟩

/-- What a text has to be that is read from a place in code or in a literal. -/
def ClosesFrom (due : List Char) : Quoting → List Char → Prop
  | .outside, text => ClosesAll due text
  | .inside, text => ∃ body rest, text = body ++ '"' :: rest ∧ LiteralBody body ∧ ClosesAll due rest
  | .escaped, text =>
    ∃ c body rest, text = c :: body ++ '"' :: rest ∧ LiteralBody body ∧ ClosesAll due rest

/-- A bracket or another character goes in front of what stands in the groups behind it. -/
theorem ClosesAll.regrouped {opened : List Char} (behind : ClosesAll opened text)
    (regroups : Nesting.Regroups c due opened) (unquoted : c ≠ '"') : ClosesAll due (c :: text) := by
  cases regroups with
  | @opens closer _ opens =>
    -- The group that the bracket opens comes in front of the first piece behind it.
    obtain ⟨inner, rest, rfl, nested, closes⟩ := behind
    have joined := closes.prepend (c :: inner ++ [closer])
      fun rest behind => by simpa using ProperlyNested.group opens nested behind
    simpa using joined
  | closes => exact ⟨[], text, rfl, .nil, behind⟩
  | keeps none plain => exact behind.prepend [c] fun rest nested => nested.plain unquoted none plain

/-- A text that closes the open groups consists of what has to stand in each of them. -/
theorem closesFrom_of_read {quoting : Quoting}
    (read : Nesting.read? nothing ⟨due, quoting⟩ text = some {}) : ClosesFrom due quoting text := by
  -- The induction is on the text, with the groups that are open so far.
  induction text generalizing due quoting with
  | nil =>
    cases read
    exact .nil
  | cons c text ih =>
    obtain ⟨⟨opened, next⟩, first, behind⟩ := Option.bind_eq_some_iff.mp read
    obtain rfl : next = quoting.next c := Nesting.step?_quoting first
    -- What stands behind the character closes what is open there, and the character goes in front
    -- of it.
    have pieces := ih behind
    cases quoting with
    | inside =>
      obtain rfl : due = opened := by
        cases first
        rfl
      by_cases slash : c = '\\'
      · subst slash
        obtain ⟨c, body, rest, rfl, content, closes⟩ := pieces
        exact ⟨_, rest, rfl, content.escape, closes⟩
      by_cases quote : c = '"'
      · subst quote
        exact ⟨[], text, rfl, .nil, pieces⟩
      · simp only [Quoting.next, slash, quote, if_false] at pieces
        obtain ⟨body, rest, rfl, content, closes⟩ := pieces
        exact ⟨c :: body, rest, rfl, content.plain quote slash, closes⟩
    -- Whatever is escaped belongs to the literal.
    | escaped =>
      cases first
      obtain ⟨body, rest, rfl, content, closes⟩ := pieces
      exact ⟨c, body, rest, rfl, content, closes⟩
    | outside =>
      simp only [Nesting.step?, if_true, nothing, Bool.false_eq_true, and_false, if_false] at first
      obtain ⟨_, regrouped, same⟩ := Option.map_eq_some_iff.mp first
      cases same
      by_cases quote : c = '"'
      · -- A literal goes whole in front of the first piece behind it.
        subst quote
        cases regrouped
        obtain ⟨body, rest, rfl, content, closes⟩ := pieces
        have joined := closes.prepend ('"' :: body ++ ['"'])
          fun rest nested => by simpa using nested.literal content
        simpa [ClosesFrom] using joined
      · -- An opening bracket adds a group, a closing one ends the innermost, and any other goes
        -- along.
        simp only [Quoting.next, if_neg quote] at pieces
        exact ClosesAll.regrouped pieces (Nesting.regroup?_eq_some.mp regrouped) quote

/-- A text is balanced exactly if it is properly nested. -/
theorem balanced_iff_properlyNested : Balanced nothing text ↔ ProperlyNested text := by
  refine ⟨fun balanced => ?_, ProperlyNested.balanced⟩
  have read : Nesting.read? nothing ⟨[], .outside⟩ text = some {} := balanced
  exact closesFrom_of_read read

/-- Canonical text is properly nested. -/
theorem Canonical.ofSource_properlyNested {source file : String} {canonical : Canonical}
    (accepted : Canonical.ofSource source file = .ok canonical) : ProperlyNested canonical.text :=
  balanced_iff_properlyNested.mp (Canonical.ofSource_balanced accepted)

/-- Behind a properly nested text only one closing bracket can be the first without a partner. -/
theorem ProperlyNested.eq_of_closers {other : List Char} {closing : Char} {behind : List Char}
    (nested : ProperlyNested text) (nestedToo : ProperlyNested other)
    (closes : isCloser closer = true) (closesToo : isCloser closing = true)
    (same : text ++ closer :: rest = other ++ closing :: behind) : text = other := by
  -- One of the two would go on behind the bracket of the other, which nothing in it opens.
  have bounded : ∀ {inner outer more : List Char} {c : Char}, ProperlyNested inner →
      ProperlyNested outer → isCloser c = true → outer ≠ inner ++ c :: more := by
    rintro inner outer more c nested nestedToo closes rfl
    have balanced := nestedToo.balanced
    unfold Balanced at balanced
    rw [Nesting.read?_append, nested.balanced, Option.bind_some] at balanced
    obtain ⟨next, first, _⟩ := Option.bind_eq_some_iff.mp balanced
    exact absurd closes (by simp [(Nesting.step?_bare first).2])
  rcases List.append_eq_append_iff.mp same with ⟨more, rfl, tail⟩ | ⟨more, rfl, tail⟩
  · cases more with
    | nil => simp
    | cons c more =>
      cases tail
      exact absurd rfl (bounded nested nestedToo closes)
  · cases more with
    | nil => simp
    | cons c more =>
      cases tail
      exact absurd rfl (bounded nestedToo nested closesToo)

namespace Cursor

variable {cursor behind : Cursor} {inner : List Char}

/-- A place is at an opening bracket outside literals. -/
structure AtOpener (cursor : Cursor) (opener closer : Char) : Prop where
  opens : closer? opener = some closer
  current : cursor.current = some opener
  unquoted : Unquoted (cursor.source.text.take cursor.pos)

/-- The position behind a text that was passed. -/
theorem pos_of_rest (source : behind.source = cursor.source)
    (shape : cursor.rest = text ++ behind.rest) : behind.pos = cursor.pos + text.length := by
  have lengths := congrArg List.length shape
  have before := cursor.pos_le
  have after := behind.pos_le
  rw [List.length_append, cursor.rest_eq, behind.rest_eq, List.length_drop, List.length_drop,
    source] at lengths
  rw [source] at after
  omega

/-- From an opening bracket in properly nested text the group up to its partner is read. -/
theorem AtOpener.readBalanced (stands : cursor.AtOpener opener closer)
    (nested : ProperlyNested cursor.source.text) :
    ∃ inner behind, cursor.readBalanced opener closer = .ok (inner, behind) ∧
      behind.source = cursor.source ∧ cursor.rest = opener :: inner ++ closer :: behind.rest ∧
      ProperlyNested inner := by
  -- Nested text has a group open wherever a bracket has been opened.
  obtain ⟨due, within⟩ := within_of_balanced nested.balanced stands.unquoted.outside
  have tight : opener ≠ ' ' := by
    rintro rfl
    cases stands.opens
  -- No space is skipped in front of the bracket.
  have still : cursor.skipSpaces = cursor := skipSpaces_cons (rest_of_current stands.current) tight
  have starts : cursor.skipSpaces.current = some opener := by rw [still, stands.current]
  obtain ⟨inner, behind, read, source, balanced, shape⟩ :=
    readBalanced_within stands.opens within starts
  rw [still] at shape
  exact ⟨inner, behind, read, source, shape, balanced_iff_properlyNested.mp balanced⟩

/-- The text of a source, or what was read from an opening bracket in such a text. -/
inductive Extracted (canonical : Canonical) : List Char → Prop where
  | whole : Extracted canonical canonical.text
  | group {cursor behind : Cursor} {opener closer : Char} {inner : List Char}
      (within : Extracted canonical cursor.source.text) (stands : cursor.AtOpener opener closer)
      (read : cursor.readBalanced opener closer = .ok (inner, behind)) : Extracted canonical inner

/-- Every text that is taken out of canonical text is properly nested. -/
theorem Extracted.properlyNested {source file : String} {canonical : Canonical}
    (accepted : Canonical.ofSource source file = .ok canonical)
    (extracted : Extracted canonical text) : ProperlyNested text := by
  -- The induction is on the brackets that the text was taken out of.
  induction extracted with
  | whole => exact Canonical.ofSource_properlyNested accepted
  | group _ stands read ih =>
    obtain ⟨inner, behind, same, _, _, nested⟩ := stands.readBalanced ih
    cases same.symm.trans read
    exact nested

end Cursor

/-- From each opening bracket outside literals, in canonical text and in all that is taken out of it
in this way, reading the group succeeds and comes out behind the partner of the bracket: a closing
bracket of its kind, and the only one with properly nested text up to it. What is read is properly
nested. -/
theorem balanced_extraction_sound {source file : String} {canonical : Canonical}
    (accepted : Canonical.ofSource source file = .ok canonical) {cursor : Cursor}
    (extracted : Extracted canonical cursor.source.text) {opener closer : Char}
    (stands : cursor.AtOpener opener closer) :
    ∃ inner behind, cursor.readBalanced opener closer = .ok (inner, behind) ∧
      behind.source = cursor.source ∧ behind.pos = cursor.pos + inner.length + 2 ∧
      cursor.rest = opener :: inner ++ closer :: behind.rest ∧
      (∀ other closing rest, ProperlyNested other → isCloser closing = true →
        cursor.rest = opener :: other ++ closing :: rest → other = inner) ∧
      ProperlyNested inner ∧ Extracted canonical inner := by
  obtain ⟨inner, behind, read, source, shape, nested⟩ :=
    stands.readBalanced (extracted.properlyNested accepted)
  -- The partner of an opening bracket is a closing one.
  have closes : isCloser closer = true := by
    have opens := stands.opens
    unfold closer? at opens
    split at opens <;> cases opens <;> rfl
  have passed : cursor.rest = (opener :: inner ++ [closer]) ++ behind.rest := by simp [shape]
  have position := pos_of_rest source passed
  -- The position follows from the length of what was passed.
  refine ⟨inner, behind, read, source, ?_, shape, ?_, nested, extracted.group stands read⟩
  · simp only [List.length_append, List.length_cons, List.length_nil] at position
    omega
  · -- Another text up to such a closer would be nested too, which only one of them can be.
    intro other closing rest nestedToo closesToo same
    rw [shape] at same
    simp only [List.cons_append, List.cons.injEq, true_and] at same
    exact (nested.eq_of_closers nestedToo closes closesToo same).symm

/-- The canonical text of a call with a bracket in a literal of its first argument. -/
def callWithMap : Canonical := ⟨"f(\x7ba:\"x)\"\x7d,[1]);".toList.map (·, 1)⟩

/-- The place behind the name that is called. -/
def callArguments : Cursor := (ofCanonical callWithMap "main").moveTo 1

/-- The arguments of the call are read as a whole, up to the parenthesis that is not in the literal,
and out of them the entries of the map. -/
theorem balanced_extraction_sound_nested :
    ∃ behind next, callArguments.readBalanced '(' ')' = .ok ("\x7ba:\"x)\"\x7d,[1]".toList, behind) ∧
      behind.rest = [';'] ∧
      (behind.child "\x7ba:\"x)\"\x7d,[1]".toList).readBalanced '{' '}' =
        .ok ("a:\"x)\"".toList, next) ∧
      ProperlyNested "a:\"x)\"".toList := by
  -- The literal between single quotes gets double ones, and the parenthesis in it stays.
  have accepted : Canonical.ofSource "f( \x7ba: 'x)'\x7d, [1] );" "main" = .ok callWithMap := rfl
  have atCall : callArguments.AtOpener '(' ')' := ⟨rfl, rfl, .plain (by decide) .nil⟩
  obtain ⟨arguments, behind, read, _, _, _, _, _, extracted⟩ :=
    balanced_extraction_sound accepted .whole atCall
  have whole : callArguments.readBalanced '(' ')' =
    .ok ("\x7ba:\"x)\"\x7d,[1]".toList, callArguments.moveTo 15) := rfl
  cases whole.symm.trans read
  let inside := (callArguments.moveTo 15).child "\x7ba:\"x)\"\x7d,[1]".toList
  -- What was read is a text of its own, in which the map starts.
  have atMap : inside.AtOpener '{' '}' := ⟨rfl, rfl, .nil⟩
  have within : Extracted callWithMap inside.source.text := extracted
  obtain ⟨entries, next, readMap, _, _, _, _, nested, _⟩ :=
    balanced_extraction_sound accepted within atMap
  have part : inside.readBalanced '{' '}' = .ok ("a:\"x)\"".toList, inside.moveTo 8) := rfl
  cases part.symm.trans readMap
  exact ⟨_, _, whole, rfl, part, nested⟩

end ScriptEngine
