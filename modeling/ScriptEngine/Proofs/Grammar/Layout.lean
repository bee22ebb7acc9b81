import ScriptEngine.Proofs.Grammar.Tree
import ScriptEngine.Proofs.Source.Passage

/-! How the text of an expression begins, what can stand behind it, and which characters it keeps
inside groups and literals. -/

namespace ScriptEngine

open Cursor

variable {gap : Char → Char → Bool} {level : Nat} {rest text : List Char} {operator : Operator}

/-! The operators of a level. -/

/-- The operators of a level, in the order in which they are looked for. -/
def Operator.ofLevel (level : Nat) : List Operator := Operator.levels[level]?.getD []

/-- The operators of a level are those of its precedence. -/
theorem Operator.mem_ofLevel (member : operator ∈ Operator.ofLevel level) :
    operator.precedence = level := by
  -- There are six levels, each with few operators.
  match level with
  | 0 | 1 | 2 | 3 | 4 | 5 =>
    simp only [ofLevel, levels, List.getElem?_cons_zero, List.getElem?_cons_succ, Option.getD_some,
      List.mem_cons, List.not_mem_nil, or_false] at member
    rcases member with rfl | rfl | rfl | rfl <;> rfl
  | level + 6 => cases member

/-- The levels from one on are that level and the tighter ones. -/
theorem Operator.drop_levels (below : level < 6) :
    Operator.levels.drop level = Operator.ofLevel level :: Operator.levels.drop (level + 1) := by
  match level, below with
  | 0, _ | 1, _ | 2, _ | 3, _ | 4, _ | 5, _ => rfl

/-- Every operator is on one of the six levels. -/
theorem Operator.precedence_lt (operator : Operator) : operator.precedence < 6 := by
  cases operator with
  | or | and => decide
  | binary op => cases op <;> decide

/-- No expression binds tighter than one without an operator. -/
theorem Expr.level_le (expr : Expr) : expr.level ≤ 6 := by
  cases expr with
  | join operator left right => exact Nat.le_of_lt operator.precedence_lt
  | number | string | constant | named | sign | unread => simp [level]

/-! What stands behind an operand. -/

/-- The characters that can stand behind an operand. -/
def stoppers : List Char :=
  [';', ',', ':', ')', ']', '}', '|', '&', '=', '!', '<', '>', '+', '-', '*', '/', '%']

/-- An operand of a level ends in front of a text: it is empty, or starts with a character that ends
every operand or with a looser operator. -/
def Stops (level : Nat) (rest : List Char) : Prop :=
  rest = [] ∨ headIs endsOperand rest = true ∨
    ∃ operator : Operator, operator.precedence < level ∧ operator.symbol.toList <+: rest

/-- The symbol of an operator starts with a character that shows its level. -/
theorem Operator.symbol_head (operator : Operator) :
    ∃ c tail, operator.symbol.toList = c :: tail ∧ c ∈ stoppers ∧ endsOperand c = false ∧
      ∀ other : Operator, other.symbol.toList.head? = some c →
        other.precedence = operator.precedence := by
  -- The operators with one first character are on one level.
  have same : ∀ first second : BinaryOp,
      (Operator.binary first).symbol.toList.head? = (Operator.binary second).symbol.toList.head? →
        (Operator.binary first).precedence = (Operator.binary second).precedence := by
    intro first second
    cases first <;> cases second <;> decide
  cases operator with
  | or =>
    refine ⟨'|', ['|'], rfl, by decide, by decide, fun other head => ?_⟩
    cases other with
    | or => rfl
    | and => cases head
    | binary op => cases op <;> cases head
  | and =>
    refine ⟨'&', ['&'], rfl, by decide, by decide, fun other head => ?_⟩
    cases other with
    | or => cases head
    | and => rfl
    | binary op => cases op <;> cases head
  | binary op =>
    have shape : ∃ c tail, (Operator.binary op).symbol.toList = c :: tail ∧ c ∈ stoppers ∧
        endsOperand c = false ∧ c ≠ '|' ∧ c ≠ '&' := by
      cases op <;> exact ⟨_, _, rfl, by decide⟩
    obtain ⟨c, tail, starts, stopper, inner, bar, ampersand⟩ := shape
    refine ⟨c, tail, starts, stopper, inner, fun other head => ?_⟩
    cases other with
    | or => exact absurd (Option.some.inj head).symm bar
    | and => exact absurd (Option.some.inj head).symm ampersand
    | binary other => exact same other op (by rw [head, starts]; rfl)

/-- Where an operand of a level ends, an operand of a tighter one ends. -/
theorem Stops.mono {tighter : Nat} (stops : Stops level rest) (le : level ≤ tighter) :
    Stops tighter rest := by
  -- The three ways to end do not depend on the level, but for the bound on the operator.
  rcases stops with ended | closed | ⟨operator, looser, starts⟩
  · exact .inl ended
  · exact .inr (.inl closed)
  · exact .inr (.inr ⟨operator, by omega, starts⟩)

/-- An operand ends in front of a looser operator. -/
theorem Stops.symbol (looser : operator.precedence < level) (rest : List Char) :
    Stops level (operator.symbol.toList ++ rest) :=
  .inr (.inr ⟨operator, looser, List.prefix_append _ _⟩)

/-- What stands behind an operand is nothing, or starts with one of few characters. -/
theorem Stops.head (stops : Stops level rest) : ∀ c, rest.head? = some c → c ∈ stoppers := by
  intro c starts
  -- Nothing follows, a character that ends every operand, or an operator.
  rcases stops with rfl | closed | ⟨operator, _, symbol⟩
  · cases starts
  · cases rest with
    | nil => cases starts
    | cons first rest =>
      cases starts
      simp only [headIs, endsOperand, Canonical.isCloser, Bool.or_eq_true, beq_iff_eq] at closed
      simp only [stoppers, List.mem_cons]
      grind
  · obtain ⟨first, tail, shape, stopper, _⟩ := operator.symbol_head
    obtain ⟨behind, rfl⟩ := symbol
    rw [shape] at starts
    cases starts
    exact stopper

/-- Behind an operand of a level, none of its operators follows. -/
theorem Stops.operator?_eq_none {cursor : Cursor} {tighter : Nat} (stops : Stops level cursor.rest)
    (le : level ≤ tighter) : cursor.operator? (Operator.ofLevel tighter) = none := by
  -- No operator of the level starts the text, so that none is found.
  have absent : (Operator.ofLevel tighter).find? (fun operator => cursor.startsWith operator.symbol) =
      none := by
    rw [List.find?_eq_none]
    intro operator member starts
    -- An operator of the level that starts the text would be the one that it stops at.
    have same := Operator.mem_ofLevel member
    obtain ⟨c, tail, shape, _, inner, unique⟩ := operator.symbol_head
    obtain ⟨behind, taken⟩ := List.isPrefixOf_iff_prefix.mp starts
    rw [shape, List.cons_append] at taken
    rcases stops with ended | closed | ⟨other, looser, symbol⟩
    · rw [ended] at taken
      cases taken
    · rw [← taken, headIs, inner] at closed
      cases closed
    · -- The other operator starts with the same character and is on the same level.
      obtain ⟨first, others, shapeOther, _⟩ := other.symbol_head
      obtain ⟨more, takenOther⟩ := symbol
      rw [shapeOther, ← taken, List.cons_append] at takenOther
      have heads : first = c := (List.cons.inj takenOther).1
      have level := unique other (by rw [shapeOther, heads]; rfl)
      omega
  unfold operator?
  rw [absent]
  rfl

/-! How operands begin. -/

/-- Whether a character can be the first of an operand. -/
def startsOperand (c : Char) : Bool :=
  c == '(' || c == '"' || c == '.' || c == '!' || c == '-' || c.isDigit || Text.isWordStart c

/-- The first character of an operand belongs to no operator or step in front of it, a minus sign
aside. -/
theorem startsOperand_clear {c : Char} (starts : startsOperand c = true) :
    c ∉ ['=', '+', '*', '/', ' ', '\n'] :=
  not_mem_of_none (by decide) starts

/-- No operand starts with a space. -/
theorem startsOperand_ne_space {c : Char} (starts : startsOperand c = true) : c ≠ ' ' :=
  fun same => startsOperand_clear starts (by simp [same])

/-- An operator and its operand stand side by side or have a space between them. -/
theorem prefixed_cases (gap : Char → Char → Bool) (symbol text : List Char) :
    prefixed gap symbol text = symbol ++ text ∨
      ∃ last c tail, symbol.getLast? = some last ∧ text = c :: tail ∧ gap last c = true ∧
        prefixed gap symbol text = symbol ++ ' ' :: text := by
  unfold prefixed
  split
  -- There is a last character in front of the space and a first one behind it.
  case h_1 last next lastOf nextOf =>
    split
    case isTrue parted =>
      obtain ⟨tail, rfl⟩ := List.head?_eq_some_iff.mp nextOf
      exact .inr ⟨last, next, tail, lastOf, rfl, parted, rfl⟩
    case isFalse => exact .inl rfl
  case h_2 => exact .inl rfl

/-- An operator stands in front of its operand. -/
theorem prefixed_append (gap : Char → Char → Bool) (symbol text : List Char) :
    ∃ others, prefixed gap symbol text = symbol ++ others := by
  rcases prefixed_cases gap symbol text with same | ⟨_, _, _, _, _, _, same⟩
  · exact ⟨_, same⟩
  · exact ⟨_, same⟩

/-- An operator and its operand take at least their own characters. -/
theorem le_length_prefixed (gap : Char → Char → Bool) (symbol text : List Char) :
    symbol.length + text.length ≤ (prefixed gap symbol text).length := by
  rcases prefixed_cases gap symbol text with same | ⟨_, _, _, _, _, _, same⟩ <;>
    rw [same] <;> simp only [List.length_append, List.length_cons] <;> omega

/-- A space stands between an operator and its operand if there is a gap between their characters. -/
theorem prefixed_cons {symbol : List Char} {last next : Char} (ends : symbol.getLast? = some last)
    (tail : List Char) :
    prefixed gap symbol (next :: tail) =
      symbol ++ ((if gap last next then [' '] else []) ++ next :: tail) := by
  simp only [prefixed, ends, List.head?_cons]
  split <;> rfl

/-- An operator is followed by nothing that makes another token out of it. -/
def Operator.Clear (operator : Operator) (c : Char) : Prop := c ≠ '=' ∧ operator.fuses c = false

/-- In front of its operand, an operator is followed by nothing that makes another token out of it. -/
theorem prefixed_clear {c : Char} (operator : Operator) (starts : startsOperand c = true)
    (tail : List Char) :
    ∃ next behind, prefixed adjacentSigns operator.symbol.toList (c :: tail) =
      operator.symbol.toList ++ next :: behind ∧ operator.Clear next := by
  have clear := startsOperand_clear starts
  simp only [List.mem_cons, List.not_mem_nil, or_false, not_or] at clear
  obtain ⟨equals, plus, star, slash, space, _⟩ := clear
  by_cases minus : operator = .binary .subtract ∧ c = '-'
  · -- Two minus signs have a space between them.
    obtain ⟨rfl, rfl⟩ := minus
    exact ⟨' ', '-' :: tail, rfl, by decide, by decide⟩
  · have fuses : operator.fuses c = false := by
      cases operator with
      | or | and => rfl
      | binary op =>
        cases op <;> simp_all [Operator.fuses]
    rcases prefixed_cases adjacentSigns operator.symbol.toList (c :: tail) with joined | parted
    · exact ⟨c, tail, joined, equals, fuses⟩
    · obtain ⟨_, _, _, _, _, _, same⟩ := parted
      refine ⟨' ', c :: tail, same, by decide, ?_⟩
      cases operator with
      | or | and => rfl
      | binary op => cases op <;> decide

/-- The symbol of an operator that is followed by its operand is found. -/
theorem operator?_symbol {cursor : Cursor} (operator : Operator)
    (shape : cursor.rest = operator.symbol.toList ++ rest)
    (clear : operator = .or ∨ operator = .and ∨ ∃ c tail, rest = c :: tail ∧ operator.Clear c) :
    cursor.operator? (Operator.ofLevel operator.precedence) = some operator := by
  -- It is the first operator of its level with which the text starts.
  have found : (Operator.ofLevel operator.precedence).find?
      (fun operator => cursor.startsWith operator.symbol) = some operator := by
    simp only [startsWith, shape]
    cases operator with
    | or | and => rfl
    | binary op =>
      obtain ⟨c, tail, rfl, equals, _⟩ : ∃ c tail, rest = c :: tail ∧ (Operator.binary op).Clear c := by
        simpa using clear
      have parted : ('=' == c) = false := by simpa using Ne.symm equals
      cases op <;> simp [Operator.ofLevel, Operator.levels, Operator.precedence, Operator.symbol,
        BinaryOp.symbol, List.isPrefixOf, parted]
  -- What stands behind the symbol makes no other token of it.
  have behind : cursor.peek operator.symbol.length = rest.head? := by
    rw [peek, shape, ← String.length_toList, List.getElem?_append_right (Nat.le_refl _), Nat.sub_self,
      List.head?_eq_getElem?]
  have fuses : ∀ c, rest.head? = some c → operator.fuses c = false := by
    intro c head
    rcases clear with rfl | rfl | ⟨next, tail, rfl, _, fuses⟩
    · rfl
    · rfl
    · cases head
      exact fuses
  rw [operator?, found, Option.bind_eq_bind, Option.bind_some, behind]
  cases head : rest.head? with
  | none => rfl
  | some c => simp [fuses c head]

/-- A text that starts like an operand. -/
def Begins (text : List Char) : Prop := ∃ c tail, text = c :: tail ∧ startsOperand c = true

namespace Begins

/-- What stands behind a text does not change how it begins. -/
theorem append (begins : Begins text) (rest : List Char) : Begins (text ++ rest) := by
  obtain ⟨c, tail, rfl, starts⟩ := begins
  exact ⟨c, tail ++ rest, rfl, starts⟩

/-- What begins like an operand does not begin with a space. -/
theorem head_ne_space (begins : Begins text) : text.head? ≠ some ' ' := by
  obtain ⟨c, tail, rfl, starts⟩ := begins
  exact fun same => startsOperand_ne_space starts (Option.some.inj same)

/-- A text in brackets begins like an operand. -/
theorem bracket {needed : Bool} (begins : needed = false → Begins text) :
    Begins (bracket needed text) := by
  cases needed with
  | true => exact ⟨'(', text ++ [')'], rfl, rfl⟩
  | false => exact begins rfl

/-- A sign begins an operand. -/
theorem sign (gap : Char → Char → Bool) (mark : Sign) (text : List Char) :
    Begins (prefixed gap [mark.symbol] text) := by
  have starts : startsOperand mark.symbol = true := by cases mark <;> rfl
  obtain ⟨others, same⟩ := prefixed_append gap [mark.symbol] text
  exact ⟨_, others, same, starts⟩

end Begins

/-- A number literal begins with a digit or with its point. -/
theorem Numeral.begins (numeral : Numeral) : Begins numeral.text := by
  unfold text point
  -- Without digits in front of the point there are some behind it.
  cases shape : numeral.whole with
  | cons digit others =>
    have starts : startsOperand digit.val = true := by simp [startsOperand, digit.property]
    exact ⟨digit.val, _, rfl, starts⟩
  | nil =>
    have fraction : numeral.fraction ≠ [] := by simpa [shape] using numeral.written
    rw [if_neg fraction]
    exact ⟨'.', _, rfl, rfl⟩

/-- A name begins with a letter or an underscore. -/
theorem Name.begins (name : Name) : Begins name.text := by
  obtain ⟨⟨first, identifier⟩, members, _⟩ := name
  unfold text
  cases first with
  | nil => cases identifier
  | cons c rest =>
    rw [Text.isIdentifier, Bool.and_eq_true] at identifier
    exact ⟨c, _, rfl, by simp [startsOperand, identifier.1]⟩

namespace Expr

/-- An expression of a tight operator, or of none, begins like an operand, as one does that has a
meaning. -/
theorem print_begins (values : Name → Option Value) (expr : Expr)
    (tight : 3 ≤ expr.level ∨ (expr.value? values).isSome = true) : Begins (expr.print gap) := by
  -- The first operand of a tight operator is one of a tight operator, or in brackets.
  induction expr with
  | number numeral => exact numeral.begins
  | string pieces => exact ⟨'"', _, rfl, rfl⟩
  | constant literal => cases literal <;> exact ⟨_, _, rfl, by decide⟩
  | named name => exact name.begins
  | sign mark operand _ => exact .sign gap mark _
  | join operator left right ihLeft _ =>
    refine .append (.bracket fun bare => ihLeft ?_) _
    have inner : operator.precedence ≤ left.level := by simpa using bare
    rcases tight with tight | meaning
    · exact .inl (Nat.le_trans tight inner)
    · refine .inr ?_
      rw [value?] at meaning
      cases found : left.value? values with
      | none => rw [found] at meaning; cases meaning
      | some result => rfl
  | unread text =>
    rcases tight with tight | meaning
    · exact absurd tight (by simp [Expr.level])
    · cases meaning

/-- Where only tight operators stand without brackets, an expression begins like an operand. -/
theorem within_begins (expr : Expr) (tight : 3 ≤ level) : Begins (expr.within gap level) := by
  refine .bracket fun bare => print_begins (fun _ => none) expr (.inl ?_)
  have inner : level ≤ expr.level := by simpa using bare
  exact Nat.le_trans tight inner

end Expr

/-! The characters that an operand keeps inside groups and literals. -/

/-- Whether no operand of a level reaches past a character outside groups and literals. -/
def endsLevel (level : Nat) (c : Char) : Bool :=
  endsOperand c || (c == '|' && 1 ≤ level) || (c == '&' && 2 ≤ level)

/-- What ends an operand of a level ends every tighter one. -/
theorem endsLevel_mono {tighter : Nat} (le : level ≤ tighter) {c : Char}
    (ends : endsLevel level c = true) : endsLevel tighter c = true := by
  simp only [endsLevel, Bool.or_eq_true, Bool.and_eq_true, decide_eq_true_eq] at ends ⊢
  rcases ends with (ended | ⟨bar, above⟩) | ⟨ampersand, above⟩
  · exact .inl (.inl ended)
  · exact .inl (.inr ⟨bar, by omega⟩)
  · exact .inr ⟨ampersand, by omega⟩

/-- What ends an operand of some level may end every operand. -/
theorem endsAnyOperand_of {c : Char} (ends : endsLevel level c = true) : endsAnyOperand c = true := by
  simp only [endsLevel, endsAnyOperand, Bool.or_eq_true, Bool.and_eq_true] at ends ⊢
  rcases ends with (ended | ⟨bar, _⟩) | ⟨ampersand, _⟩
  · exact .inl (.inl ended)
  · exact .inl (.inr bar)
  · exact .inr ampersand

/-- The characters that structure a text or separate operands in it. -/
def separators : List Char := structural ++ [',', ':', '|', '&']

/-- Text without separators is balanced. -/
theorem balanced_of_clear (clear : ∀ c ∈ text, c ∉ separators) : Balanced endsAnyOperand text := by
  refine .bare (fun c member => ?_) fun c member structured => ?_
  · have absent := clear c member
    simp only [separators, structural, List.mem_append, List.mem_cons, List.not_mem_nil, or_false,
      not_or] at absent
    simp [endsAnyOperand, endsOperand, Canonical.isCloser, absent]
  · exact clear c member (List.mem_append_left _ structured)

/-- The characters of numbers, words and names are no separators. -/
theorem separators_clear {c : Char} (inner : isNumeral c = true ∨ Text.isWordChar c = true) :
    c ∉ separators := by
  rcases inner with numeral | word
  · exact not_mem_of_none (by decide) numeral
  · exact not_mem_of_none (by decide) word

/-- The characters of a number literal. -/
theorem Numeral.mem_text {numeral : Numeral} {c : Char} (member : c ∈ numeral.text) :
    isNumeral c = true := by
  -- Digits stand in front of the point, behind it, and in the exponent.
  have digits : ∀ (digits : List Digit) (c : Char), c ∈ digitsText digits → isNumeral c = true := by
    intro digits c member
    simp [isNumeral, isDigit_of_mem member]
  unfold text point at member
  simp only [List.mem_append] at member
  rcases member with whole | point | exponent
  · exact digits _ c whole
  · split at point
    · cases point
    · rcases List.mem_cons.mp point with rfl | fraction
      · rfl
      · exact digits _ c fraction
  · cases shape : numeral.exponent with
    | none =>
      rw [shape] at exponent
      cases exponent
    | some power =>
      rw [shape] at exponent
      simp only [Option.map_some, Option.getD_some, Exponent.text, List.mem_cons,
        List.mem_append] at exponent
      -- The mark, the sign and the digits of the exponent are characters of numbers.
      rcases exponent with rfl | sign | others
      · rcases power.marks with same | same <;> rw [same] <;> rfl
      · rcases power.signs with same | same | same <;> rw [same] at sign <;> simp at sign
        all_goals
          subst sign
          rfl
      · exact digits _ c others

/-- The characters of a word are those of words. -/
theorem Text.isWordChar_of_identifier {text : List Char} (identifier : Text.isIdentifier text = true)
    {c : Char} (member : c ∈ text) : Text.isWordChar c = true := by
  cases text with
  | nil => cases member
  | cons first rest =>
    simp only [Text.isIdentifier, Bool.and_eq_true, List.all_eq_true] at identifier
    -- The first character is a letter or an underscore.
    rcases List.mem_cons.mp member with rfl | behind
    · simp only [Text.isWordStart, Bool.or_eq_true] at identifier
      rcases identifier.1 with letter | underscore
      · simp [Text.isWordChar, letter]
      · simp [Text.isWordChar, underscore]
    · exact identifier.2 c behind

/-- The characters of a name are those of words, and points. -/
theorem Name.mem_text {name : Name} {c : Char} (member : c ∈ name.text) :
    c = '.' ∨ Text.isWordChar c = true := by
  rw [text, membersText, List.mem_append, List.mem_flatMap] at member
  rcases member with first | ⟨other, _, inner⟩
  · exact .inr (Text.isWordChar_of_identifier name.first.property first)
  · rcases List.mem_cons.mp inner with rfl | word
    · exact .inl rfl
    · exact .inr (Text.isWordChar_of_identifier other.property word)

/-- The pieces of a string literal are read up to the quote behind them. -/
theorem literalContent?_pieces (pieces : List Piece) (rest : List Char) :
    literalContent? (pieces.flatMap Piece.text ++ '"' :: rest) =
      some (pieces.flatMap Piece.content, (pieces.flatMap Piece.text).length + 1) := by
  -- The induction is on the pieces; the reader takes one at a time.
  induction pieces with
  | nil => simp [literalContent?]
  | cons piece pieces ih =>
    cases piece with
    | plain c bare =>
      -- A plain piece is neither a quote nor a backslash.
      have read : literalContent? (c :: (pieces.flatMap Piece.text ++ '"' :: rest)) =
          (literalContent? (pieces.flatMap Piece.text ++ '"' :: rest)).map fun found =>
            (c :: found.1, found.2 + 1) := by
        rw [literalContent?]
        · exact bare.1
        · exact fun same => absurd same bare.2
        · exact fun _ _ same => absurd same bare.2
      simpa [Piece.text, Piece.content, ih] using read
    | escape c =>
      simp [Piece.text, Piece.content, literalContent?, ih]

/-- A string literal is balanced. -/
theorem balanced_literal (pieces : List Piece) :
    Balanced endsAnyOperand ('"' :: (pieces.flatMap Piece.text ++ ['"'])) := by
  -- The quote at the end is the one that closes the literal.
  have closed : Nesting.read? endsAnyOperand ⟨[], .inside⟩ (pieces.flatMap Piece.text ++ ['"']) =
      some {} := by
    have read : Nesting.read? endsAnyOperand ⟨[], .inside⟩ _ = _ :=
      literalContent?_read (literalContent?_pieces pieces [])
    rwa [List.take_of_length_le (by simp)] at read
  exact closed

/-- A text of some level is balanced where tighter ones stand in brackets. -/
theorem balanced_bracket {own : Nat}
    (balanced : ∀ {level}, level ≤ own → Balanced (endsLevel level) text) :
    Balanced (endsLevel level) (bracket (own < level) text) := by
  -- In brackets all is allowed that is balanced; without them the level is high enough.
  by_cases looser : own < level
  · have inner : Balanced (endsLevel 0) text := balanced (Nat.zero_le own)
    have allowed : endsLevel level '(' = false := by simp [endsLevel]; decide
    simp only [bracket, looser, decide_true, if_true]
    exact inner.lax.group rfl allowed
  · simp only [bracket, looser, decide_false, Bool.false_eq_true, if_false]
    exact balanced (Nat.le_of_not_lt looser)

/-- The symbol of an operator is passed by the operands of its level and of looser ones. -/
theorem balanced_symbol (operator : Operator) (le : level ≤ operator.precedence) :
    Balanced (endsLevel level) operator.symbol.toList := by
  -- Only the operators that may skip their operands end those of other levels.
  cases operator with
  | or =>
    obtain rfl : level = 0 := Nat.le_zero.mp le
    decide
  | and =>
    have two : level = 0 ∨ level = 1 := by
      simp only [Operator.precedence] at le
      omega
    rcases two with rfl | rfl <;> decide
  | binary op =>
    have balanced : Balanced endsAnyOperand (Operator.binary op).symbol.toList := by
      cases op <;> decide
    exact balanced.mono fun _ => endsAnyOperand_of

/-- An operator and its operand are balanced if both are. -/
theorem balanced_prefixed {avoid : Char → Bool} {symbol : List Char} (first : Balanced avoid symbol)
    (second : Balanced avoid text) (space : avoid ' ' = false) :
    Balanced avoid (prefixed gap symbol text) := by
  rcases prefixed_cases gap symbol text with same | ⟨_, _, _, _, _, _, same⟩
  · rw [same]
    exact first.append second
  · rw [same]
    have blank : Balanced avoid [' '] := .bare (by simp [space]) (by simp [structural])
    exact first.append (blank.append second)

namespace Expr

/-- What ends the operands of a level stands in an expression of that level or a tighter one only
inside groups and literals. -/
theorem print_balanced (expr : Expr) (le : level ≤ expr.level) :
    Balanced (endsLevel level) (expr.print gap) := by
  -- Operands without operators contain nothing that separates operands outside of literals.
  have ends : ∀ {level : Nat} {text : List Char}, Balanced endsAnyOperand text →
      Balanced (endsLevel level) text := fun balanced => balanced.mono fun _ => endsAnyOperand_of
  -- The induction is on the expression; brackets close what is in them.
  induction expr generalizing level with
  | number numeral =>
    exact ends (balanced_of_clear fun c member => separators_clear (.inl (Numeral.mem_text member)))
  | string pieces => exact ends (balanced_literal pieces)
  | constant literal => cases literal with
    | yes | no | null => exact ends (by rw [print]; decide)
  | named name =>
    refine ends (balanced_of_clear fun c member => ?_)
    rcases Name.mem_text member with rfl | word
    · decide
    · exact separators_clear (.inr word)
  | sign mark operand ih =>
    have symbol : Balanced endsAnyOperand [mark.symbol] := by cases mark <;> decide
    have inner : Balanced (endsLevel 6) (bracket (operand.level < 6) (operand.print gap)) :=
      balanced_bracket ih
    exact balanced_prefixed (ends symbol) (inner.mono fun _ => endsLevel_mono le)
      (by simp [endsLevel]; decide)
  | join operator left right ihLeft ihRight =>
    have first : Balanced (endsLevel operator.precedence)
        (bracket (left.level < operator.precedence) (left.print gap)) := balanced_bracket ihLeft
    -- The right operand is one level tighter, and so is what may stand in it.
    have second : Balanced (endsLevel (operator.precedence + 1))
        (bracket (right.level < operator.precedence + 1) (right.print gap)) := balanced_bracket ihRight
    have looser : level ≤ operator.precedence + 1 := Nat.le_succ_of_le le
    exact (first.mono fun _ => endsLevel_mono le).append
      (balanced_prefixed (balanced_symbol operator le) (second.mono fun _ => endsLevel_mono looser)
        (by simp [endsLevel]; decide))
  | unread text => exact ends text.property

/-- What ends the operands of a level stands in an operand of that level only inside groups and
literals. -/
theorem within_balanced (expr : Expr) (level : Nat) :
    Balanced (endsLevel level) (expr.within gap level) :=
  balanced_bracket expr.print_balanced

end Expr

/-! Operands that are skipped. -/

/-- The operators at which the right operand of one that may skip it ends. -/
def Operator.skipTokens : Operator → List String
  | .or => ["||"]
  | .and => ["&&", "||"]
  | .binary _ => []

/-- An operator that skips its right operand if that cannot change the result. -/
def Operator.Skips (operator : Operator) : Prop := operator = .or ∨ operator = .and

/-- The scan for the end of an operand stops at what ends operands of its level. -/
theorem Operator.Skips.stops (skips : operator.Skips) (stops : Stops (operator.precedence + 1) rest) :
    rest = [] ∨ (headIs endsOperand rest ||
      operator.skipTokens.any (·.toList.isPrefixOf rest)) = true := by
  rcases stops with ended | closed | ⟨other, looser, starts⟩
  · exact .inl ended
  · exact .inr (by rw [closed, Bool.true_or])
  · -- Only the two operators that skip are that loose.
    have listed : other.symbol ∈ operator.skipTokens := by
      rcases skips with rfl | rfl
      · cases other with
        | or => decide
        | and => simp [precedence] at looser
        | binary op => cases op <;> simp [precedence] at looser
      · cases other with
        | or | and => decide
        | binary op => cases op <;> simp [precedence] at looser
    refine .inr ?_
    rw [Bool.or_eq_true, List.any_eq_true]
    exact .inr ⟨_, listed, List.isPrefixOf_iff_prefix.mpr starts⟩

/-- The scan for the end of an operand does not stop at what its text may contain. -/
theorem Operator.Skips.goesOn (skips : operator.Skips) {c : Char} (rest : List Char)
    (inner : endsLevel (operator.precedence + 1) c = false) :
    (headIs endsOperand (c :: rest) ||
      operator.skipTokens.any (·.toList.isPrefixOf (c :: rest))) = false := by
  rcases skips with rfl | rfl
  · simp [endsLevel, precedence] at inner
    simp [headIs, skipTokens, List.isPrefixOf, inner, Ne.symm inner.2]
  · simp [endsLevel, precedence] at inner
    simp [headIs, skipTokens, List.isPrefixOf, inner, Ne.symm inner.2, Ne.symm inner.1.2]

/-- A right operand that is skipped is passed as a whole, whatever it contains. -/
theorem skipOperand_text {cursor : Cursor} (skips : operator.Skips)
    (balanced : Balanced (endsLevel (operator.precedence + 1)) text)
    (shape : cursor.rest = text ++ rest) (stops : Stops (operator.precedence + 1) rest) :
    cursor.skipOperand operator.skipTokens = cursor.advanceBy text.length := by
  let stop : List Char → Bool := fun here =>
    headIs endsOperand here || operator.skipTokens.any (·.toList.isPrefixOf here)
  -- The scan passes the text and stops right behind it, or reaches the end there.
  have passed : distanceTo? cursor.rest stop =
      scan (fun depth here => depth == 0 && stop here) .outside 0 text.length rest := by
    have passes : scan (fun depth here => depth == 0 && stop here) .outside 0 0 (text ++ rest) =
        scan (fun depth here => depth == 0 && stop here) .outside 0 (0 + text.length) rest :=
      Nesting.scan_passes (fun c rest inner _ => skips.goesOn rest inner) balanced 0 rest
    rw [Nat.zero_add] at passes
    rw [shape]
    exact passes
  -- The way to the end of the operand is the length of its text in both cases.
  have here : (distanceTo? cursor.rest stop).getD cursor.left = text.length := by
    rw [passed]
    rcases skips.stops stops with ended | stopped
    · rw [ended, scan, Option.getD_none, left_eq_length, shape, ended, List.append_nil]
    · cases rest with
      | nil =>
        rw [scan, Option.getD_none, left_eq_length, shape, List.append_nil]
      | cons c rest =>
        have stopsHere : stop (c :: rest) = true := stopped
        simp only [scan, stopsHere, beq_self_eq_true, Bool.and_true, if_true, Option.getD_some]
  unfold skipOperand
  exact congrArg cursor.advanceBy here

end ScriptEngine
