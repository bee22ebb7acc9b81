import ScriptEngine.Proofs.Collection.Edits
import ScriptEngine.Proofs.Grammar.Container

/-! Data as it is written in a source, and that it is read back. -/

namespace ScriptEngine

open Cursor

/-- What a part of a source writes down: a value, or something of what stands in brackets. -/
inductive Datum where
  | value (value : Value)
  | elements (values : List Value)
  | entry (key : String) (value : Value)
  | entries (entries : List (String × Value))

/-- A source writes data down: strings and keys stand between either quotes, and between any two tokens
there can be white space and comments. At most `height` brackets are inside each other. -/
inductive Written : Nat → Datum → List Char → Prop where
  | null {height : Nat} : Written height (.value .null) "null".toList
  | number {height : Nat} (numeral : Numeral) :
    Written height (.value (.number numeral.value)) numeral.text
  | negative {height : Nat} (numeral : Numeral) :
    Written height (.value (.number (-numeral.value))) ('-' :: numeral.text)
  | string {height : Nat} {quote : Char} (quoted : quote = '"' ∨ quote = '\'') (content : String) :
    Written height (.value (.string content)) (quote :: (escapedText quote content.toList ++ [quote]))
  | spaced {height : Nat} {value : Value} {source : List Char} (front behind : List Filler)
      (written : Written height (.value value) source) :
    Written height (.value value) (gapText front ++ (source ++ gapText behind))
  | emptyArray {height : Nat} (gap : List Filler) :
    Written (height + 1) (.value (.array [])) ('[' :: (gapText gap ++ [']']))
  | array {height : Nat} {values : List Value} {source : List Char}
      (written : Written height (.elements values) source) :
    Written (height + 1) (.value (.array values)) ('[' :: (source ++ [']']))
  | emptyMap {height : Nat} (gap : List Filler) :
    Written (height + 1) (.value (.map [])) ('{' :: (gapText gap ++ ['}']))
  | map {height : Nat} {entries : List (String × Value)} {source : List Char}
      (distinct : (entries.map (·.1)).Nodup) (written : Written height (.entries entries) source) :
    Written (height + 1) (.value (.map entries)) ('{' :: (source ++ ['}']))
  | lastElement {height : Nat} {value : Value} {source : List Char}
      (written : Written height (.value value) source) : Written height (.elements [value]) source
  | element {height : Nat} {value : Value} {values : List Value} {source others : List Char}
      (written : Written height (.value value) source)
      (behind : Written height (.elements values) others) :
    Written height (.elements (value :: values)) (source ++ ',' :: others)
  | entry {height : Nat} {quote : Char} {value : Value} {source : List Char}
      (quoted : quote = '"' ∨ quote = '\'') (key : String) (front behind : List Filler)
      (written : Written height (.value value) source) :
    Written height (.entry key value)
      (gapText front ++ (quote :: (escapedText quote key.toList ++ [quote]) ++ gapText behind) ++
        ':' :: source)
  | lastEntry {height : Nat} {key : String} {value : Value} {source : List Char}
      (written : Written height (.entry key value) source) :
    Written height (.entries [(key, value)]) source
  | entries {height : Nat} {key : String} {value : Value} {entries : List (String × Value)}
      {source others : List Char} (written : Written height (.entry key value) source)
      (behind : Written height (.entries entries) others) :
    Written height (.entries ((key, value) :: entries)) (source ++ ',' :: others)

variable {base : Engine} {file : String} {height depth : Nat} {text source : List Char} {value : Value}

/-- Entries with new and distinct keys are added behind the others in their order. -/
theorem Collection.Holds.insertEntries {α : Type} {collection : Collection α}
    {held : List (Collection.Entry α)} {rest : List (String × α)} (holds : collection.Holds held)
    (distinct : (held.filterMap (·.1) ++ rest.map (·.1)).Nodup) :
    (rest.foldl (fun collection entry => collection.insertKey entry.1 entry.2) collection).Holds
      (held ++ rest.map fun entry => (some entry.1, entry.2)) := by
  -- The keys that are still to come are none of those that are there already.
  induction rest generalizing held collection with
  | nil => simpa using holds
  | cons entry rest ih =>
    obtain ⟨key, value⟩ := entry
    have absent : held.any (·.1 == some key) = false := by
      rw [List.any_eq_false]
      intro other member same
      have named : key ∈ held.filterMap (·.1) :=
        List.mem_filterMap.mpr ⟨other, member, eq_of_beq same⟩
      exact (List.nodup_append.mp distinct).2.2 key named key (by simp) rfl
    have inserted := holds.insertKey key value
    rw [Collection.Entries.insertKey, absent, if_neg Bool.false_ne_true] at inserted
    simpa using ih inserted (by simpa using distinct)

/-- A map with distinct keys has its entries in their order. -/
theorem Collection.ofEntries_lists {α : Type} {entries : List (String × α)}
    (distinct : (entries.map (·.1)).Nodup) :
    (Collection.ofEntries entries).Lists (entries.map fun entry => (some entry.1, entry.2)) := by
  have empty : Collection.Holds (Collection.emptyMap : Collection α) [] := ⟨rfl, rfl, .nil⟩
  exact (empty.insertEntries (by simpa using distinct)).lists

/-- A canonical text is evaluated to a value wherever there is room for so many brackets. -/
def Denotes (base : Engine) (file : String) (height : Nat) (text : List Char) (value : Value) : Prop :=
  ∀ depth, height ≤ depth → EvaluatesTo base file (evaluator depth) 0 text (.ok value)

/-- What is to be known of a source that writes something down: a reader of code brings it into a
canonical text, which is evaluated to what was written down. -/
def Datum.Reads (base : Engine) (file : String) (height : Nat) : Datum → List Char → Prop
  | .value value, source => ∃ text, Canonical.Carries source text ∧ Item text ∧
      Denotes base file height text value
  | .elements values, source => ∃ parts, Canonical.Carries source (listed ',' parts) ∧ parts ≠ [] ∧
      List.Forall₂ (fun part value => Item part ∧ Denotes base file height part value) parts values
  | .entry key value, source => ∃ text, Canonical.Carries source (entryText (key, text)) ∧ Item text ∧
      Denotes base file height text value
  | .entries held, source => ∃ parts, Canonical.Carries source (listed ',' (parts.map entryText)) ∧
      parts ≠ [] ∧ List.Forall₂ (fun part entry => part.1 = entry.1 ∧ Item part.2 ∧
        Denotes base file height part.2 entry.2) parts held

/-- An expression without brackets denotes what it yields. -/
theorem Expr.Yields.denotes {expr : Expr} (yields : expr.Yields base file (.ok value))
    (flat : expr.height = 0) : Denotes base file height expr.text value :=
  fun depth _ => (yields.evaluated depth (by omega)).evaluates (Nat.zero_le _)

/-- A number literal behind a minus sign denotes the number with the sign. -/
theorem denotes_negative (numeral : Numeral) :
    Denotes base file height ('-' :: numeral.text) (.number (-numeral.value)) := by
  intro depth _
  have yields : (Expr.number numeral).Yields base file (.ok (.number numeral.value)) :=
    .number numeral
  obtain ⟨signs, inner, same, signed⟩ :=
    (yields.evaluated depth (Nat.zero_le _)).signed (Nat.le_refl _)
  have negated := (signed.sign numeral.begins .negate).evaluates.loosen (Nat.zero_le _) (Nat.le_refl _)
  -- No space stands between the sign and the number.
  have text : prefixed adjacentSigns [Sign.negate.symbol] (Expr.number numeral).text =
      '-' :: numeral.text := by
    have spelled : (Expr.number numeral).text = numeral.text := rfl
    obtain ⟨c, tail, shape, digital⟩ := numeral.head_eq
    have apart : adjacentSigns '-' c = false := by
      rcases digital with digit | ⟨rfl, -⟩
      · have signs : c ∉ ['+', '-'] := not_mem_of_none (by decide) digit
        simp only [List.mem_cons, List.not_mem_nil, or_false, not_or] at signs
        simp [adjacentSigns, signs]
      · decide
    have last : [Sign.negate.symbol].getLast? = some '-' := rfl
    rw [spelled, shape, prefixed_cons last]
    simp [apart, Sign.symbol]
  have value : (inner.bind fun value => applySigns value (.negate :: signs)) =
      .ok (.number (-numeral.value)) := by
    have applied : (inner.bind fun value => applySigns value (.negate :: signs)) =
        (inner.bind fun value => applySigns value signs).bind Sign.negate.apply := by
      cases inner <;> rfl
    rw [applied, ← same]
    rfl
  rwa [text, value] at negated

/-- A literal without signs is evaluated as an operand of its own. -/
theorem denotes_primary {c : Char} {tail : List Char} (shape : text = c :: tail)
    (unsigned : c ∉ [' ', '!', '-'])
    (primary : ∀ depth, height ≤ depth → ∀ {cursor : Cursor} {rest : List Char}, cursor.file = file →
      cursor.rest = text ++ rest → Settles base (evaluatePrimary (evaluator depth) cursor)
        (.ok (value, none, cursor.advanceBy text.length))) :
    Denotes base file height text value := by
  intro depth deep
  have signed : Signed base file (evaluator depth) text [] (.ok value) := by
    refine Signed.plain shape unsigned fun {cursor next} inFile spans stops => ?_
    have found := primary depth deep inFile spans.2
    rw [← spans.eq_advanceBy] at found
    exact evaluateStepped_settles stops found
  exact signed.evaluates.loosen (Nat.zero_le _) (Nat.le_refl _)

/-- A text of a value is evaluated as a whole, one level deeper than its brackets. -/
theorem Denotes.whole (denotes : Denotes base file height text value) (item : Item text)
    (deep : height < depth) {cursor : Cursor} (inFile : cursor.file = file)
    (whole : cursor.rest = text) : Settles base (evaluateAll (evaluator depth) cursor) (.ok value) := by
  cases depth with
  | zero => exact absurd deep (Nat.not_lt_zero _)
  | succ depth =>
    -- What the text starts with is no sign that nothing is left.
    refine (denotes depth (Nat.le_of_lt_succ deep)).all ?_ inFile whole
    obtain ⟨c, head, solid⟩ := item.starts
    rw [head]
    rintro ⟨⟩
    exact absurd solid (by decide)

/-- What is known of each of two lists side by side is known of the members of the first. -/
theorem forall_of_forall₂ {α β : Type} {related : α → β → Prop} {known : α → Prop} {first : List α}
    {second : List β} (each : List.Forall₂ related first second)
    (follows : ∀ a b, related a b → known a) : ∀ a ∈ first, known a :=
  ((List.forall₂_and_left first second).mp (each.imp fun a b here => ⟨follows a b here, here⟩)).1

/-- Listed elements in brackets denote an array. -/
theorem denotes_array {parts : List (List Char)} {values : List Value}
    (each : List.Forall₂ (fun part value => Item part ∧ Denotes base file height part value)
      parts values) :
    Denotes base file (height + 1) ('[' :: (listed ',' parts ++ [']'])) (.array values) := by
  have areParts : ∀ part ∈ parts, IsPart ',' part :=
    forall_of_forall₂ each fun part value known => known.1.isPart (by decide)
  refine denotes_primary rfl (by decide) fun depth deep cursor rest inFile shape => ?_
  have shape : cursor.rest = '[' :: (listed ',' parts ++ ']' :: rest) := by simpa using shape
  have length : ('[' :: (listed ',' parts ++ [']'])).length = (listed ',' parts).length + 2 := by simp
  rw [evaluatePrimary_array (listed_balanced areParts) shape, splitTopLevel_listed areParts, length]
  -- The elements are evaluated in the file of the array.
  refine (evaluateElements_settles (each.imp fun part value known => ?_)).bind_ok (.pure base _)
  exact known.2.whole known.1 deep (by simpa [Cursor.file, ofText, start, site] using inFile) rfl

/-- Listed entries in braces denote a map. -/
theorem denotes_map {parts : List (String × List Char)} {entries : List (String × Value)}
    (each : List.Forall₂ (fun part entry => part.1 = entry.1 ∧ Item part.2 ∧
      Denotes base file height part.2 entry.2) parts entries) :
    Denotes base file (height + 1) ('{' :: (listed ',' (parts.map entryText) ++ ['}']))
      (.map entries) := by
  have areParts : ∀ part ∈ parts.map entryText, IsPart ',' part := by
    have items := forall_of_forall₂ each fun part entry known => entryText_isPart known.2.1
    exact List.forall_mem_map.mpr items
  refine denotes_primary rfl (by decide) fun depth deep cursor rest inFile shape => ?_
  -- The entries lie between the braces, and each of them is found as a part.
  have shape : cursor.rest = '{' :: (listed ',' (parts.map entryText) ++ '}' :: rest) := by
    simpa using shape
  have length : ('{' :: (listed ',' (parts.map entryText) ++ ['}'])).length =
      (listed ',' (parts.map entryText)).length + 2 := by
    simp
  rw [evaluatePrimary_map (listed_balanced areParts) shape, splitTopLevel_listed areParts, length]
  -- The entries are evaluated in the file of the map.
  refine (evaluateEntries_settles (each.imp fun part entry known => ?_)).bind_ok (.pure base _)
  exact ⟨known.1, known.2.1, known.2.2.whole known.2.1 deep
    (by simpa [Cursor.file, ofText, start, site] using inFile) rfl⟩

/-- Brackets around what is balanced can be listed. -/
theorem item_enclosed {opener closer : Char} (matched : Canonical.closer? opener = some closer)
    (balanced : Balanced nothing text) : Item (opener :: (text ++ [closer])) := by
  obtain ⟨solid, solidEnd, ends, allowed⟩ : Text.isBlank opener = false ∧ Text.isBlank closer = false ∧
      Canonical.endsNoKeyword closer = true ∧ endsAnyOperand opener = false := by
    unfold Canonical.closer? at matched
    split at matched <;> cases matched <;> decide
  exact ⟨⟨opener, rfl, solid⟩, ⟨closer, by simp [List.getLast?_cons], solidEnd, ends⟩,
    balanced.group matched allowed⟩

/-! What is written is carried. -/

/-- Listed texts end with no keyword that keeps a space if none of them does. -/
theorem listed_closed {parts : List (List Char)}
    (each : ∀ part ∈ parts, ∀ c, part.getLast? = some c → Canonical.endsNoKeyword c = true) :
    ∀ c, (listed ',' parts).getLast? = some c → Canonical.endsNoKeyword c = true := by
  intro c ends
  -- The induction is on the parts; the last of them decides, and the marks themselves are no
  -- letters.
  induction parts with
  | nil => cases ends
  | cons part parts ih =>
    cases parts with
    | nil => exact each part List.mem_cons_self c ends
    | cons next parts =>
      rw [listed, List.getLast?_append, List.getLast?_cons] at ends
      cases last : (listed ',' (next :: parts)).getLast? with
      | some other =>
        rw [last] at ends
        cases ends
        exact ih (fun part member => each part (List.mem_cons_of_mem _ member)) last
      | none =>
        rw [last] at ends
        cases ends
        decide

/-- One more listed text. -/
theorem listed_cons {mark : Char} {parts : List (List Char)} (part : List Char) (filled : parts ≠ []) :
    listed mark (part :: parts) = part ++ mark :: listed mark parts := by
  cases parts with
  | nil => exact absurd rfl filled
  | cons next parts => rfl

/-- An entry ends as its value does. -/
theorem entryText_closed {entry : String × List Char} (item : Item entry.2) :
    ∀ c, (entryText entry).getLast? = some c → Canonical.endsNoKeyword c = true := by
  obtain ⟨last, tail, _, closes⟩ := item.ends
  intro c ends
  rw [entryText, List.getLast?_append, List.getLast?_cons, tail] at ends
  cases ends
  exact closes

/-- A string between either quotes is carried as one between double quotes. -/
theorem carries_quoted {quote : Char} (quoted : quote = '"' ∨ quote = '\'') (content : String) :
    Canonical.Carries (quote :: (escapedText quote content.toList ++ [quote])) (keyText content) := by
  refine .ofCopies (.quoted quoted content.toList) ?_
  rcases quoted with rfl | rfl <;> decide

/-- A word or a number is read as it stands. -/
theorem reads_inert {c last : Char} {tail : List Char} (shape : text = c :: tail)
    (inert : ∀ c ∈ text, Text.isInert c = true) (ends : text.getLast? = some last)
    (closed : Canonical.endsNoKeyword last = true) (clear : ∀ c ∈ text, c ∉ separators)
    (denotes : Denotes base file height text value) :
    (Datum.value value).Reads base file height text := by
  -- None of the characters is one that the reader of code treats in its own way.
  have solid : ∀ c ∈ text, c ∉ ['\n', '/'] ++ Text.blanks ∧ Text.isBlank c = false := by
    intro c member
    have plain := Text.inert_clear (inert c member)
    simp only [Text.meaningful, List.cons_append, List.nil_append, List.mem_cons, not_or] at plain ⊢
    obtain ⟨line, -, -, slash, -, -, -, -, -, -, blank⟩ := plain
    exact ⟨⟨line, slash, blank⟩, Bool.eq_false_iff.mpr fun found => blank (Text.mem_blanks found)⟩
  have first : c ∈ text := by
    rw [shape]
    exact List.mem_cons_self
  refine ⟨text, ?_, ⟨⟨c, ?_, (solid c first).2⟩, ⟨last, ends, ?_, closed⟩, balanced_of_clear clear⟩,
    denotes⟩
  · have copies := Canonical.Copies.inert inert
    rw [shape] at copies ⊢
    exact .ofCopies copies (solid c first).1
  · rw [shape]
    rfl
  · exact (solid last (List.mem_of_getLast? ends)).2

/-- A number literal ends with a digit. -/
theorem Numeral.last_digit (numeral : Numeral) :
    ∃ last, numeral.text.getLast? = some last ∧ last.isDigit = true := by
  -- Digits that are there end with one of them, whatever stands in front.
  have digits : ∀ (front : List Char) (digits : List Digit), digits ≠ [] →
      ∃ last, (front ++ digitsText digits).getLast? = some last ∧ last.isDigit = true := by
    intro front digits written
    obtain ⟨last, ends⟩ := Option.isSome_iff_exists.mp
      (List.getLast?_isSome.mpr (mt digitsText_eq_nil.mp written))
    exact ⟨last, by simp [List.getLast?_append, ends], isDigit_of_mem (List.mem_of_getLast? ends)⟩
  unfold text point
  cases numeral.exponent with
  | some exponent =>
    have shape : digitsText numeral.whole ++ ((if numeral.fraction = [] then [] else
          '.' :: digitsText numeral.fraction) ++ exponent.text) =
        (digitsText numeral.whole ++ ((if numeral.fraction = [] then [] else
          '.' :: digitsText numeral.fraction) ++ exponent.mark :: exponent.sign.toList)) ++
            digitsText exponent.digits := by
      simp [Exponent.text]
    simp only [Option.map_some, Option.getD_some]
    rw [shape]
    exact digits _ _ exponent.written
  | none =>
    by_cases fraction : numeral.fraction = []
    · have whole : numeral.whole ≠ [] := numeral.written.resolve_right (absurd fraction)
      simpa [fraction] using digits [] numeral.whole whole
    · simpa [fraction] using digits (digitsText numeral.whole ++ ['.']) numeral.fraction fraction

/-- No keyword that keeps a space ends with a digit. -/
theorem endsNoKeyword_of_digit {c : Char} (digit : c.isDigit = true) :
    Canonical.endsNoKeyword c = true :=
  Canonical.endsNoKeyword_of_kind (fun last => !last.isDigit) (by decide) (by simp [digit])

/-- A number literal is read as it stands. -/
theorem reads_number (numeral : Numeral) :
    (Datum.value (.number numeral.value)).Reads base file height numeral.text := by
  obtain ⟨c, tail, shape, -⟩ := numeral.head_eq
  obtain ⟨last, ends, digit⟩ := numeral.last_digit
  exact reads_inert shape (fun c member => by simp [Text.isInert, Numeral.mem_text member]) ends
    (endsNoKeyword_of_digit digit) (fun c member => separators_clear (.inl (Numeral.mem_text member)))
    ((Expr.Yields.number numeral).denotes rfl)

/-- A number literal behind a minus sign is read as it stands. -/
theorem reads_negative (numeral : Numeral) :
    (Datum.value (.number (-numeral.value))).Reads base file height ('-' :: numeral.text) := by
  obtain ⟨last, ends, digit⟩ := numeral.last_digit
  have numeric : ∀ c ∈ '-' :: numeral.text, isNumeral c = true :=
    List.forall_mem_cons.mpr ⟨by decide, fun c => Numeral.mem_text⟩
  exact reads_inert rfl (fun c member => by simp [Text.isInert, numeric c member])
    (by simp [List.getLast?_cons, ends]) (endsNoKeyword_of_digit digit)
    (fun c member => separators_clear (.inl (numeric c member))) (denotes_negative numeral)

/-- A string between either quotes is read. -/
theorem reads_string {quote : Char} (quoted : quote = '"' ∨ quote = '\'') (content : String) :
    (Datum.value (.string content)).Reads base file height
      (quote :: (escapedText quote content.toList ++ [quote])) := by
  refine ⟨keyText content, carries_quoted quoted content, keyText_item content, ?_⟩
  have yields : (Expr.string (literalPieces content.toList)).Yields base file (.ok (.string
      (String.ofList ((literalPieces content.toList).flatMap Piece.content)))) := .string _
  rw [content_literalPieces, String.ofList_toList] at yields
  exact yields.denotes rfl

/-- An array is read if its elements are. -/
theorem reads_array {values : List Value}
    (reads : (Datum.elements values).Reads base file height source) :
    (Datum.value (.array values)).Reads base file (height + 1) ('[' :: (source ++ [']'])) := by
  obtain ⟨parts, carries, -, each⟩ := reads
  have items : ∀ part ∈ parts, Item part := forall_of_forall₂ each fun _ _ known => known.1
  exact ⟨_, carries.enclosed rfl (listed_closed fun part member => (items part member).closed),
    item_enclosed rfl (listed_balanced fun part member => (items part member).isPart (by decide)),
    denotes_array each⟩

/-- A map is read if its entries are. -/
theorem reads_map {held : List (String × Value)}
    (reads : (Datum.entries held).Reads base file height source) :
    (Datum.value (.map held)).Reads base file (height + 1) ('{' :: (source ++ ['}'])) := by
  obtain ⟨parts, carries, -, each⟩ := reads
  have items : ∀ part ∈ parts, Item part.2 := forall_of_forall₂ each fun _ _ known => known.2.1
  exact ⟨_, carries.enclosed rfl (listed_closed (List.forall_mem_map.mpr fun part member =>
      entryText_closed (items part member))),
    item_enclosed rfl (listed_balanced (List.forall_mem_map.mpr fun part member =>
      entryText_isPart (items part member))),
    denotes_map each⟩

/-- What a source writes down is read. -/
theorem Written.reads {datum : Datum} (written : Written height datum source) :
    datum.Reads base file height source := by
  -- The induction is on how the source is written; each token goes with its canonical text.
  induction written with
  | null =>
    have word : ("null".toList.all Text.isWordChar) = true := by decide +kernel
    rw [List.all_eq_true] at word
    exact reads_inert rfl (fun c member => by simp [Text.isInert, word c member]) rfl
      (by decide +kernel) (fun c member => separators_clear (.inr (word c member)))
      ((Expr.Yields.constant .null).denotes rfl)
  | number numeral => exact reads_number numeral
  | negative numeral => exact reads_negative numeral
  | string quoted content => exact reads_string quoted content
  | spaced front behind _ ih =>
    obtain ⟨text, carries, item, denotes⟩ := ih
    exact ⟨text, carries.spaced front behind, item, denotes⟩
  -- Empty brackets may have a gap between them, which adds nothing.
  | emptyArray gap =>
    refine ⟨_, .enclosed rfl (.gap gap) nofun, item_enclosed rfl .nil, ?_⟩
    exact @denotes_array _ _ _ [] _ .nil
  | array _ ih => exact reads_array ih
  | emptyMap gap =>
    refine ⟨_, .enclosed rfl (.gap gap) nofun, item_enclosed rfl .nil, ?_⟩
    exact @denotes_map _ _ _ [] _ .nil
  | map distinct _ ih => exact reads_map ih
  | lastElement _ ih =>
    obtain ⟨text, carries, item, denotes⟩ := ih
    exact ⟨[text], carries, by simp, .cons ⟨item, denotes⟩ .nil⟩
  -- The text of the elements behind goes on behind a comma.
  | element _ _ ih ihBehind =>
    obtain ⟨text, carries, item, denotes⟩ := ih
    obtain ⟨parts, carriesToo, filled, each⟩ := ihBehind
    refine ⟨text :: parts, ?_, by simp, .cons ⟨item, denotes⟩ each⟩
    rw [listed_cons text filled]
    exact carries.marked item.closed (by decide) carriesToo
  | entry quoted key front behind _ ih =>
    obtain ⟨text, carries, item, denotes⟩ := ih
    -- The key is a string, and gaps may stand around it.
    have key := (carries_quoted quoted key).spaced front behind
    exact ⟨text, key.marked (keyText_item _).closed (by decide) carries, item, denotes⟩
  | lastEntry _ ih =>
    obtain ⟨text, carries, item, denotes⟩ := ih
    exact ⟨[(_, text)], carries, by simp, .cons ⟨rfl, item, denotes⟩ .nil⟩
  | entries _ _ ih ihBehind =>
    obtain ⟨text, carries, item, denotes⟩ := ih
    obtain ⟨parts, carriesToo, filled, each⟩ := ihBehind
    refine ⟨(_, text) :: parts, ?_, by simp, .cons ⟨rfl, item, denotes⟩ each⟩
    rw [List.map_cons, listed_cons _ (by simpa using filled)]
    exact carries.marked (entryText_closed item) (by decide) carriesToo

/-- Data that a source writes down is read back: the source is brought into a canonical text, and this
is evaluated to the value, in every interpreter with room for its brackets. An array holds its elements
in their order and no keys, and a map its keys and values in theirs. -/
theorem written_data_is_read_back (written : Written height (.value value) source) (engine : Engine)
    (file : String) (deep : height < depth) :
    (∃ cursor, Cursor.ofSource (String.ofList source) file = .ok cursor ∧
      Settles engine (evaluateAll (evaluator depth) cursor) (.ok value)) ∧
    (∀ values, value = .array values → ∃ collection, value = .collection collection ∧
      collection.Lists (values.map fun element => (none, element))) ∧
    ∀ entries, value = .map entries → (entries.map (·.1)).Nodup →
      ∃ collection, value = .collection collection ∧
        collection.Lists (entries.map fun entry => (some entry.1, entry.2)) := by
  refine ⟨?_, ?_, ?_⟩
  · -- The source is brought into a text, and this is evaluated.
    have reads : (Datum.value value).Reads engine file height source := written.reads
    obtain ⟨text, carries, item, denotes⟩ := reads
    obtain ⟨canonical, accepted, same⟩ := carries.ofSource file
    have read : Cursor.ofSource (String.ofList source) file = .ok (.ofCanonical canonical file) := by
      rw [Cursor.ofSource, accepted]
      rfl
    have whole : (Cursor.ofCanonical canonical file).rest = text := same
    exact ⟨_, read, denotes.whole item deep rfl whole⟩
  · rintro values rfl
    exact ⟨_, rfl, (Collection.Origin.array values).holds.lists⟩
  · rintro entries rfl distinct
    exact ⟨_, rfl, Collection.ofEntries_lists distinct⟩

/-- The number literal `1`. -/
def oneNumeral : Numeral := ⟨[⟨'1', rfl⟩], [], .inl (by simp), none⟩

/-- A map whose only key contains a quote and a brace, with an array in it. -/
def quotedKeyMap : Value := .map [("'\x7d", .array [.number (-oneNumeral.value), .null])]

/-- The key is written between single quotes, and a comment with a bracket stands in front of the
array. -/
theorem written_data_is_read_back_quotedKey :
    Written 2 (.value quotedKeyMap) "\x7b'\\'\x7d': // [\n[-1,null]\x7d".toList ∧ 2 < 3 ∧
      ∃ cursor, Cursor.ofSource "\x7b'\\'\x7d': // [\n[-1,null]\x7d" "main" = .ok cursor ∧
        Settles {} (evaluateAll (evaluator 3) cursor) (.ok quotedKeyMap) := by
  -- The number and the constant are listed, and the array stands behind a gap.
  have elements : Written 0 (.elements [.number (-oneNumeral.value), .null]) "-1,null".toList :=
    .element (.negative oneNumeral) (.lastElement .null)
  have spaced := (Written.array elements).spaced
    [.blank ' ' (by decide), .lineComment " [".toList (by decide)] []
  have written : Written 2 (.value quotedKeyMap) "\x7b'\\'\x7d': // [\n[-1,null]\x7d".toList :=
    .map (by simp) (.lastEntry (.entry (.inr rfl) "'\x7d" [] [] spaced))
  have deep : 2 < 3 := by decide
  have read := (written_data_is_read_back written {} "main" deep).1
  rw [String.ofList_toList] at read
  exact ⟨written, deep, read⟩

end ScriptEngine
