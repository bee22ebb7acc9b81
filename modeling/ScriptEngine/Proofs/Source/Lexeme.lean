import ScriptEngine.Proofs.Grammar.Spacing
import ScriptEngine.Proofs.Source.Defect

/-! A source as a row of lexemes: white space and comments, characters of the code, and literals. The
reading of a source takes its lexemes one by one. -/

namespace ScriptEngine

open Text

/-- A part of a literal between its quotes. -/
inductive Inner where
  | plain (c : Char)
  | escape (c : Char)
  deriving DecidableEq, Repr

namespace Inner

/-- A part as it is written. -/
def text : Inner → List Char
  | plain c => [c]
  | escape c => ['\\', c]

/-- The characters that a part stands for. -/
def content : Inner → List Char
  | plain c => [c]
  | escape c => Cursor.unescape c

/-- A part can stand between two quotes of a kind. -/
def Within (quote : Char) : Inner → Prop
  | plain c => c ≠ quote ∧ c ≠ '\\'
  | escape _ => True

/-- The part that stands for the same between double quotes. -/
def requoted (quote : Char) : Inner → Inner
  | plain c => if c = '"' then escape '"' else plain c
  | escape c => if c = '\'' ∧ quote = '\'' then plain '\'' else escape c

/-- The line of a part that is read on `line`. A bare line feed counts to the line that it starts. -/
def lineFrom (line : Nat) (part : Inner) : Nat := if part = plain '\n' then line + 1 else line

/-- What is written for a part between double quotes, with its line. -/
def marks (quote : Char) (line : Nat) (part : Inner) : List (Char × Nat) :=
  (part.requoted quote).text.map (·, part.lineFrom line)

end Inner

/-- A part of a source that is read as one. -/
inductive Lexeme where
  /-- White space or a comment. -/
  | gap (filler : Filler)
  /-- A character of the code. -/
  | mark (c : Char)
  | literal (quote : Char) (inner : List Inner)

namespace Lexeme

/-- A lexeme as it is written. -/
def text : Lexeme → List Char
  | gap filler => filler.text
  | mark c => [c]
  | literal quote inner => quote :: (inner.flatMap Inner.text ++ [quote])

/-- A character of the code is neither blank nor a quote, and a literal has its quotes. -/
def Solid : Lexeme → Prop
  | gap _ => True
  | mark c => isBlank c = false ∧ c ≠ '"' ∧ c ≠ '\''
  | literal quote inner => (quote = '"' ∨ quote = '\'') ∧ ∀ part ∈ inner, part.Within quote

/-- A lexeme can stand in front of a text: no slash starts a comment with it. -/
structure Stands (lexeme : Lexeme) (rest : List Char) : Prop where
  solid : lexeme.Solid
  apart : lexeme = mark '/' → ∀ next, rest.head? = some next → next ≠ '/' ∧ next ≠ '*'

/-- White space and comments can stand anywhere. -/
theorem Stands.gap (filler : Filler) (rest : List Char) : (Lexeme.gap filler).Stands rest :=
  ⟨trivial, nofun⟩

/-- A literal can stand anywhere. -/
theorem Stands.literal {quote : Char} {inner : List Inner} (known : quote = '"' ∨ quote = '\'')
    (within : ∀ part ∈ inner, part.Within quote) (rest : List Char) :
    (Lexeme.literal quote inner).Stands rest :=
  ⟨⟨known, within⟩, nofun⟩

end Lexeme

/-- A source is a row of lexemes, with at most a comment without an end behind them. -/
inductive Lexed : List Char → List Lexeme → Prop
  | done : Lexed [] []
  | lineComment {body : List Char} (inLine : '\n' ∉ body) : Lexed ('/' :: '/' :: body) []
  | blockComment {body : List Char} (inside : ¬ ['*', '/'] <:+: body) : Lexed ('/' :: '*' :: body) []
  | lexeme {lexeme : Lexeme} {rest : List Char} {lexemes : List Lexeme} (stands : lexeme.Stands rest)
      (behind : Lexed rest lexemes) : Lexed (lexeme.text ++ rest) (lexeme :: lexemes)

/-- The lexemes of a source are solid. -/
theorem Lexed.solid {source : List Char} {lexemes : List Lexeme} (lexed : Lexed source lexemes) :
    ∀ lexeme ∈ lexemes, lexeme.Solid := by
  induction lexed with
  | done | lineComment | blockComment => exact fun _ member => nomatch member
  | lexeme stands _ ih => exact List.forall_mem_cons.mpr ⟨stands.solid, ih⟩

namespace Canonical

/-- A source goes on in a context: behind the rest of a comment or of a literal there are lexemes. -/
inductive GoesOn : Context → List Char → Prop
  | code {rest : List Char} {lexemes : List Lexeme} (lexed : Lexed rest lexemes) : GoesOn .code rest
  | openLine {body : List Char} (inLine : '\n' ∉ body) : GoesOn .lineComment body
  | line {body rest : List Char} (inLine : '\n' ∉ body) (behind : GoesOn .code rest) :
    GoesOn .lineComment (body ++ '\n' :: rest)
  | openBlock {body : List Char} (inside : ¬ ['*', '/'] <:+: body) : GoesOn .blockComment body
  | block {body rest : List Char} (inside : ¬ ['*', '/'] <:+: body) (behind : GoesOn .code rest) :
    GoesOn .blockComment (body ++ '*' :: '/' :: rest)
  | literal {quote : Char} {opened : Nat} {inner : List Inner} {rest : List Char}
      (within : ∀ part ∈ inner, part.Within quote) (behind : GoesOn .code rest) :
    GoesOn (.literal quote opened) (inner.flatMap Inner.text ++ quote :: rest)

variable {file : String} {progress next : Progress} {quote c : Char} {opened : Nat} {rest : List Char}
  {lexeme : Lexeme} {lexemes : List Lexeme} {canonical : Canonical}

/-- Takes a part of a literal. -/
def Progress.copy (quote : Char) (progress : Progress) (part : Inner) : Progress :=
  { progress with
    emitted := (part.marks quote progress.line).reverse ++ progress.emitted
    line := progress.line + part.text.count '\n' }

/-- Takes a lexeme, unless it is a closing bracket that does not match. -/
def Progress.lexeme? (progress : Progress) : Lexeme → Option Progress
  | .gap filler => some (progress.pass filler.text)
  | .mark c => progress.take? c
  | .literal quote inner =>
    some ((inner.foldl (Progress.copy quote) ((progress.join quote).emit '"')).emit '"')

/-! Reading lexeme by lexeme. -/

/-- A part of a literal is copied. -/
theorem continueFrom_part {part : Inner} (within : part.Within quote) (rest : List Char) :
    continueFrom file (.literal quote opened) progress (part.text ++ rest) =
      continueFrom file (.literal quote opened) (progress.copy quote part) rest := by
  -- A plain character is copied behind a backslash if it is a double quote; an escape keeps its
  -- backslash unless it is a single quote between single quotes.
  cases part with
  | plain c =>
    obtain ⟨other, bare⟩ := within
    have copied : ((if c = '\n' then (if c = '"' then progress.emit '\\' else progress).nextLine
        else if c = '"' then progress.emit '\\' else progress).emit c) =
          progress.copy quote (.plain c) := by
      -- The line is counted before the character is written.
      by_cases feed : c = '\n'
      · subst feed
        rfl
      · by_cases double : c = '"'
        · subst double
          rfl
        · simp [Progress.copy, Inner.marks, Inner.requoted, Inner.text, Inner.lineFrom, feed, double,
            Progress.emit]
    rw [Inner.text, List.singleton_append, continueFrom, if_neg other]
    · exact congrArg (continueFrom file _ · rest) copied
    · exact fun same => absurd same bare
    · exact fun _ _ same => absurd same bare
  | escape c =>
    have lines : ['\\', c].count '\n' = [c].count '\n' := by simp [List.count_cons]
    rw [Inner.text, List.cons_append, List.singleton_append, continueFrom, Progress.nextLine_line]
    by_cases single : c = '\'' ∧ quote = '\''
    · obtain ⟨rfl, rfl⟩ := single
      rfl
    · simp only [single, if_false, Progress.copy, Inner.text, lines]
      simp [Inner.marks, Inner.requoted, Inner.text, Inner.lineFrom, single, Progress.emit]

/-- The parts of a literal are copied up to its closing quote. -/
theorem continueFrom_parts {inner : List Inner} (known : quote = '"' ∨ quote = '\'')
    (within : ∀ part ∈ inner, part.Within quote) (rest : List Char) :
    continueFrom file (.literal quote opened) progress (inner.flatMap Inner.text ++ quote :: rest) =
      continueFrom file .code ((inner.foldl (Progress.copy quote) progress).emit '"') rest := by
  -- The induction is on the parts.
  induction inner generalizing progress with
  | nil =>
    have bare : quote ≠ '\\' := by rcases known with rfl | rfl <;> decide
    rw [List.flatMap_nil, List.nil_append, continueFrom, if_pos rfl]
    · rfl
    · exact fun same => absurd same bare
    · exact fun _ _ same => absurd same bare
  | cons part inner ih =>
    rw [List.flatMap_cons, List.append_assoc, continueFrom_part (within part List.mem_cons_self)]
    exact ih fun other member => within other (List.mem_cons_of_mem _ member)

/-- A lexeme is taken as a whole. -/
theorem continueFrom_lexeme (stands : lexeme.Stands rest) :
    continueFrom file .code progress (lexeme.text ++ rest) =
      (progress.lexeme? lexeme).elim (fail (.imbalance .brackets file progress.line)) fun next =>
        continueFrom file .code next rest := by
  obtain ⟨solid, apart⟩ := stands
  -- White space is passed, a mark is one character of the code, and a literal is opened by its
  -- quote.
  cases lexeme with
  | gap filler => exact continueFrom_filler file progress filler rest
  | mark c =>
    obtain ⟨shown, double, single⟩ := solid
    have feed : c ≠ '\n' := by
      rintro rfl
      exact absurd shown (by decide)
    rw [Lexeme.text, List.singleton_append, continueFrom_code fun slash => apart (by rw [slash])]
    simp [feed, shown, double, single, Progress.lexeme?]
  | literal quote inner =>
    obtain ⟨known, within⟩ := solid
    have plain : quote ≠ '/' ∧ quote ≠ '\n' ∧ isBlank quote = false := by
      rcases known with rfl | rfl <;> decide
    rw [Lexeme.text, List.cons_append, List.append_assoc, List.singleton_append,
      continueFrom_code fun same => absurd same plain.1]
    simp only [plain.2.1, plain.2.2, known, Bool.false_eq_true, if_false, if_true]
    exact continueFrom_parts known within rest

/-- A text is finished if no bracket is open. -/
theorem finish_ok : progress.finish file = .ok canonical ↔
    progress.opened = [] ∧ canonical.marks = progress.emitted.reverse := by
  obtain ⟨marks⟩ := canonical
  unfold Progress.finish
  cases progress.opened with
  | nil => simp [eq_comm]
  | cons bracket outer => simp [fail]

/-- What is finished does not depend on a comment at the end. -/
theorem finish_congr {other : Progress} (emitted : other.emitted = progress.emitted)
    (brackets : other.opened = progress.opened) : other.finish file = progress.finish file := by
  unfold Progress.finish
  rw [emitted, brackets]

/-- A line comment without an end is passed. -/
theorem continueFrom_openLine {body : List Char} (inLine : '\n' ∉ body) :
    continueFrom file .lineComment progress body = progress.finish file := by
  induction body with
  | nil => rfl
  | cons c body ih =>
    simp only [List.mem_cons, not_or] at inLine
    rw [continueFrom, if_neg (Ne.symm inLine.1), ih inLine.2]

/-- A block comment without an end is passed. -/
theorem continueFrom_openBlock {body : List Char} (inside : ¬ ['*', '/'] <:+: body) :
    continueFrom file .blockComment progress body = progress.finish file := by
  -- The induction is on the body; its characters never start the closing mark.
  induction body generalizing progress with
  | nil => rfl
  | cons c body ih =>
    rw [continueFrom]
    · rw [Progress.nextLine_line, ih fun found => inside (List.infix_cons found)]
      exact finish_congr rfl rfl
    · rintro behind rfl rfl
      exact inside ⟨[], behind, rfl⟩

/-- A source is read lexeme by lexeme. -/
theorem continueFrom_lexed {source : List Char} (lexed : Lexed source lexemes) :
    continueFrom file .code progress source = .ok canonical ↔
      ∃ final, lexemes.foldlM Progress.lexeme? progress = some final ∧
        final.finish file = .ok canonical := by
  -- The induction is on the row of lexemes; behind a comment without an end there is none.
  induction lexed generalizing progress with
  | done => simp [continueFrom]
  | lineComment inLine =>
    rw [continueFrom, continueFrom_openLine inLine]
    have same : progress.part.finish file = progress.finish file := finish_congr rfl rfl
    simp [same]
  | blockComment inside =>
    rw [continueFrom, continueFrom_openBlock inside]
    have same : progress.part.finish file = progress.finish file := finish_congr rfl rfl
    simp [same]
  | lexeme stands behind ih =>
    rw [continueFrom_lexeme stands, List.foldlM_cons]
    cases taken : progress.lexeme? _ with
    | none => simp [fail]
    | some next => simpa using ih

namespace GoesOn

/-- A part of a literal stands in front of the others. -/
theorem part (part : Inner) (within : part.Within quote) (goesOn : GoesOn (.literal quote opened) rest) :
    GoesOn (.literal quote opened) (part.text ++ rest) := by
  cases goesOn with
  | @literal _ _ inner rest others behind =>
    have all : ∀ other ∈ part :: inner, other.Within quote :=
      List.forall_mem_cons.mpr ⟨within, others⟩
    rw [← List.append_assoc, ← List.flatMap_cons]
    exact .literal all behind

/-- A lexeme stands in front of the code. -/
theorem before (stands : lexeme.Stands rest) (goesOn : GoesOn .code rest) :
    GoesOn .code (lexeme.text ++ rest) := by
  cases goesOn with
  | code behind => exact .code (.lexeme stands behind)

/-- A character in front of a text that has no end of a comment gives it none, unless they are one. -/
theorem infix_cons {body : List Char} (apart : c = '*' → body.head? ≠ some '/')
    (inside : ¬ ['*', '/'] <:+: body) : ¬ ['*', '/'] <:+: c :: body := by
  rw [List.infix_cons_iff]
  rintro (⟨behind, starts⟩ | found)
  · simp only [List.cons_append, List.nil_append, List.cons.injEq] at starts
    obtain ⟨rfl, rfl⟩ := starts
    exact apart rfl rfl
  · exact inside found

/-- One more character stands in front of the rest of a line comment. -/
theorem inLine (feed : c ≠ '\n') (goesOn : GoesOn .lineComment rest) :
    GoesOn .lineComment (c :: rest) := by
  have other : '\n' ≠ c := Ne.symm feed
  cases goesOn with
  | openLine inLine => exact .openLine (by simp [inLine, other])
  | @line body _ inLine behind =>
    have inLineToo : '\n' ∉ c :: body := by simp [inLine, other]
    exact .line inLineToo behind

/-- One more character stands in front of the rest of a block comment, unless it ends it there. -/
theorem inBlock (apart : ∀ tail, c = '*' → rest = '/' :: tail → False)
    (goesOn : GoesOn .blockComment rest) : GoesOn .blockComment (c :: rest) := by
  -- The rest of the comment may or may not have an end.
  cases goesOn with
  | openBlock inside =>
    refine .openBlock (infix_cons (fun star head => ?_) inside)
    obtain ⟨tail, rfl⟩ := List.head?_eq_some_iff.mp head
    exact apart tail star rfl
  | @block body _ inside behind =>
    have insideToo : ¬ ['*', '/'] <:+: c :: body := by
      refine infix_cons (fun star head => ?_) inside
      obtain ⟨tail, rfl⟩ := List.head?_eq_some_iff.mp head
      exact apart _ star rfl
    exact .block insideToo behind

/-- The mark that starts a line comment stands in front of it in the code. -/
theorem startsLine (goesOn : GoesOn .lineComment rest) : GoesOn .code ('/' :: '/' :: rest) := by
  cases goesOn with
  | openLine inLine => exact .code (.lineComment inLine)
  | @line body rest inLine behind =>
    have whole := before (.gap (.lineComment body inLine) rest) behind
    simpa [Lexeme.text, Filler.text] using whole

/-- The mark that starts a block comment stands in front of it in the code. -/
theorem startsBlock (goesOn : GoesOn .blockComment rest) : GoesOn .code ('/' :: '*' :: rest) := by
  cases goesOn with
  | openBlock inside => exact .code (.blockComment inside)
  | @block body rest inside behind =>
    have whole := before (.gap (.blockComment body inside) rest) behind
    simpa [Lexeme.text, Filler.text] using whole

/-- The quote that opens a literal stands in front of it in the code. -/
theorem startsLiteral (known : quote = '"' ∨ quote = '\'')
    (goesOn : GoesOn (.literal quote opened) rest) : GoesOn .code (quote :: rest) := by
  cases goesOn with
  | @literal _ _ inner rest within behind =>
    have whole := before (.literal known within rest) behind
    simpa [Lexeme.text] using whole

end GoesOn

/-- A character that is read by none of the clauses for comments, white space and quotes stands for
itself. -/
theorem stands_of_clauses (lineComment : ∀ tail, c = '/' → rest = '/' :: tail → False)
    (blockComment : ∀ tail, c = '/' → rest = '*' :: tail → False) (solid : isBlank c = false)
    (unquoted : ¬(c = '"' ∨ c = '\'')) : (Lexeme.mark c).Stands rest := by
  refine ⟨⟨solid, not_or.mp unquoted⟩, fun slash next head => ?_⟩
  cases slash
  obtain ⟨tail, rfl⟩ := List.head?_eq_some_iff.mp head
  exact ⟨fun same => lineComment tail rfl (by rw [same]),
    fun same => blockComment tail rfl (by rw [same])⟩

/-- A source that is read to its end is made of lexemes. -/
theorem continueFrom_goesOn {context : Context} {rest : List Char}
    (ran : continueFrom file context progress rest = .ok canonical) : GoesOn context rest := by
  -- One case for each clause of the reader, which adds what it takes in front of what goes on there.
  fun_induction continueFrom file context progress rest
  case case1 | case9 | case19 => cases ran
  case case2 => exact .code .done
  case case3 => exact .openLine List.not_mem_nil
  case case4 => exact .openBlock (by simp)
  -- A comment ends, or goes on with one more character.
  case case5 ih => exact @GoesOn.line [] _ List.not_mem_nil (ih ran)
  case case6 feed ih => exact .inLine feed (ih ran)
  case case7 ih => exact @GoesOn.block [] _ (by simp) (ih ran)
  case case8 apart ih => exact .inBlock apart (ih ran)
  -- So does a literal.
  case case10 ih => exact .part (.escape _) trivial (ih ran)
  case case11 ih => exact @GoesOn.literal _ _ [] _ (by simp) (ih ran)
  case case12 c rest final escape other escaped placed ih =>
    exact .part (.plain c) ⟨other, unescaped_of_clauses final escape⟩ (ih ran)
  -- A lexeme stands in front of what is read behind it.
  case case13 ih => exact .startsLine (ih ran)
  case case14 ih => exact .startsBlock (ih ran)
  case case15 ih => exact .before (.gap (.blank '\n' (by decide)) _) (ih ran)
  case case16 c _ _ _ _ blank ih => exact .before (.gap (.blank c blank) _) (ih ran)
  case case17 known joined ih => exact .startsLiteral known (ih ran)
  case case18 lineComment blockComment _ solid unquoted taken found ih =>
    exact .before (stands_of_clauses lineComment blockComment (by simpa using solid) unquoted) (ih ran)

/-- A source that has a canonical form is made of lexemes. -/
theorem ofSource_lexed {source : String} (accepted : ofSource source file = .ok canonical) :
    ∃ lexemes, Lexed source.toList lexemes := by
  cases continueFrom_goesOn accepted with
  | code lexed => exact ⟨_, lexed⟩

end Canonical

end ScriptEngine
