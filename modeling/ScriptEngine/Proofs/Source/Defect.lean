import ScriptEngine.Proofs.Source.Canonical
import ScriptEngine.Proofs.Source.Lexical

/-! Which sources have a canonical form, and which defect the failure of another one names. -/

namespace ScriptEngine

open Canonical (closer? isCloser continueFrom ofSource Context Progress)

/-- Every literal of a source has its closing quote. -/
def Terminated (source : List Char) : Prop := (Reading.of source).mode.quote? = none

/-- A quote opens a literal that takes in all that follows. -/
structure Endless (before : List Char) (quote : Char) (inside : List Char) : Prop where
  outside : (Reading.of before).mode.isCode = true
  opens : quote = '"' ∨ quote = '\''
  goesOn : ∀ part, part <+: inside →
    (Reading.of (before ++ quote :: part)).mode.quote? = some quote

/-- The first defect of a source in reading order, and its line. What was read in front of it is without
defect: the literals there are terminated, and the closers match. -/
inductive FirstDefect (source : List Char) : Delimiter → Nat → Prop where
  /-- A literal that never ends, on the line of its opening quote. -/
  | literal {before inside : List Char} {quote : Char} {opened : List (Char × Nat)}
      (parts : source = before ++ quote :: inside) (endless : Endless before quote inside)
      (paired : LeavesOpen (Reading.of before).brackets opened) :
    FirstDefect source .quotes (Reading.of before).line
  /-- A closer that does not match the innermost open bracket, on the line of the closer. -/
  | closer {before rest : List Char} {c : Char} {opened : List (Char × Nat)}
      (parts : source = before ++ c :: rest)
      (outside : (Reading.of before).mode.isCode = true) (closes : isCloser c = true)
      (paired : LeavesOpen (Reading.of before).brackets opened)
      (unmatched : ∀ opener line, opened.head? = some (opener, line) → closer? opener ≠ some c) :
    FirstDefect source .brackets (Reading.of before).line
  /-- The end of the text within brackets, on the line of the innermost one that is open. -/
  | unclosed {opener : Char} {line : Nat} {outer : List (Char × Nat)}
      (terminated : Terminated source)
      (paired : LeavesOpen (Reading.of source).brackets ((opener, line) :: outer)) :
    FirstDefect source .brackets line

/-- A quote goes on taking in what follows. -/
theorem Endless.snoc {before inside : List Char} {quote c : Char}
    (endless : Endless before quote inside)
    (within : (Reading.of (before ++ quote :: inside ++ [c])).mode.quote? = some quote) :
    Endless before quote (inside ++ [c]) where
  outside := endless.outside
  opens := endless.opens
  goesOn part shorter := by
    rcases List.prefix_concat_iff.mp shorter with rfl | shorter
    · simpa using within
    · exact endless.goesOn part shorter

/-- A mode of code is not within a literal. -/
theorem Mode.quote?_of_isCode {mode : Mode} (outside : mode.isCode = true) : mode.quote? = none := by
  cases mode <;> first | rfl | cases outside

/-- A closing bracket opens nothing. -/
theorem closer?_of_isCloser {c : Char} (closes : isCloser c = true) : closer? c = none := by
  unfold closer?
  split <;> first | rfl | cases closes

section Unique

variable {before inside rest : List Char} {quote c : Char} {opened : List (Char × Nat)}

/-- No code stands behind a quote that is never closed. -/
theorem Endless.outside_prefix (endless : Endless before quote inside) {other : List Char}
    (parts : before ++ quote :: inside = other ++ rest)
    (outside : (Reading.of other).mode.isCode = true) : other <+: before := by
  rcases List.append_eq_append_iff.mp parts with ⟨more, rfl, behind⟩ | ⟨more, rfl, behind⟩
  · -- Of two texts that start alike, only the longer one could go on behind the quote.
    cases more with
    | nil => simp
    | cons first more =>
      simp only [List.cons_append, List.cons.injEq] at behind
      obtain ⟨rfl, rfl⟩ := behind
      -- There the reading is still within the literal.
      have within := endless.goesOn more (List.prefix_append _ _)
      rw [Mode.quote?_of_isCode outside] at within
      cases within
  · exact List.prefix_append _ _

/-- Brackets with a closer that does not match cannot be paired. -/
theorem not_paired_of_unmatched (outside : (Reading.of before).mode.isCode = true)
    (closes : isCloser c = true) (paired : LeavesOpen (Reading.of before).brackets opened)
    (unmatched : ∀ opener line, opened.head? = some (opener, line) → closer? opener ≠ some c)
    {others : List (Char × Nat)} :
    ¬ LeavesOpen (Reading.of (before ++ c :: rest)).brackets others := by
  intro leaves
  -- The closer is one of the brackets that are to be paired up to there.
  have shorter := Reading.bracket_prefix outside (c := c) (by simp [closes]) rest
  have whole := leavesOpen_iff.mp leaves
  have part := unclosed?_prefix shorter (Option.isSome_iff_exists.mpr ⟨_, whole⟩)
  have first := leavesOpen_iff.mp paired
  unfold unclosed? at first part
  -- None of the ways to pair brackets takes it.
  have none : pair? opened (c, (Reading.of before).line) = Option.none := by
    unfold pair?
    rw [closer?_of_isCloser closes]
    cases opened with
    | nil => rfl
    | cons bracket outer =>
      obtain ⟨opener, line⟩ := bracket
      simp [unmatched opener line rfl]
  simp [List.foldlM_append, first, none] at part

/-- Brackets that can be paired end in front of a closer that does not match. -/
theorem prefix_of_unmatched (outside : (Reading.of before).mode.isCode = true)
    (closes : isCloser c = true) (paired : LeavesOpen (Reading.of before).brackets opened)
    (unmatched : ∀ opener line, opened.head? = some (opener, line) → closer? opener ≠ some c)
    {other behind : List Char} (parts : before ++ c :: rest = other ++ behind)
    {others : List (Char × Nat)} (leaves : LeavesOpen (Reading.of other).brackets others) :
    other <+: before := by
  rcases List.append_eq_append_iff.mp parts with ⟨more, rfl, same⟩ | ⟨more, rfl, same⟩
  · -- A longer text would contain the closer.
    cases more with
    | nil => simp
    | cons first more =>
      simp only [List.cons_append, List.cons.injEq] at same
      obtain ⟨rfl, rfl⟩ := same
      exact absurd leaves (not_paired_of_unmatched outside closes paired unmatched)
  · exact List.prefix_append _ _

/-- A quote that is never closed leaves a literal open. -/
theorem Endless.not_terminated (endless : Endless before quote inside) :
    ¬ Terminated (before ++ quote :: inside) := by
  intro terminated
  have within := endless.goesOn inside List.prefix_rfl
  rw [terminated] at within
  cases within

/-- A quote that is never closed and a closer that does not match are not both met first. -/
theorem Endless.apart (endless : Endless before quote inside)
    (paired : LeavesOpen (Reading.of before).brackets opened) {other : List Char}
    {others : List (Char × Nat)} (outside : (Reading.of other).mode.isCode = true)
    (closes : isCloser c = true) (pairedToo : LeavesOpen (Reading.of other).brackets others)
    (unmatched : ∀ opener line, others.head? = some (opener, line) → closer? opener ≠ some c) :
    before ++ quote :: inside ≠ other ++ c :: rest := by
  intro parts
  have shorter := endless.outside_prefix parts outside
  have longer := prefix_of_unmatched outside closes pairedToo unmatched parts.symm paired
  -- Both stand behind the same text, so that the quote is the closer.
  obtain rfl := shorter.eq_of_length_le longer.length_le
  simp only [List.append_cancel_left_eq, List.cons.injEq] at parts
  obtain ⟨rfl, -⟩ := parts
  rcases endless.opens with rfl | rfl <;> cases closes

/-- A source has one first defect at most. -/
theorem FirstDefect.unique {source : List Char} {what other : Delimiter} {line otherLine : Nat}
    (first : FirstDefect source what line) (second : FirstDefect source other otherLine) :
    what = other ∧ line = otherLine := by
  -- The part in front of one defect is no longer than the part in front of the other.
  cases first with
  | literal parts endless paired =>
    subst parts
    cases second with
    | literal partsToo endlessToo =>
      have shorter := endless.outside_prefix partsToo endlessToo.outside
      have longer := endlessToo.outside_prefix partsToo.symm endless.outside
      rw [shorter.eq_of_length_le longer.length_le]
      exact ⟨rfl, rfl⟩
    | closer partsToo outside closes pairedToo unmatched =>
      exact absurd partsToo (endless.apart paired outside closes pairedToo unmatched)
    | unclosed terminated => exact absurd terminated endless.not_terminated
  | closer parts outside closes paired unmatched =>
    subst parts
    cases second with
    | literal partsToo endless pairedToo =>
      exact absurd partsToo.symm (endless.apart pairedToo outside closes paired unmatched)
    | closer partsToo outsideToo closesToo pairedToo unmatchedToo =>
      have shorter := prefix_of_unmatched outside closes paired unmatched partsToo pairedToo
      have longer :=
        prefix_of_unmatched outsideToo closesToo pairedToo unmatchedToo partsToo.symm paired
      rw [shorter.eq_of_length_le longer.length_le]
      exact ⟨rfl, rfl⟩
    | unclosed terminated leaves =>
      exact absurd leaves (not_paired_of_unmatched outside closes paired unmatched)
  | unclosed terminated leaves =>
    cases second with
    | literal parts endless => exact absurd (parts ▸ terminated) endless.not_terminated
    | closer parts outside closes paired unmatched =>
      rw [parts] at leaves
      exact absurd leaves (not_paired_of_unmatched outside closes paired unmatched)
    | unclosed terminatedToo leavesToo =>
      -- What is left open when the source ends is determined by it.
      have same := (leavesOpen_iff.mp leaves).symm.trans (leavesOpen_iff.mp leavesToo)
      simp only [Option.some.injEq, List.cons.injEq, Prod.mk.injEq] at same
      exact ⟨rfl, same.1.2⟩

end Unique

/-- What the reading of a source comes to: a canonical form for a source whose literals are terminated
and whose brackets are nested, and else the failure of the first defect. -/
def Judged (file : String) (source : List Char) (result : Result Canonical) : Prop :=
  (∃ canonical, result = .ok canonical ∧ Terminated source ∧ Nested (Reading.of source).brackets) ∨
    ∃ what line, result = fail (.imbalance what file line) ∧ FirstDefect source what line

namespace Canonical

variable {before rest : List Char} {progress : Progress} {c quote : Char} {opened : Nat}
  {file : String}

/-- What was read leads to a context, with a rest to come. -/
def Context.Fits (before rest : List Char) : Context → Prop
  | .code => (Reading.of before).mode = .code ∨
      (Reading.of before).mode = .slash ∧ rest.head? ≠ some '/' ∧ rest.head? ≠ some '*'
  | .lineComment => (Reading.of before).mode = .lineComment
  | .blockComment => (Reading.of before).mode = .blockComment ∨
      (Reading.of before).mode = .star ∧ rest.head? ≠ some '/'
  | .literal quote opened => (Reading.of before).mode = .literal quote ∧
      ∃ outer inside, before = outer ++ quote :: inside ∧ Endless outer quote inside ∧
        (Reading.of outer).line = opened

/-- The line and the open brackets are those of what was read. -/
structure Progress.Follows (progress : Progress) (before : List Char) : Prop where
  line : progress.line = (Reading.of before).line
  opened : unclosed? (Reading.of before).brackets = some progress.opened

/-- A character that is no bracket of the code. -/
theorem Progress.Follows.pass (follows : progress.Follows before)
    (inert : ((Reading.of before).mode.isCode && ((closer? c).isSome || isCloser c)) = false)
    {next : Progress} (line : next.line = if c = '\n' then progress.line + 1 else progress.line)
    (opened : next.opened = progress.opened) : next.Follows (before ++ [c]) := by
  constructor
  · rw [Reading.of_snoc, line, follows.line]
    rfl
  · rw [Reading.of_snoc, opened, ← follows.opened]
    simp [Reading.step, inert]

/-- A bracket is one of the code exactly in the context of code. -/
theorem isCode_of_fits {context : Context} (fits : context.Fits before rest) :
    (Reading.of before).mode.isCode = decide (context = .code) := by
  -- The mode of each context, also in the middle of a mark, is one of code only for code.
  cases context with
  | code => rcases fits with mode | ⟨mode, -⟩ <;> rw [mode] <;> rfl
  | lineComment =>
    have mode : (Reading.of before).mode = .lineComment := fits
    rw [mode]
    rfl
  | blockComment => rcases fits with mode | ⟨mode, -⟩ <;> rw [mode] <;> rfl
  | literal quote opened =>
    rw [fits.1]
    rfl

/-- Only the context of a literal is within one. -/
theorem terminated_of_fits {context : Context} (fits : context.Fits before rest)
    (unquoted : ∀ quote opened, context ≠ .literal quote opened) : Terminated before := by
  unfold Terminated
  -- A mode that is not within a literal takes no quote along.
  cases context with
  | code => rcases fits with mode | ⟨mode, -⟩ <;> rw [mode] <;> rfl
  | lineComment =>
    have mode : (Reading.of before).mode = .lineComment := fits
    rw [mode]
    rfl
  | blockComment => rcases fits with mode | ⟨mode, -⟩ <;> rw [mode] <;> rfl
  | literal quote opened => exact absurd rfl (unquoted quote opened)

/-- In code the next character is read as code. -/
theorem mode_code (fits : Context.code.Fits before (c :: rest)) :
    (Reading.of (before ++ [c])).mode = Mode.code.next c := by
  rw [Reading.mode_snoc]
  rcases fits with code | ⟨slash, solid, star⟩
  · rw [code]
  · -- A slash that is followed by no other and by no star is a mark of the code.
    rw [slash]
    have notSlash : c ≠ '/' := by simpa using solid
    have notStar : c ≠ '*' := by simpa using star
    simp [Mode.next, notSlash, notStar]

/-- Code goes on behind a character that opens no literal. -/
theorem fits_code (fits : Context.code.Fits before (c :: rest))
    (lineComment : ∀ behind, c = '/' → rest = '/' :: behind → False)
    (blockComment : ∀ behind, c = '/' → rest = '*' :: behind → False)
    (unquoted : ¬(c = '"' ∨ c = '\'')) : Context.code.Fits (before ++ [c]) rest := by
  have mode := mode_code fits
  by_cases slash : c = '/'
  · -- The slash starts no comment, which is what the context has to remember of it.
    subst slash
    refine .inr ⟨mode, fun same => ?_, fun same => ?_⟩
    · obtain ⟨behind, same⟩ := List.head?_eq_some_iff.mp same
      exact lineComment behind rfl same
    · obtain ⟨behind, same⟩ := List.head?_eq_some_iff.mp same
      exact blockComment behind rfl same
  · exact .inl (by simp [mode, Mode.next, slash, unquoted])

/-- A line comment goes on behind a character that does not end the line. -/
theorem fits_lineComment (fits : Context.lineComment.Fits before (c :: rest)) (inLine : c ≠ '\n') :
    Context.lineComment.Fits (before ++ [c]) rest := by
  have mode : (Reading.of before).mode = .lineComment := fits
  simp [Context.Fits, Reading.mode_snoc, mode, Mode.next, inLine]

/-- In a block comment the next character is read as one of the comment. -/
theorem mode_blockComment (fits : Context.blockComment.Fits before (c :: rest)) :
    (Reading.of (before ++ [c])).mode = Mode.blockComment.next c := by
  rw [Reading.mode_snoc]
  rcases fits with comment | ⟨star, slash⟩
  · rw [comment]
  · -- No slash follows the star, which is therefore one of the comment.
    have other : c ≠ '/' := by simpa using slash
    simp [star, Mode.next, other]

/-- A block comment goes on behind a character that does not start its closing mark. -/
theorem fits_blockComment (fits : Context.blockComment.Fits before (c :: rest))
    (further : ∀ behind, c = '*' → rest = '/' :: behind → False) :
    Context.blockComment.Fits (before ++ [c]) rest := by
  have mode := mode_blockComment fits
  by_cases starred : c = '*'
  · subst starred
    refine .inr ⟨mode, fun ends => ?_⟩
    obtain ⟨behind, same⟩ := List.head?_eq_some_iff.mp ends
    exact further behind rfl same
  · exact .inl (by simp [mode, Mode.next, starred])

/-- A literal goes on behind a character that leaves it open. -/
theorem goesOn_literal (fits : (Context.literal quote opened).Fits before rest)
    (within : (Reading.of (before ++ [c])).mode.quote? = some quote) :
    ∃ outer inside, before ++ [c] = outer ++ quote :: inside ∧ Endless outer quote inside ∧
      (Reading.of outer).line = opened := by
  obtain ⟨-, outer, inside, rfl, endless, line⟩ := fits
  exact ⟨outer, inside ++ [c], by simp, endless.snoc within, line⟩

/-- A literal goes on behind a character that is neither its quote nor a backslash. -/
theorem fits_literal (fits : (Context.literal quote opened).Fits before (c :: rest))
    (unescaped : c ≠ '\\') (other : c ≠ quote) :
    (Context.literal quote opened).Fits (before ++ [c]) rest := by
  have mode : (Reading.of (before ++ [c])).mode = .literal quote := by
    simp [Reading.mode_snoc, fits.1, Mode.next, unescaped, other]
  exact ⟨mode, goesOn_literal fits (by rw [mode]; rfl)⟩

/-- Behind a backslash a literal is within an escape. -/
theorem mode_escape (fits : (Context.literal quote opened).Fits before rest) :
    (Reading.of (before ++ ['\\'])).mode = .escape quote := by
  rw [Reading.mode_snoc, fits.1]
  rfl

/-- A literal goes on behind an escape, whatever is escaped. -/
theorem fits_escape (fits : (Context.literal quote opened).Fits before rest) (escaped : Char)
    (behind : List Char) :
    (Context.literal quote opened).Fits (before ++ ['\\'] ++ [escaped]) behind := by
  have escape := mode_escape fits
  have back : (Reading.of (before ++ ['\\'] ++ [escaped])).mode = .literal quote := by
    rw [Reading.mode_snoc, escape]
    rfl
  -- The literal is the one that was open in front of the escape.
  obtain ⟨outer, inside, same, endless, line⟩ := goesOn_literal fits (c := '\\') (by rw [escape]; rfl)
  refine ⟨back, outer, inside ++ [escaped], by simp [same], endless.snoc ?_, line⟩
  rw [← same, back]
  rfl

/-- A quote in the code opens a literal, on the line that has been reached. -/
theorem fits_opened (fits : Context.code.Fits before (c :: rest)) (quoted : c = '"' ∨ c = '\'') :
    (Context.literal c (Reading.of before).line).Fits (before ++ [c]) rest := by
  have mode : (Reading.of (before ++ [c])).mode = .literal c := by
    rw [mode_code fits]
    rcases quoted with rfl | rfl <;> rfl
  refine ⟨mode, before, [], rfl, ⟨isCode_of_fits fits, quoted, fun part shorter => ?_⟩, rfl⟩
  rw [List.prefix_nil.mp shorter, mode]
  rfl

/-- The end of the source within a literal. -/
theorem judged_literal (follows : progress.Follows before)
    (endless : ∃ outer inside, before = outer ++ quote :: inside ∧ Endless outer quote inside ∧
      (Reading.of outer).line = opened) :
    Judged file before (fail (.imbalance .quotes file opened)) := by
  obtain ⟨outer, inside, rfl, endless, rfl⟩ := endless
  have part := unclosed?_prefix (Reading.brackets_prefix outer (quote :: inside))
    (Option.isSome_iff_exists.mpr ⟨_, follows.opened⟩)
  obtain ⟨brackets, paired⟩ := Option.isSome_iff_exists.mp part
  exact .inr ⟨_, _, rfl, .literal rfl endless (leavesOpen_iff.mpr paired)⟩

/-- The end of the source outside literals. -/
theorem judged_finish (follows : progress.Follows before) (terminated : Terminated before) :
    Judged file before (progress.finish file) := by
  unfold Progress.finish
  split
  -- All brackets are closed.
  case h_1 none =>
    refine .inl ⟨_, rfl, terminated, nested_iff.mpr ?_⟩
    rw [follows.opened, none]
  -- The innermost bracket that is open is the defect.
  case h_2 opener line outer some =>
    have leaves := leavesOpen_iff.mpr follows.opened
    rw [some] at leaves
    exact .inr ⟨_, _, rfl, .unclosed terminated leaves⟩

/-- A character of the code is taken together with what it opens or closes. -/
theorem Progress.Follows.take (follows : progress.Follows before) {taken : Progress}
    (outside : (Reading.of before).mode.isCode = true) (line : c ≠ '\n')
    (found : progress.take? c = some taken) : taken.Follows (before ++ [c]) := by
  obtain ⟨opened, reopens, rfl⟩ := Progress.take?_eq_some.mp found
  constructor
  · simp [Reading.of_snoc, Reading.step, Progress.emit, Progress.join_line, follows.line, line]
  · -- The brackets that were read are paired as those that are open are kept.
    have brackets := follows.opened
    rw [follows.line] at reopens
    generalize progress.opened = before at reopens brackets
    unfold unclosed? at brackets
    cases reopens with
    | opens opener =>
      simp [Reading.of_snoc, Reading.step, Progress.emit, outside, opener, unclosed?,
        List.foldlM_append, brackets, pair?]
    | closes none closer matched =>
      simp [Reading.of_snoc, Reading.step, Progress.emit, outside, closer, unclosed?,
        List.foldlM_append, brackets, pair?, none, matched]
    | keeps none plain =>
      simpa [Reading.of_snoc, Reading.step, Progress.emit, none, plain, unclosed?] using brackets

/-- A character of the code that cannot be taken is a closer that does not match. -/
theorem Progress.unmatched_of_take (found : progress.take? c = none) :
    isCloser c = true ∧
      ∀ opener line, progress.opened.head? = some (opener, line) → closer? opener ≠ some c := by
  -- What would leave some brackets open would have been taken.
  have stays : ∀ opened, ¬ Progress.Reopens c progress.line progress.opened opened := by
    intro opened reopens
    have taken := Progress.take?_eq_some.mpr ⟨opened, reopens, rfl⟩
    rw [found] at taken
    cases taken
  have none : closer? c = Option.none := by
    by_contra opens
    exact stays _ (.opens (Option.isSome_iff_ne_none.mpr opens))
  have closes : isCloser c = true := by
    by_contra plain
    exact stays _ (.keeps none (Bool.eq_false_iff.mpr plain))
  -- If the innermost bracket matched, the closer would close it.
  refine ⟨closes, fun opener line innermost matched => ?_⟩
  obtain ⟨outer, stack⟩ := List.head?_eq_some_iff.mp innermost
  exact stays outer (stack ▸ .closes none closes matched)

/-- White space is no bracket and no quote. -/
theorem blank_inert (blank : Text.isBlank c = true) :
    ((closer? c).isSome || isCloser c) = false ∧ ¬(c = '"' ∨ c = '\'') := by
  have marks : (['(', '[', '{', ')', ']', '}', '"', '\''].any Text.isBlank) = false := by decide
  have other : ∀ mark ∈ ['(', '[', '{', ')', ']', '}', '"', '\''], c ≠ mark := by
    rintro mark member rfl
    exact List.any_eq_false.mp marks c member blank
  simp only [List.forall_mem_cons] at other
  obtain ⟨round, square, curly, roundEnd, squareEnd, curlyEnd, double, single, -⟩ := other
  simp [closer?, isCloser, roundEnd, squareEnd, curlyEnd, double, single]

/-- A character that is none of the code. -/
theorem Progress.Follows.skip {context : Context} (follows : progress.Follows before)
    (fits : context.Fits before rest) (apart : context ≠ .code) {next : Progress}
    (line : next.line = if c = '\n' then progress.line + 1 else progress.line)
    (opened : next.opened = progress.opened) : next.Follows (before ++ [c]) :=
  follows.pass (by simp [isCode_of_fits fits, apart]) line opened

/-- A character is counted for a line exactly if it ends one. -/
theorem Progress.counted_line (progress : Progress) (c : Char) :
    (if c = '\n' then progress.nextLine else progress).line =
      if c = '\n' then progress.line + 1 else progress.line := by
  split <;> rfl

/-- Counting the line leaves the open brackets as they are. -/
theorem Progress.counted_opened (progress : Progress) (c : Char) :
    (if c = '\n' then progress.nextLine else progress).opened = progress.opened := by
  split <;> rfl

/-- A comment starts with two characters of the code, of which the second tells its kind. -/
theorem Progress.Follows.commentStart (follows : progress.Follows before)
    (fits : Context.code.Fits before ('/' :: c :: rest)) (kind : c = '/' ∨ c = '*') :
    progress.part.Follows (before ++ ['/'] ++ [c]) ∧
      (Reading.of (before ++ ['/'] ++ [c])).mode = Mode.slash.next c := by
  have slash : (Reading.of (before ++ ['/'])).mode = .slash := mode_code fits
  have passed : progress.part.Follows (before ++ ['/']) :=
    follows.pass (by simp [closer?, isCloser]) rfl rfl
  refine ⟨?_, by rw [Reading.mode_snoc, slash]⟩
  rcases kind with rfl | rfl
  · exact passed.pass (by simp [closer?, isCloser]) rfl rfl
  · exact passed.pass (by simp [closer?, isCloser]) rfl rfl

/-- A comment ends with two characters, behind which there is code. -/
theorem Progress.Follows.commentEnd (follows : progress.Follows before)
    (fits : Context.blockComment.Fits before ('*' :: '/' :: rest)) (behind : List Char) :
    progress.Follows (before ++ ['*'] ++ ['/']) ∧
      Context.code.Fits (before ++ ['*'] ++ ['/']) behind := by
  have star : (Reading.of (before ++ ['*'])).mode = .star := mode_blockComment fits
  have passed : progress.Follows (before ++ ['*']) := follows.skip fits nofun rfl rfl
  refine ⟨passed.pass (by simp [star, Mode.isCode]) rfl rfl, .inl ?_⟩
  rw [Reading.mode_snoc, star]
  rfl

/-- A quote in the code starts a literal, which is on the line that has been reached. -/
theorem Progress.Follows.literalStart (follows : progress.Follows before)
    (fits : Context.code.Fits before (c :: rest)) (quoted : c = '"' ∨ c = '\'') :
    ((progress.join c).emit '"').Follows (before ++ [c]) ∧
      (Context.literal c (progress.join c).line).Fits (before ++ [c]) rest := by
  have line : (progress.join c).line = (Reading.of before).line :=
    (Progress.join_line progress c).trans follows.line
  refine ⟨follows.pass ?_ ?_ ?_, line ▸ fits_opened fits quoted⟩
  · rcases quoted with rfl | rfl <;> simp [closer?, isCloser]
  · rcases quoted with rfl | rfl <;> simp [Progress.emit, Progress.join_line]
  · simp [Progress.emit, Progress.join_opened]

/-- An escape in a literal takes two characters, whatever is copied of them. -/
theorem Progress.Follows.escape (follows : progress.Follows before)
    (fits : (Context.literal quote opened).Fits before rest) {copied : Progress}
    (line : copied.line = progress.line) (kept : copied.opened = progress.opened) (escaped : Char) :
    (if escaped = '\n' then copied.nextLine else copied).Follows (before ++ ['\\'] ++ [escaped]) := by
  have passed : progress.Follows (before ++ ['\\']) := follows.skip fits (by simp) rfl rfl
  refine passed.pass (by simp [mode_escape fits, Mode.isCode]) ?_ ?_
  · rw [Progress.counted_line, line]
  · rw [Progress.counted_opened, kept]

/-- A literal ends at its quote, behind which there is code. -/
theorem Progress.Follows.literalEnd (follows : progress.Follows before)
    (fits : (Context.literal quote opened).Fits before (quote :: rest)) (unescaped : quote ≠ '\\') :
    (progress.emit '"').Follows (before ++ [quote]) ∧ Context.code.Fits (before ++ [quote]) rest := by
  have ends : (Reading.of (before ++ [quote])).mode = .code := by
    simp [Reading.mode_snoc, fits.1, Mode.next, unescaped]
  refine ⟨follows.skip fits (by simp) ?_ rfl, .inl ends⟩
  -- A literal starts with a quote of one of the two kinds, neither of which ends a line.
  obtain ⟨outer, inside, -, endless, -⟩ := fits.2
  rcases endless.opens with rfl | rfl <;> rfl

/-- Reading the rest of a source comes to what the whole source is to come to. -/
theorem continueFrom_judged {context : Context} (follows : progress.Follows before)
    (fits : context.Fits before rest) :
    Judged file (before ++ rest) (continueFrom file context progress rest) := by
  -- One case for each clause of the reader: what it takes goes over to what was read, and the context
  -- it goes on in fits that again.
  fun_induction continueFrom file context progress rest generalizing before
  -- The end of the source.
  case case1 =>
    rw [List.append_nil]
    exact judged_literal follows fits.2
  case case2 | case3 | case4 =>
    rw [List.append_nil]
    exact judged_finish follows (terminated_of_fits fits (by simp))
  -- A comment that goes to the end of the line.
  case case5 progress rest ih =>
    have mode : (Reading.of before).mode = .lineComment := fits
    rw [List.append_cons]
    exact ih (follows.skip fits (by simp) rfl rfl) (.inl (by rw [Reading.mode_snoc, mode]; rfl))
  case case6 c rest inLine ih =>
    rw [List.append_cons]
    exact ih (follows.skip fits (by simp) (by simp [inLine]) rfl) (fits_lineComment fits inLine)
  -- A comment that goes to its closing mark.
  case case7 progress rest ih =>
    rw [List.append_cons, List.append_cons]
    obtain ⟨behind, code⟩ := follows.commentEnd fits rest
    exact ih behind code
  case case8 progress c rest further ih =>
    rw [List.append_cons]
    exact ih (follows.skip fits (by simp) (progress.counted_line c) (progress.counted_opened c))
      (fits_blockComment fits further)
  -- The characters of a literal.
  case case9 quote opened progress =>
    have within : (Reading.of (before ++ ['\\'])).mode.quote? = some quote := by
      rw [mode_escape fits]
      rfl
    exact judged_literal (follows.skip fits (by simp) rfl rfl) (goesOn_literal fits within)
  case case10 quote opened progress escaped rest copied ih =>
    -- The backslash is copied or left out, neither of which is about the line or the brackets.
    have kept : copied.line = progress.line ∧ copied.opened = progress.opened := by
      unfold copied
      split <;> exact ⟨rfl, rfl⟩
    rw [List.append_cons, List.append_cons]
    exact ih (follows.escape fits kept.1 kept.2 escaped) (fits_escape fits escaped _)
  case case11 opened progress quote rest final escape ih =>
    rw [List.append_cons]
    obtain ⟨behind, code⟩ := follows.literalEnd fits (unescaped_of_clauses final escape)
    exact ih behind code
  case case12 quote opened progress c rest final escape other escaped placed ih =>
    -- A double quote gets a backslash, which is not about the line or the brackets either.
    have kept : escaped.line = progress.line ∧ escaped.opened = progress.opened := by
      unfold escaped
      split <;> exact ⟨rfl, rfl⟩
    rw [List.append_cons]
    refine ih (follows.skip fits (by simp) ?_ ?_)
      (fits_literal fits (unescaped_of_clauses final escape) other)
    · exact (escaped.counted_line c).trans (by rw [kept.1])
    · exact (escaped.counted_opened c).trans kept.2
  -- The start of a comment, which takes two characters.
  case case13 progress rest ih =>
    rw [List.append_cons, List.append_cons]
    obtain ⟨behind, mode⟩ := follows.commentStart fits (.inl rfl)
    exact ih behind mode
  case case14 progress rest ih =>
    rw [List.append_cons, List.append_cons]
    obtain ⟨behind, mode⟩ := follows.commentStart fits (.inr rfl)
    exact ih behind (.inl mode)
  -- White space.
  case case15 progress rest lineComment blockComment ih =>
    rw [List.append_cons]
    exact ih (follows.pass (by simp [closer?, isCloser]) rfl rfl)
      (fits_code fits lineComment blockComment (by simp))
  case case16 progress c rest lineComment blockComment inLine blank ih =>
    rw [List.append_cons]
    obtain ⟨bracket, unquoted⟩ := blank_inert blank
    exact ih (follows.pass (by simp [bracket]) (by simp [inLine, Progress.part]) rfl)
      (fits_code fits lineComment blockComment unquoted)
  -- The start of a literal.
  case case17 progress c rest lineComment blockComment inLine solid quoted joined ih =>
    rw [List.append_cons]
    obtain ⟨behind, literal⟩ := follows.literalStart fits quoted
    exact ih behind literal
  -- Any other character of the code.
  case case18 progress c rest lineComment blockComment inLine solid unquoted taken found ih =>
    rw [List.append_cons]
    exact ih (follows.take (isCode_of_fits fits) inLine found)
      (fits_code fits lineComment blockComment unquoted)
  case case19 progress c rest lineComment blockComment inLine solid unquoted found =>
    obtain ⟨closes, unmatched⟩ := Progress.unmatched_of_take found
    rw [follows.line]
    exact .inr ⟨_, _, rfl, .closer rfl (isCode_of_fits fits) closes
      (leavesOpen_iff.mpr follows.opened) unmatched⟩

/-- What the canonical form of a source comes to. -/
theorem ofSource_judged (source file : String) :
    Judged file source.toList (ofSource source file) := by
  have follows : Progress.Follows {} [] := ⟨rfl, rfl⟩
  exact continueFrom_judged follows (.inl rfl)

/-- A source with a first defect is not one whose literals are terminated and whose brackets are
nested. -/
theorem not_balanced_of_defect {source : List Char} {what : Delimiter} {line : Nat}
    (defect : FirstDefect source what line) :
    ¬(Terminated source ∧ Nested (Reading.of source).brackets) := by
  rintro ⟨terminated, nested⟩
  -- Each kind of defect contradicts one half: a literal without an end the first, brackets the
  -- second.
  cases defect with
  | literal parts endless paired => exact endless.not_terminated (parts ▸ terminated)
  | closer parts outside closes paired unmatched =>
    rw [parts] at nested
    exact not_paired_of_unmatched outside closes paired unmatched (.nested nested)
  | unclosed _ leaves =>
    have whole := nested_iff.mp nested
    rw [leavesOpen_iff.mp leaves] at whole
    cases whole

/-- A source has a canonical form exactly if each literal is terminated and the brackets are nested, and
it fails with a defect exactly if that is its first one in reading order. -/
theorem accepts_exactly_balanced (source file : String) :
    ((∃ canonical, ofSource source file = .ok canonical) ↔
      Terminated source.toList ∧ Nested (Reading.of source.toList).brackets) ∧
    ∀ failure, ofSource source file = .error failure ↔
      ∃ what line, failure = (⟨.imbalance what file line, []⟩ : Failure) ∧
        FirstDefect source.toList what line := by
  rcases ofSource_judged source file with
    ⟨canonical, accepted, balanced⟩ | ⟨what, line, refused, defect⟩
  · -- The source is accepted, and no failure can be another answer.
    refine ⟨⟨fun _ => balanced, fun _ => ⟨canonical, accepted⟩⟩, fun failure => ⟨fun fails => ?_, ?_⟩⟩
    · rw [accepted] at fails
      cases fails
    · rintro ⟨what, line, -, defect⟩
      exact absurd balanced (not_balanced_of_defect defect)
  · -- The source is refused for its first defect, which is the only one.
    refine ⟨⟨?_, fun balanced => absurd balanced (not_balanced_of_defect defect)⟩,
      fun failure => ⟨fun fails => ?_, ?_⟩⟩
    · rintro ⟨canonical, accepted⟩
      rw [refused] at accepted
      cases accepted
    · rw [refused] at fails
      cases fails
      exact ⟨what, line, rfl, defect⟩
    · rintro ⟨other, otherLine, rfl, second⟩
      obtain ⟨rfl, rfl⟩ := defect.unique second
      exact refused

end Canonical

end ScriptEngine
