import ScriptEngine.Proofs.Source.Nesting

/-! Canonical text is balanced. -/

namespace ScriptEngine.Canonical

open Cursor

/-- How the text is to be read where a context is left off. -/
def Context.quoting : Context → Quoting
  | .literal _ _ => .inside
  | _ => .outside

variable {progress taken : Progress} {quoting : Quoting} {due : List Char} {next : Nesting} {c : Char}

namespace Progress

/-- White space that is settled is on the same line. -/
theorem join_line (progress : Progress) (c : Char) : (progress.join c).line = progress.line := by
  unfold join
  dsimp only
  split <;> rfl

/-- White space that is settled is within the same brackets. -/
theorem join_opened (progress : Progress) (c : Char) :
    (progress.join c).opened = progress.opened := by
  unfold join
  dsimp only
  split <;> rfl

/-- What a character of the code on some line makes of the open brackets, the innermost first. -/
inductive Reopens (c : Char) (line : Nat) : List (Char × Nat) → List (Char × Nat) → Prop where
  | opens {opened : List (Char × Nat)} (opener : (closer? c).isSome = true) :
    Reopens c line opened ((c, line) :: opened)
  | closes {opener : Char} {opening : Nat} {outer : List (Char × Nat)} (none : closer? c = none)
      (closer : isCloser c = true) (matched : closer? opener = some c) :
    Reopens c line ((opener, opening) :: outer) outer
  | keeps {opened : List (Char × Nat)} (none : closer? c = none) (plain : isCloser c = false) :
    Reopens c line opened opened

/-- A character of the code is taken exactly if it opens a bracket, closes the innermost one or is none,
and all else that this changes is what is written. -/
theorem take?_eq_some : progress.take? c = some taken ↔
    ∃ opened, Reopens c progress.line progress.opened opened ∧
      taken = { progress.join c with opened := opened }.emit c := by
  unfold take? close?
  -- The settled white space changes neither the brackets nor the line, so that these can be read
  -- off it.
  rw [← join_opened progress c, ← join_line progress c]
  dsimp only
  generalize progress.join c = joined
  constructor
  · intro found
    -- From the text of the function to the three ways in which the brackets change.
    split at found
    case isTrue opener =>
      cases found
      exact ⟨_, .opens opener, rfl⟩
    case isFalse opensNot =>
      have none : closer? c = none := by simpa using opensNot
      split at found
      case isTrue closes =>
        obtain ⟨closed, paired, rfl⟩ := Option.map_eq_some_iff.mp found
        split at paired
        case h_1 opener opening outer same =>
          split at paired
          case isTrue matched =>
            cases paired
            exact ⟨outer, same ▸ .closes none closes matched, rfl⟩
          case isFalse => cases paired
        case h_2 => cases paired
      case isFalse plain =>
        cases found
        exact ⟨joined.opened, .keeps none (by simpa using plain), rfl⟩
  · rintro ⟨opened, reopens, rfl⟩
    -- Each of the ways is one branch of the function.
    obtain ⟨emitted, before, line, parted⟩ := joined
    dsimp only at reopens ⊢
    cases reopens with
    | opens opener => simp [opener]
    | closes none closes matched => simp [none, closes, matched]
    | keeps none plain => simp [none, plain]

/-- What has been read so far is left open just where the text so far leaves off. -/
def Reads (progress : Progress) (due : List Char) (quoting : Quoting) : Prop :=
  progress.opened.map (closer? ·.1) = due.map some ∧
    Nesting.read? nothing {} (progress.emitted.reverse.map (·.1)) = some ⟨due, quoting⟩

/-- What has been read leaves off in a context. -/
def Stands (progress : Progress) (context : Context) : Prop :=
  ∃ due, progress.Reads due context.quoting

/-- The text so far with one more character. -/
theorem read?_emit (progress : Progress) (c : Char) :
    Nesting.read? nothing {} ((progress.emit c).emitted.reverse.map (·.1)) =
      (Nesting.read? nothing {} (progress.emitted.reverse.map (·.1))).bind fun nesting =>
        nesting.step? nothing c := by
  simp only [emit, List.reverse_cons, List.map_append, List.map_cons, List.map_nil,
    Nesting.read?_append]
  congr
  funext nesting
  simp [Nesting.read?]

/-- A character that opens and closes nothing. -/
theorem Reads.emit {quotingToo : Quoting} (reads : progress.Reads due quoting)
    (step : Nesting.step? nothing ⟨due, quoting⟩ c = some ⟨due, quotingToo⟩) :
    (progress.emit c).Reads due quotingToo := by
  refine ⟨reads.1, ?_⟩
  rw [read?_emit, reads.2]
  exact step

/-- A quote opens a literal. -/
theorem Reads.openLiteral (reads : progress.Reads due .outside) :
    (progress.emit '"').Reads due .inside :=
  reads.emit (by simp [Nesting.step?, Nesting.regroup?, closer?, isCloser, nothing, Quoting.next])

/-- A quote closes a literal. -/
theorem Reads.closeLiteral (reads : progress.Reads due .inside) :
    (progress.emit '"').Reads due .outside :=
  reads.emit (by simp [Nesting.step?, Quoting.next])

/-- A character of a literal leaves it open. -/
theorem Reads.literal (reads : progress.Reads due .inside) (slash : c ≠ '\\') (quote : c ≠ '"') :
    (progress.emit c).Reads due .inside :=
  reads.emit (by simp [Nesting.step?, Quoting.next, slash, quote])

/-- Whatever stands behind a backslash leaves a literal open. -/
theorem Reads.escape (reads : progress.Reads due .inside) (c : Char) :
    ((progress.emit '\\').emit c).Reads due .inside := by
  have escaped : (progress.emit '\\').Reads due .escaped :=
    reads.emit (by simp [Nesting.step?, Quoting.next])
  exact escaped.emit (by simp [Nesting.step?, Quoting.next])

/-- White space that is settled opens and closes nothing. -/
theorem Reads.join (reads : progress.Reads due .outside) (c : Char) :
    (progress.join c).Reads due .outside := by
  unfold Progress.join
  dsimp only
  split
  · exact reads.emit (by simp [Nesting.step?, Nesting.regroup?, closer?, isCloser, nothing, Quoting.next])
  · exact reads

/-- One character of code is read as it is taken. -/
theorem Reads.take (reads : progress.Reads due .outside) (unquoted : c ≠ '"')
    (found : progress.take? c = some taken) : ∃ opened, taken.Reads opened .outside := by
  have joined := reads.join c
  have still : Quoting.outside.next c = .outside := by simp [Quoting.next, unquoted]
  obtain ⟨opened, reopens, rfl⟩ := take?_eq_some.mp found
  have brackets := reads.1
  generalize progress.opened = before at reopens brackets
  -- The closers that are due change as the open brackets do.
  cases reopens with
  | opens opener =>
    obtain ⟨closer, same⟩ := Option.isSome_iff_exists.mp opener
    refine ⟨closer :: due, by simp [Progress.emit, same, brackets], ?_⟩
    rw [read?_emit, joined.2]
    simp [Nesting.step?, Nesting.regroup?, same, still, nothing]
  | closes none closer matched =>
    cases due with
    | nil => cases brackets
    | cons first due =>
      simp only [List.map_cons, List.cons.injEq, matched, Option.some.injEq] at brackets
      obtain ⟨rfl, outer⟩ := brackets
      refine ⟨due, outer, ?_⟩
      rw [read?_emit, joined.2]
      simp [Nesting.step?, Nesting.regroup?, none, closer, still, nothing]
  | keeps none plain =>
    refine ⟨due, brackets, ?_⟩
    rw [read?_emit, joined.2]
    simp [Nesting.step?, Nesting.regroup?, none, plain, still, nothing]

/-- A finished text is balanced. -/
theorem Reads.finish {file : String} {canonical : Canonical} (reads : progress.Reads due .outside)
    (finished : progress.finish file = .ok canonical) : Balanced nothing canonical.text := by
  unfold Progress.finish at finished
  split at finished
  case h_1 none =>
    cases finished
    -- No bracket is open, and so no group is.
    have closed := reads.1
    rw [none] at closed
    cases due with
    | nil => exact reads.2
    | cons closer due => cases closed
  case h_2 => cases finished

end Progress

/-- What is left off in a context is gone on with to a balanced text. -/
theorem continueFrom_balanced {file : String} {canonical : Canonical} {context : Context}
    {rest : List Char} (stands : progress.Stands context)
    (ran : continueFrom file context progress rest = .ok canonical) :
    Balanced nothing canonical.text := by
  -- The induction follows the clauses of the reader; in each of them what was written goes on being
  -- read, with the same groups open as brackets.
  fun_induction continueFrom file context progress rest
  case case1 | case9 | case19 => cases ran
  -- The end of the source, in code or in a comment.
  case case2 | case3 | case4 =>
    obtain ⟨due, reads⟩ := stands
    exact Progress.Reads.finish reads ran
  -- Nothing is emitted for white space and comments.
  case case5 ih | case6 ih | case7 ih | case13 ih | case14 ih | case15 ih | case16 ih =>
    exact ih stands ran
  case case8 ih =>
    refine ih ?_ ran
    split <;> exact stands
  -- An escape is copied with its backslash or without it; either way the literal stays open.
  case case10 escaped rest copied ih =>
    obtain ⟨due, reads⟩ := stands
    have copies : copied.Reads due .inside := by
      unfold copied
      split
      · exact reads.literal (by decide) (by decide)
      · exact reads.escape escaped
    refine ih ⟨due, ?_⟩ ran
    split <;> exact copies
  case case11 ih =>
    obtain ⟨due, reads⟩ := stands
    exact ih ⟨due, reads.closeLiteral⟩ ran
  -- A quote of the other kind gets a backslash, and any other character stands for itself.
  case case12 progress c rest alone escape _ escaped placed ih =>
    obtain ⟨due, reads⟩ := stands
    refine ih ⟨due, ?_⟩ ran
    by_cases quote : c = '"'
    · subst quote
      exact reads.escape '"'
    · have slash := unescaped_of_clauses alone escape
      have same : escaped = progress := if_neg quote
      unfold placed
      rw [same]
      refine Progress.Reads.literal ?_ slash quote
      split <;> exact reads
  -- The quote that opens a literal is written behind settled white space.
  case case17 ih =>
    obtain ⟨due, reads⟩ := stands
    exact ih ⟨due, (reads.join _).openLiteral⟩ ran
  case case18 unquoted taken found ih =>
    obtain ⟨due, reads⟩ := stands
    exact ih (reads.take (fun same => unquoted (.inl same)) found) ran

/-- Canonical text is balanced. -/
theorem ofSource_balanced {source file : String} {canonical : Canonical}
    (accepted : ofSource source file = .ok canonical) : Balanced nothing canonical.text :=
  continueFrom_balanced ⟨[], rfl, rfl⟩ accepted

end ScriptEngine.Canonical
