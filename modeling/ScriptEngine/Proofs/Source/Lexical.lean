import Mathlib.Data.List.Induction
import ScriptEngine.Source.Canonical

/-! A source as it is read from left to right: which characters belong to comments and to quoted
literals, the line of each, and how the brackets of the code are nested. -/

namespace ScriptEngine

open Canonical (closer? isCloser)

/-- What the next character of a source belongs to. -/
inductive Mode where
  | code
  /-- Code behind a slash, which starts a comment if a slash or a star follows. -/
  | slash
  | lineComment
  | blockComment
  /-- A block comment behind a star, which ends it if a slash follows. -/
  | star
  | literal (quote : Char)
  /-- A literal behind a backslash. -/
  | escape (quote : Char)
  deriving DecidableEq, Repr

namespace Mode

/-- What follows a character. -/
def next : Mode → Char → Mode
  | .code, c => if c = '/' then .slash else if c = '"' ∨ c = '\'' then .literal c else .code
  | .slash, c =>
    if c = '/' then .lineComment else if c = '*' then .blockComment
    else if c = '"' ∨ c = '\'' then .literal c else .code
  | .lineComment, c => if c = '\n' then .code else .lineComment
  | .blockComment, c => if c = '*' then .star else .blockComment
  | .star, c => if c = '/' then .code else if c = '*' then .star else .blockComment
  | .literal quote, c =>
    if c = '\\' then .escape quote else if c = quote then .code else .literal quote
  | .escape quote, _ => .literal quote

/-- Whether a bracket here is one of the code. -/
def isCode : Mode → Bool
  | .code => true
  | .slash => true
  | _ => false

/-- The quote that ends the literal here. -/
def quote? : Mode → Option Char
  | .literal quote => some quote
  | .escape quote => some quote
  | _ => none

end Mode

/-- What is known behind a part of a source. -/
structure Reading where
  mode : Mode := .code
  line : Nat := 1
  /-- The brackets of the code with their lines. -/
  brackets : List (Char × Nat) := []
  deriving DecidableEq, Repr

namespace Reading

/-- Reads a character. -/
def step (reading : Reading) (c : Char) : Reading where
  mode := reading.mode.next c
  line := if c = '\n' then reading.line + 1 else reading.line
  brackets :=
    if reading.mode.isCode && ((closer? c).isSome || isCloser c) then
      reading.brackets ++ [(c, reading.line)]
    else reading.brackets

/-- Reads a text. -/
def of (text : List Char) : Reading := text.foldl step {}

variable {text rest : List Char} {c : Char}

/-- A text with one more character. -/
theorem of_snoc (text : List Char) (c : Char) : of (text ++ [c]) = (of text).step c := by
  simp [of]

/-- The mode behind one more character is the next one. -/
theorem mode_snoc (text : List Char) (c : Char) :
    (of (text ++ [c])).mode = (of text).mode.next c := by
  rw [of_snoc]
  rfl

/-- What is read further leaves the brackets of before. -/
theorem brackets_prefix (text rest : List Char) :
    (of text).brackets <+: (of (text ++ rest)).brackets := by
  -- The induction is on the rest, character by character.
  induction rest generalizing text with
  | nil => simp
  | cons c rest ih =>
    have further := ih (text ++ [c])
    rw [of_snoc, List.append_assoc, List.singleton_append] at further
    refine List.IsPrefix.trans ?_ further
    -- A character adds one bracket at most.
    by_cases bracket : ((of text).mode.isCode && ((closer? c).isSome || isCloser c)) = true
    · simp [step, bracket]
    · simp [step, bracket]

/-- A bracket of the code is the next one behind those that were read. -/
theorem bracket_prefix (outside : (of text).mode.isCode = true)
    (bracket : ((closer? c).isSome || isCloser c) = true) (rest : List Char) :
    (of text).brackets ++ [(c, (of text).line)] <+: (of (text ++ c :: rest)).brackets := by
  have further := brackets_prefix (text ++ [c]) rest
  rw [of_snoc, List.append_assoc, List.singleton_append] at further
  simpa [step, outside, bracket] using further

end Reading

/-- Brackets that form a sequence of groups, each with a closer that matches its opener. -/
inductive Nested : List (Char × Nat) → Prop where
  | nil : Nested []
  | group {opener closer : Char} {line closed : Nat} {inner rest : List (Char × Nat)}
      (matched : closer? opener = some closer) (inside : Nested inner) (behind : Nested rest) :
    Nested ((opener, line) :: (inner ++ (closer, closed) :: rest))

/-- Brackets that are nested but for some openers without a closer, the innermost first. -/
inductive LeavesOpen : List (Char × Nat) → List (Char × Nat) → Prop where
  | nested {text : List (Char × Nat)} (whole : Nested text) : LeavesOpen text []
  | opener {text inner opened : List (Char × Nat)} {c : Char} {line : Nat}
      (outer : LeavesOpen text opened) (opens : (closer? c).isSome = true) (inside : Nested inner) :
    LeavesOpen (text ++ (c, line) :: inner) ((c, line) :: opened)

/-- Reads a bracket with the openers that have no closer yet, the innermost first, unless it is a closer
that does not match. -/
def pair? (opened : List (Char × Nat)) (bracket : Char × Nat) : Option (List (Char × Nat)) :=
  if (closer? bracket.1).isSome then some (bracket :: opened)
  else
    match opened with
    | (opener, _) :: outer => if closer? opener = some bracket.1 then some outer else none
    | [] => none

/-- The openers without a closer. -/
def unclosed? (brackets : List (Char × Nat)) : Option (List (Char × Nat)) :=
  brackets.foldlM pair? []

variable {text rest opened : List (Char × Nat)}

/-- A closer opens nothing. -/
theorem closer_opens_nothing {opener closer : Char} (matched : closer? opener = some closer) :
    closer? closer = none := by
  unfold closer? at matched
  split at matched <;> cases matched <;> rfl

/-- Nested brackets are followed by one more sequence of them. -/
theorem Nested.append (first : Nested text) (second : Nested rest) : Nested (text ++ rest) := by
  induction first with
  | nil => exact second
  | group matched inside behind _ ih =>
    simpa using Nested.group matched inside ih

/-- Nested brackets leave open what was open in front of them. -/
theorem Nested.foldlM (nested : Nested text) (opened : List (Char × Nat)) :
    text.foldlM pair? opened = some opened := by
  induction nested generalizing opened with
  | nil => rfl
  -- The opener is put on the stack, the inner brackets leave it there, and the closer takes it off.
  | @group opener closer line closed inner rest matched inside behind inner_ih rest_ih =>
    have opens : pair? opened (opener, line) = some ((opener, line) :: opened) := by
      simp [pair?, matched]
    have closes : pair? ((opener, line) :: opened) (closer, closed) = some opened := by
      simp [pair?, matched, closer_opens_nothing matched]
    simp [List.foldlM_append, opens, inner_ih, closes, rest_ih]

/-- Nested brackets close nothing of what is open in front of them. -/
theorem LeavesOpen.append (leaves : LeavesOpen text opened) (nested : Nested rest) :
    LeavesOpen (text ++ rest) opened := by
  cases leaves with
  | nested whole => exact .nested (whole.append nested)
  | opener outer opens inside => simpa using LeavesOpen.opener outer opens (inside.append nested)

/-- The openers without a closer are those that are left when the brackets are paired one by one. -/
theorem leavesOpen_iff : LeavesOpen text opened ↔ unclosed? text = some opened := by
  constructor
  · -- Each opener that has no closer is left on the stack.
    intro leaves
    induction leaves with
    | nested whole => exact whole.foldlM []
    | @opener text inner opened c line outer opens inside ih =>
      have opening : pair? opened (c, line) = some ((c, line) :: opened) := by simp [pair?, opens]
      unfold unclosed? at ih ⊢
      simp [List.foldlM_append, ih, opening, inside.foldlM]
  · intro paired
    -- The induction is on the brackets from the last one backwards.
    induction text using List.reverseRecOn generalizing opened with
    | nil =>
      cases paired
      exact .nested .nil
    | append_singleton text bracket ih =>
      simp only [unclosed?, List.foldlM_append, List.foldlM_cons, List.foldlM_nil, bind_pure] at paired
      obtain ⟨before, first, last⟩ := Option.bind_eq_some_iff.mp paired
      have leaves := ih first
      -- The last bracket is put on the stack or takes its partner off it.
      unfold pair? at last
      split at last
      case isTrue opens =>
        cases last
        exact .opener leaves opens .nil
      case isFalse =>
        split at last
        case h_1 opener line outer =>
          split at last
          case isTrue matched =>
            cases last
            cases leaves with
            | opener outer opens inside =>
              simpa using outer.append (.group matched inside .nil)
          case isFalse => cases last
        case h_2 => cases last

/-- Brackets are nested if no opener is left without a closer. -/
theorem nested_iff : Nested text ↔ unclosed? text = some [] := by
  rw [← leavesOpen_iff]
  constructor
  · exact .nested
  · intro leaves
    cases leaves with
    | nested whole => exact whole

/-- A part of brackets that can be paired can be paired. -/
theorem unclosed?_prefix (shorter : text <+: rest) (paired : (unclosed? rest).isSome = true) :
    (unclosed? text).isSome = true := by
  obtain ⟨more, rfl⟩ := shorter
  obtain ⟨opened, paired⟩ := Option.isSome_iff_exists.mp paired
  rw [unclosed?, List.foldlM_append] at paired
  obtain ⟨before, first, -⟩ := Option.bind_eq_some_iff.mp paired
  rw [unclosed?, first]
  rfl

end ScriptEngine
