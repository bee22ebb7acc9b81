import ScriptEngine.Fault
import ScriptEngine.Text.Blank
import ScriptEngine.Text.Identifier

/-! Canonical source text: one quote style, no comments, and no white space that carries no meaning. -/

namespace ScriptEngine

open Text

/-- Words that keep a space behind them, so that their operand stays apart. -/
def spacedKeywords : List String :=
  ["return", "throw", "case", "new", "function", "cfunction", "class", "namespace", "var", "enum",
    "else", "in", "of", "include"]

/-- Canonical text, with the source line of each of its characters. -/
structure Canonical where
  marks : List (Char × Nat)
  deriving DecidableEq, Repr

namespace Canonical

/-- The characters of a canonical text. -/
def text (canonical : Canonical) : List Char := canonical.marks.map (·.1)

/-- The source line of each character. -/
def lines (canonical : Canonical) : List Nat := canonical.marks.map (·.2)

/-- The closing partner of an opening bracket. -/
def closer? : Char → Option Char
  | '(' => some ')'
  | '[' => some ']'
  | '{' => some '}'
  | _ => none

/-- Whether a character is a closing bracket. -/
def isCloser (c : Char) : Bool := c == ')' || c == ']' || c == '}'

/-- Whether white space in front of `next` must survive; `emitted` is the text so far, last
character first. -/
def needsSpace (emitted : List (Char × Nat)) (next : Char) : Bool :=
  match emitted with
  | [] => false
  | (last, _) :: _ =>
    if isWordChar last && isWordChar next then true
    -- Two signs that were apart must not become a step operator.
    else if (last == '+' || last == '-') && (next == '+' || next == '-') then true
    else if next == ';' || !isWordChar last then false
    else
      let word := (emitted.takeWhile fun mark => isWordChar mark.1).map (·.1)
      let alone := match emitted.dropWhile fun mark => isWordChar mark.1 with
        | [] => true
        | (c, _) :: _ => c != '.'
      alone && spacedKeywords.contains (String.ofList word.reverse)

/-- What the characters at the current place belong to. -/
inductive Context where
  | code
  | lineComment
  | blockComment
  | literal (quote : Char) (opened : Nat)
  deriving DecidableEq, Repr

/-- What is known after reading part of a source. -/
structure Progress where
  /-- The canonical text so far, last character first. -/
  emitted : List (Char × Nat) := []
  /-- The brackets still open with their lines, innermost first. -/
  opened : List (Char × Nat) := []
  line : Nat := 1
  /-- Whether white space or a comment follows the emitted text. -/
  parted : Bool := false
  deriving DecidableEq, Repr

/-- Appends a character at the current line. -/
def Progress.emit (progress : Progress) (c : Char) : Progress :=
  { progress with emitted := (c, progress.line) :: progress.emitted }

/-- Passes a line feed. -/
def Progress.nextLine (progress : Progress) : Progress :=
  { progress with line := progress.line + 1 }

/-- Passes white space or a comment. -/
def Progress.part (progress : Progress) : Progress := { progress with parted := true }

/-- Settles the white space in front of `next`: it becomes one space or nothing. -/
def Progress.join (progress : Progress) (next : Char) : Progress :=
  let spaced :=
    if progress.parted && needsSpace progress.emitted next then progress.emit ' ' else progress
  { spaced with parted := false }

/-- Closes the innermost bracket with `closer`, if the two match. -/
def Progress.close? (progress : Progress) (closer : Char) : Option Progress :=
  match progress.opened with
  | (opener, _) :: outer =>
    if closer? opener = some closer then some { progress with opened := outer } else none
  | [] => none

/-- Takes one character of code other than a line feed, white space, or the start of a comment or
of a literal. -/
def Progress.take? (progress : Progress) (c : Char) : Option Progress :=
  let joined := progress.join c
  if (closer? c).isSome then
    some ({ joined with opened := (c, joined.line) :: joined.opened }.emit c)
  else if isCloser c then (joined.close? c).map (·.emit c)
  else some (joined.emit c)

/-- The finished text, unless a bracket is still open. -/
def Progress.finish (file : String) (progress : Progress) : Result Canonical :=
  match progress.opened with
  | [] => .ok ⟨progress.emitted.reverse⟩
  | (_, line) :: _ => fail (.imbalance .brackets file line)

/-- Reads the rest of a source in the given context. -/
def continueFrom (file : String) : Context → Progress → List Char → Result Canonical
  | .literal _ opened, _, [] => fail (.imbalance .quotes file opened)
  | .code, progress, [] => progress.finish file
  | .lineComment, progress, [] => progress.finish file
  | .blockComment, progress, [] => progress.finish file
  | .lineComment, progress, c :: rest =>
    if c = '\n' then continueFrom file .code progress.nextLine.part rest
    else continueFrom file .lineComment progress rest
  | .blockComment, progress, '*' :: '/' :: rest => continueFrom file .code progress rest
  | .blockComment, progress, c :: rest =>
    continueFrom file .blockComment (if c = '\n' then progress.nextLine else progress) rest
  | .literal _ opened, _, '\\' :: [] => fail (.imbalance .quotes file opened)
  | .literal quote opened, progress, '\\' :: escaped :: rest =>
    -- Only an escaped single quote loses its backslash, since it needs none between double quotes.
    let copied :=
      if escaped = '\'' ∧ quote = '\'' then progress.emit '\''
      else (progress.emit '\\').emit escaped
    continueFrom file (.literal quote opened)
      (if escaped = '\n' then copied.nextLine else copied) rest
  | .literal quote opened, progress, c :: rest =>
    if c = quote then continueFrom file .code (progress.emit '"') rest
    else
      let escaped := if c = '"' then progress.emit '\\' else progress
      let placed := if c = '\n' then escaped.nextLine else escaped
      continueFrom file (.literal quote opened) (placed.emit c) rest
  | .code, progress, '/' :: '/' :: rest => continueFrom file .lineComment progress.part rest
  | .code, progress, '/' :: '*' :: rest => continueFrom file .blockComment progress.part rest
  | .code, progress, c :: rest =>
    if c = '\n' then continueFrom file .code progress.nextLine.part rest
    else if isBlank c then continueFrom file .code progress.part rest
    else if c = '"' ∨ c = '\'' then
      let joined := progress.join c
      continueFrom file (.literal c joined.line) (joined.emit '"') rest
    else
      match progress.take? c with
      | some taken => continueFrom file .code taken rest
      | none => fail (.imbalance .brackets file progress.line)

/-- The canonical form of a source; `file` names it in a failure. -/
def ofSource (source file : String) : Result Canonical :=
  continueFrom file .code {} source.toList

end Canonical

end ScriptEngine
