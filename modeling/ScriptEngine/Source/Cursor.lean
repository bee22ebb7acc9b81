import ScriptEngine.Source.Canonical

/-! A place in canonical text, and the reading and skipping that respect brackets and literals. -/

namespace ScriptEngine

open Text

/-- Canonical text that cursors move over. -/
structure SourceText where
  file : String
  text : List Char
  /-- The source line of each character; empty for text taken out of other text. -/
  lines : Array Nat
  /-- The line of every place when `lines` is empty. -/
  baseLine : Nat
  /-- The number of characters. -/
  size : Nat := text.length
  size_eq : size = text.length := by rfl

/-- A place in a source to which failures in derived text are attributed. -/
structure Site where
  file : String
  line : Nat
  deriving DecidableEq, Repr

/-- A position in a text together with what follows it. -/
structure Cursor where
  source : SourceText
  pos : Nat
  rest : List Char
  rest_eq : rest = source.text.drop pos
  pos_le : pos ≤ source.text.length

/-- A failure to read, with the place where reading stopped. -/
structure ReadFailure where
  cause : Cause
  stopped : Cursor

/-- What reading at a cursor yields. -/
abbrev Read (α : Type) := Except ReadFailure α

namespace Cursor

/-- The cursor at the start of a text. -/
def start (source : SourceText) : Cursor where
  source := source
  pos := 0
  rest := source.text
  rest_eq := by simp
  pos_le := Nat.zero_le _

/-- The cursor at the start of a canonical text. -/
def ofCanonical (canonical : Canonical) (file : String) : Cursor :=
  start { file, text := canonical.text, lines := canonical.lines.toArray, baseLine := 1 }

/-- The cursor at the start of a source, which is brought into canonical form first. -/
def ofSource (source file : String) : Result Cursor := do
  return ofCanonical (← Canonical.ofSource source file) file

/-- The cursor at the start of text taken from `site`; all of it counts as on that line. -/
def ofText (site : Site) (text : List Char) : Cursor :=
  start { file := site.file, text, lines := #[], baseLine := site.line }

/-- The file a cursor reads. -/
def file (cursor : Cursor) : String := cursor.source.file

/-- The cursor behind the last character. -/
def finish (source : SourceText) : Cursor where
  source := source
  pos := source.size
  rest := []
  rest_eq := by simp [source.size_eq]
  pos_le := Nat.le_of_eq source.size_eq

/-- The cursor at an offset whose following text is known; offsets behind the end mean the end. -/
def place (source : SourceText) (pos : Nat) (rest : List Char)
    (rest_eq : rest = source.text.drop pos) : Cursor :=
  if empty : rest = [] then finish source
  else ⟨source, pos, rest, rest_eq, by
    have := List.drop_eq_nil_iff (l := source.text) (i := pos)
    grind⟩

/-- Moves to an absolute offset, at most to the end. -/
def moveTo (cursor : Cursor) (pos : Nat) : Cursor :=
  place cursor.source pos (cursor.source.text.drop pos) rfl

/-- Moves forward by `count` characters, at most to the end. -/
def advanceBy (cursor : Cursor) (count : Nat) : Cursor :=
  place cursor.source (cursor.pos + count) (cursor.rest.drop count) (by
    rw [cursor.rest_eq, List.drop_drop])

/-- Moves forward by one character. -/
def advance (cursor : Cursor) : Cursor := cursor.advanceBy 1

/-- The character at the cursor. -/
def current (cursor : Cursor) : Option Char := cursor.rest.head?

/-- The character `offset` places ahead. -/
def peek (cursor : Cursor) (offset : Nat) : Option Char := cursor.rest[offset]?

/-- Whether nothing follows. -/
def atEnd (cursor : Cursor) : Bool := cursor.rest.isEmpty

/-- The number of characters of the whole text. -/
def length (cursor : Cursor) : Nat := cursor.source.size

/-- The number of characters that follow. -/
def left (cursor : Cursor) : Nat := cursor.length - cursor.pos

/-- What is counted is the text that follows. -/
theorem left_eq_length (cursor : Cursor) : cursor.left = cursor.rest.length := by
  simp [left, length, cursor.source.size_eq, cursor.rest_eq]

/-- The source line of the current place; the end belongs to the line of the last character. -/
def line (cursor : Cursor) : Nat :=
  let lines := cursor.source.lines
  lines.getD (min cursor.pos (lines.size - 1)) cursor.source.baseLine

/-- The place to which failures in text taken from here are attributed. -/
def site (cursor : Cursor) : Site := ⟨cursor.file, cursor.line⟩

/-- The cursor at the start of text taken from here. -/
def child (cursor : Cursor) (text : List Char) : Cursor := ofText cursor.site text

/-- The cause for a syntax fault at the current line. -/
def fault (cursor : Cursor) (fault : SyntaxFault) : Cause := .syntaxError fault cursor.line

/-- The cause for a bracket at the current line that has no partner. -/
def imbalance (cursor : Cursor) : Cause := .imbalance .brackets cursor.file cursor.line

/-- Stops reading here with a syntax fault. -/
def refuse {α : Type} (cursor : Cursor) (fault : SyntaxFault) : Read α :=
  .error ⟨cursor.fault fault, cursor⟩

/-- Moves forward over the characters that satisfy `p`. -/
def skipWhile (cursor : Cursor) (p : Char → Bool) : Cursor :=
  cursor.advanceBy (cursor.rest.takeWhile p).length

/-- Skips the spaces that canonical text keeps between words. -/
def skipSpaces (cursor : Cursor) : Cursor := cursor.skipWhile (· == ' ')

/-- Whether the text at the cursor starts with `token`. -/
def startsWith (cursor : Cursor) (token : String) : Bool := token.toList.isPrefixOf cursor.rest

/-- Passes `token` if the text at the cursor starts with it. -/
def consume? (cursor : Cursor) (token : String) : Option Cursor :=
  if cursor.startsWith token then some (cursor.advanceBy token.length) else none

/-- Passes the character `wanted`, with spaces in front of it, or fails. -/
def expect (cursor : Cursor) (wanted : Char) : Read Cursor :=
  let here := cursor.skipSpaces
  if here.current = some wanted then .ok here.advance
  else here.refuse (.expected wanted here.current)

/-- The text between two absolute offsets. -/
def slice (cursor : Cursor) (first last : Nat) : List Char :=
  (cursor.source.text.drop first).take (last - first)

/-- Reads the letters, digits and underscores behind any spaces; the token may be empty. -/
def readToken (cursor : Cursor) : String × Cursor :=
  let here := cursor.skipSpaces
  let token := here.rest.takeWhile isWordChar
  (String.ofList token, here.advanceBy token.length)

/-- The token that `readToken` would read. -/
def peekToken (cursor : Cursor) : String := cursor.readToken.1

/-- Passes a token whatever it is. -/
def skipToken (cursor : Cursor) : Cursor := cursor.readToken.2

/-- How a scan reads the next character. -/
inductive Quoting where
  | outside
  | inside
  | escaped
  deriving DecidableEq, Repr

/-- The offset of the first place outside literals at which `stop` holds; `stop` gets the nesting
depth there and the text from there on, and `offset` counts the characters already passed. -/
def scan (stop : Int → List Char → Bool) : Quoting → Int → Nat → List Char → Option Nat
  | _, _, _, [] => none
  | .escaped, depth, offset, _ :: rest => scan stop .inside depth (offset + 1) rest
  | .inside, depth, offset, c :: rest =>
    let next := if c = '\\' then .escaped else if c = '"' then .outside else .inside
    scan stop next depth (offset + 1) rest
  | .outside, depth, offset, c :: rest =>
    if stop depth (c :: rest) then some offset
    else if c = '"' then scan stop .inside depth (offset + 1) rest
    else
      let nested :=
        if (Canonical.closer? c).isSome then depth + 1
        else if Canonical.isCloser c then depth - 1 else depth
      scan stop .outside nested (offset + 1) rest

/-- The distance to the first place outside literals and at depth 0 whose text satisfies `stop`. -/
def distanceTo? (text : List Char) (stop : List Char → Bool) : Option Nat :=
  scan (fun depth here => depth == 0 && stop here) .outside 0 0 text

/-- Whether a text starts with a character that satisfies `p`. -/
def headIs (p : Char → Bool) : List Char → Bool
  | [] => false
  | c :: _ => p c

/-- The offset of the first of `delimiters` from here on outside literals, at any depth. -/
def findFirst? (cursor : Cursor) (delimiters : List Char) : Option Nat :=
  scan (fun _ here => headIs delimiters.contains here) .outside 0 cursor.pos cursor.rest

/-- Reads the contents of the group that `opener` starts at the cursor and passes its `closer`. -/
def readBalanced (cursor : Cursor) (opener closer : Char) : Read (List Char × Cursor) :=
  let here := cursor.skipSpaces
  if here.current = some opener then
    let inner := here.advance
    match distanceTo? inner.rest (headIs (· == closer)) with
    | some distance => .ok (inner.rest.take distance, inner.advanceBy (distance + 1))
    | none => .error ⟨here.imbalance, here⟩
  else here.refuse (.expected opener here.current)

/-- Reads up to the first character outside brackets that satisfies `stop` or closes a bracket. -/
def readUntil (cursor : Cursor) (stop : Char → Bool) : List Char × Cursor :=
  let distance := (distanceTo? cursor.rest (headIs fun c => stop c || Canonical.isCloser c)).getD
    cursor.left
  (cursor.rest.take distance, cursor.advanceBy distance)

/-- Whether an operand cannot reach past a character. -/
def endsOperand (c : Char) : Bool := c == ';' || c == ',' || c == ':' || Canonical.isCloser c

/-- Skips an operand that is not evaluated, up to one of `operators` or the end of the expression. -/
def skipOperand (cursor : Cursor) (operators : List String) : Cursor :=
  let stop := fun here =>
    headIs endsOperand here || operators.any (·.toList.isPrefixOf here)
  cursor.advanceBy ((distanceTo? cursor.rest stop).getD cursor.left)

/-- Skips a block in braces. -/
def skipBlock (cursor : Cursor) : Read Cursor := return (← cursor.readBalanced '{' '}').2

/-- From inside a block, moves behind the brace that closes it. -/
def skipToBlockEnd (cursor : Cursor) : Cursor :=
  match distanceTo? cursor.rest (headIs (· == '}')) with
  | some distance => cursor.advanceBy (distance + 1)
  | none => finish cursor.source

/-- Moves behind the semicolon that ends a statement, or in front of the brace that does. -/
def nextStatement (cursor : Cursor) : Cursor :=
  match distanceTo? cursor.rest (headIs fun c => c == ';' || c == '}') with
  | some distance =>
    let here := cursor.advanceBy distance
    if here.current = some ';' then here.advance else here
  | none => finish cursor.source

end Cursor

end ScriptEngine
