import ScriptEngine.Source.Cursor

/-! Passing over whole statements without running them, and splitting text at the top level. -/

namespace ScriptEngine

/-- Keywords whose statements carry a header in parentheses in front of a body. -/
def headedKeywords : List String := ["if", "elif", "while", "for", "switch", "lock"]

/-- Keywords whose statements end with their first block. -/
def declarationKeywords : List String := ["function", "cfunction", "class", "namespace", "enum"]

/-- Whether a word starts a label in the body of a `switch`. -/
def startsLabel (word : String) : Bool := word == "case" || word == "default"

namespace Cursor

/-- Skips what is in parentheses, and a statement behind it by `skip`. -/
def skipGuarded (skip : Cursor → Read Cursor) (cursor : Cursor) : Read Cursor := do
  let (_, body) ← cursor.readBalanced '(' ')'
  skip body

/-- Skips the clauses behind the first branch of an `if`, at most `clauses` of them; `skip` skips
one statement. -/
def skipClauses (skip : Cursor → Read Cursor) : Nat → Cursor → Read Cursor
  | 0, cursor => .ok cursor
  | clauses + 1, cursor =>
    match cursor.peekToken with
    | "elif" => do skipClauses skip clauses (← skipGuarded skip cursor.skipToken)
    | "else" =>
      let behind := cursor.skipToken
      if behind.peekToken = "if" then do
        skipClauses skip clauses (← skipGuarded skip behind.skipToken)
      else skip behind
    | _ => .ok cursor

/-- Skips a header in parentheses if there is one. -/
def skipHeader (cursor : Cursor) : Read Cursor :=
  let here := cursor.skipSpaces
  if here.current = some '(' then return (← here.readBalanced '(' ')').2 else .ok here

/-- Skips a headed statement behind its keyword; `skip` skips the statements nested in it. -/
def skipHeaded (skip : Cursor → Read Cursor) (keyword : String) (cursor : Cursor) : Read Cursor := do
  let next ← skip (← cursor.skipHeader)
  if keyword = "if" ∨ keyword = "elif" then skipClauses skip next.left next else return next

/-- Skips a `try` statement behind its keyword. -/
def skipTry (skip : Cursor → Read Cursor) (cursor : Cursor) : Read Cursor := do
  let next ← skip cursor
  if next.peekToken = "catch" then skipGuarded skip next.skipToken else return next

/-- Skips the condition behind the body of a `do` statement if there is one. -/
def skipCondition (cursor : Cursor) : Read Cursor :=
  if cursor.peekToken = "while" then return (← cursor.skipToken.readBalanced '(' ')').2
  else .ok cursor

/-- Skips a `do` statement behind its keyword. -/
def skipDo (skip : Cursor → Read Cursor) (cursor : Cursor) : Read Cursor := do
  let tail ← skipCondition (← skip cursor)
  return (tail.skipSpaces.consume? ";").getD tail.skipSpaces

/-- Skips a declaration behind its keyword: up to the first brace, and the block there. -/
def skipDeclaration (cursor : Cursor) : Read Cursor :=
  match cursor.findFirst? ['{'] with
  | some offset => (cursor.moveTo offset).skipBlock
  | none => .error ⟨cursor.imbalance, cursor⟩

/-- Skips the statement that starts with the word at a cursor. -/
def skipWord (skip : Cursor → Read Cursor) (cursor : Cursor) : Read Cursor :=
  let (word, behind) := cursor.readToken
  if headedKeywords.contains word then skipHeaded skip word behind
  else if word = "else" then skip behind
  else if word = "try" then skipTry skip behind
  else if word = "do" then skipDo skip behind
  else if declarationKeywords.contains word then behind.skipDeclaration
  else .ok cursor.nextStatement

/-- Skips one statement. -/
def skipWith (skip : Cursor → Read Cursor) (cursor : Cursor) : Read Cursor :=
  let here := cursor.skipSpaces
  match here.current with
  | none => .ok here
  | some '{' => here.skipBlock
  | some ';' => .ok here.advance
  | some _ => skipWord skip here

/-- Skips one statement whose nested statements are at most `depth` levels deep. -/
def skipNested : Nat → Cursor → Read Cursor
  | 0, cursor => .ok cursor
  | depth + 1, cursor => skipWith (skipNested depth) cursor

/-- Skips one statement with the bodies and clauses that belong to it. -/
def skipStatement (cursor : Cursor) : Read Cursor :=
  -- Every nested statement starts behind at least one more character.
  skipNested (cursor.left + 1) cursor

/-- Skips the `elif` and `else` clauses behind the first branch of an `if`. -/
def skipElseChain (cursor : Cursor) : Read Cursor :=
  skipClauses skipStatement (cursor.left + 1) cursor

/-- Skips statements up to a label or the end, at most `count` of them. -/
def skipToLabel : Nat → Cursor → Read (Option Cursor)
  | 0, _ => .ok none
  | count + 1, cursor => do
    let here := cursor.skipSpaces
    if here.atEnd || startsLabel here.peekToken then return some here
    else skipToLabel count (← here.skipStatement)

/-- Reads a statement body: the inside of a block, or one whole statement. -/
def readBody (cursor : Cursor) : Read (List Char × Cursor) := do
  let here := cursor.skipSpaces
  if here.current = some '{' then here.readBalanced '{' '}'
  else
    let next ← here.skipStatement
    return (here.rest.take (next.pos - here.pos), next)

/-- Passes the semicolon that ends a statement; the end of the text or of a block also ends one. -/
def endStatement (cursor : Cursor) : Read Cursor :=
  let here := cursor.skipSpaces
  match here.current with
  | some ';' => .ok here.advance
  | none => .ok here
  | some '}' => .ok here
  | found => here.refuse (.expected ';' found)

end Cursor

/-- Splits a text that is not blank at each `separator` outside brackets and literals. -/
def splitParts (separator : Char) (text : List Char) : List (List Char) :=
  let distance :=
    (Cursor.distanceTo? text (Cursor.headIs fun c => c == separator || Canonical.isCloser c)).getD
      text.length
  let part := Text.trim (text.take distance)
  match _found : text.drop distance with
  | [] => [part]
  | c :: rest => if c = separator then part :: splitParts separator rest else [part]
termination_by text.length
decreasing_by
  have := congrArg List.length _found
  simp only [List.length_drop, List.length_cons] at this
  omega

/-- The parts of a text between `separator`s outside brackets and literals, each without blanks at
its ends; blank text has no parts. -/
def splitTopLevel (text : List Char) (separator : Char) : List (List Char) :=
  if (Text.trim text).isEmpty then [] else splitParts separator text

end ScriptEngine
