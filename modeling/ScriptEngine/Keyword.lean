/-! The keywords of the language. -/

namespace ScriptEngine

/-- A keyword; `exit` is a second spelling of `quit`. -/
inductive Keyword where
  | ifKeyword
  | elifKeyword
  | elseKeyword
  | whileKeyword
  | doKeyword
  | forKeyword
  | switchKeyword
  | caseKeyword
  | defaultKeyword
  | tryKeyword
  | catchKeyword
  | throwKeyword
  | returnKeyword
  | breakKeyword
  | continueKeyword
  | quitKeyword
  | functionKeyword
  | cfunctionKeyword
  | classKeyword
  | namespaceKeyword
  | varKeyword
  | enumKeyword
  | newKeyword
  | lockKeyword
  | threadKeyword
  | spawnKeyword
  deriving DecidableEq, Repr

namespace Keyword

/-- The spellings with their keywords; the first spelling of a keyword is the usual one. -/
def spellings : List (String × Keyword) := [
  ("if", .ifKeyword), ("elif", .elifKeyword), ("else", .elseKeyword), ("while", .whileKeyword),
  ("do", .doKeyword), ("for", .forKeyword), ("switch", .switchKeyword), ("case", .caseKeyword),
  ("default", .defaultKeyword), ("try", .tryKeyword), ("catch", .catchKeyword),
  ("throw", .throwKeyword), ("return", .returnKeyword), ("break", .breakKeyword),
  ("continue", .continueKeyword), ("quit", .quitKeyword), ("exit", .quitKeyword),
  ("function", .functionKeyword), ("cfunction", .cfunctionKeyword), ("class", .classKeyword),
  ("namespace", .namespaceKeyword), ("var", .varKeyword), ("enum", .enumKeyword),
  ("new", .newKeyword), ("lock", .lockKeyword), ("thread", .threadKeyword),
  ("spawn", .spawnKeyword)]

/-- The keyword with a spelling. -/
def ofName? (name : String) : Option Keyword := spellings.lookup name

/-- The usual spelling of a keyword. -/
def name (keyword : Keyword) : String :=
  ((spellings.find? fun (_, other) => other == keyword).map (·.1)).getD ""

/-- Whether a keyword starts an expression rather than a statement. -/
def startsExpression : Keyword → Bool
  | .newKeyword => true
  | .threadKeyword => true
  | .spawnKeyword => true
  | _ => false

end Keyword

end ScriptEngine
