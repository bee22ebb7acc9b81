import ScriptEngine.Handler
import ScriptEngine.Text.Search

/-! The names that an interpreter and its workers share. -/

namespace ScriptEngine

/-- Shared names by the scope that holds them. -/
structure SymbolTable where
  globals : OrderedMap Handler := .empty
  natives : OrderedMap Handler := .empty
  fileLocals : OrderedMap (OrderedMap Handler) := .empty
  namespaces : OrderedMap (OrderedMap Handler) := .empty
  actions : OrderedMap Action := .empty

namespace SymbolTable

/-- The binding of a name in the scope of a file. -/
def fileLocal? (symbols : SymbolTable) (file name : String) : Option Handler :=
  (symbols.fileLocals.get? file).bind (·.get? name)

/-- The binding of a name in a namespace. -/
def namespaced? (symbols : SymbolTable) (scope name : String) : Option Handler :=
  (symbols.namespaces.get? scope).bind (·.get? name)

/-- Binds a global. -/
def setGlobal (symbols : SymbolTable) (name : String) (handler : Handler) : SymbolTable :=
  { symbols with globals := symbols.globals.insert name handler }

/-- Binds a native. -/
def setNative (symbols : SymbolTable) (name : String) (handler : Handler) : SymbolTable :=
  { symbols with natives := symbols.natives.insert name handler }

/-- Binds a name in the scope of a file. -/
def setFileLocal (symbols : SymbolTable) (file name : String) (handler : Handler) : SymbolTable :=
  let names := (symbols.fileLocals.get? file).getD .empty
  { symbols with fileLocals := symbols.fileLocals.insert file (names.insert name handler) }

/-- Whether a namespace exists. -/
def hasNamespace (symbols : SymbolTable) (scope : String) : Bool := symbols.namespaces.contains scope

/-- Creates a namespace unless it exists. -/
def ensureNamespace (symbols : SymbolTable) (scope : String) : SymbolTable :=
  if symbols.hasNamespace scope then symbols
  else { symbols with namespaces := symbols.namespaces.insert scope .empty }

/-- Binds a name in a namespace, which is created if needed. -/
def setNamespaced (symbols : SymbolTable) (scope name : String) (handler : Handler) : SymbolTable :=
  let names := (symbols.namespaces.get? scope).getD .empty
  { symbols with namespaces := symbols.namespaces.insert scope (names.insert name handler) }

/-- Cuts a qualified name into a namespace and the name of a member. -/
def splitQualified? (name : String) : Option (String × String) :=
  (Text.cut? ['.'] name.toList).map fun (scope, member) =>
    (String.ofList scope, String.ofList member)

/-- The binding of a qualified name. -/
def qualified? (symbols : SymbolTable) (name : String) : Option Handler :=
  (splitQualified? name).bind fun (scope, member) => symbols.namespaced? scope member

/-- Installs an action under its token. -/
def setAction (symbols : SymbolTable) (action : Action) : SymbolTable :=
  { symbols with actions := symbols.actions.insert action.token action }

/-- Whether a token stands at the start of a text. The single equals sign is never the first half
of the double one. -/
def matchesToken (text : List Char) (token : String) : Bool :=
  token.toList.isPrefixOf text && !(token == "=" && ['=', '='].isPrefixOf text)

/-- The action with the longest token at the start of a text. -/
def matchAction? (symbols : SymbolTable) (text : List Char) : Option Action :=
  symbols.actions.values.foldl (fun best action =>
    if matchesToken text action.token then
      match best with
      | some (longest : Action) =>
        if longest.token.utf8ByteSize ≤ action.token.utf8ByteSize then some action else best
      | none => some action
    else best) none

end SymbolTable

end ScriptEngine
