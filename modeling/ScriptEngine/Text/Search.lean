/-! Finding, replacing and splitting by a part of a text. -/

namespace ScriptEngine.Text

/-- The offset of the first occurrence of `needle`. -/
def find? (needle : List Char) : List Char → Option Nat
  | [] => if needle.isEmpty then some 0 else none
  | c :: rest =>
    if needle.isPrefixOf (c :: rest) then some 0 else (find? needle rest).map (· + 1)

/-- Whether `needle` occurs in a text. -/
def occurs (needle text : List Char) : Bool := (find? needle text).isSome

/-- Replaces the occurrences of a needle that is not empty, from left to right; `skipped` characters
still belong to the last occurrence. -/
def replaceFrom (needle replacement : List Char) : Nat → List Char → List Char
  | _, [] => []
  | skipped + 1, _ :: rest => replaceFrom needle replacement skipped rest
  | 0, c :: rest =>
    if needle.isPrefixOf (c :: rest) then
      replacement ++ replaceFrom needle replacement (needle.length - 1) rest
    else c :: replaceFrom needle replacement 0 rest

/-- Replaces every occurrence of `needle`; the empty needle occurs around each character. -/
def replace (needle replacement text : List Char) : List Char :=
  if needle.isEmpty then replacement ++ text.flatMap (· :: replacement)
  else replaceFrom needle replacement 0 text

/-- Puts a character in front of the first part. -/
def consFirst (c : Char) : List (List Char) → List (List Char)
  | [] => [[c]]
  | part :: rest => (c :: part) :: rest

/-- The parts between the occurrences of a separator that is not empty; `skipped` characters still
belong to the last occurrence. -/
def splitFrom (separator : List Char) : Nat → List Char → List (List Char)
  | _, [] => [[]]
  | skipped + 1, _ :: rest => splitFrom separator skipped rest
  | 0, c :: rest =>
    if separator.isPrefixOf (c :: rest) then
      [] :: splitFrom separator (separator.length - 1) rest
    else consFirst c (splitFrom separator 0 rest)

/-- The parts of a text between the occurrences of `separator`; an empty separator parts all
characters. -/
def split (separator text : List Char) : List (List Char) :=
  if separator.isEmpty then text.map ([·]) else splitFrom separator 0 text

/-- Cuts a text at the first occurrence of `separator`, which must not be empty. -/
def cut? (separator : List Char) (text : List Char) : Option (List Char × List Char) :=
  (find? separator text).map fun offset =>
    (text.take offset, text.drop (offset + separator.length))

end ScriptEngine.Text
