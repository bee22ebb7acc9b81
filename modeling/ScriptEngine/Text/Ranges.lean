/-! Character sets given as sorted ranges of code points. -/

namespace ScriptEngine.Text

/-- Whether a code point lies in one of the ranges, which are sorted and closed at both ends. -/
def inRanges (code : Nat) : List (Nat × Nat) → Bool
  | [] => false
  | (first, last) :: rest =>
    -- No later range can start below a code point that this one has not reached.
    if code < first then false else code ≤ last || inRanges code rest

end ScriptEngine.Text
