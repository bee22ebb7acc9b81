import ScriptEngine.Proofs.Tagged.Indexed
import ScriptEngine.Proofs.Tagged.Normal

/-! What any text denotes as tagged text. -/

namespace ScriptEngine

open Tagged

/-- Every text, well formed or not, is read by positions that never lie out of range. It is refused as
malformed, or it is read to the end of what is left without the blanks around it; and a value that is
read and holds no moment has a text of its own, which denotes the same value again, but for the sign of
zeros. -/
theorem unmarshalling_normalizes (text : String) (fieldsOf : Nat → List (String × Value))
    (objects : Nat) :
    (∃ offset fault, toValue text = fail (.syntaxError (.malformedTagged offset fault) 0) ∧
        wholeAt (Text.trim text.toList) = some (.error (offset, fault))) ∨
      ∃ value, toValue text = .ok value ∧
        wholeAt (Text.trim text.toList) = some (.ok (value, (Text.trim text.toList).length)) ∧
        (value.dateFree = true → ∃ written, ofValue? fieldsOf objects value = some written ∧
          toValue written = .ok value.asWritten) := by
  rw [wholeAt_eq]
  cases whole : readWhole (Text.trim text.toList) with
  | error refused =>
    -- Both readings are refused at the same offset.
    refine .inl ⟨refused.1, refused.2, ?_, rfl⟩
    rw [toValue, whole]
  | ok value =>
    have read : toValue text = .ok value := by rw [toValue, whole]
    exact .inr ⟨value, read, rfl,
      fun free => exists_text fieldsOf objects (portable_toValue read free)⟩

/-- A text that is never written: with blanks around it, a key twice, the mark of the empty key, a named
array item, an object, a needless escape, digits in upper case, numbers in other spellings, and entries
of an enumeration without a name or a number. -/
def lenientText : String :=
  " <:MAP:<a:NUM:+1e0><\\0:BYT:0A><a:NUM:nan><:ARR:<n:NUM:-0><:STR:\\x>>" ++
    "<e:ENU:E<:NUM:2.9><k:STR:x>><o:OBJ:T<:NON:>>>\n"

/-- The text is read as a value without moments, which is written and read again. -/
theorem unmarshalling_normalizes_lenient :
    ∃ value, toValue lenientText = .ok value ∧ value.dateFree = true ∧
      ∃ written, ofValue? (fun _ => []) 0 value = some written ∧
        toValue written = .ok value.asWritten := by
  have accepted : (match toValue lenientText with
      | .ok value => value.dateFree
      | .error _ => false) = true := by
    decide +kernel
  -- The text is not refused, so that the other way is left.
  rcases unmarshalling_normalizes lenientText (fun _ => []) 0 with
    ⟨_, _, refused, _⟩ | ⟨value, read, _, again⟩
  · rw [refused] at accepted
    cases accepted
  · rw [read] at accepted
    exact ⟨value, read, accepted, again accepted⟩

end ScriptEngine
