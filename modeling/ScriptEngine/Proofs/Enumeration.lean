import ScriptEngine.Interpreter
import ScriptEngine.Proofs.Ends
import ScriptEngine.Proofs.Number.Integer
import ScriptEngine.Proofs.Tagged.Normal

/-! The numbers of an enumeration: how they are given while it is declared, and which of them lead back
to their entries. -/

namespace ScriptEngine

/-- The integers of 64 bits. -/
def IsWord (number : Int) : Prop := -0x8000000000000000 ≤ number ∧ number ≤ 0x7FFFFFFFFFFFFFFF

/-- What an entry without a number gets behind another one: one more, but for the largest integer of 64
bits, behind which the least one comes. -/
inductive Follows (previous : Int) : Int → Prop
  | next (below : previous < 0x7FFFFFFFFFFFFFFF) : Follows previous (previous + 1)
  | around (largest : previous = 0x7FFFFFFFFFFFFFFF) : Follows previous (-0x8000000000000000)

/-- The entries of an enumeration with their numbers, behind an entry with the number `previous`, as
they are declared one after the other. -/
inductive Numbered (eval : Evaluator) (site : Site) (allows : Engine → Engine → Prop) :
    Int → List (List Char) → Engine → List (String × Int) → Engine → Prop
  | done {previous : Int} {engine : Engine} : Numbered eval site allows previous [] engine [] engine
  /-- An entry without a number follows the one before it. -/
  | implicit {previous number : Int} {part : List Char} {parts : List (List Char)}
      {engine final : Engine} {numbers : List (String × Int)}
      (bare : (splitDefault part).2 = none) (follows : Follows previous number)
      (identifier : Text.isIdentifier part = true)
      (behind : Numbered eval site allows number parts engine numbers final) :
    Numbered eval site allows previous (part :: parts) engine
      ((String.ofList part, number) :: numbers) final
  /-- An entry with an expression gets the integer of the number that it yields. -/
  | explicit {previous : Int} {part name text : List Char} {parts : List (List Char)}
      {engine middle final : Engine} {value : Value} {x : Float} {numbers : List (String × Int)}
      (given : splitDefault part = (name, some text))
      (evaluated : (evaluateAs eval .enumEntry site text engine).MayEnd allows (.ok value) middle)
      (number : value.number? = some x) (identifier : Text.isIdentifier name = true)
      (behind : Numbered eval site allows (Number.toInteger x) parts middle numbers final) :
    Numbered eval site allows previous (part :: parts) engine
      ((String.ofList name, Number.toInteger x) :: numbers) final

/-- The enumeration of some entries. -/
def Value.enumerationOf (name : String) (numbers : List (String × Int)) : Value :=
  .ofData (.enumeration ⟨name, .ofList numbers⟩)

/-- Some number has an integer. -/
def Attained (number : Int) : Prop := ∃ x : Float, Number.toInteger x = number

variable {eval : Evaluator} {cursor : Cursor} {allows : Engine → Engine → Prop}
  {engine final : Engine} {previous number : Int} {part : List Char} {parts : List (List Char)}

/-! Numbers. -/

/-- The number behind an integer of 64 bits. -/
theorem successor_follows (word : IsWord previous) :
    Follows previous number ↔ number = successor previous := by
  obtain ⟨low, high⟩ := word
  unfold successor
  have size : UInt64.size = 18446744073709551616 := rfl
  -- Behind the largest integer, the numbers start again at the smallest one.
  rcases Int.lt_or_eq_of_le high with below | rfl
  · have same : (previous + 1).bmod UInt64.size = previous + 1 := by
      rw [size]
      exact Int.bmod_eq_of_le (by omega) (by omega)
    rw [same]
    constructor
    · rintro (_ | largest)
      · rfl
      · omega
    · rintro rfl
      exact .next below
  · constructor
    · rintro (below | _)
      · omega
      · decide
    · rintro rfl
      exact .around rfl

/-- What follows an integer of 64 bits is one. -/
theorem Follows.isWord (word : IsWord previous) (follows : Follows previous number) :
    IsWord number := by
  obtain ⟨low, high⟩ := word
  cases follows with
  | next below => exact ⟨by omega, by omega⟩
  | around => exact ⟨by omega, by omega⟩

/-- The integer of a number is one of 64 bits. -/
theorem toInteger_isWord (x : Float) : IsWord (Number.toInteger x) := by
  unfold Number.toInteger IsWord
  dsimp only
  split
  · omega
  · split <;> omega

/-- An integer is that of some number exactly if it is kept when it is made a number. -/
theorem attained_iff : Attained number ↔ Number.toInteger (Float.ofInt number) = number := by
  constructor
  · rintro ⟨x, rfl⟩
    exact Number.toInteger_ofInt_toInteger x
  · exact fun kept => ⟨_, kept⟩

/-- Each integer of up to 53 bits is that of a number. -/
theorem attained_of_small (small : number.natAbs ≤ 2 ^ 53) : Attained number :=
  ⟨_, Number.toInteger_ofInt_of_small small⟩

/-! Declarations. -/

/-- How an entry can be read. -/
theorem readEntry_mayEnd {next : Int} {name : List Char} {middle : Engine} :
    (readEntry eval cursor next part engine).MayEnd allows (.ok (name, number)) middle ↔
      (splitDefault part).2 = none ∧ name = part ∧ number = next ∧ middle = engine ∨
      ∃ text value x, splitDefault part = (name, some text) ∧
        (evaluateAs eval .enumEntry cursor.site text engine).MayEnd allows (.ok value) middle ∧
        value.number? = some x ∧ number = Number.toInteger x := by
  unfold readEntry
  cases given : splitDefault part with
  | mk first text =>
    -- Only an entry with an expression runs anything.
    cases text with
    | none => simp [Eval.mayEnd_pure, and_assoc]
    | some text =>
      refine Iff.trans Eval.mayEnd_bind_ok ⟨?_, ?_⟩
      · rintro ⟨value, now, evaluated, rest⟩
        refine .inr ⟨text, value, ?_⟩
        cases found : value.number? with
        | none =>
          rw [found] at rest
          cases rest
        | some x =>
          rw [found] at rest
          obtain ⟨same, rfl⟩ := Eval.mayEnd_pure.mp rest
          cases same
          exact ⟨x, rfl, evaluated, rfl, rfl⟩
      · rintro (⟨none, -⟩ | ⟨text, value, x, same, evaluated, found, rfl⟩)
        · cases none
        · cases same
          refine ⟨value, middle, evaluated, ?_⟩
          rw [found]
          exact .finished

/-- The entries of an enumeration are read one after the other. -/
theorem readEntries_mayEnd {entries map : OrderedMap Int} (word : IsWord previous) :
    (readEntries eval cursor (successor previous) entries parts engine).MayEnd allows (.ok map) final ↔
      ∃ numbers, Numbered eval cursor.site allows previous parts engine numbers final ∧
        map = numbers.foldl (fun map entry => map.insert entry.1 entry.2) entries := by
  -- The induction is on the entries that are left, of which each hands its number on to the next one.
  induction parts generalizing previous entries engine with
  | nil =>
    refine Iff.trans Eval.mayEnd_pure ⟨?_, ?_⟩
    · rintro ⟨same, rfl⟩
      cases same
      exact ⟨[], .done, rfl⟩
    · rintro ⟨numbers, numbered, rfl⟩
      cases numbered
      exact ⟨rfl, rfl⟩
  | cons part parts ih =>
    constructor
    · intro ends
      obtain ⟨⟨name, number⟩, now, read, rest⟩ := Eval.mayEnd_bind_ok.mp ends
      dsimp only at rest
      split at rest
      case isTrue => cases rest
      case isFalse named =>
        have identifier : Text.isIdentifier name = true := by simpa using named
        rcases readEntry_mayEnd.mp read with
          ⟨bare, rfl, rfl, rfl⟩ | ⟨text, value, x, given, evaluated, found, rfl⟩
        · have follows := (successor_follows word).mpr rfl
          obtain ⟨numbers, numbered, same⟩ := (ih (follows.isWord word)).mp rest
          exact ⟨_ :: numbers, .implicit bare follows identifier numbered, same⟩
        · obtain ⟨numbers, numbered, same⟩ := (ih (toInteger_isWord x)).mp rest
          exact ⟨_ :: numbers, .explicit given evaluated found identifier numbered, same⟩
    · rintro ⟨numbers, numbered, rfl⟩
      refine Eval.mayEnd_bind_ok.mpr ?_
      cases numbered with
      | implicit bare follows identifier behind =>
        refine ⟨_, _, readEntry_mayEnd.mpr (.inl ⟨bare, rfl, rfl, rfl⟩), ?_⟩
        have rest := (ih (follows.isWord word)).mpr ⟨_, behind, rfl⟩
        obtain rfl := (successor_follows word).mp follows
        dsimp only
        rw [identifier]
        exact rest
      | explicit given evaluated found identifier behind =>
        refine ⟨_, _, readEntry_mayEnd.mpr (.inr ⟨_, _, _, given, evaluated, found, rfl⟩), ?_⟩
        dsimp only
        rw [identifier]
        exact (ih (toInteger_isWord _)).mpr ⟨_, behind, rfl⟩

/-- The numbers of an enumeration are integers of 64 bits. -/
theorem Numbered.isWord {site : Site} {numbers : List (String × Int)} (word : IsWord previous)
    (numbered : Numbered eval site allows previous parts engine numbers final) :
    ∀ entry ∈ numbers, IsWord entry.2 := by
  induction numbered with
  | done => exact fun _ member => nomatch member
  | implicit _ follows _ _ ih =>
    have here := follows.isWord word
    exact List.forall_mem_cons.mpr ⟨here, ih here⟩
  | @explicit _ _ _ _ _ _ _ _ _ x _ _ _ _ _ _ ih =>
    exact List.forall_mem_cons.mpr ⟨toInteger_isWord x, ih (toInteger_isWord x)⟩

/-- An enumeration is declared with the numbers of its entries. -/
theorem declareEnum_mayEnd {name : String} {named behind : Cursor} {body : List Char}
    {result : Value × Cursor} (read : cursor.readToken = (name, named)) (nonempty : name ≠ "")
    (braced : named.readBalanced '{' '}' = .ok (body, behind)) :
    (declareEnum eval cursor engine).MayEnd allows (.ok result) final ↔
      ∃ numbers middle,
        Numbered eval behind.site allows (-1) (splitTopLevel body ',') engine numbers middle ∧
        result = (.null, behind) ∧
        final = middle.defineDeclaration name (.variable (.enumerationOf name numbers)) := by
  -- The number in front of the first entry is the one before zero.
  have first : (0 : Int) = successor (-1) := by decide
  have word : IsWord (-1) := ⟨by decide, by decide⟩
  have got : Eval.ofRead (Except.ok (body, behind) : Read _) = pure (body, behind) := rfl
  unfold declareEnum
  rw [read]
  dsimp only
  rw [if_neg nonempty, braced, got, pure_bind, first]
  constructor
  · intro ends
    obtain ⟨map, middle, entries, rest⟩ := Eval.mayEnd_bind_ok.mp ends
    obtain ⟨numbers, numbered, rfl⟩ := (readEntries_mayEnd word).mp entries
    cases rest
    exact ⟨numbers, middle, numbered, rfl, rfl⟩
  · rintro ⟨numbers, middle, numbered, rfl, rfl⟩
    exact Eval.mayEnd_bind_ok.mpr
      ⟨_, middle, (readEntries_mayEnd word).mpr ⟨numbers, numbered, rfl⟩, .finished⟩

/-! Reading. -/

/-- A binding of a map with distinct names is found. -/
theorem OrderedMap.get?_of_mem {α : Type} {map : OrderedMap α} {name : String} {value : α}
    (distinct : map.names.Nodup) (member : (name, value) ∈ map.entries) :
    map.get? name = some value := by
  obtain ⟨entries⟩ := map
  simp only [names, get?] at *
  -- The induction is on the entries, where the first one of a name counts.
  induction entries with
  | nil => cases member
  | cons entry rest ih =>
    rw [List.map_cons, List.nodup_cons] at distinct
    rcases List.mem_cons.mp member with rfl | further
    · exact List.lookup_cons_self
    · have other : name ≠ entry.1 := by
        rintro rfl
        exact distinct.1 (List.mem_map.mpr ⟨_, further, rfl⟩)
      rw [List.lookup_cons, beq_false_of_ne other]
      exact ih distinct.2 further

variable {name entry : String} {numbers : List (String × Int)}

/-- The property with the name of an entry is its number. -/
theorem getProperty_entry (bound : (entry, number) ∈ (OrderedMap.ofList numbers).entries)
    (site : Site) :
    getProperty eval site (.enumerationOf name numbers) entry engine =
      .finished (.ok (.ofInt number)) engine := by
  -- The names of the entries are distinct, so that this number is found.
  have found : (OrderedMap.ofList numbers).get? entry = some number :=
    OrderedMap.get?_of_mem (OrderedMap.nodup_ofList numbers) bound
  have member : engine.member? (.enumerationOf name numbers) entry = some (.ofInt number) := by
    simp [Engine.member?, Value.enumerationOf, Value.ofData, Enumeration.valueOf?, found]
  have plain : engine.plainProperty (.enumerationOf name numbers) entry = .ok (.ofInt number) := by
    unfold Engine.plainProperty
    rw [member]
    rfl
  have lookup : getProperty eval site (.enumerationOf name numbers) entry engine =
      Eval.ofResult (engine.plainProperty (.enumerationOf name numbers) entry) engine := rfl
  rw [lookup, plain]
  rfl

/-- A number leads to the first entry that has its integer. -/
theorem index_enumeration :
    (Value.enumerationOf name numbers).index (.ofInt number) = .ok (.string entry) ↔
      (OrderedMap.ofList numbers).nameWhere? (· == Number.toInteger (Float.ofInt number)) =
        some entry := by
  have taken : Value.toInteger (Value.ofInt number).toNumber = Number.toInteger (Float.ofInt number) :=
    rfl
  unfold Value.index
  dsimp only [Value.enumerationOf, Value.ofInt, Value.number, Value.ofData] at taken ⊢
  rw [taken, Enumeration.nameOf?]
  cases (OrderedMap.ofList numbers).nameWhere? (· == Number.toInteger (Float.ofInt number)) with
  | none => simp [fail]
  | some first => simp [Value.string, Value.ofData]

/-- The only entry with some number is the first one that has it. -/
theorem nameWhere?_iff {kept : Int} (bound : (entry, number) ∈ (OrderedMap.ofList numbers).entries)
    (alone : ∀ other ∈ (OrderedMap.ofList numbers).entries, other.2 = number → other.1 = entry) :
    (OrderedMap.ofList numbers).nameWhere? (· == kept) = some entry ↔ kept = number := by
  have distinct := OrderedMap.nodup_ofList numbers
  generalize OrderedMap.ofList numbers = entries at *
  unfold OrderedMap.nameWhere?
  rw [Option.map_eq_some_iff]
  constructor
  · rintro ⟨⟨first, _⟩, found, rfl⟩
    -- The names are distinct, so that the entry that is found is the one that was asked for.
    have whole := OrderedMap.get?_of_mem distinct (List.mem_of_find?_eq_some found)
    rw [OrderedMap.get?_of_mem distinct bound] at whole
    obtain rfl := Option.some.inj whole
    have same := List.find?_some found
    exact (by simpa using same : number = kept).symm
  · rintro rfl
    have here : (entries.entries.find? fun other => other.2 == kept).isSome = true :=
      List.find?_isSome.mpr ⟨_, bound, beq_self_eq_true kept⟩
    obtain ⟨other, found⟩ := Option.isSome_iff_exists.mp here
    have same := List.find?_some found
    exact ⟨other, found, alone _ (List.mem_of_find?_eq_some found) (by simpa using same)⟩

/-- A number leads back to an entry of an enumeration that has it alone if it is the integer of some
number. -/
theorem index_back (bound : (entry, number) ∈ (OrderedMap.ofList numbers).entries)
    (alone : ∀ other ∈ (OrderedMap.ofList numbers).entries, other.2 = number → other.1 = entry) :
    (Value.enumerationOf name numbers).index (.ofInt number) = .ok (.string entry) ↔
      Attained number := by
  rw [index_enumeration, nameWhere?_iff bound alone, attained_iff]

/-- An enumeration is declared exactly if each of its entries has a name and none or a number: an entry
with a number gets the integer of it, and any other one follows the entry before it. The property with the
name of an entry is its number, which leads back to an entry that has it alone exactly if it is the integer
of some number, as all integers of up to 53 bits are. -/
theorem enumeration_numbers_its_entries {cursor named behind : Cursor} {body : List Char}
    (read : cursor.readToken = (name, named)) (nonempty : name ≠ "")
    (braced : named.readBalanced '{' '}' = .ok (body, behind)) (start : Engine) :
    (∀ result final, (declareEnum eval cursor start).MayEnd allows (.ok result) final ↔
      ∃ numbers middle,
        Numbered eval behind.site allows (-1) (splitTopLevel body ',') start numbers middle ∧
        result = (.null, behind) ∧
        final = middle.defineDeclaration name (.variable (.enumerationOf name numbers))) ∧
    ∀ numbers middle,
      Numbered eval behind.site allows (-1) (splitTopLevel body ',') start numbers middle →
      ∀ entry number, (entry, number) ∈ (OrderedMap.ofList numbers).entries → IsWord number ∧
        (∀ eval site engine, getProperty eval site (.enumerationOf name numbers) entry engine =
          .finished (.ok (.ofInt number)) engine) ∧
        ((∀ other ∈ (OrderedMap.ofList numbers).entries, other.2 = number → other.1 = entry) →
          ((Value.enumerationOf name numbers).index (.ofInt number) = .ok (.string entry) ↔
            Attained number)) ∧
        (number.natAbs ≤ 2 ^ 53 → Attained number) := by
  refine ⟨fun result final => declareEnum_mayEnd read nonempty braced, ?_⟩
  intro numbers middle numbered entry number bound
  have word : IsWord (-1) := ⟨by decide, by decide⟩
  exact ⟨numbered.isWord word _ (OrderedMap.mem_ofList bound),
    fun eval site engine => getProperty_entry bound site, index_back bound, attained_of_small⟩

/-- The declaration of three colors behind its keyword. -/
def colors : Cursor := .ofCanonical ⟨"Color{RED,GREEN=5,BLUE}".toList.map (·, 1)⟩ "main"

/-- A color without a number follows the one before it, and its number leads back to it. -/
theorem enumeration_numbers_its_entries_colors :
    let numbers := [("RED", 0), ("GREEN", 5), ("BLUE", 6)]
    (∃ behind final, (declareEnum (evaluator 3) colors (.new {} {})).MayEnd KeepsOwn
      (.ok (.null, behind)) final) ∧
      (Value.enumerationOf "Color" numbers).index (.ofInt 6) = .ok (.string "BLUE") := by
  intro numbers
  have read : colors.readToken = ("Color", colors.advanceBy 5) := by rfl
  have braced : (colors.advanceBy 5).readBalanced '{' '}' =
      .ok ("RED,GREEN=5,BLUE".toList, colors.advanceBy 23) := by rfl
  -- The second entry is the only one with an expression.
  have ran : ((evaluateAs (evaluator 3) .enumEntry (colors.advanceBy 23).site ['5']
      (.new {} {})).ended?.map fun ended => ended.1.number?.map Number.toInteger) = some (some 5) := by
    decide +kernel
  obtain ⟨⟨value, middle⟩, ended, attained⟩ := Option.map_eq_some_iff.mp ran
  obtain ⟨x, number, integer⟩ := Option.map_eq_some_iff.mp attained
  have numbered : Numbered (evaluator 3) (colors.advanceBy 23).site KeepsOwn (-1)
      (splitTopLevel "RED,GREEN=5,BLUE".toList ',') (.new {} {}) numbers middle := by
    have parts : splitTopLevel "RED,GREEN=5,BLUE".toList ',' =
        ["RED".toList, "GREEN=5".toList, "BLUE".toList] := by decide +kernel
    have behind : Numbered (evaluator 3) (colors.advanceBy 23).site KeepsOwn (Number.toInteger x)
        ["BLUE".toList] middle [("BLUE", 6)] middle := by
      rw [integer]
      exact .implicit rfl (.next (by decide)) (by decide) .done
    have given : Numbered (evaluator 3) (colors.advanceBy 23).site KeepsOwn 0
        ["GREEN=5".toList, "BLUE".toList] (.new {} {}) [("GREEN", Number.toInteger x), ("BLUE", 6)]
        middle :=
      .explicit rfl (.of_ended ended) number (by decide) behind
    rw [integer] at given
    rw [parts]
    exact .implicit rfl (.next (by decide)) (by decide) given
  obtain ⟨declares, reads⟩ := @enumeration_numbers_its_entries (evaluator 3) KeepsOwn _ _ _ _ _ read
    (by decide) braced (.new {} {})
  refine ⟨⟨_, _, (declares _ _).mpr ⟨numbers, middle, numbered, rfl, rfl⟩⟩, ?_⟩
  obtain ⟨-, -, back, small⟩ := reads numbers middle numbered "BLUE" 6 (by decide)
  exact (back (by decide)).mpr (small (by decide))

/-- Beyond 53 bits the number of an entry can lead to another one, and behind the largest integer of 64
bits an entry does not get one more. -/
theorem large_entries_are_confused :
    let declared := fun source : String =>
      (declareEnum (evaluator 3) (.ofCanonical ⟨source.toList.map (·, 1)⟩ "main")
        (.new {} {})).ended?.bind (·.2.valueOf? "E" "main")
    let read := fun enumeration : Value => (enumeration.index (.string "B")).toOption
    ((declared "E{A=9007199254740992,B}").bind fun enumeration =>
        (read enumeration).bind fun number => (enumeration.index number).toOption).map Value.display =
      some "A" ∧
      (((declared "E{A=9223372036854775807,B}").bind read).bind Value.number?).map Number.toInteger =
        some (-0x8000000000000000) := by
  decide +kernel

end ScriptEngine
