import Mathlib.Data.List.Forall2
import ScriptEngine.Typed

/-! What is in the buckets of sorted arguments: the readings of the arguments, each in the bucket of its
kind, and with the parameters enough to put them back in their order. -/

namespace ScriptEngine

/-- An argument as a compiled function takes it. -/
inductive ArgReading where
  | string (text : String)
  | number (number : Float)
  | int (integer : Int)
  | strings (texts : List String)
  | numbers (numbers : List Float)

/-- The type of the parameters that take such an argument. -/
def ArgReading.kind : ArgReading → ArgKind
  | .string _ => .string
  | .number _ => .number
  | .int _ => .int
  | .strings _ => .strings
  | .numbers _ => .numbers

/-- How a value reads as each type: any value has a text, only some denote a number, and only
collections have elements, each of which has to read as the type says. -/
inductive ArgKind.Reads : ArgKind → Value → ArgReading → Prop
  | string (value : Value) : Reads .string value (.string value.display)
  | number {value : Value} {number : Float} (denotes : value.number? = some number) :
    Reads .number value (.number number)
  | int {value : Value} {number : Float} (denotes : value.number? = some number) :
    Reads .int value (.int (Value.toInteger number))
  | strings {value : Value} {collection : Collection Value}
      (elements : value.asCollection? = some collection) :
    Reads .strings value (.strings (collection.items.map Value.display))
  | numbers {value : Value} {collection : Collection Value} {numbers : List Float}
      (elements : value.asCollection? = some collection)
      (denote : List.Forall₂ (fun element number => element.number? = some number)
        collection.items numbers) :
    Reads .numbers value (.numbers numbers)

/-- A list of arguments reads as its parameters say. -/
def ReadAll (params : List TypedParam) (arguments : List Value) (readings : List ArgReading) : Prop :=
  List.Forall₂ (fun (declared : TypedParam × Value) reading => declared.1.kind.Reads declared.2 reading)
    (params.zip arguments) readings

namespace ArgBuckets

/-- The bucket of a type. -/
def ofKind (buckets : ArgBuckets) : ArgKind → List ArgReading
  | .string => buckets.strings.map .string
  | .number => buckets.numbers.map .number
  | .int => buckets.ints.map .int
  | .strings => buckets.stringArrays.map .strings
  | .numbers => buckets.numberArrays.map .numbers

/-- Takes the next argument out of the bucket of a type. -/
def next? (buckets : ArgBuckets) : ArgKind → Option (ArgReading × ArgBuckets)
  | .string => buckets.strings.head?.map fun text =>
    (.string text, { buckets with strings := buckets.strings.tail })
  | .number => buckets.numbers.head?.map fun number =>
    (.number number, { buckets with numbers := buckets.numbers.tail })
  | .int => buckets.ints.head?.map fun integer =>
    (.int integer, { buckets with ints := buckets.ints.tail })
  | .strings => buckets.stringArrays.head?.map fun texts =>
    (.strings texts, { buckets with stringArrays := buckets.stringArrays.tail })
  | .numbers => buckets.numberArrays.head?.map fun numbers =>
    (.numbers numbers, { buckets with numberArrays := buckets.numberArrays.tail })

/-- Walks over parameters and takes the next argument of the type of each: the arguments, and what is
left in the buckets. -/
def walk? : List TypedParam → ArgBuckets → Option (List ArgReading × ArgBuckets)
  | [], buckets => some ([], buckets)
  | param :: params, buckets => do
    let (reading, behind) ← buckets.next? param.kind
    let (readings, left) ← walk? params behind
    return (reading :: readings, left)

/-- Puts an argument in front of the others of its type. -/
def putFirst (buckets : ArgBuckets) : ArgReading → ArgBuckets
  | .string text => { buckets with strings := text :: buckets.strings }
  | .number number => { buckets with numbers := number :: buckets.numbers }
  | .int integer => { buckets with ints := integer :: buckets.ints }
  | .strings texts => { buckets with stringArrays := texts :: buckets.stringArrays }
  | .numbers numbers => { buckets with numberArrays := numbers :: buckets.numberArrays }

/-- Puts an argument behind the others of its type. -/
def putLast (buckets : ArgBuckets) : ArgReading → ArgBuckets
  | .string text => { buckets with strings := buckets.strings ++ [text] }
  | .number number => { buckets with numbers := buckets.numbers ++ [number] }
  | .int integer => { buckets with ints := buckets.ints ++ [integer] }
  | .strings texts => { buckets with stringArrays := buckets.stringArrays ++ [texts] }
  | .numbers numbers => { buckets with numberArrays := buckets.numberArrays ++ [numbers] }

variable {buckets other next : ArgBuckets} {param : TypedParam} {params : List TypedParam}
  {value : Value} {arguments : List Value} {reading : ArgReading} {readings : List ArgReading}

/-! What is in the buckets. -/

/-- The buckets of the types are all there is. -/
theorem eq_of_ofKind (same : ∀ kind, buckets.ofKind kind = other.ofKind kind) : buckets = other := by
  obtain ⟨strings, numbers, ints, stringArrays, numberArrays⟩ := buckets
  obtain ⟨strings', numbers', ints', stringArrays', numberArrays'⟩ := other
  -- The readings of a bucket tell what is in it, since none of them loses anything.
  have texts : strings = strings' :=
    List.map_injective_iff.mpr (fun _ _ => ArgReading.string.inj) (same .string)
  have doubles : numbers = numbers' :=
    List.map_injective_iff.mpr (fun _ _ => ArgReading.number.inj) (same .number)
  have integers : ints = ints' :=
    List.map_injective_iff.mpr (fun _ _ => ArgReading.int.inj) (same .int)
  have textLists : stringArrays = stringArrays' :=
    List.map_injective_iff.mpr (fun _ _ => ArgReading.strings.inj) (same .strings)
  have doubleLists : numberArrays = numberArrays' :=
    List.map_injective_iff.mpr (fun _ _ => ArgReading.numbers.inj) (same .numbers)
  rw [texts, doubles, integers, textLists, doubleLists]

/-- An argument that is put in front stands in front in the bucket of its type, and in no other. -/
theorem ofKind_putFirst (kind : ArgKind) :
    (buckets.putFirst reading).ofKind kind =
      if reading.kind = kind then reading :: buckets.ofKind kind else buckets.ofKind kind := by
  cases reading <;> cases kind <;> rfl

/-- An argument that is put behind the others stands last in the bucket of its type, and in no other. -/
theorem ofKind_putLast (kind : ArgKind) :
    (buckets.putLast reading).ofKind kind =
      if reading.kind = kind then buckets.ofKind kind ++ [reading] else buckets.ofKind kind := by
  cases reading <;> cases kind <;> simp [putLast, ofKind, ArgReading.kind]

/-- Arguments that are put behind others stand there in their order, each in the bucket of its type. -/
theorem ofKind_foldl_putLast (kind : ArgKind) :
    (readings.foldl putLast buckets).ofKind kind =
      buckets.ofKind kind ++ readings.filter (·.kind = kind) := by
  induction readings generalizing buckets with
  | nil => simp
  | cons reading readings ih =>
    rw [List.foldl_cons, ih, ofKind_putLast]
    by_cases same : reading.kind = kind <;> simp [same]

/-- Nothing is in empty buckets. -/
theorem ofKind_empty (kind : ArgKind) : ({} : ArgBuckets).ofKind kind = [] := by
  cases kind <;> rfl

/-- It does not matter at which end the buckets are filled from. -/
theorem foldr_putFirst_eq :
    readings.foldr (fun reading buckets => buckets.putFirst reading) {} = readings.foldl putLast {} := by
  refine eq_of_ofKind fun kind => ?_
  rw [ofKind_foldl_putLast, ofKind_empty, List.nil_append]
  induction readings with
  | nil => exact ofKind_empty kind
  | cons reading readings ih =>
    rw [List.foldr_cons, ofKind_putFirst, ih]
    by_cases same : reading.kind = kind <;> simp [same]

/-- An argument in front of the others is the next of its type. -/
theorem next?_putFirst : (buckets.putFirst reading).next? reading.kind = some (reading, buckets) := by
  cases reading <;> rfl

/-! The sorting of arguments. -/

/-- A value is read as a number exactly if it denotes that number. -/
theorem readNumber_ok_iff {number : Float} :
    readNumber param value = .ok number ↔ value.number? = some number := by
  unfold readNumber
  cases value.number? <;> simp [mismatch, fail]

/-- A value is read as elements exactly if it is a collection with these elements. -/
theorem readElements_ok_iff {elements : List Value} :
    readElements param value = .ok elements ↔
      ∃ collection, value.asCollection? = some collection ∧ collection.items = elements := by
  unfold readElements
  cases value.asCollection? <;> simp [mismatch, fail]

/-- Elements are read as numbers exactly if each of them denotes its number. -/
theorem mapM_readNumber_ok_iff {elements : List Value} {numbers : List Float} :
    elements.mapM (readNumber param) = .ok numbers ↔
      List.Forall₂ (fun element number => element.number? = some number) elements numbers := by
  -- The induction is on the elements: the first one is read, and then the others.
  induction elements generalizing numbers with
  | nil =>
    rw [List.mapM_nil, List.forall₂_nil_left_iff]
    exact ⟨fun same => (Except.ok.inj same).symm, fun same => same ▸ rfl⟩
  | cons element elements ih =>
    rw [List.mapM_cons, List.forall₂_cons_left_iff]
    constructor
    · intro read
      obtain ⟨number, first, read⟩ := ok_of_bind read
      obtain ⟨behind, others, read⟩ := ok_of_bind read
      exact ⟨number, behind, readNumber_ok_iff.mp first, ih.mp others, (Except.ok.inj read).symm⟩
    · rintro ⟨number, behind, first, others, rfl⟩
      rw [readNumber_ok_iff.mpr first, ok_bind, ih.mpr others, ok_bind]
      rfl

/-- An argument is put into a bucket exactly if it reads as the type of its parameter, and then its
reading is put behind the others. -/
theorem add_ok_iff :
    buckets.add param value = .ok next ↔
      ∃ reading, param.kind.Reads value reading ∧ next = buckets.putLast reading := by
  unfold add
  constructor
  · -- Each type has one way to be read, which ends only for values that have a reading.
    intro added
    cases kind : param.kind <;> simp only [kind] at added
    case string =>
      cases added
      exact ⟨_, .string value, rfl⟩
    case number =>
      obtain ⟨number, read, added⟩ := ok_of_bind added
      cases added
      exact ⟨_, .number (readNumber_ok_iff.mp read), rfl⟩
    case int =>
      obtain ⟨number, read, added⟩ := ok_of_bind added
      cases added
      exact ⟨_, .int (readNumber_ok_iff.mp read), rfl⟩
    case strings =>
      obtain ⟨elements, read, added⟩ := ok_of_bind added
      obtain ⟨collection, found, rfl⟩ := readElements_ok_iff.mp read
      cases added
      exact ⟨_, .strings found, rfl⟩
    case numbers =>
      obtain ⟨elements, read, added⟩ := ok_of_bind added
      obtain ⟨collection, found, rfl⟩ := readElements_ok_iff.mp read
      obtain ⟨numbers, each, added⟩ := ok_of_bind added
      cases added
      exact ⟨_, .numbers found (mapM_readNumber_ok_iff.mp each), rfl⟩
  · rintro ⟨reading, reads, rfl⟩
    generalize param.kind = kind at reads
    cases reads with
    | string => rfl
    | number denotes =>
      simp only [readNumber_ok_iff.mpr denotes, ok_bind]
      rfl
    | int denotes =>
      simp only [readNumber_ok_iff.mpr denotes, ok_bind]
      rfl
    | strings elements =>
      simp only [readElements_ok_iff.mpr ⟨_, elements, rfl⟩, ok_bind]
      rfl
    | numbers elements denote =>
      simp only [readElements_ok_iff.mpr ⟨_, elements, rfl⟩, ok_bind, mapM_readNumber_ok_iff.mpr denote]
      rfl

/-- Arguments are put into buckets one after another exactly if each of them reads as its parameter
says. -/
theorem foldlM_add_ok_iff {pairs : List (TypedParam × Value)} :
    pairs.foldlM (fun buckets (param, value) => buckets.add param value) buckets = .ok next ↔
      ∃ readings, List.Forall₂ (fun (declared : TypedParam × Value) reading =>
          declared.1.kind.Reads declared.2 reading) pairs readings ∧
        next = readings.foldl putLast buckets := by
  -- The induction is on the arguments, with the buckets as those in front have filled them.
  induction pairs generalizing buckets with
  | nil =>
    simp only [List.foldlM_nil, List.forall₂_nil_left_iff, exists_eq_left, List.foldl_nil]
    exact ⟨fun same => (Except.ok.inj same).symm, fun same => same ▸ rfl⟩
  | cons pair pairs ih =>
    obtain ⟨param, value⟩ := pair
    -- Both sides come apart into the first argument and the others.
    simp only [List.foldlM_cons, List.forall₂_cons_left_iff]
    constructor
    · intro sorted
      obtain ⟨middle, first, others⟩ := ok_of_bind sorted
      obtain ⟨reading, reads, rfl⟩ := add_ok_iff.mp first
      obtain ⟨readings, behind, rfl⟩ := ih.mp others
      exact ⟨_, ⟨reading, readings, reads, behind, rfl⟩, rfl⟩
    · rintro ⟨_, ⟨reading, readings, reads, behind, rfl⟩, rfl⟩
      rw [add_ok_iff.mpr ⟨reading, reads, rfl⟩, ok_bind]
      exact ih.mpr ⟨readings, behind, rfl⟩

/-- Sorted arguments are as many as the parameters, and each of them has been put into the bucket of its
type as that type reads it. -/
theorem sort_ok_iff {function : String} :
    sort function params arguments = .ok buckets ↔
      params.length = arguments.length ∧
        ∃ readings, ReadAll params arguments readings ∧ buckets = readings.foldl putLast {} := by
  unfold sort
  split
  case isTrue same => rw [foldlM_add_ok_iff]; exact (and_iff_right same).symm
  case isFalse differ => simp [fail, differ]

end ArgBuckets

/-- A reading is of the type that it was asked for. -/
theorem ArgKind.Reads.kind_eq {kind : ArgKind} {value : Value} {reading : ArgReading}
    (reads : kind.Reads value reading) : reading.kind = kind := by
  cases reads <;> rfl

variable {params : List TypedParam} {arguments : List Value} {readings : List ArgReading}

/-- Arguments have readings exactly if each of them has one. -/
theorem exists_readAll_iff :
    (∃ readings, ReadAll params arguments readings) ↔
      ∀ param value, (param, value) ∈ params.zip arguments → ∃ reading, param.kind.Reads value reading := by
  unfold ReadAll
  generalize params.zip arguments = pairs
  -- The induction is on the pairs of parameters and arguments.
  induction pairs with
  | nil => simp
  | cons pair pairs ih =>
    simp only [List.forall₂_cons_left_iff, List.mem_cons]
    constructor
    · rintro ⟨_, reading, readings, reads, behind, rfl⟩ param value (rfl | member)
      · exact ⟨reading, reads⟩
      · exact ih.mp ⟨readings, behind⟩ param value member
    · intro each
      obtain ⟨reading, reads⟩ := each pair.1 pair.2 (.inl rfl)
      obtain ⟨readings, behind⟩ := ih.mpr fun param value member => each param value (.inr member)
      exact ⟨_, reading, readings, reads, behind, rfl⟩

/-- The walk over the parameters finds all readings, each where its bucket has it next. -/
theorem ReadAll.walk? (same : params.length = arguments.length)
    (read : ReadAll params arguments readings) :
    (readings.foldl ArgBuckets.putLast {}).walk? params = some (readings, {}) := by
  rw [← ArgBuckets.foldr_putFirst_eq]
  -- The induction is on the parameters: behind the first reading are the buckets of the others.
  induction params generalizing arguments readings with
  | nil =>
    cases read
    rfl
  | cons param params ih =>
    cases arguments with
    | nil => cases same
    | cons value arguments =>
      obtain ⟨reading, behind, reads, others, rfl⟩ := List.forall₂_cons_left_iff.mp read
      rw [List.foldr_cons, ArgBuckets.walk?, ← reads.kind_eq, ArgBuckets.next?_putFirst]
      simp only [Option.bind_eq_bind, Option.bind_some, ih (Nat.succ.inj same) others]
      rfl

/-- Arguments are sorted exactly if there are as many of them as parameters and each reads as the type of
its parameter. Then the bucket of each type holds the readings of that type in their order, and a walk over
the parameters that takes the next of the bucket of each finds all readings and empties the buckets. -/
theorem sorting_keeps_arguments (function : String) (params : List TypedParam)
    (arguments : List Value) :
    ((∃ buckets, ArgBuckets.sort function params arguments = .ok buckets) ↔
      params.length = arguments.length ∧
        ∀ param value, (param, value) ∈ params.zip arguments →
          ∃ reading, param.kind.Reads value reading) ∧
      ∀ buckets, ArgBuckets.sort function params arguments = .ok buckets →
        ∃ readings, ReadAll params arguments readings ∧
          (∀ kind, buckets.ofKind kind = readings.filter (·.kind = kind)) ∧
          buckets.walk? params = some (readings, {}) := by
  constructor
  · simp only [ArgBuckets.sort_ok_iff, ← exists_readAll_iff]
    exact ⟨fun ⟨_, same, readings, read, _⟩ => ⟨same, readings, read⟩,
      fun ⟨same, readings, read⟩ => ⟨_, same, readings, read, rfl⟩⟩
  · intro buckets sorted
    -- The buckets are those that the readings fill, which determines all that is said about them.
    obtain ⟨same, readings, read, rfl⟩ := ArgBuckets.sort_ok_iff.mp sorted
    refine ⟨readings, read, fun kind => ?_, read.walk? same⟩
    rw [ArgBuckets.ofKind_foldl_putLast, ArgBuckets.ofKind_empty, List.nil_append]

/-- Parameters of all types, two of which are numbers with others between them. -/
def mixedParams : List TypedParam :=
  [⟨"s", .string⟩, ⟨"x", .number⟩, ⟨"n", .int⟩, ⟨"xs", .numbers⟩, ⟨"ss", .strings⟩, ⟨"y", .number⟩]

/-- Arguments for them, not all of which are of the type that takes them. -/
def mixedArguments : List Value :=
  [.ofNat 7, .number 1.5, .number 3.9, .array [.ofNat 1, .string "2"],
    .array [.string "a", .ofNat 5], .string "4"]

/-- What is in the buckets of these arguments. -/
def mixedBuckets : ArgBuckets :=
  { strings := ["7"], numbers := [1.5, 4], ints := [3], stringArrays := [["a", "5"]],
    numberArrays := [[1, 2]] }

/-- The arguments are sorted, and the two numbers come out of one bucket at the two places of their
parameters. -/
theorem sorting_keeps_arguments_mixed :
    ArgBuckets.sort "f" mixedParams mixedArguments = .ok mixedBuckets ∧
      ∃ readings, ReadAll mixedParams mixedArguments readings ∧
        readings = [.string "7", .number 1.5, .int 3, .numbers [1, 2], .strings ["a", "5"], .number 4] ∧
        mixedBuckets.ofKind .number = readings.filter (·.kind = .number) ∧
        mixedBuckets.walk? mixedParams = some (readings, {}) := by
  have sorted : ArgBuckets.sort "f" mixedParams mixedArguments = .ok mixedBuckets := rfl
  obtain ⟨readings, read, buckets, walked⟩ :=
    (sorting_keeps_arguments "f" mixedParams mixedArguments).2 mixedBuckets sorted
  refine ⟨sorted, readings, read, ?_, buckets .number, walked⟩
  have taken : mixedBuckets.walk? mixedParams = some
      ([.string "7", .number 1.5, .int 3, .numbers [1, 2], .strings ["a", "5"], .number 4], {}) := rfl
  exact (Prod.mk.inj (Option.some.inj (walked.symm.trans taken))).1

end ScriptEngine
