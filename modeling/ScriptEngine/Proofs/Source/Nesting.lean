import ScriptEngine.Source.Cursor

/-! Text read with the groups that are open: what a balanced piece of text is, and how the scan of a
cursor passes one. -/

namespace ScriptEngine

open Cursor

/-- What the character behind `c` belongs to. -/
def Cursor.Quoting.next (quoting : Quoting) (c : Char) : Quoting :=
  match quoting with
  | .outside => if c = '"' then .inside else .outside
  | .inside => if c = '\\' then .escaped else if c = '"' then .outside else .inside
  | .escaped => .inside

/-- A character of a literal that is read by none of the clauses for backslashes is no backslash. -/
theorem unescaped_of_clauses {c : Char} {rest : List Char}
    (final : c = '\\' → rest = [] → False)
    (escape : ∀ first others, c = '\\' → rest = first :: others → False) : c ≠ '\\' := by
  intro same
  cases rest with
  | nil => exact final same rfl
  | cons first others => exact escape first others same rfl

/-- What is known between two characters of a text. -/
structure Nesting where
  /-- The closing brackets of the open groups, the innermost first. -/
  due : List Char := []
  quoting : Quoting := .outside
  deriving DecidableEq, Repr

namespace Nesting

/-- The groups that are open behind a character outside literals, unless it closes a group that is
not the innermost. -/
def regroup? (due : List Char) (c : Char) : Option (List Char) :=
  match Canonical.closer? c with
  | some closer => some (closer :: due)
  | none =>
    if Canonical.isCloser c then if due.head? = some c then some due.tail else none else some due

/-- Reads a character, unless it is outside all groups and literals and one to `avoid`. -/
def step? (avoid : Char → Bool) (nesting : Nesting) (c : Char) : Option Nesting :=
  if nesting.quoting = .outside then
    if nesting.due = [] ∧ avoid c = true then none
    else (regroup? nesting.due c).map fun due => ⟨due, nesting.quoting.next c⟩
  else some ⟨nesting.due, nesting.quoting.next c⟩

/-- Reads a text. -/
def read? (avoid : Char → Bool) : Nesting → List Char → Option Nesting
  | nesting, [] => some nesting
  | nesting, c :: rest => (nesting.step? avoid c).bind fun next => read? avoid next rest

end Nesting

/-- A text is a run of whole groups, of literals and of other characters, none of which is one to
avoid. -/
def Balanced (avoid : Char → Bool) (text : List Char) : Prop := Nesting.read? avoid {} text = some {}

instance (avoid : Char → Bool) (text : List Char) : Decidable (Balanced avoid text) :=
  inferInstanceAs (Decidable (Nesting.read? avoid {} text = some {}))

/-- What is to be avoided where nothing is. -/
def nothing : Char → Bool := fun _ => false

variable {avoid weaker : Char → Bool} {nesting next final : Nesting} {text rest due : List Char}

namespace Nesting

/-- What a character outside literals makes of the open groups. -/
inductive Regroups (c : Char) : List Char → List Char → Prop where
  | opens {closer : Char} {due : List Char} (opens : Canonical.closer? c = some closer) :
    Regroups c due (closer :: due)
  | closes {due : List Char} (none : Canonical.closer? c = none)
      (closes : Canonical.isCloser c = true) : Regroups c (c :: due) due
  | keeps {due : List Char} (none : Canonical.closer? c = none)
      (plain : Canonical.isCloser c = false) : Regroups c due due

/-- A character is read exactly if it opens a group, closes the innermost one or does neither. -/
theorem regroup?_eq_some {opened : List Char} {c : Char} :
    regroup? due c = some opened ↔ Regroups c due opened := by
  unfold regroup?
  constructor
  · -- The branches of the function are the three ways; a closer that is not due is read in none.
    intro regrouped
    cases found : Canonical.closer? c with
    | some closer =>
      simp only [found, Option.some.injEq] at regrouped
      exact regrouped ▸ .opens found
    | none =>
      simp only [found] at regrouped
      split at regrouped
      case isTrue closes =>
        split at regrouped
        case isTrue matched =>
          cases regrouped
          cases due with
          | nil => simp at matched
          | cons first due =>
            obtain rfl : first = c := by simpa using matched
            exact .closes found closes
        case isFalse => cases regrouped
      case isFalse plain =>
        cases regrouped
        exact .keeps found (by simpa using plain)
  · intro regroups
    cases regroups with
    | opens opens => simp [opens]
    | closes none closes => simp [none, closes]
    | keeps none plain => simp [none, plain]

/-- A bracket does within open groups what it does within some more of them. -/
theorem Regroups.append {opened : List Char} {c : Char} (regroups : Regroups c due opened)
    (outer : List Char) : Regroups c (due ++ outer) (opened ++ outer) := by
  cases regroups with
  | opens opens => exact .opens opens
  | closes none closes => exact .closes none closes
  | keeps none plain => exact .keeps none plain

/-- Different groups stay different behind a bracket. -/
theorem Regroups.injective {other opened : List Char} {c : Char} (regroups : Regroups c due opened)
    (same : Regroups c other opened) : due = other := by
  -- The character alone decides which of the three it is.
  cases regroups with
  | opens opens =>
    cases same with
    | opens => rfl
    | closes none | keeps none => cases opens.symm.trans none
  | closes none closes =>
    cases same with
    | opens opens => cases opens.symm.trans none
    | closes => rfl
    | keeps _ plain => cases closes.symm.trans plain
  | keeps none plain =>
    cases same with
    | opens opens => cases opens.symm.trans none
    | closes _ closes => cases closes.symm.trans plain
    | keeps => rfl

/-- A character either leaves the outer groups alone or closes the innermost of them. -/
theorem Regroups.split {inner outer opened : List Char} {c : Char}
    (regroups : Regroups c (inner ++ outer) opened) :
    (inner = [] ∧ outer = c :: opened ∧ Canonical.isCloser c = true) ∨
      ∃ left, Regroups c inner left ∧ opened = left ++ outer := by
  -- The inner groups come first, so that only a closer without one of them can be due further out.
  generalize same : inner ++ outer = due at regroups
  cases regroups with
  | opens opens => exact .inr ⟨_, .opens opens, by simp [same]⟩
  | keeps none plain => exact .inr ⟨inner, .keeps none plain, same.symm⟩
  | closes none closes =>
    cases inner with
    | nil => exact .inl ⟨rfl, same, closes⟩
    | cons first inner =>
      obtain ⟨rfl, rfl⟩ := List.cons.inj same
      exact .inr ⟨inner, .closes none closes, rfl⟩

/-- Where no group is open, none is closed. -/
theorem Regroups.not_closes {opened : List Char} {c : Char} (regroups : Regroups c [] opened) :
    Canonical.isCloser c = false := by
  cases regroups with
  | opens opens =>
    unfold Canonical.closer? at opens
    split at opens <;> first | rfl | cases opens
  | keeps _ plain => exact plain

/-- What follows a character that was read depends only on what came before it. -/
theorem step?_quoting {c : Char} (read : nesting.step? avoid c = some next) :
    next.quoting = nesting.quoting.next c := by
  unfold step? at read
  split at read
  · -- Outside literals the groups may change, and the literal goes by the character alone.
    split at read
    · cases read
    · obtain ⟨due, _, rfl⟩ := Option.map_eq_some_iff.mp read
      rfl
  · cases read
    rfl

/-- A character outside literals that is read first. -/
theorem read?_outside {opened : List Char} {c : Char} (regrouped : regroup? due c = some opened)
    (allowed : due = [] → avoid c = false) :
    read? avoid ⟨due, .outside⟩ (c :: rest) = read? avoid ⟨opened, Quoting.outside.next c⟩ rest := by
  have goesOn : ¬ (due = [] ∧ avoid c = true) := by
    rintro ⟨none, avoided⟩
    rw [allowed none] at avoided
    cases avoided
  simp only [read?, step?, if_true, if_neg goesOn, regrouped, Option.map_some, Option.bind_some]

/-- What follows a text that was read depends only on what came before it. -/
theorem read?_quoting (read : nesting.read? avoid text = some final) :
    final.quoting = text.foldl Quoting.next nesting.quoting := by
  -- The induction is on the text.
  induction text generalizing nesting with
  | nil =>
    cases read
    rfl
  | cons c text ih =>
    obtain ⟨next, first, behind⟩ := Option.bind_eq_some_iff.mp read
    rw [ih behind, step?_quoting first]
    rfl

/-- Where no group is open, only what need not be avoided is read, and no closing bracket. -/
theorem step?_bare {c : Char} (read : step? avoid ⟨[], .outside⟩ c = some next) :
    avoid c = false ∧ Canonical.isCloser c = false := by
  simp only [step?, if_true, true_and] at read
  -- A character that is to be avoided ends the reading where no group is open.
  split at read
  · cases read
  case isFalse allowed =>
    obtain ⟨opened, regrouped, _⟩ := Option.map_eq_some_iff.mp read
    exact ⟨by simpa using allowed, (regroup?_eq_some.mp regrouped).not_closes⟩

/-- A text in two parts is read part by part. -/
theorem read?_append (first second : List Char) :
    nesting.read? avoid (first ++ second) =
      (nesting.read? avoid first).bind fun middle => middle.read? avoid second := by
  -- The induction is on the first part.
  induction first generalizing nesting with
  | nil => rfl
  | cons c first ih =>
    simp only [List.cons_append, read?]
    cases nesting.step? avoid c with
    | none => rfl
    | some next => exact ih

/-- A character that is read within open groups is read within more of them. -/
theorem step?_within (outer : List Char)
    (lenient : outer = [] → ∀ c, weaker c = true → avoid c = true) {c : Char}
    (read : nesting.step? avoid c = some next) :
    step? weaker ⟨nesting.due ++ outer, nesting.quoting⟩ c =
      some ⟨next.due ++ outer, next.quoting⟩ := by
  unfold step? at read ⊢
  split at read
  case isTrue outside =>
    split at read
    case isTrue => cases read
    case isFalse allowed =>
      -- More open groups only make fewer characters end the reading.
      have still : ¬ (nesting.due ++ outer = [] ∧ weaker c = true) := by
        rintro ⟨none, avoided⟩
        obtain ⟨bare, alone⟩ := List.append_eq_nil_iff.mp none
        exact allowed ⟨bare, lenient alone c avoided⟩
      obtain ⟨due, regrouped, rfl⟩ := Option.map_eq_some_iff.mp read
      have more := regroup?_eq_some.mpr ((regroup?_eq_some.mp regrouped).append outer)
      rw [if_pos outside, if_neg still, more]
      rfl
  case isFalse inside =>
    cases read
    rw [if_neg inside]

/-- A text that is read within open groups is read within more of them. -/
theorem read?_within (outer : List Char)
    (lenient : outer = [] → ∀ c, weaker c = true → avoid c = true)
    (read : nesting.read? avoid text = some final) :
    read? weaker ⟨nesting.due ++ outer, nesting.quoting⟩ text =
      some ⟨final.due ++ outer, final.quoting⟩ := by
  -- The induction is on the text; each character that is read leaves the outer groups where they
  -- are.
  induction text generalizing nesting with
  | nil =>
    cases read
    rfl
  | cons c text ih =>
    obtain ⟨middle, first, behind⟩ := Option.bind_eq_some_iff.mp read
    simp only [read?, step?_within outer lenient first, Option.bind_some]
    exact ih behind

/-- A text that is read within open groups is read within more of them where nothing is to be
avoided. -/
theorem read?_lax (outer : List Char) (read : nesting.read? avoid text = some final) :
    read? nothing ⟨nesting.due ++ outer, nesting.quoting⟩ text =
      some ⟨final.due ++ outer, final.quoting⟩ :=
  read?_within outer (fun _ => nofun) read

/-- Only for one choice of open groups does a text close all of them. -/
theorem due_unique {other : List Char} {quoting : Quoting}
    (closes : read? avoid ⟨due, quoting⟩ text = some {})
    (closesToo : read? avoid ⟨other, quoting⟩ text = some {}) : due = other := by
  -- Different groups stay different up to the end, where none is open.
  induction text generalizing due other quoting with
  | nil =>
    simp only [read?, Option.some.injEq, mk.injEq] at closes closesToo
    exact closes.1.trans closesToo.1.symm
  | cons c text ih =>
    obtain ⟨⟨opened, next⟩, first, behind⟩ := Option.bind_eq_some_iff.mp closes
    obtain ⟨⟨openedToo, nextToo⟩, firstToo, behindToo⟩ := Option.bind_eq_some_iff.mp closesToo
    -- The literals go by the characters alone, and the groups behind the character are the same by
    -- induction.
    have sameQuoting : next = nextToo := (step?_quoting first).trans (step?_quoting firstToo).symm
    subst sameQuoting
    have same := ih behind behindToo
    subst same
    unfold step? at first firstToo
    split at first
    case isTrue outside =>
      rw [if_pos outside] at firstToo
      split at first
      · cases first
      split at firstToo
      · cases firstToo
      obtain ⟨_, regrouped, same⟩ := Option.map_eq_some_iff.mp first
      obtain ⟨_, regroupedToo, sameToo⟩ := Option.map_eq_some_iff.mp firstToo
      cases same
      cases sameToo
      exact (regroup?_eq_some.mp regrouped).injective (regroup?_eq_some.mp regroupedToo)
    -- In a literal no group changes.
    case isFalse inside =>
      rw [if_neg inside] at firstToo
      cases first
      cases firstToo
      rfl

/-- The depth that a scan counts is the number of open groups. -/
theorem scan_step {stop : Int → List Char → Bool} {c : Char} {offset : Nat}
    (read : nesting.step? avoid c = some next)
    (goesOn : nesting.quoting = .outside → stop nesting.due.length (c :: rest) = false) :
    scan stop nesting.quoting nesting.due.length offset (c :: rest) =
      scan stop next.quoting next.due.length (offset + 1) rest := by
  obtain ⟨due, quoting⟩ := nesting
  unfold step? at read
  cases quoting with
  | outside =>
    simp only [if_true] at read
    split at read
    · cases read
    obtain ⟨opened, regrouped, rfl⟩ := Option.map_eq_some_iff.mp read
    rw [scan, if_neg (by simpa using goesOn rfl)]
    -- A quote opens a literal, and a bracket changes the depth by one.
    by_cases quote : c = '"'
    · subst quote
      cases regrouped
      rfl
    · simp only [quote, if_false, Quoting.next]
      cases regroup?_eq_some.mp regrouped with
      | opens opens => simp [opens]
      | closes none closes => simp [none, closes]
      | keeps none plain => simp [none, plain]
  | inside =>
    simp only [reduceCtorEq, if_false] at read
    cases read
    rfl
  | escaped =>
    simp only [reduceCtorEq, if_false] at read
    cases read
    rfl

/-- The depth that a scan counts is zero if no group is open. -/
theorem depth_beq (due : List Char) : ((due.length : Int) == 0) = due.isEmpty := by
  cases due with
  | nil => rfl
  | cons closer due =>
    have deep : ((closer :: due).length : Int) ≠ 0 := by simp only [List.length_cons]; omega
    rw [beq_eq_false_iff_ne.mpr deep]
    rfl

/-- A scan passes a text that is read if it stops only where the reading would. -/
theorem scan_passes {stop : List Char → Bool}
    (unseen : ∀ c rest, avoid c = false → Canonical.isCloser c = false → stop (c :: rest) = false)
    (read : nesting.read? avoid text = some final) (offset : Nat) (rest : List Char) :
    scan (fun depth here => depth == 0 && stop here) nesting.quoting nesting.due.length offset
        (text ++ rest) =
      scan (fun depth here => depth == 0 && stop here) final.quoting final.due.length
        (offset + text.length) rest := by
  -- The induction is on the text, with the groups that are open so far.
  induction text generalizing nesting offset with
  | nil =>
    cases read
    rfl
  | cons c text ih =>
    obtain ⟨next, first, behind⟩ := Option.bind_eq_some_iff.mp read
    have goesOn : nesting.quoting = .outside →
        ((nesting.due.length : Int) == 0 && stop (c :: (text ++ rest))) = false := by
      intro outside
      obtain ⟨due, quoting⟩ := nesting
      cases outside
      cases due with
      | nil =>
        obtain ⟨allowed, open_⟩ := step?_bare first
        simp [unseen c (text ++ rest) allowed open_]
      | cons closer due => rw [depth_beq, List.isEmpty_cons, Bool.false_and]
    rw [List.cons_append, scan_step first goesOn, ih behind, List.length_cons]
    congr 1
    omega

/-- A scan for a place outside all groups stops behind a text in which the inner groups are closed, or
there are no outer groups and it reaches the end of such a text. -/
def ScanStops (avoid : Char → Bool) (stop : List Char → Bool) (nesting : Nesting) (outer : List Char)
    (offset : Nat) (text : List Char) : Prop :=
  (∃ taken rest, text = taken ++ rest ∧ nesting.read? avoid taken = some {} ∧ stop rest = true ∧
    scan (fun depth here => depth == 0 && stop here) nesting.quoting nesting.due.length offset text =
      some (offset + taken.length)) ∨
  (outer = [] ∧ nesting.read? avoid text = some {} ∧
    scan (fun depth here => depth == 0 && stop here) nesting.quoting nesting.due.length offset text =
      none)

/-- A scan that passes a character stops where it does from there. -/
theorem ScanStops.cons {stop : List Char → Bool} {outer : List Char} {c : Char} {offset : Nat}
    (first : nesting.step? avoid c = some next)
    (goesOn : nesting.quoting = .outside →
      ((nesting.due.length : Int) == 0 && stop (c :: text)) = false)
    (stops : ScanStops avoid stop next outer (offset + 1) text) :
    ScanStops avoid stop nesting outer offset (c :: text) := by
  have same : scan (fun depth here => depth == 0 && stop here) nesting.quoting nesting.due.length
        offset (c :: text) =
      scan (fun depth here => depth == 0 && stop here) next.quoting next.due.length (offset + 1) text :=
    scan_step first goesOn
  rcases stops with ⟨taken, rest, rfl, reads, stops, found⟩ | ⟨none, reads, found⟩
  · refine .inl ⟨c :: taken, rest, rfl, ?_, stops, ?_⟩
    · simp only [read?, first, Option.bind_some, reads]
    · rw [same, found, List.length_cons]
      congr 1
      omega
  · refine .inr ⟨none, ?_, same.trans found⟩
    simp only [read?, first, Option.bind_some, reads]

/-- A scan of a text that closes the open groups stops no later than at the first closing bracket
of those that were open before, and only behind a balanced text. Without such groups it may reach
the end. -/
theorem scan_stops {stop : List Char → Bool} {inner outer : List Char} {quoting : Quoting}
    (ends : ∀ c rest, outer.head? = some c → Canonical.isCloser c = true → stop (c :: rest) = true)
    (seen : ∀ c rest, avoid c = true → stop (c :: rest) = true)
    (closes : read? nothing ⟨inner ++ outer, quoting⟩ text = some {}) (offset : Nat) :
    ScanStops avoid stop ⟨inner, quoting⟩ outer offset text := by
  -- The induction is on the text, with the inner groups that are open so far.
  induction text generalizing inner quoting offset with
  | nil =>
    simp only [read?, Option.some.injEq, mk.injEq, List.append_eq_nil_iff] at closes
    obtain ⟨⟨rfl, rfl⟩, rfl⟩ := closes
    exact .inr ⟨rfl, rfl, by simp [scan]⟩
  | cons c text ih =>
    obtain ⟨next, first, behind⟩ := Option.bind_eq_some_iff.mp closes
    cases quoting with
    | outside =>
      by_cases stops : inner = [] ∧ stop (c :: text) = true
      · obtain ⟨rfl, stops⟩ := stops
        exact .inl ⟨[], c :: text, rfl, rfl, stops, by simp [scan, stops]⟩
      · simp only [step?, if_true, nothing, Bool.false_eq_true, and_false, if_false] at first
        obtain ⟨opened, regrouped, rfl⟩ := Option.map_eq_some_iff.mp first
        -- A bracket that closes an outer group stops the scan; all else concerns the inner ones.
        rcases (regroup?_eq_some.mp regrouped).split with ⟨rfl, rfl, closing⟩ | ⟨left, within, rfl⟩
        · exact absurd ⟨rfl, ends c text rfl closing⟩ stops
        · have allowed : ¬ (inner = [] ∧ avoid c = true) :=
            fun ⟨bare, avoided⟩ => stops ⟨bare, seen c text avoided⟩
          have read : step? avoid ⟨inner, .outside⟩ c = some ⟨left, Quoting.outside.next c⟩ := by
            simp only [step?, if_true, if_neg allowed, regroup?_eq_some.mpr within, Option.map_some]
          refine .cons read (fun _ => ?_) (ih behind (offset + 1))
          cases inner with
          | nil => simpa using stops
          | cons closer inner => rw [depth_beq, List.isEmpty_cons, Bool.false_and]
    -- Within a literal nothing stops the scan.
    | inside =>
      cases first
      have read : step? avoid ⟨inner, .inside⟩ c = some ⟨inner, Quoting.inside.next c⟩ := rfl
      exact .cons read nofun (ih behind (offset + 1))
    | escaped =>
      cases first
      have read : step? avoid ⟨inner, .escaped⟩ c = some ⟨inner, Quoting.escaped.next c⟩ := rfl
      exact .cons read nofun (ih behind (offset + 1))

/-- A search stops no later than at a bracket that closes an open group, and only behind a balanced
text. -/
theorem distanceTo?_stops {stop : List Char → Bool} {outer : List Char}
    (ends : ∀ c rest, outer.head? = some c → Canonical.isCloser c = true → stop (c :: rest) = true)
    (seen : ∀ c rest, avoid c = true → stop (c :: rest) = true)
    (closes : read? nothing ⟨outer, .outside⟩ text = some {}) :
    (∃ taken rest, text = taken ++ rest ∧ Balanced avoid taken ∧ stop rest = true ∧
      distanceTo? text stop = some taken.length) ∨
    (outer = [] ∧ Balanced avoid text ∧ distanceTo? text stop = none) := by
  rw [← List.nil_append outer] at closes
  rcases scan_stops ends seen closes 0 with ⟨taken, rest, same, reads, stops, found⟩ | ended
  · rw [Nat.zero_add] at found
    exact .inl ⟨taken, rest, same, reads, stops, found⟩
  · exact .inr ended

/-- A scan either stops at a character outside literals or goes on behind it. -/
theorem scan_cons (stop : Int → List Char → Bool) (quoting : Quoting) (depth : Int) (offset : Nat)
    (c : Char) (rest : List Char) :
    (quoting = .outside ∧ stop depth (c :: rest) = true ∧
      scan stop quoting depth offset (c :: rest) = some offset) ∨
    ∃ nested, (quoting = .outside → stop depth (c :: rest) = false) ∧
      scan stop quoting depth offset (c :: rest) =
        scan stop (quoting.next c) nested (offset + 1) rest := by
  cases quoting with
  -- Outside literals the scan may stop, or pass a quote or a bracket.
  | outside =>
    cases stops : stop depth (c :: rest) with
    | true => exact .inl ⟨rfl, rfl, by simp [scan, stops]⟩
    | false =>
      refine .inr ?_
      by_cases quote : c = '"'
      · subst quote
        exact ⟨depth, fun _ => rfl, by simp [scan, stops, Quoting.next]⟩
      · exact ⟨_, fun _ => rfl, by simp [scan, stops, quote, Quoting.next]; rfl⟩
  | inside => exact .inr ⟨depth, nofun, rfl⟩
  | escaped => exact .inr ⟨depth, nofun, rfl⟩

/-- Where a scan stops is outside literals. -/
theorem scan_found {stop : Int → List Char → Bool} {quoting : Quoting} {depth : Int}
    {offset found : Nat} (stops : scan stop quoting depth offset text = some found) :
    ∃ taken rest nested, text = taken ++ rest ∧ found = offset + taken.length ∧
      taken.foldl Quoting.next quoting = .outside ∧ stop nested rest = true := by
  -- The induction is on the text; the scan stops here, or else where it does behind the character.
  induction text generalizing quoting depth offset with
  | nil => simp [scan] at stops
  | cons c text ih =>
    rcases scan_cons stop quoting depth offset c text with ⟨outside, here, same⟩ | ⟨nested, _, same⟩
    · rw [same] at stops
      cases stops
      exact ⟨[], c :: text, depth, rfl, rfl, outside, here⟩
    · obtain ⟨taken, rest, nested, rfl, rfl, outside, here⟩ := ih (same ▸ stops)
      exact ⟨c :: taken, rest, nested, rfl, by simp only [List.length_cons]; omega, outside, here⟩

/-- A scan stops no later than where it has to. -/
theorem scan_le {stop : Int → List Char → Bool} {quoting : Quoting} {depth : Int} {offset : Nat}
    {c : Char} (has : ∀ nested, stop nested (c :: rest) = true)
    (outside : text.foldl Quoting.next quoting = .outside) :
    ∃ found, scan stop quoting depth offset (text ++ c :: rest) = some found ∧
      found ≤ offset + text.length := by
  -- Wherever the scan stops before, it has come no further.
  induction text generalizing quoting depth offset with
  | nil =>
    cases outside
    exact ⟨offset, by simp [scan, has], Nat.le_refl _⟩
  | cons first text ih =>
    rcases scan_cons stop quoting depth offset first (text ++ c :: rest) with
      ⟨_, _, same⟩ | ⟨nested, _, same⟩
    · exact ⟨offset, same, by omega⟩
    · obtain ⟨found, stops, bound⟩ := ih outside
      exact ⟨found, same.trans stops, by simp only [List.length_cons]; omega⟩

end Nesting

/-- The characters that structure a text. -/
def structural : List Char := ['"', '(', ')', '[', ']', '{', '}', ';']

/-- Only characters that structure a text are to be avoided. -/
def Marks (avoid : Char → Bool) : Prop := ∀ c, avoid c = true → c ∈ structural

/-- One character that structures a text may be avoided. -/
theorem marks_single {mark : Char} (member : mark ∈ structural) : Marks (· == mark) := by
  intro c same
  rw [eq_of_beq same]
  exact member

/-- The characters of a text structure nothing where a look at each of them finds none. -/
theorem clear_of_all {text : List Char} (clear : text.all (fun c => !structural.contains c) = true) :
    ∀ c ∈ text, c ∉ structural := by
  simpa using clear

/-- A character of a kind is not listed where none of that kind is. -/
theorem not_mem_of_none {kind : Char → Bool} {listed : List Char}
    (none : listed.all (fun c => !kind c) = true) {c : Char} (ofKind : kind c = true) : c ∉ listed := by
  intro member
  simpa [ofKind] using List.all_eq_true.mp none c member

namespace Balanced

/-- An empty text is balanced. -/
theorem nil : Balanced avoid [] := rfl

/-- Balanced texts side by side are balanced. -/
theorem append (first : Balanced avoid text) (second : Balanced avoid rest) :
    Balanced avoid (text ++ rest) := by
  unfold Balanced at *
  rw [Nesting.read?_append, first]
  exact second

/-- A balanced text is balanced where less is to be avoided. -/
theorem mono (balanced : Balanced avoid text) (lenient : ∀ c, weaker c = true → avoid c = true) :
    Balanced weaker text := by
  have read := Nesting.read?_within [] (fun _ => lenient) balanced
  exact read

/-- A balanced text is balanced where nothing is to be avoided. -/
theorem lax (balanced : Balanced avoid text) : Balanced nothing text := balanced.mono nofun

/-- What groups are open behind a balanced text are open in front of it. -/
theorem read?_append (balanced : Balanced avoid text) :
    Nesting.read? nothing ⟨due, .outside⟩ (text ++ rest) =
      Nesting.read? nothing ⟨due, .outside⟩ rest := by
  have passed := Nesting.read?_lax due balanced
  rw [List.nil_append] at passed
  rw [Nesting.read?_append, passed]
  rfl

/-- Behind a balanced text all literals are closed. -/
theorem outside (balanced : Balanced avoid text) :
    text.foldl Quoting.next .outside = .outside :=
  (Nesting.read?_quoting balanced).symm

/-- Text without structure and without characters to avoid is balanced. -/
theorem bare (allowed : ∀ c ∈ text, avoid c = false) (clear : ∀ c ∈ text, c ∉ structural) :
    Balanced avoid text := by
  -- The induction is on the text; no character of it opens a group or a literal.
  induction text with
  | nil => rfl
  | cons c text ih =>
    have bare : c ∉ structural := clear c List.mem_cons_self
    have regrouped : Nesting.regroup? [] c = some [] := by
      simp only [structural, List.mem_cons, List.not_mem_nil, or_false, not_or] at bare
      unfold Nesting.regroup? Canonical.closer? Canonical.isCloser
      split
      case h_1 found =>
        split at found <;> simp_all
      case h_2 => simp [bare]
    have still : Quoting.outside.next c = .outside := by
      have unquoted : c ≠ '"' := by
        rintro rfl
        exact bare List.mem_cons_self
      simp [Quoting.next, unquoted]
    unfold Balanced
    rw [Nesting.read?_outside regrouped fun _ => allowed c List.mem_cons_self, still]
    exact ih (fun other member => allowed other (List.mem_cons_of_mem _ member))
      fun other member => clear other (List.mem_cons_of_mem _ member)

/-- Text without structure is balanced if all that is to be avoided is structure. -/
theorem plain (marks : Marks avoid) (clear : ∀ c ∈ text, c ∉ structural) :
    Balanced avoid text := by
  refine bare (fun c member => ?_) clear
  cases found : avoid c with
  | false => rfl
  | true => exact absurd (marks c found) (clear c member)

/-- A balanced text in brackets is balanced. -/
theorem group {opener closer : Char} (balanced : Balanced nothing text)
    (opens : Canonical.closer? opener = some closer) (allowed : avoid opener = false) :
    Balanced avoid (opener :: text ++ [closer]) := by
  have opened : Nesting.regroup? [] opener = some [closer] := by simp [Nesting.regroup?, opens]
  -- Within the group nothing is to be avoided.
  have inside : Nesting.read? avoid ⟨[closer], .outside⟩ text = some ⟨[closer], .outside⟩ :=
    Nesting.read?_within [closer] nofun balanced
  have closed : Nesting.regroup? [closer] closer = some [] := by
    unfold Canonical.closer? at opens
    split at opens <;> cases opens <;> rfl
  have unquoted : opener ≠ '"' ∧ closer ≠ '"' := by
    unfold Canonical.closer? at opens
    split at opens <;> cases opens <;> decide
  unfold Balanced
  rw [List.cons_append, Nesting.read?_outside opened fun _ => allowed]
  simp only [Quoting.next, if_neg unquoted.1]
  rw [Nesting.read?_append, inside, Option.bind_some, Nesting.read?_outside closed nofun]
  simp only [Quoting.next, if_neg unquoted.2]
  rfl

end Balanced

end ScriptEngine
