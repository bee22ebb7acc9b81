import ScriptEngine.Proofs.Ends
import ScriptEngine.Proofs.Eval.Bodies

/-! An `if` chain as a text holds it, and the one branch of it that is run. -/

namespace ScriptEngine

variable {allows : Engine → Engine → Prop} {eval : Evaluator} {start middle final : Engine}
  {result : Except Stop Value}

/-- A part of a text with the site that it is run at. -/
structure Excerpt where
  text : List Char
  site : Site

/-- A condition with the body that stands behind it. -/
structure Clause where
  condition : Excerpt
  body : Excerpt

/-- The value of an excerpt as a condition. -/
def Excerpt.test (eval : Evaluator) (excerpt : Excerpt) : Eval Value :=
  evaluateAs eval .condition excerpt.site excerpt.text

/-- Runs an excerpt as a branch, of which only signals are left. -/
def Excerpt.run (eval : Evaluator) (excerpt : Excerpt) : Eval Value := do
  return (← runText eval excerpt.site excerpt.text).signalOrNull

namespace Cursor

variable {cursor middle next finish behind : Cursor} {clause : Clause} {clauses : List Clause}
  {last : Option Excerpt}

/-- A condition in parentheses and a body follow a cursor, up to another one. -/
structure HoldsClause (cursor : Cursor) (clause : Clause) (behind : Cursor) : Prop where
  reads : ∃ headed, cursor.readBalanced '(' ')' = .ok (clause.condition.text, headed) ∧
    headed.site = clause.condition.site ∧ headed.readBody = .ok (clause.body.text, behind)
  site : behind.site = clause.body.site

/-- The words of a further clause stand between two cursors. -/
inductive LeadsOn (cursor : Cursor) : Cursor → Prop
  | elif (word : cursor.peekToken = "elif") : LeadsOn cursor cursor.skipToken
  | elseIf (word : cursor.peekToken = "else") (second : cursor.skipToken.peekToken = "if") :
    LeadsOn cursor cursor.skipToken.skipToken

/-- The clauses of an `if` follow the first word of it, with the body behind a last `else`, up to
another cursor. -/
inductive HoldsChain : Cursor → List Clause → Option Excerpt → Cursor → Prop
  | single {cursor finish : Cursor} {clause : Clause} (first : cursor.HoldsClause clause finish)
      (elif : finish.peekToken ≠ "elif") (other : finish.peekToken ≠ "else") :
    HoldsChain cursor [clause] none finish
  | otherwise {cursor next finish : Cursor} {clause : Clause} {text : List Char}
      (first : cursor.HoldsClause clause next) (word : next.peekToken = "else")
      (second : next.skipToken.peekToken ≠ "if")
      (branch : next.skipToken.readBody = .ok (text, finish)) :
    HoldsChain cursor [clause] (some ⟨text, finish.site⟩) finish
  | more {cursor next onward finish : Cursor} {clause : Clause} {clauses : List Clause}
      {last : Option Excerpt} (first : cursor.HoldsClause clause next) (leads : next.LeadsOn onward)
      (rest : HoldsChain onward clauses last finish) :
    HoldsChain cursor (clause :: clauses) last finish

/-! How far a chain goes. -/

/-- A clause is skipped up to where it ends. -/
theorem HoldsClause.skip (first : cursor.HoldsClause clause next) :
    skipGuarded skipStatement cursor = .ok next := by
  obtain ⟨⟨headed, header, _, body⟩, _⟩ := first
  exact skipGuarded_eq header (readBody_skip body)

/-- A clause takes at least one character. -/
theorem HoldsClause.left_lt (first : cursor.HoldsClause clause next) : next.left < cursor.left :=
  (skipGuarded_left skipStatement_forward first.skip).2

/-- The words of a clause are passed forward. -/
theorem LeadsOn.left_le (leads : cursor.LeadsOn next) : next.left ≤ cursor.left := by
  cases leads with
  | elif => exact cursor.skipToken_left
  | elseIf => exact Nat.le_trans cursor.skipToken.skipToken_left cursor.skipToken_left

/-- Behind its words a further clause is skipped with those behind it. -/
theorem LeadsOn.skip (leads : cursor.LeadsOn next) :
    cursor.skipElseChain = (do skipElseChain (← skipGuarded skipStatement next)) := by
  cases leads with
  | elif word => exact skipElseChain_elif word
  | elseIf word second => exact skipElseChain_elseIf word second

/-- A chain has no more clauses than characters. -/
theorem HoldsChain.length_le (holds : cursor.HoldsChain clauses last finish) :
    clauses.length ≤ cursor.left := by
  induction holds with
  | single first => exact Nat.succ_le_of_lt (Nat.zero_lt_of_lt first.left_lt)
  | otherwise first => exact Nat.succ_le_of_lt (Nat.zero_lt_of_lt first.left_lt)
  | more first leads _ ih =>
    have further := first.left_lt
    have words := leads.left_le
    rw [List.length_cons]
    omega

/-- A chain is skipped up to where it ends. -/
theorem HoldsChain.skip (holds : cursor.HoldsChain clauses last finish) :
    (do skipElseChain (← skipGuarded skipStatement cursor)) = .ok finish := by
  -- The induction is on the chain, clause by clause.
  induction holds with
  | single first elif other =>
    rw [first.skip]
    exact skipElseChain_done elif other
  | @otherwise _ next _ _ _ first word second branch =>
    rw [first.skip]
    have other : next.skipElseChain = next.skipToken.skipStatement := skipElseChain_else word second
    exact other.trans (readBody_skip branch)
  | more first leads _ ih =>
    rw [first.skip]
    exact leads.skip.trans ih

end Cursor

/-! Which branch is run. -/

/-- A run of an `if` chain: conditions are evaluated in order up to the first one that holds, and the
body behind that is run, or the one behind a last `else`. -/
inductive RunsBranch (eval : Evaluator) (allows : Engine → Engine → Prop) :
    List Clause → Option Excerpt → Engine → Except Stop Value → Engine → Prop
  | undecided {clause : Clause} {clauses : List Clause} {last : Option Excerpt} {start final : Engine}
      {stop : Stop} (fails : (clause.condition.test eval start).MayEnd allows (.error stop) final) :
    RunsBranch eval allows (clause :: clauses) last start (.error stop) final
  | taken {clause : Clause} {clauses : List Clause} {last : Option Excerpt}
      {start middle final : Engine} {value : Value} {result : Except Stop Value}
      (tests : (clause.condition.test eval start).MayEnd allows (.ok value) middle)
      (holds : value.truthy = true) (runs : (clause.body.run eval middle).MayEnd allows result final) :
    RunsBranch eval allows (clause :: clauses) last start result final
  | passed {clause : Clause} {clauses : List Clause} {last : Option Excerpt}
      {start middle final : Engine} {value : Value} {result : Except Stop Value}
      (tests : (clause.condition.test eval start).MayEnd allows (.ok value) middle)
      (fails : value.truthy = false)
      (rest : RunsBranch eval allows clauses last middle result final) :
    RunsBranch eval allows (clause :: clauses) last start result final
  | otherwise {branch : Excerpt} {start final : Engine} {result : Except Stop Value}
      (runs : (branch.run eval start).MayEnd allows result final) :
    RunsBranch eval allows [] (some branch) start result final
  | nothing (start : Engine) : RunsBranch eval allows [] none start (.ok .null) start

/-- Runs what follows a clause of an `if` chain that was passed; at most `clauses` conditions follow. -/
def runOthers (eval : Evaluator) (clauses : Nat) (cursor : Cursor) : Eval (Value × Cursor) :=
  match cursor.peekToken with
  | "elif" => runChain eval clauses cursor.skipToken
  | "else" =>
    let branch := cursor.skipToken
    if branch.peekToken = "if" then runChain eval clauses branch.skipToken
    else do
      let (body, behind) ← Eval.ofRead branch.readBody
      let value ← runText eval behind.site body
      return (value.signalOrNull, behind)
  | _ => return (.null, cursor)

section Running

variable {cursor next behind finish : Cursor} {clause : Clause} {clauses : List Clause}
  {last : Option Excerpt} {count : Nat}

/-- A further clause is run behind its words. -/
theorem Cursor.LeadsOn.runOthers (leads : cursor.LeadsOn next) :
    runOthers eval count cursor = runChain eval count next := by
  unfold ScriptEngine.runOthers
  cases leads with
  | elif word =>
    rw [word]
    rfl
  | elseIf word second =>
    rw [word]
    exact if_pos second

/-- The body behind a last `else` is run. -/
theorem runOthers_else {text : List Char} (word : cursor.peekToken = "else")
    (second : cursor.skipToken.peekToken ≠ "if")
    (branch : cursor.skipToken.readBody = .ok (text, finish)) :
    runOthers eval count cursor = (do
      let value ← Excerpt.run eval ⟨text, finish.site⟩
      return (value, finish)) := by
  unfold runOthers Excerpt.run
  rw [word]
  simp only [if_neg second, branch, Eval.ofRead, pure_bind, bind_assoc]

/-- Behind the last clause nothing is run. -/
theorem runOthers_none (elif : cursor.peekToken ≠ "elif") (other : cursor.peekToken ≠ "else") :
    runOthers eval count cursor = pure (.null, cursor) := by
  unfold runOthers
  split
  case h_1 word => exact absurd word elif
  case h_2 word => exact absurd word other
  case h_3 => rfl

/-- A chain tests its first clause, and runs the body of that or goes on behind it. -/
theorem Cursor.HoldsClause.runChain (first : cursor.HoldsClause clause next) :
    runChain eval (count + 1) cursor = (do
      if (← clause.condition.test eval).truthy then
        let value ← runText eval clause.body.site clause.body.text
        return (value.signalOrNull, ← Eval.ofReadBehind value next.skipElseChain)
      else runOthers eval count next) := by
  obtain ⟨⟨headed, header, site, body⟩, place⟩ := first
  unfold ScriptEngine.runChain Excerpt.test
  rw [header]
  simp only [Eval.ofRead, pure_bind, site, body, readBody_skip body, place]
  rfl

/-- Where the rest of a chain can be skipped, its first clause ends as its body does if its condition
holds, and the rest decides if not. -/
theorem Cursor.HoldsClause.mayEnd_runChain {result : Except Stop (Value × Cursor)}
    (first : cursor.HoldsClause clause next) (chain : next.skipElseChain = .ok finish) :
    (ScriptEngine.runChain eval (count + 1) cursor start).MayEnd allows result final ↔
      (∃ stop, result = .error stop ∧
        (clause.condition.test eval start).MayEnd allows (.error stop) final) ∨
      ∃ value middle, (clause.condition.test eval start).MayEnd allows (.ok value) middle ∧
        ((value.truthy = true ∧ ∃ ended, (clause.body.run eval middle).MayEnd allows ended final ∧
            result = ended.map (·, finish)) ∨
          value.truthy = false ∧ (runOthers eval count next middle).MayEnd allows result final) := by
  rw [first.runChain, Eval.mayEnd_bind]
  refine or_congr_right (exists_congr fun value => exists_congr fun middle => and_congr_right fun _ => ?_)
  -- What the condition says decides whether the body runs or the rest of the chain.
  cases truth : value.truthy with
  | true =>
    have body : (do
        let value ← runText eval clause.body.site clause.body.text
        return (value.signalOrNull, ← Eval.ofReadBehind value next.skipElseChain)) = (do
          let value ← clause.body.run eval
          return (value, finish)) := by
      rw [chain]
      unfold Excerpt.run
      simp only [bind_assoc, pure_bind]
      rfl
    rw [if_pos rfl, body, Eval.mayEnd_map]
    simp
  | false => simp

/-- A chain runs one branch if what follows its first clause does. -/
theorem Cursor.HoldsClause.runsBranch {result : Except Stop (Value × Cursor)}
    (first : cursor.HoldsClause clause next) (chain : next.skipElseChain = .ok finish)
    (others : ∀ middle, (runOthers eval count next middle).MayEnd allows result final ↔
      ∃ ended, RunsBranch eval allows clauses last middle ended final ∧
        result = ended.map (·, finish)) :
    (ScriptEngine.runChain eval (count + 1) cursor start).MayEnd allows result final ↔
      ∃ ended, RunsBranch eval allows (clause :: clauses) last start ended final ∧
        result = ended.map (·, finish) := by
  rw [first.mayEnd_runChain chain]
  -- Undecided, taken and passed are the ways that a clause can end.
  constructor
  · rintro (⟨stop, rfl, fails⟩ | ⟨value, middle, tests, ⟨holds, ended, runs, rfl⟩ | ⟨fails, ends⟩⟩)
    · exact ⟨.error stop, .undecided fails, rfl⟩
    · exact ⟨ended, .taken tests holds runs, rfl⟩
    · obtain ⟨ended, rest, rfl⟩ := (others middle).mp ends
      exact ⟨ended, .passed tests fails rest, rfl⟩
  · rintro ⟨ended, branch, rfl⟩
    cases branch with
    | undecided fails => exact .inl ⟨_, rfl, fails⟩
    | taken tests holds runs => exact .inr ⟨_, _, tests, .inl ⟨holds, _, runs, rfl⟩⟩
    | passed tests fails rest =>
      exact .inr ⟨_, _, tests, .inr ⟨fails, (others _).mpr ⟨_, rest, rfl⟩⟩⟩

/-- With as many conditions left as a chain has clauses, it runs one branch and ends behind the chain. -/
theorem Cursor.HoldsChain.mayEnd_runChain {result : Except Stop (Value × Cursor)}
    (holds : cursor.HoldsChain clauses last finish) (enough : clauses.length ≤ count) :
    (runChain eval count cursor start).MayEnd allows result final ↔
      ∃ ended, RunsBranch eval allows clauses last start ended final ∧
        result = ended.map (·, finish) := by
  -- The induction is on the clauses; each takes one of the conditions that are left.
  induction holds generalizing count start with
  | single first elif other =>
    obtain ⟨count, rfl⟩ := Nat.exists_eq_add_of_lt (Nat.lt_of_succ_le enough)
    rw [List.length_nil, Nat.zero_add]
    refine first.runsBranch (skipElseChain_done elif other) fun middle => ?_
    rw [runOthers_none elif other, Eval.mayEnd_pure]
    constructor
    · rintro ⟨rfl, rfl⟩
      exact ⟨_, .nothing _, rfl⟩
    · rintro ⟨_, ⟨⟩, rfl⟩
      exact ⟨rfl, rfl⟩
  | otherwise first word second branch =>
    obtain ⟨count, rfl⟩ := Nat.exists_eq_add_of_lt (Nat.lt_of_succ_le enough)
    rw [List.length_nil, Nat.zero_add]
    refine first.runsBranch ((skipElseChain_else word second).trans (readBody_skip branch)) fun middle => ?_
    rw [runOthers_else word second branch, Eval.mayEnd_map]
    refine exists_congr fun ended => and_congr_left fun _ => ⟨.otherwise, ?_⟩
    rintro ⟨⟩
    assumption
  | @more _ _ _ finish _ clauses last first leads rest ih =>
    rw [List.length_cons] at enough
    obtain ⟨count, rfl⟩ : ∃ fewer, count = fewer + 1 := ⟨count - 1, by omega⟩
    refine first.runsBranch (leads.skip.trans rest.skip) fun middle => ?_
    rw [leads.runOthers]
    exact ih (by omega)

end Running

/-- An `else` belongs to the nearest `if`, also where the condition of the outer one fails. -/
example : ((Cursor.ofText ⟨"main", 1⟩
    "if (a) if (b) x; elif (c) y; else z; w;".toList).skipStatement.toOption.map (·.rest)) =
      some " w;".toList := by
  decide +kernel

end ScriptEngine
