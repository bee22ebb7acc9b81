import Mathlib.Data.List.Nodup
import ScriptEngine.Scope.Stack

/-! Identifiers order the frames of a stack, whatever was done to it and to its forks. -/

namespace ScriptEngine

/-- A change to one stack. -/
inductive StackChange where
  | push (kind : FrameKind)
  | pop (id : Nat)
  | truncate (depth : Nat)
  | setThreshold (threshold : Nat)
  | define (name : String) (handler : Handler)

/--
A stack with every identifier it gave out, earliest first.

A fork goes on with what its source gave out before the fork.
-/
structure StackHistory where
  stack : ScopeStack := {}
  issued : List Nat := []

/-- What happens to one stack of a family of stacks. -/
inductive StackEvent where
  | on (position : Nat) (change : StackChange)
  | fork (position : Nat)

namespace ScopeStack

/-- The identifiers from the innermost frame outwards. -/
def ids (stack : ScopeStack) : List Nat := stack.frames.map (·.id)

@[simp] theorem ids_push (stack : ScopeStack) (kind : FrameKind) :
    (stack.push kind).1.ids = (stack.lastId + 1) :: stack.ids := rfl

@[simp] theorem lastId_push (stack : ScopeStack) (kind : FrameKind) :
    (stack.push kind).1.lastId = stack.lastId + 1 := rfl

@[simp] theorem push_id (stack : ScopeStack) (kind : FrameKind) :
    (stack.push kind).2 = stack.lastId + 1 := rfl

@[simp] theorem ids_fork (stack : ScopeStack) : stack.fork.ids = [stack.lastId + 1] := rfl

@[simp] theorem lastId_fork (stack : ScopeStack) : stack.fork.lastId = stack.lastId + 1 := rfl

theorem ids_pop (stack : ScopeStack) (id : Nat) : (stack.pop id).ids.Sublist stack.ids :=
  List.eraseP_sublist.map _

theorem ids_truncate (stack : ScopeStack) (depth : Nat) :
    (stack.truncate depth).ids.Sublist stack.ids := (List.drop_sublist _ _).map _

/-- A change of the active frame that keeps its identifier keeps all of them. -/
theorem ids_modifyActive (stack : ScopeStack) (change : Frame → Frame)
    (kept : ∀ frame, (change frame).id = frame.id) :
    (stack.modifyActive change).ids = stack.ids := by
  unfold modifyActive
  split <;> rename_i listed
  · split
    · simp [ids, listed, kept]
    · rfl
  · rfl

theorem lastId_modifyActive (stack : ScopeStack) (change : Frame → Frame) :
    (stack.modifyActive change).lastId = stack.lastId := by
  unfold modifyActive
  split
  · split <;> rfl
  · rfl

end ScopeStack

namespace StackHistory

/-- The history once a stack has changed. -/
def change (history : StackHistory) : StackChange → StackHistory
  | .push kind =>
    let (stack, id) := history.stack.push kind
    ⟨stack, history.issued ++ [id]⟩
  | .pop id => { history with stack := history.stack.pop id }
  | .truncate depth => { history with stack := history.stack.truncate depth }
  | .setThreshold threshold => { history with stack := { history.stack with threshold } }
  | .define name handler => { history with stack := history.stack.define name handler }

/-- The history of a fork. -/
def fork (history : StackHistory) : StackHistory :=
  ⟨history.stack.fork, history.issued ++ history.stack.fork.ids⟩

/-- What holds of a stack and the identifiers it gave out, whatever was done to it. -/
structure Ordered (history : StackHistory) : Prop where
  /-- An inner frame has a larger identifier than those further out. -/
  descending : history.stack.ids.Pairwise (· > ·)
  /-- Every frame has an identifier that was given out. -/
  known : ∀ id ∈ history.stack.ids, id ∈ history.issued
  /-- Each identifier given out is larger than those before. -/
  ascending : history.issued.Pairwise (· < ·)
  /-- The last identifier bounds all of them. -/
  bounded : ∀ id ∈ history.issued, id ≤ history.stack.lastId

namespace Ordered

variable {history : StackHistory}

/-- A stack without frames that gave out nothing. -/
theorem empty : Ordered {} where
  descending := .nil
  known := by simp [ScopeStack.ids]
  ascending := .nil
  bounded := by simp

/-- Giving out the identifier after the last one keeps what was given out in order. -/
theorem ascending_next (ordered : history.Ordered) :
    (history.issued ++ [history.stack.lastId + 1]).Pairwise (· < ·) := by
  refine List.pairwise_append.2 ⟨ordered.ascending, List.pairwise_singleton _ _, ?_⟩
  intro id given next isNext
  rw [List.mem_singleton.1 isNext]
  exact Nat.lt_succ_of_le (ordered.bounded id given)

/-- The identifier after the last one bounds what was given out, itself included. -/
theorem bounded_next (ordered : history.Ordered) :
    ∀ id ∈ history.issued ++ [history.stack.lastId + 1], id ≤ history.stack.lastId + 1 := by
  intro id given
  rcases List.mem_append.1 given with before | next
  · exact Nat.le_succ_of_le (ordered.bounded id before)
  · exact Nat.le_of_eq (List.mem_singleton.1 next)

/-- Frames may be left out as long as no identifier is given out. -/
theorem sublist {stack : ScopeStack} (ordered : history.Ordered)
    (kept : stack.ids.Sublist history.stack.ids) (same : stack.lastId = history.stack.lastId) :
    Ordered { history with stack } where
  descending := ordered.descending.sublist kept
  known id listed := ordered.known id (kept.subset listed)
  ascending := ordered.ascending
  bounded id given := same ▸ ordered.bounded id given

theorem push (ordered : history.Ordered) (kind : FrameKind) :
    (history.change (.push kind)).Ordered where
  descending := by
    -- The new identifier is the next one, which no frame has yet.
    refine List.pairwise_cons.2 ⟨fun id listed => ?_, ordered.descending⟩
    exact Nat.lt_succ_of_le (ordered.bounded id (ordered.known id listed))
  known id listed := by
    rcases List.mem_cons.1 listed with rfl | before
    · exact List.mem_append_right _ (List.mem_singleton.2 rfl)
    · exact List.mem_append_left _ (ordered.known id before)
  ascending := ordered.ascending_next
  bounded := ordered.bounded_next

/-- One change keeps the order. -/
theorem change (ordered : history.Ordered) (change : StackChange) :
    (history.change change).Ordered := by
  -- All changes but a push leave a part of the identifiers, in the same order.
  cases change with
  | push kind => exact ordered.push kind
  | pop id => exact ordered.sublist (history.stack.ids_pop id) rfl
  | truncate depth => exact ordered.sublist (history.stack.ids_truncate depth) rfl
  | setThreshold threshold => exact ordered.sublist (List.Sublist.refl _) rfl
  | define name handler =>
    have same := history.stack.ids_modifyActive (·.define name handler) fun _ => rfl
    exact ordered.sublist (same ▸ List.Sublist.refl _) (ScopeStack.lastId_modifyActive ..)

theorem fork (ordered : history.Ordered) : history.fork.Ordered where
  descending := List.pairwise_singleton _ _
  known _ listed := List.mem_append_right _ listed
  ascending := ordered.ascending_next
  bounded := ordered.bounded_next

end Ordered

end StackHistory

namespace StackEvent

/-- The family once an event has happened; a fork joins it at the end. -/
def apply (family : List StackHistory) : StackEvent → List StackHistory
  | .on position change => family.modify position (·.change change)
  | .fork position => family ++ (family[position]?.map (·.fork)).toList

/-- The family that a new stack becomes through events. -/
def run (events : List StackEvent) : List StackHistory := events.foldl apply [{}]

/-- An event keeps the order of every stack of the family. -/
theorem apply_ordered {family : List StackHistory} (event : StackEvent)
    (ordered : ∀ history ∈ family, history.Ordered) :
    ∀ history ∈ apply family event, history.Ordered := by
  intro history member
  -- An event changes one stack of the family or adds a fork of one.
  cases event with
  | on position change =>
    obtain ⟨place, found⟩ := List.mem_iff_getElem?.1 member
    simp only [apply, List.getElem?_modify, Option.map_eq_map, Option.map_eq_some_iff] at found
    obtain ⟨before, listed, rfl⟩ := found
    have earlier := ordered before (List.mem_of_getElem? listed)
    split
    · exact earlier.change change
    · exact earlier
  | fork position =>
    simp only [apply, List.mem_append, Option.mem_toList,
      Option.map_eq_some_iff] at member
    rcases member with before | ⟨source, listed, rfl⟩
    · exact ordered history before
    · exact (ordered source (List.mem_of_getElem? listed)).fork

/-- Every stack of the family is in order after any events. -/
theorem run_ordered (events : List StackEvent) : ∀ history ∈ run events, history.Ordered := by
  -- The induction goes along the events, from a family of any size.
  suffices along : ∀ family : List StackHistory, (∀ history ∈ family, history.Ordered) →
      ∀ history ∈ events.foldl apply family, history.Ordered from
    along [{}] (by simpa using StackHistory.Ordered.empty)
  induction events with
  | nil => exact fun _ ordered => ordered
  | cons event events ih => exact fun family ordered => ih _ (apply_ordered event ordered)

end StackEvent

namespace StackHistory.Ordered

variable {history : StackHistory}

/-- Two frames with one identifier are one frame. -/
theorem unique (ordered : history.Ordered) {frame other : Frame}
    (listed : frame ∈ history.stack.frames) (also : other ∈ history.stack.frames)
    (same : frame.id = other.id) : frame = other := by
  have distinct : (history.stack.frames.map (·.id)).Nodup :=
    ordered.descending.imp fun above => Nat.ne_of_gt above
  exact List.inj_on_of_nodup_map distinct listed also same

/-- An identifier is found where a frame has it, and only there. -/
theorem find?_eq_some (ordered : history.Ordered) (id : Nat) (frame : Frame) :
    history.stack.find? id = some frame ↔ frame ∈ history.stack.frames ∧ frame.id = id := by
  constructor
  · intro found
    exact ⟨List.mem_of_find?_eq_some found, by simpa using List.find?_some found⟩
  · rintro ⟨listed, rfl⟩
    -- The first frame with the identifier is the one, since no two frames share it.
    obtain ⟨first, found⟩ : ∃ first, history.stack.find? frame.id = some first :=
      Option.isSome_iff_exists.1 (List.find?_isSome.2 ⟨frame, listed, by simp⟩)
    have same : first.id = frame.id := by simpa using List.find?_some found
    rwa [ordered.unique (List.mem_of_find?_eq_some found) listed same] at found

/-- Removing by identifier leaves all frames with another one. -/
theorem pop_frames (ordered : history.Ordered) (id : Nat) :
    (history.stack.pop id).frames = history.stack.frames.filter (·.id ≠ id) := by
  suffices removed : ∀ frames : List Frame, (frames.map (·.id)).Pairwise (· > ·) →
      frames.eraseP (·.id == id) = frames.filter (·.id ≠ id) from
    removed history.stack.frames ordered.descending
  intro frames descending
  -- The induction goes outwards; behind the frame that is removed, identifiers are smaller.
  induction frames with
  | nil => rfl
  | cons frame outer ih =>
    obtain ⟨above, rest⟩ := List.pairwise_cons.1 descending
    by_cases same : frame.id = id
    · have others : ∀ other ∈ outer, other.id ≠ id := fun other listed =>
        same ▸ Nat.ne_of_lt (above other.id (List.mem_map_of_mem listed))
      rw [List.eraseP_cons_of_pos (by simpa using same),
        List.filter_cons_of_neg (by simpa using same)]
      exact (List.filter_eq_self.2 (by simpa using others)).symm
    · rw [List.eraseP_cons_of_neg (by simpa using same),
        List.filter_cons_of_pos (by simpa using same), ih rest]

end StackHistory.Ordered

/--
Identifiers order the frames of every stack that comes out of any events.

The frames have strictly increasing identifiers from the bottom to the top, and what a stack gave
out increases as well, so it never gives one out again. An identifier leads to its frame exactly if
that is on the stack, and removing by it leaves all other frames as they are. A fork starts with a
copy of the active names under an identifier above all that were given out.
-/
theorem identifiers_order_frames (events : List StackEvent) (history : StackHistory)
    (member : history ∈ StackEvent.run events) :
    (history.stack.frames.reverse.map (·.id)).Pairwise (· < ·) ∧
      history.issued.Pairwise (· < ·) ∧
      (∀ frame ∈ history.stack.frames, frame.id ∈ history.issued) ∧
      (∀ id frame, history.stack.find? id = some frame ↔
        frame ∈ history.stack.frames ∧ frame.id = id) ∧
      (∀ id, history.stack.pop id =
        { history.stack with frames := history.stack.frames.filter (·.id ≠ id) }) ∧
      ∃ base, history.stack.fork.frames = [base] ∧ history.stack.fork.active? = some base ∧
        base.names = (history.stack.active?.map (·.names)).getD .empty ∧
        ∀ id ∈ history.issued, id < base.id := by
  have ordered := StackEvent.run_ordered events history member
  refine ⟨?ascending, ordered.ascending, ?known, ordered.find?_eq_some, ?pop, _, rfl, rfl, rfl,
    ?fork⟩
  case ascending =>
    rw [List.map_reverse, List.pairwise_reverse]
    exact ordered.descending
  case known => exact fun frame listed => ordered.known _ (List.mem_map_of_mem listed)
  case pop =>
    intro id
    rw [← ordered.pop_frames id]
    rfl
  case fork => exact fun id given => Nat.lt_succ_of_le (ordered.bounded id given)

/-- An outer frame is removed, and a fork of what is left gets frames of its own. -/
theorem identifiers_order_frames_forked :
    ∃ history ∈ StackEvent.run [.on 0 (.push .thread), .on 0 (.push .thread), .on 0 (.pop 1),
        .fork 0, .on 1 (.push .thread)],
      history.stack.ids = [4, 3] ∧ history.issued = [1, 2, 3, 4] ∧
        (history.stack.frames.reverse.map (·.id)).Pairwise (· < ·) := by
  have ordered := identifiers_order_frames [.on 0 (.push .thread), .on 0 (.push .thread),
    .on 0 (.pop 1), .fork 0, .on 1 (.push .thread)] _ (List.mem_of_getElem? (i := 1) rfl)
  exact ⟨_, List.mem_of_getElem? (i := 1) rfl, rfl, rfl, ordered.1⟩

end ScriptEngine
