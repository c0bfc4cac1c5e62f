import Mathlib.Data.Set.Insert

/-!
# Paths and what they write

The paths through a piece of a program, as far as one variable is concerned. A path
leaves the piece in some way, and on it the variable is written last with some value,
or not at all. Observing a point of the program is one of the ways to leave: such a
path ends at the point.

The combinators on flows are those of a structured language with loops and exceptions.
A pass is a flow in which some path always goes on. An analysis that keeps sets of values
and goes through each part of a program once follows a pass; the values it holds
behind a part are those that the pass has written or let through.
-/

namespace VirtTestTools

/-- How a path leaves a piece of a program. -/
inductive Exit
  | normal
  | breaks
  | continues
  | raises
  | returns
  | observed (point : Nat)
deriving DecidableEq

/-- The paths through a piece of a program: how they leave it, and what they write last. -/
abbrev Flow (α : Type) := Exit → Option α → Prop

namespace Flow

variable {α : Type}

/-- Go on. -/
def pass : Flow α := fun exit written => exit = .normal ∧ written = none

/-- Write a value and go on. -/
def write (value : α) : Flow α := fun exit written => exit = .normal ∧ written = some value

/-- Leave at once. -/
def leave (way : Exit) : Flow α := fun exit written => exit = way ∧ written = none

/-- Leave in some way, or go on. -/
def note (way : Exit) : Flow α := fun exit written =>
  (exit = .normal ∨ exit = way) ∧ written = none

/-- Observe a point, or go on. -/
def observe (point : Nat) : Flow α := note (.observed point)

/-- One piece after the other. -/
def seq (first second : Flow α) : Flow α := fun exit written =>
  (exit ≠ .normal ∧ first exit written) ∨
    ∃ before after, first .normal before ∧ second exit after ∧ written = after.or before

/-- One piece or the other. -/
def choice (first second : Flow α) : Flow α := fun exit written =>
  first exit written ∨ second exit written

/-- The paths that go on. -/
def settle (flow : Flow α) : Flow α := fun exit written =>
  exit = .normal ∧ flow .normal written

/-- A piece that may fail before it starts and when it has been left. -/
def fallible (flow : Flow α) : Flow α := fun exit written =>
  flow exit written ∨ (exit = .raises ∧ (written = none ∨ flow .normal written))

/-- A piece, then one that follows it normally or one that follows an exception. -/
def rescue (first second handler : Flow α) : Flow α := fun exit written =>
  (exit ≠ .normal ∧ exit ≠ .raises ∧ first exit written) ∨
    (∃ before after, first .normal before ∧ second exit after ∧ written = after.or before) ∨
      ∃ before after, first .raises before ∧ handler exit after ∧ written = after.or before

/-- A piece, then one that follows it however it is left, and leaves it the same way
unless it is left in a way of its own. -/
def ensure (first last : Flow α) : Flow α := fun exit written =>
  (∃ point, exit = .observed point ∧ first exit written) ∨
    ∃ way before after, (∀ point, way ≠ .observed point) ∧ first way before ∧
      written = after.or before ∧
        ((exit = way ∧ last .normal after) ∨ (exit ≠ .normal ∧ last exit after))

/-- What any number of repetitions may write. -/
inductive Repeated (flow : Flow α) : Option α → Prop
  | zero : Repeated flow none
  | more {before after : Option α} (earlier : Repeated flow before)
      (again : flow .normal after) : Repeated flow (after.or before)

/-- Any number of repetitions, the last of which may be left early. -/
def rounds (flow : Flow α) : Flow α := fun exit written =>
  (exit = .normal ∧ Repeated flow written) ∨
    (exit ≠ .normal ∧ ∃ before after, Repeated flow before ∧ flow exit after ∧
      written = after.or before)

/-- The body of a loop: to continue is to end the round. -/
def round (body : Flow α) : Flow α := fun exit written =>
  exit ≠ .continues ∧ (body exit written ∨ (exit = .normal ∧ body .continues written))

/-- A loop: a test before each round and behind the last one, then the clause for a loop
that was not broken. -/
def loop (test body orelse : Flow α) : Flow α := fun exit written =>
  let spins := seq test (rounds (seq (round body) test))
  (exit = .normal ∧ spins .breaks written) ∨
    (exit ≠ .normal ∧ exit ≠ .breaks ∧ spins exit written) ∨ seq (settle spins) orelse exit written

section

variable {first second test body orelse : Flow α} {exit : Exit} {before after written : Option α}

/-- The second flow runs behind a normal end of the first one, and its last write counts. -/
theorem seq_on (firstDone : first .normal before) (secondDone : second exit after)
    (same : written = after.or before) : seq first second exit written :=
  .inr ⟨before, after, firstDone, secondDone, same⟩

/-- The first flow is left early, and the second one does not run. -/
theorem seq_out (early : exit ≠ .normal) (firstDone : first exit written) :
    seq first second exit written :=
  .inl ⟨early, firstDone⟩

/-- A loop may be broken in its first round. -/
theorem loop_broken (tested : test .normal before) (broken : body .breaks after)
    (same : written = after.or before) : loop test body orelse .normal written := by
  have round : rounds (seq (round body) test) .breaks after := by
    refine .inr ⟨nofun, none, after, .zero, ?_, Option.or_none.symm⟩
    exact seq_out nofun ⟨nofun, .inl broken⟩
  exact .inl ⟨rfl, seq_on tested round same⟩

/-- A loop may be left early in its second round. -/
theorem loop_second (tested : test .normal none) (first : body .normal before)
    (second : body exit after) (early : exit ≠ .normal) (unbroken : exit ≠ .breaks)
    (finished : exit ≠ .continues) (same : written = after.or before) :
    loop test body orelse exit written := by
  have once : seq (round body) test .normal before :=
    seq_on ⟨nofun, .inl first⟩ tested Option.none_or.symm
  have again : seq (round body) test exit after := seq_out early ⟨finished, .inl second⟩
  have turned : Repeated (seq (round body) test) (before.or none) := .more .zero once
  rw [Option.or_none] at turned
  have spins : rounds (seq (round body) test) exit written :=
    .inr ⟨early, before, after, turned, again, same⟩
  exact .inr (.inl ⟨early, unbroken, seq_on tested spins Option.or_none.symm⟩)

end

/-- Whether paths leave in some way. -/
def Leaves (flow : Flow α) (exit : Exit) : Prop := ∃ written, flow exit written

/-- The values behind a piece, from those before it: what was written, or what was let
through. -/
def after (flow : Flow α) (exit : Exit) (values : Set α) : Set α :=
  {value | flow exit (some value) ∨ (value ∈ values ∧ flow exit none)}

/-- A value behind a flow was written there, or it was there before a run without a write. -/
theorem mem_after {flow : Flow α} {exit : Exit} {values : Set α} {value : α} :
    value ∈ flow.after exit values ↔ flow exit (some value) ∨ (value ∈ values ∧ flow exit none) :=
  Iff.rfl

/-- Behind a choice there are the values behind either flow. -/
@[simp]
theorem after_choice (first second : Flow α) (exit : Exit) (values : Set α) :
    (choice first second).after exit values = first.after exit values ∪ second.after exit values := by
  ext value
  simp only [mem_after, choice, Set.mem_union, and_or_left]
  exact or_or_or_comm

/-- A choice is left as either flow is. -/
@[simp]
theorem leaves_choice (first second : Flow α) (exit : Exit) :
    (choice first second).Leaves exit ↔ first.Leaves exit ∨ second.Leaves exit := exists_or

/-- The values behind paths with the given writes. -/
def spread (writes : Set (Option α)) (values : Set α) : Set α :=
  {value | some value ∈ writes ∨ (value ∈ values ∧ none ∈ writes)}

/-- A value behind some writes is written by one, or it stays where one writes nothing. -/
theorem mem_spread {writes : Set (Option α)} {values : Set α} {value : α} :
    value ∈ spread writes values ↔ some value ∈ writes ∨ (value ∈ values ∧ none ∈ writes) := Iff.rfl

/-- The values behind more writes are those behind each set of them. -/
theorem spread_union (writes more : Set (Option α)) (values : Set α) :
    spread (writes ∪ more) values = spread writes values ∪ spread more values := by
  ext value
  simp only [mem_spread, Set.mem_union, and_or_left]
  exact or_or_or_comm

/-- From more values come more values. -/
theorem after_mono (flow : Flow α) (exit : Exit) {values more : Set α} (within : values ⊆ more) :
    flow.after exit values ⊆ flow.after exit more := by
  rintro value (written | ⟨inside, kept⟩)
  · exact .inl written
  · exact .inr ⟨within inside, kept⟩

end Flow

/-- A flow in which some path goes on. -/
structure Pass (α : Type) where
  flow : Flow α
  total : flow.Leaves .normal

namespace Pass

variable {α : Type}

/-- The pass that does nothing. -/
def pass : Pass α := ⟨Flow.pass, none, rfl, rfl⟩

/-- The pass that writes one value. -/
def write (value : α) : Pass α := ⟨Flow.write value, some value, rfl, rfl⟩

/-- The pass that looks at the value at a point. -/
def observe (point : Nat) : Pass α := ⟨Flow.observe point, none, .inl rfl, rfl⟩

/-- Note the values with which a piece could be left, and go on. -/
def note (way : Exit) : Pass α := ⟨Flow.note way, none, .inl rfl, rfl⟩

/-- One pass behind the other. -/
def seq (first second : Pass α) : Pass α :=
  ⟨Flow.seq first.flow second.flow, by
    obtain ⟨before, firstOn⟩ := first.total
    obtain ⟨after, secondOn⟩ := second.total
    exact ⟨after.or before, .inr ⟨before, after, firstOn, secondOn, rfl⟩⟩⟩

/-- One of several passes. -/
def anyOf (first : Pass α) (others : List (Pass α)) : Pass α :=
  ⟨fun exit written => ∃ part ∈ first :: others, part.flow exit written, by
    obtain ⟨written, on⟩ := first.total
    exact ⟨written, first, List.mem_cons_self .., on⟩⟩

/-- Go on with one of the outputs, or from where one was if there are none. -/
def joined (outputs : Set (Option α)) : Pass α :=
  ⟨fun exit written => exit = .normal ∧ (written ∈ outputs ∨ (outputs = ∅ ∧ written = none)), by
    obtain empty | ⟨written, inside⟩ := outputs.eq_empty_or_nonempty
    · exact ⟨none, rfl, .inr ⟨empty, rfl⟩⟩
    · exact ⟨written, rfl, .inl inside⟩⟩

/-- The ways out of other pieces, and then a pass. -/
def aside (others : Flow α) (rest : Pass α) : Pass α :=
  ⟨fun exit written => (exit ≠ .normal ∧ others exit written) ∨ rest.flow exit written, by
    obtain ⟨written, on⟩ := rest.total
    exact ⟨written, .inr on⟩⟩

/-- The paths of a pass that go on. -/
def settle (part : Pass α) : Pass α :=
  ⟨Flow.settle part.flow, by
    obtain ⟨written, on⟩ := part.total
    exact ⟨written, rfl, on⟩⟩

/-- Passes with the same runs are equal. -/
@[ext]
theorem ext {first second : Pass α} (same : ∀ exit written, first.flow exit written ↔ second.flow exit written) :
    first = second := by
  obtain ⟨flow, _⟩ := first
  obtain ⟨other, _⟩ := second
  obtain rfl : flow = other := funext fun exit => funext fun written => propext (same exit written)
  rfl

/-- Nothing in front of a pass changes nothing. -/
@[simp]
theorem pass_seq (part : Pass α) : pass.seq part = part := by
  ext exit written
  by_cases normal : exit = .normal
  · subst normal
    simp [seq, Flow.seq, pass, Flow.pass]
  · simp [seq, Flow.seq, pass, Flow.pass, normal]

/-- Nothing behind a pass changes nothing. -/
@[simp]
theorem seq_pass (part : Pass α) : part.seq pass = part := by
  ext exit written
  by_cases normal : exit = .normal
  · subst normal
    simp [seq, Flow.seq, pass, Flow.pass]
  · simp [seq, Flow.seq, pass, Flow.pass, normal]

/-- How three pieces are grouped does not matter. -/
@[simp]
theorem seq_assoc (first second third : Pass α) :
    (first.seq second).seq third = first.seq (second.seq third) := by
  ext exit written
  simp only [seq, Flow.seq, ne_eq, not_true_eq_false, false_and, false_or]
  constructor
  · rintro (⟨early, ⟨-, done⟩ | ⟨before, after, firstDone, secondDone, rfl⟩⟩ |
      ⟨_, last, ⟨before, after, firstDone, secondDone, rfl⟩, thirdDone, rfl⟩)
    · exact .inl ⟨early, done⟩
    · exact .inr ⟨before, after, firstDone, .inl ⟨early, secondDone⟩, rfl⟩
    · exact .inr ⟨before, last.or after, firstDone,
        .inr ⟨after, last, secondDone, thirdDone, rfl⟩, Option.or_assoc.symm⟩
  · rintro (⟨early, done⟩ | ⟨before, _, firstDone,
      ⟨early, secondDone⟩ | ⟨after, last, secondDone, thirdDone, rfl⟩, rfl⟩)
    · exact .inl ⟨early, .inl ⟨early, done⟩⟩
    · exact .inl ⟨early, .inr ⟨before, _, firstDone, secondDone, rfl⟩⟩
    · exact .inr ⟨after.or before, last, ⟨before, after, firstDone, secondDone, rfl⟩, thirdDone,
        Option.or_assoc⟩

variable {values : Set α}

/-- The values stay where nothing is done. -/
@[simp]
theorem after_pass : pass.flow.after .normal values = values := by
  ext value
  simp [Flow.mem_after, pass, Flow.pass]

/-- Behind a write there is its value only. -/
@[simp]
theorem after_write (value : α) : (write value).flow.after .normal values = {value} := by
  ext other
  simp [Flow.mem_after, write, Flow.write, eq_comm]

/-- A look leaves the values as they are. -/
@[simp]
theorem after_observe (point : Nat) : (observe point).flow.after .normal values = values := by
  ext value
  simp [Flow.mem_after, observe, Flow.observe, Flow.note]

/-- A look sees the values that are there. -/
@[simp]
theorem after_observed (point : Nat) :
    (observe point).flow.after (.observed point) values = values := by
  ext value
  simp [Flow.mem_after, observe, Flow.observe, Flow.note]

/-- A note leaves the values as they are. -/
@[simp]
theorem after_note (way : Exit) : (note way).flow.after .normal values = values := by
  ext value
  simp [Flow.mem_after, note, Flow.note]

/-- The noted way has the values that are there. -/
@[simp]
theorem after_noted (way : Exit) : (note way).flow.after way values = values := by
  ext value
  simp [Flow.mem_after, note, Flow.note]

/-- A settled pass has the values of its normal ends. -/
@[simp]
theorem after_settle (part : Pass α) :
    part.settle.flow.after .normal values = part.flow.after .normal values := by
  ext value
  simp [Flow.mem_after, settle, Flow.settle]

/-- A piece that may be left out. -/
theorem after_anyOf_pass (part : Pass α) :
    (anyOf .pass [part]).flow.after .normal values = values ∪ part.flow.after .normal values := by
  ext value
  simp only [Flow.mem_after, anyOf, pass, Flow.pass, List.mem_cons, List.not_mem_nil, or_false,
    exists_eq_or_imp, exists_eq_left, reduceCtorEq, and_false, false_or, true_or, and_true,
    Set.mem_union]
  constructor
  · rintro (written | inside)
    · exact .inr (.inl written)
    · exact .inl inside
  · rintro (inside | written | ⟨inside, -⟩)
    · exact .inr inside
    · exact .inl written
    · exact .inr inside

/-- A pass that may be left out has the values of its own early ends only. -/
theorem after_anyOf_pass_early (part : Pass α) {exit : Exit} (early : exit ≠ .normal) :
    (anyOf .pass [part]).flow.after exit values = part.flow.after exit values := by
  ext value
  simp [Flow.mem_after, anyOf, pass, Flow.pass, early]

/-- A pass that may be left out is left early as the pass itself is. -/
theorem leaves_anyOf_pass_early (part : Pass α) {exit : Exit} (early : exit ≠ .normal) :
    (anyOf .pass [part]).flow.Leaves exit ↔ part.flow.Leaves exit := by
  simp [Flow.Leaves, anyOf, pass, Flow.pass, early]

/-- Behind joined writes there are the values of each of them. -/
theorem after_joined {writes : Set (Option α)} (nonempty : writes.Nonempty) :
    (joined writes).flow.after .normal values = Flow.spread writes values := by
  ext value
  rw [Flow.mem_after, Flow.mem_spread]
  simp [joined, nonempty.ne_empty]

/-- Behind a join of no writes the values are as before. -/
theorem after_joined_empty :
    (joined (∅ : Set (Option α))).flow.after .normal values = values := by
  ext value
  rw [Flow.mem_after]
  simp [joined]

/-- A join of the writes of a pass. -/
theorem after_joined_normal (part : Pass α) :
    (joined {written | part.flow .normal written}).flow.after .normal values =
      part.flow.after .normal values :=
  after_joined part.total

/-- From more writes come more values. -/
theorem after_joined_mono {writes more : Set (Option α)} (nonempty : writes.Nonempty)
    (within : writes ⊆ more) :
    (joined writes).flow.after .normal values ⊆ (joined more).flow.after .normal values := by
  rw [after_joined nonempty, after_joined (nonempty.mono within)]
  rintro value (written | ⟨inside, kept⟩)
  · exact .inl (within written)
  · exact .inr ⟨inside, within kept⟩

/-- A join of writes ends normally only. -/
theorem not_joined {outputs : Set (Option α)} {exit : Exit} (early : exit ≠ .normal)
    (written : Option α) : ¬(joined outputs).flow exit written := fun on => early on.1

/-- A settled pass ends normally only. -/
theorem not_settle {part : Pass α} {exit : Exit} (early : exit ≠ .normal) (written : Option α) :
    ¬part.settle.flow exit written := fun on => early on.1

/-- What runs aside does not touch the values of the rest. -/
@[simp]
theorem after_aside_normal (others : Flow α) (rest : Pass α) :
    (aside others rest).flow.after .normal values = rest.flow.after .normal values := by
  ext value
  rw [Flow.mem_after, Flow.mem_after]
  simp [aside]

/-- Behind a join nothing but the other pieces is left early. -/
theorem after_aside_joined (others : Flow α) (writes : Set (Option α)) {exit : Exit}
    (early : exit ≠ .normal) :
    (aside others (joined writes)).flow.after exit values = others.after exit values := by
  ext value
  rw [Flow.mem_after, Flow.mem_after]
  simp [aside, joined, early]

/-- Beside a join only the others are left early. -/
theorem leaves_aside_joined (others : Flow α) (writes : Set (Option α)) {exit : Exit}
    (early : exit ≠ .normal) :
    (aside others (joined writes)).flow.Leaves exit ↔ others.Leaves exit := by
  simp [Flow.Leaves, aside, joined, early]

/-- Behind a piece that follows a pass, the values are those behind the piece from those
behind the pass. -/
theorem mem_after_after (first : Pass α) (second : Flow α) (exit : Exit) (value : α) :
    value ∈ second.after exit (first.flow.after .normal values) ↔
      (∃ before after, first.flow .normal before ∧ second exit after ∧
          some value = after.or before) ∨
        (value ∈ values ∧ ∃ before after, first.flow .normal before ∧ second exit after ∧
          none = after.or before) := by
  constructor
  · obtain ⟨before, firstOn⟩ := first.total
    rintro (secondDone | ⟨firstDone | ⟨inside, firstDone⟩, secondDone⟩)
    · exact .inl ⟨before, some value, firstOn, secondDone, rfl⟩
    · exact .inl ⟨some value, none, firstDone, secondDone, rfl⟩
    · exact .inr ⟨inside, none, none, firstDone, secondDone, rfl⟩
  · rintro (⟨before, after, firstDone, secondDone, same⟩ |
      ⟨inside, before, after, firstDone, secondDone, same⟩)
    · cases after with
      | none =>
        obtain rfl : some value = before := same
        exact .inr ⟨.inl firstDone, secondDone⟩
      | some other =>
        obtain rfl : value = other := Option.some.inj same
        exact .inl secondDone
    · obtain ⟨rfl, rfl⟩ := Option.or_eq_none_iff.mp same.symm
      exact .inr ⟨.inr ⟨inside, firstDone⟩, secondDone⟩

/-- The values behind two pieces that are left normally. -/
@[simp]
theorem after_seq_normal (first second : Pass α) :
    (first.seq second).flow.after .normal values =
      second.flow.after .normal (first.flow.after .normal values) := by
  ext value
  rw [mem_after_after]
  simp [Flow.mem_after, seq, Flow.seq]

/-- Two pieces are left in another way by leaving one of them so. -/
theorem after_seq (first second : Pass α) {exit : Exit} (early : exit ≠ .normal) :
    (first.seq second).flow.after exit values =
      first.flow.after exit values ∪ second.flow.after exit (first.flow.after .normal values) := by
  ext value
  rw [Set.mem_union, mem_after_after]
  simp only [Flow.mem_after, seq, Flow.seq, ne_eq, early, not_false_eq_true, true_and, and_or_left]
  exact or_or_or_comm

/-- Two pieces are left early by leaving one of them so. -/
theorem leaves_seq (first second : Pass α) {exit : Exit} (early : exit ≠ .normal) :
    (first.seq second).flow.Leaves exit ↔ first.flow.Leaves exit ∨ second.flow.Leaves exit := by
  constructor
  · rintro ⟨written, ⟨-, firstDone⟩ | ⟨before, after, -, secondDone, -⟩⟩
    · exact .inl ⟨written, firstDone⟩
    · exact .inr ⟨after, secondDone⟩
  · rintro (⟨written, firstDone⟩ | ⟨after, secondDone⟩)
    · exact ⟨written, .inl ⟨early, firstDone⟩⟩
    · obtain ⟨before, firstOn⟩ := first.total
      exact ⟨after.or before, .inr ⟨before, after, firstOn, secondDone, rfl⟩⟩

section

variable {first : Pass α} (rest : Pass α) {exit : Exit} (early : exit ≠ .normal)
  (unseen : ∀ written, ¬first.flow exit written)

include early unseen

/-- Where the first of two pieces is not left early, only the second is. -/
theorem after_seq_late :
    (first.seq rest).flow.after exit values =
      rest.flow.after exit (first.flow.after .normal values) := by
  rw [after_seq _ _ early]
  refine Set.union_eq_right.mpr fun value inside => ?_
  exact (inside.elim (unseen _) fun kept => unseen _ kept.2).elim

/-- Where the first of two pieces is not left early, the ways out are those of the second. -/
theorem leaves_seq_late : (first.seq rest).flow.Leaves exit ↔ rest.flow.Leaves exit := by
  rw [leaves_seq _ _ early]
  exact or_iff_right fun leaves => leaves.elim unseen

end

end Pass

end VirtTestTools
