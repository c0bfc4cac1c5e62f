import Mathlib.Data.List.Basic

/-!
# Boolean expressions

The grammar of boolean expressions of Python over the two truth values: a parser
with one function for each of its rules, and the value of what it reads. The fuel of
the parser bounds the depth of its calls; three for each symbol are enough for every
expression.
-/

namespace VirtTestTools.BooleanGrammar

/-- The symbols of an expression. -/
inductive Symbol
  | left
  | right
  | andOp
  | orOp
  | notOp
  | value (truth : Bool)
deriving DecidableEq

/-- The syntax tree of an expression. -/
inductive Tree
  | constant (truth : Bool)
  | not (operand : Tree)
  | and (left right : Tree)
  | or (left right : Tree)
deriving DecidableEq

namespace Tree

/-- The value of a tree. -/
def eval : Tree → Bool
  | .constant truth => truth
  | .not operand => !operand.eval
  | .and left right => left.eval && right.eval
  | .or left right => left.eval || right.eval

end Tree

/-- A rule of the grammar: what it reads and what is left, for a given fuel. -/
abbrev Rule := Nat → List Symbol → Option (Tree × List Symbol)

mutual

/-- `disjunction: conjunction ('or' conjunction)*`. -/
def disjunction : Rule
  | 0, _ => none
  | fuel + 1, symbols =>
    match conjunction fuel symbols with
    | some (first, .orOp :: rest) =>
      (disjunction fuel rest).map (fun (others, rest) => (.or first others, rest))
    | other => other

/-- `conjunction: inversion ('and' inversion)*`. -/
def conjunction : Rule
  | 0, _ => none
  | fuel + 1, symbols =>
    match inversion fuel symbols with
    | some (first, .andOp :: rest) =>
      (conjunction fuel rest).map (fun (others, rest) => (.and first others, rest))
    | other => other

/-- `inversion: 'not' inversion | atom`, with the atoms `True`, `False` and
`'(' disjunction ')'`. -/
def inversion : Rule
  | 0, _ => none
  | fuel + 1, .notOp :: rest =>
    (inversion fuel rest).map (fun (operand, rest) => (.not operand, rest))
  | _ + 1, .value truth :: rest => some (.constant truth, rest)
  | fuel + 1, .left :: rest =>
    match disjunction fuel rest with
    | some (inner, .right :: rest) => some (inner, rest)
    | _ => none
  | _ + 1, _ => none

end

/-- The value of an expression: it is read as a whole. -/
def evaluate (symbols : List Symbol) : Option Bool :=
  match disjunction (3 * symbols.length + 2) symbols with
  | some (tree, []) => some tree.eval
  | _ => none

/-- With enough fuel a rule reads an expression with the given value and leaves the
given symbols. -/
def Reads (rule : Rule) (need : Nat) (symbols : List Symbol) (value : Bool)
    (rest : List Symbol) : Prop :=
  ∀ fuel, need ≤ fuel → ∃ tree, rule fuel symbols = some (tree, rest) ∧ tree.eval = value

/-- What is read with some fuel is read with more. -/
theorem Reads.mono {rule : Rule} {need more : Nat} {symbols rest : List Symbol} {value : Bool}
    (reads : Reads rule need symbols value rest) (le : need ≤ more) :
    Reads rule more symbols value rest :=
  fun fuel enough => reads fuel (Nat.le_trans le enough)

/-- A value is read as itself. -/
theorem reads_value (truth : Bool) (rest : List Symbol) :
    Reads inversion 1 (.value truth :: rest) truth rest := by
  intro fuel enough
  obtain ⟨fuel, rfl⟩ := Nat.exists_eq_add_of_le' enough
  exact ⟨.constant truth, rfl, rfl⟩

/-- A negation is read as the negated operand. -/
theorem reads_not {need : Nat} {symbols rest : List Symbol} {value : Bool}
    (operand : Reads inversion need symbols value rest) :
    Reads inversion (need + 1) (.notOp :: symbols) (!value) rest := by
  intro fuel enough
  obtain ⟨fuel, rfl⟩ := Nat.exists_eq_add_of_le' (Nat.le_trans (Nat.le_add_left 1 need) enough)
  obtain ⟨tree, read, evaluated⟩ := operand fuel (Nat.le_of_add_le_add_right enough)
  refine ⟨.not tree, ?_, by rw [Tree.eval, evaluated]⟩
  rw [inversion, read]
  rfl

/-- Parentheses are read as what is in them. -/
theorem reads_paren {need : Nat} {symbols rest : List Symbol} {value : Bool}
    (inner : Reads disjunction need symbols value (.right :: rest)) :
    Reads inversion (need + 1) (.left :: symbols) value rest := by
  intro fuel enough
  obtain ⟨fuel, rfl⟩ := Nat.exists_eq_add_of_le' (Nat.le_trans (Nat.le_add_left 1 need) enough)
  obtain ⟨tree, read, evaluated⟩ := inner fuel (Nat.le_of_add_le_add_right enough)
  refine ⟨tree, ?_, evaluated⟩
  rw [inversion, read]

/-- A single inversion is a conjunction if no `and` follows. -/
theorem reads_single_inversion {need : Nat} {symbols rest : List Symbol} {value : Bool}
    (only : Reads inversion need symbols value rest) (stops : rest.head? ≠ some .andOp) :
    Reads conjunction (need + 1) symbols value rest := by
  intro fuel enough
  obtain ⟨fuel, rfl⟩ := Nat.exists_eq_add_of_le' (Nat.le_trans (Nat.le_add_left 1 need) enough)
  obtain ⟨tree, read, evaluated⟩ := only fuel (Nat.le_of_add_le_add_right enough)
  refine ⟨tree, ?_, evaluated⟩
  rw [conjunction, read]
  split
  · rename_i shape
    cases shape
    exact absurd rfl stops
  · rfl

/-- A conjunction is read from its first operand and the others. -/
theorem reads_and {need more : Nat} {symbols middle rest : List Symbol} {value other : Bool}
    (first : Reads inversion need symbols value (.andOp :: middle))
    (others : Reads conjunction more middle other rest) :
    Reads conjunction (max need more + 1) symbols (value && other) rest := by
  intro fuel enough
  obtain ⟨fuel, rfl⟩ := Nat.exists_eq_add_of_le' (Nat.le_trans (Nat.le_add_left 1 _) enough)
  have bound := Nat.le_of_add_le_add_right enough
  obtain ⟨tree, read, evaluated⟩ := first fuel (Nat.le_trans (Nat.le_max_left _ _) bound)
  obtain ⟨next, readNext, evaluatedNext⟩ := others fuel (Nat.le_trans (Nat.le_max_right _ _) bound)
  refine ⟨.and tree next, ?_, by rw [Tree.eval, evaluated, evaluatedNext]⟩
  rw [conjunction, read]
  dsimp only
  rw [readNext]
  rfl

/-- A single conjunction is a disjunction if no `or` follows. -/
theorem reads_single_conjunction {need : Nat} {symbols rest : List Symbol} {value : Bool}
    (only : Reads conjunction need symbols value rest) (stops : rest.head? ≠ some .orOp) :
    Reads disjunction (need + 1) symbols value rest := by
  intro fuel enough
  obtain ⟨fuel, rfl⟩ := Nat.exists_eq_add_of_le' (Nat.le_trans (Nat.le_add_left 1 need) enough)
  obtain ⟨tree, read, evaluated⟩ := only fuel (Nat.le_of_add_le_add_right enough)
  refine ⟨tree, ?_, evaluated⟩
  rw [disjunction, read]
  split
  · rename_i shape
    cases shape
    exact absurd rfl stops
  · rfl

/-- A disjunction is read from its first operand and the others. -/
theorem reads_or {need more : Nat} {symbols middle rest : List Symbol} {value other : Bool}
    (first : Reads conjunction need symbols value (.orOp :: middle))
    (others : Reads disjunction more middle other rest) :
    Reads disjunction (max need more + 1) symbols (value || other) rest := by
  intro fuel enough
  obtain ⟨fuel, rfl⟩ := Nat.exists_eq_add_of_le' (Nat.le_trans (Nat.le_add_left 1 _) enough)
  have bound := Nat.le_of_add_le_add_right enough
  obtain ⟨tree, read, evaluated⟩ := first fuel (Nat.le_trans (Nat.le_max_left _ _) bound)
  obtain ⟨next, readNext, evaluatedNext⟩ := others fuel (Nat.le_trans (Nat.le_max_right _ _) bound)
  refine ⟨.or tree next, ?_, by rw [Tree.eval, evaluated, evaluatedNext]⟩
  rw [disjunction, read]
  dsimp only
  rw [readNext]
  rfl

/-- A list of symbols that is read to its end is evaluated. -/
theorem evaluate_of_reads {symbols : List Symbol} {value : Bool}
    (reads : Reads disjunction (3 * symbols.length + 2) symbols value []) :
    evaluate symbols = some value := by
  obtain ⟨tree, read, evaluated⟩ := reads _ (Nat.le_refl _)
  rw [evaluate, read]
  exact congrArg some evaluated

end VirtTestTools.BooleanGrammar
