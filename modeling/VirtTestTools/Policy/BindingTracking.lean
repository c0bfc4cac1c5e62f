import VirtTestTools.Policy.ModuleBindings

/-!
# The scope builder follows its paths

For one name of the module scope, the bindings that `_ScopeBuilder` holds behind a node and
those that it notes at the exits of the innermost loop and records at a load of the name are
those that come there on the paths through the node. This is said by `Tracks`; the steps
and compositions of the builder are shown to keep to it here, and the visitors are in the
module that follows.
-/

namespace VirtTestTools.Policy

open BindingPaths

/-- What is watched: a name of the module scope, the identity of a load of it, and how
bindings are seen. Bindings that are made from a certain time on are seen by their sites. -/
structure Watch (ν : Type) where
  name : String
  load : Nat
  importPrefix : Option String → Nat → List String
  wrote : Site → ν
  view : Binding → ν
  base : Nat
  fresh : ∀ binding, base ≤ binding.key → view binding = wrote binding.site

namespace Watch

variable {ν : Type} (watch : Watch ν)

/-- Bindings show values. -/
def Shows (bindings : List Binding) (values : Set (Option ν)) : Prop :=
  ∀ value, some value ∈ values ↔ ∃ binding ∈ bindings, watch.view binding = value

/-- The state of the builder is sound for the name. -/
structure Good (builder : ScopeBuilder) : Prop where
  root : builder.shapes[0]? = some (none, .module)
  ordered : Ordered builder.shapes
  undeclared : ∀ place scope, place ≠ 0 → builder.scopes[place]? = some scope →
    watch.name ∉ scope.globalNames
  keyed : Keyed (builder.history watch.name)
  made : ∀ binding ∈ builder.history watch.name, binding.key < builder.nextKey
  started : watch.base ≤ builder.nextKey
  known : builder.active watch.name ⊆ builder.history watch.name
  tracked : ∀ exits ∈ builder.loopExits, 0 < exits.trackedScopes
  named : builder.importPrefix = watch.importPrefix

/-- The bindings that are recorded at the load. -/
def recorded (builder : ScopeBuilder) : List Binding :=
  (builder.nodeBindings.get watch.load).getD []

/-- The ways out that leave a mark in the builder. -/
def Noticed (exit : Exit) : Prop :=
  exit = .breaks ∨ exit = .continues ∨ exit = .observed watch.load

/-- The states that are noted at an exit of a loop show values, and some are noted if the
exit is met. -/
structure Noted (builder : ScopeBuilder) (values : Set (Option ν)) (met : Prop)
    (states : List (List Bindings)) : Prop where
  met_iff : states ≠ [] ↔ met
  shown : ∀ value, some value ∈ values ↔
    ∃ state ∈ states, ∃ binding ∈ front watch.name state, watch.view binding = value
  nonempty : ∀ state ∈ states, state ≠ []
  known : ∀ state ∈ states, front watch.name state ⊆ builder.history watch.name

/-- Behind a stretch, the innermost loop has noted these values at its exits. -/
abbrev Exited (values : Exit → Set (Option ν)) (met : Exit → Prop) (head : LoopExits)
    (outer : List LoopExits) (next : ScopeBuilder) : Prop :=
  ∃ breaks continues,
    next.loopExits =
      { head with
        breakOutputs := head.breakOutputs ++ breaks
        continueOutputs := head.continueOutputs ++ continues } :: outer ∧
      watch.Noted next (values .breaks) (met .breaks) breaks ∧
        watch.Noted next (values .continues) (met .continues) continues

/-- From one builder to the next, the load is recorded and exits are noted with these values.
The load is met at most as often as is said. -/
structure Trace (values : Exit → Set (Option ν)) (met : Exit → Prop) (count : Nat)
    (builder next : ScopeBuilder) : Prop where
  good : watch.Good next
  extended : Extends builder.shapes next.shapes
  grown : builder.history watch.name ⊆ next.history watch.name
  unrecorded : count = 0 → next.nodeBindings.get watch.load = builder.nodeBindings.get watch.load
  silent : count = 0 → ∀ value, some value ∉ values (.observed watch.load)
  record : count ≠ 0 → watch.recorded builder = [] →
    watch.Shows (watch.recorded next) (values (.observed watch.load))
  outside : builder.loopExits = [] → next.loopExits = []
  exits : ∀ head outer, builder.loopExits = head :: outer → watch.Exited values met head outer next

variable {watch}

/-- What is noticed is no normal end. -/
theorem Noticed.early {exit : Exit} (noticed : watch.Noticed exit) : exit ≠ .normal := by
  obtain rfl | rfl | rfl := noticed <;> nofun

/-- What is noted stays noted when the history grows. -/
theorem Noted.mono {builder next : ScopeBuilder} {values : Set (Option ν)} {met : Prop}
    {states : List (List Bindings)} (noted : watch.Noted builder values met states)
    (grown : builder.history watch.name ⊆ next.history watch.name) :
    watch.Noted next values met states :=
  ⟨noted.met_iff, noted.shown, noted.nonempty, fun state inside =>
    List.Subset.trans (noted.known state inside) grown⟩

/-- Whether the way is met counts by its truth only. -/
theorem Noted.of_met {builder : ScopeBuilder} {values : Set (Option ν)} {met also : Prop}
    {states : List (List Bindings)} (noted : watch.Noted builder values met states)
    (same : met ↔ also) : watch.Noted builder values also states :=
  ⟨noted.met_iff.trans same, noted.shown, noted.nonempty, noted.known⟩

/-- Two lists of states note the values of both. -/
theorem Noted.append {builder : ScopeBuilder} {values more : Set (Option ν)} {met also : Prop}
    {states others : List (List Bindings)} (noted : watch.Noted builder values met states)
    (notedMore : watch.Noted builder more also others) :
    watch.Noted builder (values ∪ more) (met ∨ also) (states ++ others) := by
  refine ⟨?_, fun value => ?_, fun state inside => ?_, fun state inside => ?_⟩
  · rw [← noted.met_iff, ← notedMore.met_iff, ne_eq, List.append_eq_nil_iff]
    tauto
  · rw [Set.mem_union, noted.shown, notedMore.shown]
    simp only [List.mem_append, or_and_right, exists_or]
  · exact (List.mem_append.mp inside).elim (noted.nonempty state) (notedMore.nonempty state)
  · exact (List.mem_append.mp inside).elim (noted.known state) (notedMore.known state)

/-- Without values and without the way no state is needed. -/
theorem Noted.unmet (builder : ScopeBuilder) {values : Set (Option ν)} {met : Prop}
    (nothing : ∀ value, some value ∉ values) (never : ¬met) : watch.Noted builder values met [] :=
  ⟨by simpa using never, by simpa using nothing, by simp, by simp⟩

/-- What a stretch and the next one note. -/
theorem Exited.trans {values more : Exit → Set (Option ν)} {met also : Exit → Prop}
    {head : LoopExits} {outer : List LoopExits} {middle next : ScopeBuilder}
    (first : watch.Exited values met head outer middle)
    (rest : ∀ head outer, middle.loopExits = head :: outer → watch.Exited more also head outer next)
    (grown : middle.history watch.name ⊆ next.history watch.name) :
    watch.Exited (fun exit => values exit ∪ more exit) (fun exit => met exit ∨ also exit) head outer
      next := by
  obtain ⟨breaks, continues, after, notedBreaks, notedContinues⟩ := first
  obtain ⟨moreBreaks, moreContinues, final, laterBreaks, laterContinues⟩ := rest _ _ after
  refine ⟨breaks ++ moreBreaks, continues ++ moreContinues, ?_,
    (notedBreaks.mono grown).append laterBreaks,
    (notedContinues.mono grown).append laterContinues⟩
  rw [final]
  simp

/-- The exits depend on the values and ways that are noticed only. -/
theorem Exited.congr {values others : Exit → Set (Option ν)} {met also : Exit → Prop}
    {head : LoopExits} {outer : List LoopExits} {next : ScopeBuilder}
    (exited : watch.Exited values met head outer next)
    (same : ∀ exit, watch.Noticed exit → ∀ value,
      some value ∈ values exit ↔ some value ∈ others exit)
    (sameMet : ∀ exit, watch.Noticed exit → (met exit ↔ also exit)) :
    watch.Exited others also head outer next := by
  obtain ⟨breaks, continues, after, notedBreaks, notedContinues⟩ := exited
  refine ⟨breaks, continues, after, ⟨?_, fun value => ?_, notedBreaks.nonempty, notedBreaks.known⟩,
    ⟨?_, fun value => ?_, notedContinues.nonempty, notedContinues.known⟩⟩
  · rw [notedBreaks.met_iff, sameMet _ (.inl rfl)]
  · rw [← same _ (.inl rfl) value, notedBreaks.shown]
  · rw [notedContinues.met_iff, sameMet _ (.inr (.inl rfl))]
  · rw [← same _ (.inr (.inl rfl)) value, notedContinues.shown]

/-- A stretch and the next one, of which at most one meets the load. -/
theorem Trace.trans {values more : Exit → Set (Option ν)} {met also : Exit → Prop}
    {count second : Nat} {builder middle next : ScopeBuilder}
    (first : watch.Trace values met count builder middle)
    (rest : watch.Trace more also second middle next) (once : count + second ≤ 1) :
    watch.Trace (fun exit => values exit ∪ more exit) (fun exit => met exit ∨ also exit)
      (count + second) builder next where
  good := rest.good
  extended := first.extended.trans rest.extended
  grown := List.Subset.trans first.grown rest.grown
  unrecorded none := by
    rw [rest.unrecorded (by omega), first.unrecorded (by omega)]
  silent none value inside :=
    inside.elim (first.silent (by omega) value) (rest.silent (by omega) value)
  record some empty := by
    intro value
    by_cases early : count = 0
    · have unchanged : watch.recorded middle = [] := by
        rw [recorded, first.unrecorded early]
        exact empty
      rw [Set.mem_union, rest.record (by omega) unchanged value]
      exact or_iff_right (first.silent early value)
    · have unchanged : watch.recorded next = watch.recorded middle := by
        rw [recorded, rest.unrecorded (by omega), recorded]
      rw [Set.mem_union, unchanged, ← first.record early empty value]
      exact or_iff_left (rest.silent (by omega) value)
  outside none := rest.outside (first.outside none)
  exits head outer same := (first.exits head outer same).trans rest.exits rest.grown

/-- The values and exits of a stretch may be described in another way. -/
theorem Trace.congr {values others : Exit → Set (Option ν)} {met also : Exit → Prop}
    {count : Nat} {builder next : ScopeBuilder} (trace : watch.Trace values met count builder next)
    (same : ∀ exit, watch.Noticed exit → ∀ value,
      some value ∈ values exit ↔ some value ∈ others exit)
    (sameMet : ∀ exit, watch.Noticed exit → (met exit ↔ also exit)) :
    watch.Trace others also count builder next where
  good := trace.good
  extended := trace.extended
  grown := trace.grown
  unrecorded := trace.unrecorded
  silent none value inside := trace.silent none value ((same _ (.inr (.inr rfl)) value).mpr inside)
  record some empty value := by
    rw [← same _ (.inr (.inr rfl)) value]
    exact trace.record some empty value
  outside := trace.outside
  exits head outer is := (trace.exits head outer is).congr same sameMet

/-- A load that is not met may be allowed for. -/
theorem Trace.weaken {values : Exit → Set (Option ν)} {met : Exit → Prop} {count more : Nat}
    {builder next : ScopeBuilder} (trace : watch.Trace values met count builder next)
    (within : count ≤ more) : watch.Trace values met more builder next where
  good := trace.good
  extended := trace.extended
  grown := trace.grown
  unrecorded none := trace.unrecorded (by omega)
  silent none := trace.silent (by omega)
  record some empty := by
    by_cases unmet : count = 0
    · intro value
      have nothing : watch.recorded next = [] := by
        rw [recorded, trace.unrecorded unmet]
        exact empty
      simpa [nothing] using trace.silent unmet value
    · exact trace.record unmet empty
  outside := trace.outside
  exits := trace.exits

/-- A stretch that is gone through again from fewer values, with what was recorded the first
time put back. -/
theorem Trace.again {values fewer : Exit → Set (Option ν)} {met also : Exit → Prop}
    {count : Nat} {builder middle next final : ScopeBuilder}
    (first : watch.Trace values met count builder middle)
    (second : watch.Trace fewer also count middle next)
    (within : ∀ exit value, some value ∈ fewer exit → some value ∈ values exit)
    (withinMet : ∀ exit, also exit → met exit)
    (restored : ∃ nodeBindings, final = { next with nodeBindings := nodeBindings })
    (kept : final.nodeBindings.get watch.load = next.nodeBindings.get watch.load ∨
      final.nodeBindings.get watch.load = middle.nodeBindings.get watch.load)
    (recorded : count ≠ 0 → final.nodeBindings.get watch.load =
      (middle.nodeBindings.get watch.load).or (next.nodeBindings.get watch.load)) :
    watch.Trace values met count builder final := by
  obtain ⟨nodeBindings, rfl⟩ := restored
  refine ⟨?_, first.extended.trans second.extended, List.Subset.trans first.grown second.grown, ?_,
    first.silent, ?_, fun outside => second.outside (first.outside outside), ?_⟩
  · have good := second.good
    exact ⟨good.root, good.ordered, good.undeclared, good.keyed, good.made, good.started, good.known,
      good.tracked, good.named⟩
  · intro none
    have unchanged := first.unrecorded none
    obtain same | same := kept
    · rw [same, second.unrecorded none, unchanged]
    · rw [same, unchanged]
  · intro some empty value
    have shown := first.record some empty
    rw [Watch.recorded, recorded some]
    cases found : middle.nodeBindings.get watch.load with
    | some bindings =>
      rw [Option.some_or]
      rw [Watch.recorded, found] at shown
      exact shown value
    | none =>
      -- nothing reached the load the first time, so nothing reaches it now
      rw [Option.none_or]
      rw [Watch.recorded, found] at shown
      have nothing : Option.some value ∉ values (.observed watch.load) := by
        simpa using shown value
      have later := second.record some (by rw [Watch.recorded, found]; rfl) value
      rw [Watch.recorded] at later
      rw [← later]
      exact iff_of_false nothing fun inside => nothing (within _ value inside)
  · intro head outer is
    have both := ((first.exits head outer is).trans second.exits second.grown).congr
      (fun exit _ value => or_iff_left_of_imp (within exit value))
      fun exit _ => or_iff_left_of_imp (withinMet exit)
    obtain ⟨breaks, continues, after, notedBreaks, notedContinues⟩ := both
    exact ⟨breaks, continues, after, notedBreaks.mono (List.Subset.refl _),
      notedContinues.mono (List.Subset.refl _)⟩

end Watch

/-- A level is that of the scope at a place. -/
structure Fits (builder : ScopeBuilder) (level : Level) (place : Nat) : Prop where
  inside : place < builder.scopes.length
  own : level.own = true ↔ place = 0
  walrus : level.walrus = true ↔ builder.walrusScope place = 0
  below : level.below = true ↔ builder.walrusScope (builder.functionParent place) = 0

namespace Fits

variable {builder next : ScopeBuilder} {level : Level} {place : Nat}

/-- A scope stays at its level when more scopes are opened. -/
theorem extended (fits : Fits builder level place) (ordered : Ordered builder.shapes)
    (more : Extends builder.shapes next.shapes) : Fits next level place := by
  have parentInside := ScopeBuilder.functionParent_lt ordered fits.inside
  have sameParent : next.functionParent place = builder.functionParent place :=
    ScopeBuilder.outwards_of_extends ordered more fits.inside fun kind => kind ≠ some .classBody
  have sameWalrus (other : Nat) (inside : other < builder.scopes.length) :
      next.walrusScope other = builder.walrusScope other :=
    ScopeBuilder.outwards_of_extends ordered more inside fun kind => kind ≠ some .comprehension
  have longer : builder.scopes.length ≤ next.scopes.length := by
    simpa [ScopeBuilder.shapes] using more.opening.length_le
  refine ⟨Nat.lt_of_lt_of_le fits.inside longer, fits.own, ?_, ?_⟩
  · rw [sameWalrus place fits.inside]
    exact fits.walrus
  · rw [sameParent, sameWalrus _ parentInside]
    exact fits.below

/-- A level whose names are not those of the module is that of another scope. -/
theorem nested (fits : Fits builder level place) (inner : level.own = false) : place ≠ 0 := by
  intro root
  exact Bool.false_ne_true (inner.symm.trans (fits.own.mpr root))

variable (ordered : Ordered builder.shapes) (fits : Fits builder level place)

include ordered fits

/-- The scope of a function below the scope. -/
theorem function :
    Fits (builder.pushScope (builder.functionParent place) .function) .function
      builder.scopes.length := by
  have nonempty : builder.scopes ≠ [] :=
    List.ne_nil_of_length_pos (Nat.lt_of_le_of_lt (Nat.zero_le place) fits.inside)
  have parentInside := ScopeBuilder.functionParent_lt ordered fits.inside
  have walrusHere := ScopeBuilder.outwards_pushScope ordered parentInside .function
    fun kind => kind ≠ some .comprehension
  have parentHere := ScopeBuilder.outwards_pushScope ordered parentInside .function
    fun kind => kind ≠ some .classBody
  rw [← ScopeBuilder.walrusScope_eq] at walrusHere
  rw [← ScopeBuilder.functionParent_eq] at parentHere
  refine ⟨by simp [ScopeBuilder.pushScope], ?_, ?_, ?_⟩
  · simp [Level.function, nonempty]
  · simp [Level.function, walrusHere, nonempty]
  · simp [Level.function, parentHere, walrusHere, nonempty]

/-- The scope of a comprehension below the scope. -/
theorem comprehension :
    Fits (builder.pushScope (builder.functionParent place) .comprehension) level.comprehension
      builder.scopes.length := by
  have nonempty : builder.scopes ≠ [] :=
    List.ne_nil_of_length_pos (Nat.lt_of_le_of_lt (Nat.zero_le place) fits.inside)
  have parentInside := ScopeBuilder.functionParent_lt ordered fits.inside
  have walrusHere := ScopeBuilder.outwards_pushScope ordered parentInside .comprehension
    fun kind => kind ≠ some .comprehension
  have parentHere := ScopeBuilder.outwards_pushScope ordered parentInside .comprehension
    fun kind => kind ≠ some .classBody
  rw [← ScopeBuilder.walrusScope_eq, ← ScopeBuilder.walrusScope_eq] at walrusHere
  rw [← ScopeBuilder.functionParent_eq] at parentHere
  refine ⟨by simp [ScopeBuilder.pushScope], ?_, ?_, ?_⟩
  · simp [Level.comprehension, nonempty]
  · simpa [Level.comprehension, walrusHere] using fits.below
  · simpa [Level.comprehension, parentHere, walrusHere] using fits.below

/-- The scope of a class below the scope. -/
theorem classBody :
    Fits (builder.pushScope place .classBody) level.classBody builder.scopes.length := by
  have nonempty : builder.scopes ≠ [] :=
    List.ne_nil_of_length_pos (Nat.lt_of_le_of_lt (Nat.zero_le place) fits.inside)
  have parentInside := ScopeBuilder.functionParent_lt ordered fits.inside
  have walrusHere := ScopeBuilder.outwards_pushScope ordered fits.inside .classBody
    fun kind => kind ≠ some .comprehension
  have parentHere := ScopeBuilder.outwards_pushScope ordered fits.inside .classBody
    fun kind => kind ≠ some .classBody
  rw [← ScopeBuilder.walrusScope_eq] at walrusHere
  rw [← ScopeBuilder.functionParent_eq, ← ScopeBuilder.functionParent_eq] at parentHere
  have extension : Extends builder.shapes (builder.pushScope place .classBody).shapes := by
    rw [ScopeBuilder.shapes_pushScope]
    exact .push _ ⟨ordered, by simpa [ScopeBuilder.shapes] using fits.inside⟩
  have sameWalrus : (builder.pushScope place .classBody).walrusScope (builder.functionParent place) =
      builder.walrusScope (builder.functionParent place) :=
    ScopeBuilder.outwards_of_extends ordered extension parentInside
      fun kind => kind ≠ some .comprehension
  refine ⟨by simp [ScopeBuilder.pushScope], ?_, ?_, ?_⟩
  · simp [Level.classBody, nonempty]
  · simp [Level.classBody, walrusHere, nonempty]
  · simpa [Level.classBody, parentHere, sameWalrus] using fits.below

end Fits

namespace Watch

variable {ν : Type} (watch : Watch ν)

/-- From a good state, with levels that fit their places, the builder comes to the next state
by following a pass. -/
def Tracks (places : List (Level × Nat)) (pass : Pass (Option ν)) (count : Nat)
    (builder next : ScopeBuilder) : Prop :=
  watch.Good builder → (∀ entry ∈ places, Fits builder entry.1 entry.2) →
    ∀ values, watch.Shows (builder.active watch.name) values →
      watch.Trace (fun exit => pass.flow.after exit values) pass.flow.Leaves count builder next ∧
        watch.Shows (next.active watch.name) (pass.flow.after .normal values)

/-- A step that leaves alone what is watched. -/
structure Quiet (builder next : ScopeBuilder) : Prop where
  extended : Extends builder.shapes next.shapes
  undeclared : ∀ place scope, place ≠ 0 → next.scopes[place]? = some scope →
    watch.name ∈ scope.globalNames →
      ∃ earlier, builder.scopes[place]? = some earlier ∧ watch.name ∈ earlier.globalNames
  history : next.history watch.name = builder.history watch.name
  active : next.active watch.name = builder.active watch.name
  key : builder.nextKey ≤ next.nextKey
  record : next.nodeBindings.get watch.load = builder.nodeBindings.get watch.load
  exits : next.loopExits = builder.loopExits
  named : next.importPrefix = builder.importPrefix

variable {watch} {places : List (Level × Nat)} {builder middle next : ScopeBuilder}

/-- The module stays the root when more scopes are opened. -/
theorem Good.extended_root (good : watch.Good builder) (more : Extends builder.shapes next.shapes) :
    next.shapes[0]? = some (none, .module) := by
  obtain ⟨added, same⟩ := more.opening
  have nonempty : 0 < builder.shapes.length := (List.getElem?_eq_some_iff.mp good.root).1
  rw [← same, List.getElem?_append_left nonempty]
  exact good.root

/-- A quiet step keeps a builder good. -/
theorem Quiet.good (quiet : watch.Quiet builder next) (good : watch.Good builder) :
    watch.Good next where
  root := good.extended_root quiet.extended
  ordered := quiet.extended.ordered
  undeclared place scope nested found declared := by
    obtain ⟨earlier, foundEarlier, declaredEarlier⟩ :=
      quiet.undeclared place scope nested found declared
    exact good.undeclared place earlier nested foundEarlier declaredEarlier
  keyed := by
    rw [quiet.history]
    exact good.keyed
  made binding inside := by
    rw [quiet.history] at inside
    exact Nat.lt_of_lt_of_le (good.made binding inside) quiet.key
  started := Nat.le_trans good.started quiet.key
  known := by
    rw [quiet.history, quiet.active]
    exact good.known
  tracked := by
    rw [quiet.exits]
    exact good.tracked
  named := quiet.named.trans good.named

/-- A stretch that meets neither the load nor an exit. -/
theorem Trace.empty {values : Exit → Set (Option ν)} {met : Exit → Prop}
    (good : watch.Good next) (extended : Extends builder.shapes next.shapes)
    (grown : builder.history watch.name ⊆ next.history watch.name)
    (record : next.nodeBindings.get watch.load = builder.nodeBindings.get watch.load)
    (exits : next.loopExits = builder.loopExits)
    (nothing : ∀ exit, watch.Noticed exit → ∀ value, some value ∉ values exit)
    (unmet : ∀ exit, watch.Noticed exit → ¬met exit) : watch.Trace values met 0 builder next where
  good := good
  extended := extended
  grown := grown
  unrecorded _ := record
  silent _ := nothing _ (.inr (.inr rfl))
  record absurdly := absurd rfl absurdly
  outside := by rw [exits]; exact id
  exits head outer same := by
    refine ⟨[], [], by simp [exits, same], ?_, ?_⟩
    · exact .unmet _ (nothing _ (.inl rfl)) (unmet _ (.inl rfl))
    · exact .unmet _ (nothing _ (.inr (.inl rfl))) (unmet _ (.inr (.inl rfl)))

/-- A quiet step traces ways that nothing meets. -/
theorem Quiet.trace (quiet : watch.Quiet builder next) (good : watch.Good builder)
    {values : Exit → Set (Option ν)} {met : Exit → Prop}
    (nothing : ∀ exit, watch.Noticed exit → ∀ value, some value ∉ values exit)
    (unmet : ∀ exit, watch.Noticed exit → ¬met exit) : watch.Trace values met 0 builder next :=
  .empty (quiet.good good) quiet.extended (by rw [quiet.history]; exact List.Subset.refl _)
    quiet.record quiet.exits nothing unmet

namespace Tracks

variable {first second : Pass (Option ν)} {count more : Nat}

/-- A quiet step follows the empty pass. -/
theorem quiet (step : watch.Good builder → (∀ entry ∈ places, Fits builder entry.1 entry.2) →
    watch.Quiet builder next) : watch.Tracks places .pass 0 builder next := by
  intro good fits values shows
  have quiet := step good fits
  refine ⟨quiet.trace good (fun exit noticed value inside => ?_) fun exit noticed leaves => ?_, ?_⟩
  · obtain ⟨normal, -⟩ | ⟨-, normal, -⟩ := inside
    · exact noticed.early normal
    · exact noticed.early normal
  · obtain ⟨written, normal, -⟩ := leaves
    exact noticed.early normal
  · rw [Pass.after_pass, quiet.active]
    exact shows

/-- One part after the other, of which at most one meets the load. -/
theorem seq (start : watch.Tracks places first count builder middle)
    (rest : watch.Tracks places second more middle next) (once : count + more ≤ 1) :
    watch.Tracks places (first.seq second) (count + more) builder next := by
  intro good fits values shows
  obtain ⟨trace, showsMiddle⟩ := start good fits values shows
  obtain ⟨traceRest, showsNext⟩ := rest trace.good
    (fun entry inside => (fits entry inside).extended good.ordered trace.extended) _ showsMiddle
  refine ⟨(trace.trans traceRest once).congr (fun exit noticed value => ?_) fun exit noticed => ?_, ?_⟩
  · rw [Pass.after_seq first second noticed.early]
  · rw [Pass.leaves_seq first second noticed.early]
  · rw [Pass.after_seq_normal]
    exact showsNext

/-- The count of loads may be given in another form. -/
theorem of_count (tracks : watch.Tracks places first count builder next) (same : count = more) :
    watch.Tracks places first more builder next := same ▸ tracks

/-- One part after another that does not meet the load. -/
theorem silent_seq (start : watch.Tracks places first 0 builder middle)
    (rest : watch.Tracks places second count middle next) (once : count ≤ 1) :
    watch.Tracks places (first.seq second) count builder next :=
  (start.seq rest (by omega)).of_count (Nat.zero_add count)

/-- A step without the load behind a tracked one. -/
theorem seq_silent (start : watch.Tracks places first count builder middle)
    (rest : watch.Tracks places second 0 middle next) (once : count ≤ 1) :
    watch.Tracks places (first.seq second) count builder next := start.seq rest once

/-- A load that is not met may be allowed for. -/
theorem weaken (tracks : watch.Tracks places first count builder next) (within : count ≤ more) :
    watch.Tracks places first more builder next := by
  intro good fits values shows
  obtain ⟨trace, showsNext⟩ := tracks good fits values shows
  exact ⟨trace.weaken within, showsNext⟩

/-- A quiet step may come first. -/
theorem before (step : watch.Tracks places .pass 0 builder middle)
    (rest : watch.Tracks places second count middle next) (once : count ≤ 1) :
    watch.Tracks places second count builder next := by
  have both := step.silent_seq rest once
  rw [Pass.pass_seq] at both
  exact both

/-- A quiet step may come last. -/
theorem behind (rest : watch.Tracks places first count builder middle)
    (step : watch.Tracks places .pass 0 middle next) (once : count ≤ 1) :
    watch.Tracks places first count builder next := by
  have both := rest.seq step (by omega)
  rw [Pass.seq_pass, Nat.add_zero] at both
  exact both

/-- That the levels fit may be used. -/
theorem of_fits (step : (∀ entry ∈ places, Fits builder entry.1 entry.2) →
    watch.Tracks places first count builder next) : watch.Tracks places first count builder next :=
  fun good fits => step fits good fits

/-- What holds at other places that are sure to fit. -/
theorem elsewhere {others : List (Level × Nat)}
    (fitting : watch.Good builder → (∀ entry ∈ places, Fits builder entry.1 entry.2) →
      ∀ entry ∈ others, Fits builder entry.1 entry.2)
    (tracks : watch.Tracks others first count builder next) :
    watch.Tracks places first count builder next := fun good fits =>
  tracks good (fitting good fits)

end Tracks

end Watch

end VirtTestTools.Policy
