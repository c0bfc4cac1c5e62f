import VirtTestTools.Policy.BindingStatements

/-!
# Scopes in the scope builder

What is left of the visitors are those that open a scope. They evaluate some parts of the node
outside of the scope: the header of a definition and the first iterable of a comprehension.
-/

namespace VirtTestTools.Policy

open BindingPaths

mutual

/-- The statements of a scope are nodes of the tree. -/
theorem scopeStatement_subset : ∀ node : AST, scopeStatement node ⊆ node.preorder
  | .ifStmt _ _ body orelse | .whileStmt _ _ body orelse | .forStmt _ _ _ _ body orelse => by
    have bodySubset := scopeStatements_subset body
    have elseSubset := scopeStatements_subset orelse
    intro member
    simp only [scopeStatement, AST.preorder, List.cons_append, List.mem_cons, List.mem_append]
    rintro (same | inside | inside)
    · exact .inl same
    · exact .inr (.inl (.inr (bodySubset inside)))
    · exact .inr (.inr (elseSubset inside))
  | .tryStmt _ _ body _ orelse finalbody => by
    have bodySubset := scopeStatements_subset body
    have elseSubset := scopeStatements_subset orelse
    have finalSubset := scopeStatements_subset finalbody
    intro member
    simp only [scopeStatement, AST.preorder, List.cons_append, List.mem_cons, List.mem_append]
    rintro (same | (inside | inside) | inside)
    · exact .inl same
    · exact .inr (.inl (.inl (.inl (bodySubset inside))))
    · exact .inr (.inl (.inr (elseSubset inside)))
    · exact .inr (.inr (finalSubset inside))
  | .other _ _ children => by
    simp only [scopeStatement, AST.preorder]
    exact List.cons_subset_cons _ (scopeStatements_subset children)
  | .name .. | .constant .. | .importStmt .. | .importFrom .. | .globalStmt .. | .nonlocalStmt ..
  | .breakStmt .. | .continueStmt .. => by
    simp only [scopeStatement, AST.preorder]
    exact List.Subset.refl _
  | .attribute .. | .keyword .. | .starred .. | .exprStmt .. | .call .. | .list .. | .tuple ..
  | .namedExpr .. | .ifExp .. | .lambda .. | .comp .. | .dictComp .. | .comprehension ..
  | .arguments .. | .arg .. | .assign .. | .annAssign .. | .augAssign .. | .functionDef ..
  | .classDef .. | .returnStmt .. | .raiseStmt .. | .exceptHandler .. | .matchStmt ..
  | .matchCase .. => by
    simp only [scopeStatement, AST.preorder]
    simp

/-- The statements of a scope are parts of its nodes. -/
theorem scopeStatements_subset : ∀ nodes : List AST, scopeStatements nodes ⊆ AST.preorderAll nodes
  | [] => List.nil_subset _
  | node :: rest => by
    simp only [scopeStatements, AST.preorderAll]
    refine List.append_subset.mpr ⟨?_, List.subset_append_of_subset_right _ (scopeStatements_subset rest)⟩
    split
    · exact List.subset_append_of_subset_left _ (scopeStatement_subset node)
    · exact List.nil_subset _

end

namespace Watch

variable {ν : Type} {watch : Watch ν} {level : Level} {place : Nat} {builder middle next : ScopeBuilder}
  {places : List (Level × Nat)}

/-- What holds for one place holds for places with it. -/
theorem Tracks.among {pass : Pass (Option ν)} {count : Nat}
    (tracks : watch.Tracks [(level, place)] pass count builder next)
    (inside : (level, place) ∈ places) : watch.Tracks places pass count builder next :=
  tracks.elsewhere fun _ fits => by simpa using fits _ inside

/-- A scope is opened for what follows. -/
theorem Tracks.pushed {pass : Pass (Option ν)} {count parent : Nat} {kind : ScopeKind} {inner : Level}
    (inside : Ordered builder.shapes → Fits builder level place → parent < builder.scopes.length)
    (fitting : Ordered builder.shapes → Fits builder level place →
      Fits (builder.pushScope parent kind) inner builder.scopes.length)
    (rest : watch.Tracks [(level, place), (inner, builder.scopes.length)] pass count
      (builder.pushScope parent kind) next) (once : count ≤ 1) :
    watch.Tracks [(level, place)] pass count builder next := by
  intro good fits values shows
  have placed := fits _ (List.mem_singleton_self _)
  have quiet := Quiet.pushScope good (inside good.ordered placed) kind
  have opened : watch.Tracks [(level, place)] .pass 0 builder (builder.pushScope parent kind) :=
    .quiet fun _ _ => quiet
  refine opened.before (rest.elsewhere fun _ fitsThen => ?_) once good fits values shows
  intro entry isEntry
  obtain rfl | isEntry := List.mem_cons.mp isEntry
  · exact fitsThen _ (List.mem_singleton_self _)
  · rw [List.mem_singleton.mp isEntry]
    exact fitting good.ordered placed

/-- Quiet steps in turn. -/
theorem tracks_foldl_quiet {α : Type} (step : ScopeBuilder → α → ScopeBuilder) (elements : List α)
    (each : ∀ element ∈ elements, ∀ builder,
      watch.Tracks places .pass 0 builder (step builder element)) (builder : ScopeBuilder) :
    watch.Tracks places .pass 0 builder (elements.foldl step builder) := by
  induction elements generalizing builder with
  | nil => exact .refl
  | cons element rest inductionHypothesis =>
    exact .before (each element (List.mem_cons_self ..) builder)
      (inductionHypothesis (fun other inside => each other (List.mem_cons_of_mem _ inside)) _) (by omega)

/-- A binding in a nested scope. -/
theorem tracks_bind_nested (nested : place ≠ 0) (bound : String) (value : Option AST) (node : AST)
    (importedName : Option (List String)) (phase : Option Nat) :
    watch.Tracks places .pass 0 builder (builder.bind place bound value node importedName phase) :=
  .quiet fun good _ => .bind good (.inl nested) value node importedName phase

/-- `_visit_arguments`. -/
theorem tracks_visitArguments (nested : place ≠ 0) (arguments : AST) (builder : ScopeBuilder) :
    watch.Tracks places .pass 0 builder (ScopeBuilder.visitArguments place arguments builder) := by
  refine tracks_foldl_quiet _ _ (fun argument _ builder => ?_) builder
  cases argument with
  | arg info name annot =>
    exact .before (tracks_bind_nested nested _ _ _ _ _) (tracks_markNode place _) (by omega)
  | _ => exact .refl

/-- Default values are visited as the nodes they are. -/
theorem visitDefaults_eq (arguments : AST) (builder : ScopeBuilder) :
    ScopeBuilder.visitDefaults arguments place builder =
      ScopeBuilder.visitAll (defaultParts arguments) place builder := by
  cases arguments <;>
    simp only [ScopeBuilder.visitDefaults, defaultParts, visitAll_append, ScopeBuilder.visitAll]

/-- Default values are scanned as the nodes they are. -/
theorem walkDefaults_eq (arguments : AST) :
    walkDefaults watch.name watch.importPrefix watch.wrote arguments level =
      watch.pathAll (defaultParts arguments) level := by
  cases arguments <;> simp only [walkDefaults, defaultParts, pathAll_append, walkAll]

/-! ## The annotations of parameters -/

mutual

/-- An argument is visited as the parts of its annotation. -/
theorem visitAnnotated_eq : ∀ (argument : AST) (builder : ScopeBuilder),
    ScopeBuilder.visitAnnotated argument place builder =
      ScopeBuilder.visitAll (annotationParts argument) place builder
  | argument, builder => by
    cases argument with
    | arguments info posonlyargs args vararg kwonlyargs kwDefaults kwarg defaults =>
      simp only [ScopeBuilder.visitAnnotated, annotationParts, visitAll_append,
        visitAnnotatedAll_eq posonlyargs, visitAnnotatedAll_eq args, visitAnnotatedAll_eq kwonlyargs,
        visitAnnotatedOpt_eq vararg, visitAnnotatedOpt_eq kwarg]
    | arg info name annot => simp only [ScopeBuilder.visitAnnotated, annotationParts, visitOpt_eq]
    | _ => simp only [ScopeBuilder.visitAnnotated, annotationParts, ScopeBuilder.visitAll]

/-- Arguments are visited as the parts of their annotations. -/
theorem visitAnnotatedAll_eq : ∀ (arguments : List AST) (builder : ScopeBuilder),
    ScopeBuilder.visitAnnotatedAll arguments place builder =
      ScopeBuilder.visitAll (annotationPartsAll arguments) place builder
  | [], builder => by
    simp only [ScopeBuilder.visitAnnotatedAll, annotationPartsAll, ScopeBuilder.visitAll]
  | argument :: rest, builder => by
    simp only [ScopeBuilder.visitAnnotatedAll, annotationPartsAll, visitAll_append,
      visitAnnotated_eq argument, visitAnnotatedAll_eq rest]

/-- An argument that may be missing is visited as the parts of its annotation. -/
theorem visitAnnotatedOpt_eq : ∀ (argument : Option AST) (builder : ScopeBuilder),
    ScopeBuilder.visitAnnotatedOpt argument place builder =
      ScopeBuilder.visitAll (annotationPartsOpt argument) place builder
  | none, builder => by
    simp only [ScopeBuilder.visitAnnotatedOpt, annotationPartsOpt, ScopeBuilder.visitAll]
  | some argument, builder => by
    simp only [ScopeBuilder.visitAnnotatedOpt, annotationPartsOpt, visitAnnotated_eq argument]

end

mutual

/-- An argument is scanned as the parts of its annotation. -/
theorem walkAnnotated_eq (argument : AST) :
    walkAnnotated watch.name watch.importPrefix watch.wrote argument level =
      watch.pathAll (annotationParts argument) level := by
  cases argument with
  | arguments info posonlyargs args vararg kwonlyargs kwDefaults kwarg defaults =>
    simp only [walkAnnotated, annotationParts, pathAll_append, walkAnnotatedAll_eq posonlyargs,
      walkAnnotatedAll_eq args, walkAnnotatedAll_eq kwonlyargs, walkAnnotatedOpt_eq vararg,
      walkAnnotatedOpt_eq kwarg, Pass.seq_assoc]
  | arg info name annot => simp only [walkAnnotated, annotationParts, walkOpt_eq]
  | _ => simp only [walkAnnotated, annotationParts, walkAll]

/-- Arguments are scanned as the parts of their annotations. -/
theorem walkAnnotatedAll_eq : ∀ arguments : List AST,
    walkAnnotatedAll watch.name watch.importPrefix watch.wrote arguments level =
      watch.pathAll (annotationPartsAll arguments) level
  | [] => by simp only [walkAnnotatedAll, annotationPartsAll, walkAll]
  | argument :: rest => by
    simp only [walkAnnotatedAll, annotationPartsAll, pathAll_append, walkAnnotated_eq argument,
      walkAnnotatedAll_eq rest]

/-- An argument that may be missing is scanned as the parts of its annotation. -/
theorem walkAnnotatedOpt_eq : ∀ argument : Option AST,
    walkAnnotatedOpt watch.name watch.importPrefix watch.wrote argument level =
      watch.pathAll (annotationPartsOpt argument) level
  | none => by simp only [walkAnnotatedOpt, annotationPartsOpt, walkAll]
  | some argument => by simp only [walkAnnotatedOpt, annotationPartsOpt, walkAnnotated_eq argument]

end

mutual

/-- Annotations and default values count no more than the arguments. -/
theorem tally_annotationParts_le (argument : AST) :
    watch.tally (annotationParts argument) + watch.tally (defaultParts argument) ≤
      watch.tally [argument] := by
  have within : watch.tally argument.children ≤ watch.tally [argument] := tally_children_le argument
  cases argument with
  | arguments info posonlyargs args vararg kwonlyargs kwDefaults kwarg defaults =>
    have first := tally_annotationPartsAll_le posonlyargs
    have second := tally_annotationPartsAll_le args
    have third := tally_annotationPartsAll_le kwonlyargs
    have fourth := tally_annotationPartsOpt_le vararg
    have fifth := tally_annotationPartsOpt_le kwarg
    simp only [AST.children, annotationParts, defaultParts, tally_append] at within ⊢
    omega
  | arg info name annot =>
    simpa only [AST.children, annotationParts, defaultParts, tally_nil, Nat.add_zero] using within
  | _ => simp [annotationParts, defaultParts, tally_nil]

/-- The annotations of arguments count no more than the arguments. -/
theorem tally_annotationPartsAll_le (arguments : List AST) :
    watch.tally (annotationPartsAll arguments) ≤ watch.tally arguments := by
  cases arguments with
  | nil => simp only [annotationPartsAll, Nat.le_refl]
  | cons argument rest =>
    have first := tally_annotationParts_le argument
    have others := tally_annotationPartsAll_le rest
    rw [annotationPartsAll, tally_append, tally_cons]
    omega

/-- The annotation of an argument that may be missing counts no more than it. -/
theorem tally_annotationPartsOpt_le (argument : Option AST) :
    watch.tally (annotationPartsOpt argument) ≤ watch.tally argument.toList := by
  cases argument with
  | none => simp only [annotationPartsOpt, Option.toList_none, Nat.le_refl]
  | some argument =>
    have here := tally_annotationParts_le argument
    rw [annotationPartsOpt, Option.toList_some]
    omega

end

/-! ## Functions and classes -/

/-- `_visit_lambda`. -/
theorem follows_lambda {info : Info} {args body : AST}
    (each : ∀ part ∈ defaultParts args, watch.Follows level place part)
    (eachNested : ∀ inner, watch.Follows .function inner body)
    (within : watch.tally (defaultParts args) ≤ watch.tally [.lambda info args body])
    (silent : watch.tally [body] = 0) (once : watch.tally [.lambda info args body] ≤ 1) :
    watch.Follows level place (.lambda info args body) := by
  refine follows_of_marked (fun _ builder => ?_) within once
  simp only [path, walk, ScopeBuilder.visit, visitDefaults_eq, walkDefaults_eq]
  refine .seq_silent (tracks_visitAll _ each (by omega) _) ?_ (by omega)
  refine .pushed (fun ordered fits => ScopeBuilder.functionParent_lt ordered fits.inside)
    (fun ordered fits => fits.function ordered) ?_ (by omega)
  refine .of_fits fun fits => ?_
  have nested := (fits _ (List.mem_cons_of_mem _ (List.mem_singleton_self _))).nested rfl
  refine .before (tracks_visitArguments nested args _) ?_ (by omega)
  exact ((eachNested _ _).of_count silent).among (by simp)

/-- States that are merged one by one have the merged front. -/
theorem front_zipWith {before after : List Bindings} (nonempty : before ≠ []) (nonemptyAfter : after ≠ []) :
    front watch.name (List.zipWith (fun before after => mergeStates [before, after]) before after) =
      front watch.name (mergedScopeStates [before, after]) := by
  obtain ⟨first, rest, rfl⟩ := List.exists_cons_of_ne_nil nonempty
  obtain ⟨second, others, rfl⟩ := List.exists_cons_of_ne_nil nonemptyAfter
  simp [front, mergedScopeStates, List.range_succ_eq_map]

/-- A function that may be called or not. -/
theorem Tracks.called {part : Pass (Option ν)} {count inner : Nat} (positive : 0 < inner)
    (tracks : watch.Tracks places part count builder next) (once : count ≤ 1) :
    watch.Tracks places (.anyOf .pass [part]) count builder
      (next.restoreStates (List.zipWith (fun before after => mergeStates [before, after])
        (builder.states inner) (next.states inner))) := by
  intro good fits values shows
  obtain ⟨trace, showsNext⟩ := tracks good fits values shows
  have before : watch.Noted next values True [builder.states inner] :=
    (Noted.single good shows positive rfl).mono trace.grown
  have both := before.append (.single trace.good showsNext positive rfl)
  obtain ⟨-, known, showsBoth⟩ := both.merged trace.good (.inl trivial)
  have nonempty := builder.states_ne_nil positive good.scopes_ne_nil
  have nonemptyAfter := next.states_ne_nil positive trace.good.scopes_ne_nil
  rw [List.singleton_append, ← front_zipWith nonempty nonemptyAfter] at known showsBoth
  have starts := Starts.restored trace.good (by simp [nonempty, nonemptyAfter]) known showsBoth
  refine ⟨(trace.starts starts once).congr (fun exit noticed value => ?_) fun exit noticed => ?_, ?_⟩
  · rw [Pass.after_anyOf_pass_early _ noticed.early]
  · rw [Pass.leaves_anyOf_pass_early _ noticed.early]
  · rw [Pass.after_anyOf_pass]
    exact starts.shows

/-- `_visit_function_body`, behind the header. -/
theorem tracks_functionBody {args : AST} {body : List AST}
    (each : ∀ inner, ∀ statement ∈ body, watch.Follows .function inner statement)
    (undeclared : ∀ info names, .globalStmt info names ∈ scopeStatements body → watch.name ∉ names)
    (silent : watch.tally body = 0) (builder : ScopeBuilder) :
    let inner := builder.scopes.length
    let started := ScopeBuilder.visitArguments inner args
      ((scopeStatements body).foldl (ScopeBuilder.declareNames inner)
        (builder.pushScope (builder.functionParent place) .function))
    watch.Tracks [(level, place)] (.anyOf .pass [watch.pathAll body .function]) 0 builder
      ((ScopeBuilder.visitAll body inner started).restoreStates
        (List.zipWith (fun before after => mergeStates [before, after]) (started.states inner)
          ((ScopeBuilder.visitAll body inner started).states inner))) := by
  intro inner started
  refine .pushed (fun ordered fits => ScopeBuilder.functionParent_lt ordered fits.inside)
    (fun ordered fits => fits.function ordered) ?_ (by omega)
  refine .of_fits fun fits => ?_
  have nested := (fits _ (List.mem_cons_of_mem _ (List.mem_singleton_self _))).nested rfl
  refine .before (tracks_foldl_quiet (ScopeBuilder.declareNames inner) (scopeStatements body)
    (fun statement inside _ => tracks_declareNames inner statement ?_) _) ?_ (by omega)
  · rintro info names rfl
    exact undeclared info names inside
  · refine .before (tracks_visitArguments nested args _) ?_ (by omega)
    refine .called (Nat.pos_of_ne_zero nested) ?_ (by omega)
    have visited := tracks_visitAll body (each inner) (by omega) started
    exact (visited.of_count silent).among (by simp [inner])

/-- `_visit_function`. -/
theorem follows_functionDef {info : Info} {isAsync : Bool} {bound : String} {args : AST}
    {body decoratorList : List AST} {returns : Option AST}
    (eachDecorator : ∀ part ∈ decoratorList, watch.Follows level place part)
    (eachDefault : ∀ part ∈ defaultParts args, watch.Follows level place part)
    (eachAnnotated : ∀ part ∈ annotationParts args, watch.Follows level place part)
    (eachReturn : ∀ part ∈ returns.toList, watch.Follows level place part)
    (each : ∀ inner, ∀ statement ∈ body, watch.Follows .function inner statement)
    (undeclared : ∀ info names, .globalStmt info names ∈ scopeStatements body → watch.name ∉ names)
    (silent : watch.tally body = 0)
    (once : watch.tally [.functionDef info isAsync bound args body decoratorList returns] ≤ 1) :
    watch.Follows level place (.functionDef info isAsync bound args body decoratorList returns) := by
  have within : watch.tally (AST.children
    (.functionDef info isAsync bound args body decoratorList returns)) ≤ _ := tally_children_le _
  simp only [AST.children, List.cons_append] at within
  rw [tally_cons, tally_append, tally_append, silent] at within
  have header : watch.tally (annotationParts args) + watch.tally (defaultParts args) ≤
    watch.tally [args] := tally_annotationParts_le args
  have visited : watch.tally decoratorList + (watch.tally (defaultParts args) +
      (watch.tally (annotationParts args) + watch.tally returns.toList)) ≤
      watch.tally [.functionDef info isAsync bound args body decoratorList returns] := by omega
  refine follows_of_marked (fun isHere builder => ?_) visited once
  simp only [path, walk, ScopeBuilder.visit, visitDefaults_eq, walkDefaults_eq, visitAnnotated_eq,
    walkAnnotated_eq]
  refine .silent_seq (tracks_bind isHere bound none _ none none) ?_ (by omega)
  refine .seq (tracks_visitAll decoratorList eachDecorator (by omega) _) ?_ (by omega)
  refine .seq (tracks_visitAll (defaultParts args) eachDefault (by omega) _) ?_ (by omega)
  refine .seq (tracks_visitAll (annotationParts args) eachAnnotated (by omega) _) ?_ (by omega)
  refine .seq_silent (tracks_visitOpt returns eachReturn _) ?_ (by omega)
  exact tracks_functionBody each undeclared silent _

/-- `_visit_classdef`. -/
theorem follows_classDef {info : Info} {bound : String} {bases keywords body decoratorList : List AST}
    (eachDecorator : ∀ part ∈ decoratorList, watch.Follows level place part)
    (eachBase : ∀ part ∈ bases, watch.Follows level place part)
    (eachKeyword : ∀ part ∈ keywords, watch.Follows level place part)
    (each : ∀ inner, ∀ statement ∈ body, watch.Follows level.classBody inner statement)
    (silent : watch.tally body = 0)
    (once : watch.tally [.classDef info bound bases keywords body decoratorList] ≤ 1) :
    watch.Follows level place (.classDef info bound bases keywords body decoratorList) := by
  have within : watch.tally (AST.children
    (.classDef info bound bases keywords body decoratorList)) ≤ _ := tally_children_le _
  simp only [AST.children, tally_append, silent] at within
  have visited : watch.tally decoratorList + (watch.tally bases + watch.tally keywords) ≤
      watch.tally [.classDef info bound bases keywords body decoratorList] := by omega
  refine follows_of_marked (fun isHere builder => ?_) visited once
  simp only [path, walk, ScopeBuilder.visit]
  refine .silent_seq (tracks_bind isHere bound none _ _ none) ?_ (by omega)
  refine .seq (tracks_visitAll decoratorList eachDecorator (by omega) _) ?_ (by omega)
  refine .seq (tracks_visitAll bases eachBase (by omega) _) ?_ (by omega)
  refine .seq_silent (tracks_visitAll keywords eachKeyword (by omega) _) ?_ (by omega)
  refine .pushed (fun _ fits => fits.inside) (fun ordered fits => fits.classBody ordered) ?_ (by omega)
  exact ((tracks_visitAll body (each _) (by omega) _).of_count silent).among (by simp)

/-! ## Comprehensions -/

/-- The conditions of a generator. -/
theorem tracks_visitConditions (conditions : List AST) (phase : Nat)
    (each : ∀ part ∈ conditions, watch.Follows level place part) (once : watch.tally conditions ≤ 1)
    (builder : ScopeBuilder) :
    watch.Tracks [(level, place)] (watch.pathAll conditions level) (watch.tally conditions) builder
      (ScopeBuilder.visitConditions conditions place phase builder) := by
  induction conditions generalizing builder with
  | nil =>
    simp only [walkAll, ScopeBuilder.visitConditions]
    exact .refl
  | cons condition rest inductionHypothesis =>
    rw [tally_cons] at once ⊢
    simp only [walkAll, ScopeBuilder.visitConditions]
    have first := (each condition (List.mem_cons_self ..) builder).behind
      (tracks_markPhase phase condition) (by omega)
    exact first.seq (inductionHypothesis (fun part inside => each part (List.mem_cons_of_mem _ inside))
      (by omega) _) once

section

variable {inner : Nat} (nested : inner ≠ 0)

include nested

/-- The target and the conditions of a generator. -/
theorem tracks_generatorBody {target : AST} {ifs : List AST} (index : Nat)
    (each : ∀ part ∈ ifs, watch.Follows level.comprehension inner part) (silent : watch.tally ifs = 0)
    (builder : ScopeBuilder) :
    watch.Tracks [(level, place), (level.comprehension, inner)]
      (watch.pathAll ifs level.comprehension) 0 builder
      (ScopeBuilder.visitConditions ifs inner (index + 1)
        ((ScopeBuilder.bindTargets inner target (some (index + 1)) target none builder).mark inner
          target)) := by
  have isNested : false = true ↔ inner = 0 := iff_of_false Bool.false_ne_true nested
  refine .before (.behind (tracks_bindTargets isNested target (some (index + 1)) target none builder)
    (tracks_mark inner target) (by omega)) ?_ (by omega)
  exact ((tracks_visitConditions ifs (index + 1) each (by omega) _).of_count silent).among (by simp)

/-- The first generator: its iterable is evaluated outside. -/
theorem tracks_firstGenerator {generator : AST}
    (eachOuter : ∀ part ∈ iterableParts generator, watch.Follows level place part)
    (each : ∀ part ∈ generatorParts true generator, watch.Follows level.comprehension inner part)
    (once : watch.tally (iterableParts generator) ≤ 1)
    (silent : watch.tally (generatorParts true generator) = 0) (builder : ScopeBuilder) :
    watch.Tracks [(level, place), (level.comprehension, inner)]
      (walkGenerator watch.name watch.importPrefix watch.wrote generator true level)
      (watch.tally (iterableParts generator)) builder
      (ScopeBuilder.visitGenerator generator 0 place inner builder) := by
  cases generator with
  | comprehension info isAsync target iter ifs =>
    simp only [walkGenerator, ScopeBuilder.visitGenerator, iterableParts, generatorParts, if_true] at *
    have outer := (eachOuter iter (List.mem_singleton_self _) builder).behind
      (tracks_markPhase 0 iter) once
    exact .seq_silent (outer.among (by simp)) (tracks_generatorBody nested 0 each silent _) once
  | _ =>
    simp only [walkGenerator, ScopeBuilder.visitGenerator, iterableParts, tally_nil]
    exact .refl

/-- A further generator is evaluated in the scope of the comprehension. -/
theorem tracks_laterGenerator {generator : AST} {index : Nat} (later : index ≠ 0)
    (each : ∀ part ∈ generatorParts false generator, watch.Follows level.comprehension inner part)
    (silent : watch.tally (generatorParts false generator) = 0) (builder : ScopeBuilder) :
    watch.Tracks [(level, place), (level.comprehension, inner)]
      (walkGenerator watch.name watch.importPrefix watch.wrote generator false level) 0 builder
      (ScopeBuilder.visitGenerator generator index place inner builder) := by
  cases generator with
  | comprehension info isAsync target iter ifs =>
    simp only [walkGenerator, ScopeBuilder.visitGenerator, generatorParts, later, if_false,
      Bool.false_eq_true] at *
    rw [tally_cons] at silent
    have outer := (each iter (List.mem_cons_self ..) builder).behind (tracks_markPhase index iter)
      (by omega)
    exact .silent_seq ((outer.of_count (by omega)).among (by simp)) (tracks_generatorBody nested index
      (fun part inside => each part (List.mem_cons_of_mem _ inside)) (by omega) _) (by omega)
  | _ =>
    simp only [walkGenerator, ScopeBuilder.visitGenerator]
    exact .refl

/-- The later generators of a comprehension are tracked when their parts are. -/
theorem tracks_laterGenerators {generators : List AST} {index : Nat} (later : index ≠ 0)
    (each : ∀ part ∈ generators.flatMap (generatorParts false),
      watch.Follows level.comprehension inner part)
    (silent : watch.tally (generators.flatMap (generatorParts false)) = 0) (builder : ScopeBuilder) :
    watch.Tracks [(level, place), (level.comprehension, inner)]
      (walkGenerators watch.name watch.importPrefix watch.wrote generators false level) 0 builder
      (ScopeBuilder.visitGenerators generators index place inner builder) := by
  induction generators generalizing index builder with
  | nil =>
    simp only [walkGenerators, ScopeBuilder.visitGenerators]
    exact .refl
  | cons generator rest inductionHypothesis =>
    rw [List.flatMap_cons] at each silent
    rw [tally_append] at silent
    simp only [walkGenerators, ScopeBuilder.visitGenerators]
    refine .silent_seq (tracks_laterGenerator nested later
      (fun part inside => each part (List.mem_append_left _ inside)) (by omega) _) ?_ (by omega)
    exact inductionHypothesis (Nat.succ_ne_zero _)
      (fun part inside => each part (List.mem_append_right _ inside)) (by omega) _

/-- The generators of a comprehension. -/
theorem tracks_visitGenerators {generators : List AST}
    (eachOuter : ∀ part ∈ outerParts generators, watch.Follows level place part)
    (each : ∀ part ∈ innerParts generators, watch.Follows level.comprehension inner part)
    (once : watch.tally (outerParts generators) ≤ 1)
    (silent : watch.tally (innerParts generators) = 0) (builder : ScopeBuilder) :
    watch.Tracks [(level, place), (level.comprehension, inner)]
      (walkGenerators watch.name watch.importPrefix watch.wrote generators true level)
      (watch.tally (outerParts generators)) builder
      (ScopeBuilder.visitGenerators generators 0 place inner builder) := by
  cases generators with
  | nil =>
    simp only [walkGenerators, ScopeBuilder.visitGenerators, outerParts, tally_nil]
    exact .refl
  | cons first rest =>
    simp only [innerParts, tally_append] at each silent
    simp only [walkGenerators, ScopeBuilder.visitGenerators]
    refine .seq_silent (tracks_firstGenerator nested eachOuter
      (fun part inside => each part (List.mem_append_left _ inside)) once (by omega) _) ?_ once
    exact tracks_laterGenerators nested (Nat.succ_ne_zero _)
      (fun part inside => each part (List.mem_append_right _ inside)) (by omega) _

end

/-- A part of the element of a comprehension. -/
theorem tracks_element {part : AST} {inner phase : Nat}
    (each : watch.Follows level.comprehension inner part) (silent : watch.tally [part] = 0) :
    watch.Tracks [(level, place), (level.comprehension, inner)] (watch.path part level.comprehension) 0
      builder ((ScopeBuilder.visit part inner builder).markPhase phase part) :=
  .behind (((each builder).of_count silent).among (by simp)) (tracks_markPhase phase part) (by omega)

/-- The visitors of list, set and generator comprehensions. -/
theorem follows_comp {info : Info} {kind : CompKind} {elt : AST} {generators : List AST}
    (eachOuter : ∀ part ∈ outerParts generators, watch.Follows level place part)
    (each : ∀ inner, ∀ part ∈ elt :: innerParts generators,
      watch.Follows level.comprehension inner part)
    (within : watch.tally (outerParts generators) ≤ watch.tally [.comp info kind elt generators])
    (silent : watch.tally (elt :: innerParts generators) = 0)
    (once : watch.tally [.comp info kind elt generators] ≤ 1) :
    watch.Follows level place (.comp info kind elt generators) := by
  rw [tally_cons] at silent
  refine follows_of_marked (fun _ builder => ?_) within once
  simp only [path, walk, ScopeBuilder.visit]
  generalize builder.markNode place (.comp info kind elt generators) = marked
  refine .pushed (fun ordered fits => ScopeBuilder.functionParent_lt ordered fits.inside)
    (fun ordered fits => fits.comprehension ordered) ?_ (by omega)
  refine .of_fits fun fits => ?_
  have nested := (fits _ (List.mem_cons_of_mem _ (List.mem_singleton_self _))).nested rfl
  refine .seq_silent (tracks_visitGenerators nested eachOuter
    (fun part inside => each _ part (List.mem_cons_of_mem _ inside)) (by omega) (by omega) _) ?_ (by omega)
  exact tracks_element (each _ elt (List.mem_cons_self ..)) (by omega)

/-- The visitor of dictionary comprehensions. -/
theorem follows_dictComp {info : Info} {key value : AST} {generators : List AST}
    (eachOuter : ∀ part ∈ outerParts generators, watch.Follows level place part)
    (each : ∀ inner, ∀ part ∈ key :: value :: innerParts generators,
      watch.Follows level.comprehension inner part)
    (within : watch.tally (outerParts generators) ≤ watch.tally [.dictComp info key value generators])
    (silent : watch.tally (key :: value :: innerParts generators) = 0)
    (once : watch.tally [.dictComp info key value generators] ≤ 1) :
    watch.Follows level place (.dictComp info key value generators) := by
  rw [tally_cons, tally_cons value] at silent
  refine follows_of_marked (fun _ builder => ?_) within once
  simp only [path, walk, ScopeBuilder.visit]
  generalize builder.markNode place (.dictComp info key value generators) = marked
  refine .pushed (fun ordered fits => ScopeBuilder.functionParent_lt ordered fits.inside)
    (fun ordered fits => fits.comprehension ordered) ?_ (by omega)
  refine .of_fits fun fits => ?_
  have nested := (fits _ (List.mem_cons_of_mem _ (List.mem_singleton_self _))).nested rfl
  refine .seq_silent (tracks_visitGenerators nested eachOuter
    (fun part inside => each _ part (List.mem_cons_of_mem _ (List.mem_cons_of_mem _ inside))) (by omega)
    (by omega) _) ?_ (by omega)
  exact .silent_seq (tracks_element (each _ key (List.mem_cons_self ..)) (by omega))
    (tracks_element (each _ value (List.mem_cons_of_mem _ (List.mem_cons_self ..))) (by omega))
    (by omega)

end Watch

end VirtTestTools.Policy
