import VirtTestTools.Flows

/-!
# Analyses that go on behind a raised exception

Code without loops and handlers, as far as one observed point is concerned. An analysis that
goes through such code once and goes on behind `raise` follows a pass. It knows which
pieces fall through; of those that do not, the executions go no further. An analysis
`Agrees` with the executions if it has the same writes behind each piece that falls through,
and the same at the point, if the point is reached at all.
-/

namespace VirtTestTools

namespace Flow

variable {α : Type}

/-- A piece that writes nothing and observes some points. -/
def Glances (points : Set Nat) (flow : Flow α) : Prop :=
  ∀ exit written, flow exit written ↔
    written = none ∧ (exit = .normal ∨ ∃ point ∈ points, exit = .observed point)

variable {points more : Set Nat} {first second : Flow α}

/-- A flow that does nothing looks at no point. -/
theorem glances_pass : Glances ∅ (pass : Flow α) := by
  intro exit written
  simp [pass, and_comm]

/-- A look at a point looks there. -/
theorem glances_observe (point : Nat) : Glances {point} (observe point : Flow α) := by
  intro exit written
  simp [observe, note, and_comm]

/-- Two flows that only look, one behind the other, only look. -/
theorem Glances.seq (glances : first.Glances points) (behind : second.Glances more) :
    (Flow.seq first second).Glances (points ∪ more) := by
  intro exit written
  constructor
  · rintro (⟨early, firstDone⟩ | ⟨before, after, firstDone, secondDone, rfl⟩)
    · obtain ⟨nothing, normal | ⟨point, inside, observed⟩⟩ := (glances _ _).mp firstDone
      · exact absurd normal early
      · exact ⟨nothing, .inr ⟨point, .inl inside, observed⟩⟩
    · obtain ⟨rfl, -⟩ := (glances _ _).mp firstDone
      obtain ⟨rfl, normal | ⟨point, inside, observed⟩⟩ := (behind _ _).mp secondDone
      · exact ⟨rfl, .inl normal⟩
      · exact ⟨rfl, .inr ⟨point, .inr inside, observed⟩⟩
  · have through : first .normal none := (glances _ _).mpr ⟨rfl, .inl rfl⟩
    rintro ⟨rfl, rfl | ⟨point, inside | inside, rfl⟩⟩
    · exact seq_on through ((behind _ _).mpr ⟨rfl, .inl rfl⟩) rfl
    · exact seq_out nofun ((glances _ _).mpr ⟨rfl, .inr ⟨point, inside, rfl⟩⟩)
    · exact seq_on through ((behind _ _).mpr ⟨rfl, .inr ⟨point, inside, rfl⟩⟩) rfl

/-- A choice of two flows that only look only looks. -/
theorem Glances.choice (glances : first.Glances points) (other : second.Glances more) :
    (Flow.choice first second).Glances (points ∪ more) := by
  intro exit written
  simp only [Flow.choice, glances _ _, other _ _, Set.mem_union, or_and_right, exists_or,
    ← and_or_left]
  exact and_congr_right fun _ => or_or_or_comm.trans (or_congr_left (or_self_iff ..))

end Flow

variable {α : Type}

/-- A pass says what the executions of a piece do, for the observed point. The points are
those that occur in the piece. -/
structure Agrees (point : Nat) (points : Set Nat) (flow : Flow α) (part : Pass α) (falls : Bool) :
    Prop where
  on : ∀ written, flow .normal written ↔ falls = true ∧ part.flow .normal written
  sound : ∀ written, flow (.observed point) written → part.flow (.observed point) written
  complete : flow.Leaves (.observed point) →
    ∀ written, part.flow (.observed point) written → flow (.observed point) written
  within : part.flow.Leaves (.observed point) → point ∈ points

namespace Agrees

variable {point : Nat} {points more : Set Nat} {flow other : Flow α} {part rest : Pass α}
  {falls goesOn : Bool}

/-- Two descriptions of the same paths. -/
theorem of_glances (glances : flow.Glances points) (same : part.flow.Glances points) :
    Agrees point points flow part true where
  on written := by rw [glances, same, and_iff_right rfl]
  sound written met := by rwa [same, ← glances]
  complete _ written met := by rwa [glances, ← same]
  within := by
    rintro ⟨written, met⟩
    obtain ⟨-, normal | ⟨point, inside, observed⟩⟩ := (same _ _).mp met
    · cases normal
    · cases observed
      exact inside

/-- Where control is given up, the analysis goes on. -/
theorem leave {way : Exit} (abrupt : way ≠ .normal) (unseen : way ≠ .observed point) :
    Agrees point points (Flow.leave way : Flow α) .pass false where
  on _ := iff_of_false (fun left => abrupt left.1.symm) fun both => Bool.false_ne_true both.1
  sound _ met := absurd met.1.symm unseen
  complete := fun ⟨_, met⟩ => absurd met.1.symm unseen
  within := fun ⟨_, met⟩ => Exit.noConfusion met.1

/-- Looks may be counted among more points. -/
theorem mono (agrees : Agrees point points flow part falls) (inside : points ⊆ more) :
    Agrees point more flow part falls where
  on := agrees.on
  sound := agrees.sound
  complete := agrees.complete
  within met := inside (agrees.within met)

/-- An exception is of no account without handlers. -/
theorem fallible (agrees : Agrees point points flow part falls) :
    Agrees point points (Flow.fallible flow) part falls where
  on written := (or_iff_left fun raised => Exit.noConfusion raised.1).trans (agrees.on written)
  sound written met := agrees.sound written (met.resolve_right fun raised => Exit.noConfusion raised.1)
  complete met written noted := by
    obtain ⟨reached, met⟩ := met
    have here := met.resolve_right fun raised => Exit.noConfusion raised.1
    exact .inl (agrees.complete ⟨reached, here⟩ written noted)
  within := agrees.within

/-- Pieces in turn. The point occurs in one of them only. -/
theorem seq (agrees : Agrees point points flow part falls)
    (behind : Agrees point more other rest goesOn) (once : point ∈ points → point ∉ more) :
    Agrees point (points ∪ more) (Flow.seq flow other) (part.seq rest) (falls && goesOn) where
  on written := by
    rw [Bool.and_eq_true]
    constructor
    · rintro (⟨early, -⟩ | ⟨before, after, firstDone, secondDone, rfl⟩)
      · exact absurd rfl early
      · obtain ⟨firstFalls, firstOn⟩ := (agrees.on _).mp firstDone
        obtain ⟨secondFalls, secondOn⟩ := (behind.on _).mp secondDone
        exact ⟨⟨firstFalls, secondFalls⟩, Flow.seq_on firstOn secondOn rfl⟩
    · rintro ⟨⟨firstFalls, secondFalls⟩, ⟨early, -⟩ | ⟨before, after, firstOn, secondOn, rfl⟩⟩
      · exact absurd rfl early
      · exact Flow.seq_on ((agrees.on _).mpr ⟨firstFalls, firstOn⟩)
          ((behind.on _).mpr ⟨secondFalls, secondOn⟩) rfl
  sound written := by
    rintro (⟨early, firstMet⟩ | ⟨before, after, firstDone, secondMet, rfl⟩)
    · exact Flow.seq_out early (agrees.sound _ firstMet)
    · exact Flow.seq_on ((agrees.on _).mp firstDone).2 (behind.sound _ secondMet) rfl
  complete := by
    rintro ⟨reached, met⟩ written (⟨early, firstNoted⟩ | ⟨before, after, firstOn, secondNoted, rfl⟩)
    · -- the point is in the first piece, so it is reached there
      have absent := once (agrees.within ⟨_, firstNoted⟩)
      obtain ⟨-, firstMet⟩ | ⟨_, _, -, secondMet, -⟩ := met
      · exact Flow.seq_out early (agrees.complete ⟨_, firstMet⟩ _ firstNoted)
      · exact absurd (behind.within ⟨_, behind.sound _ secondMet⟩) absent
    · -- the second piece is reached, so the first falls through
      have inside := behind.within ⟨_, secondNoted⟩
      obtain ⟨-, firstMet⟩ | ⟨_, _, firstDone, secondMet, -⟩ := met
      · exact absurd inside (once (agrees.within ⟨_, agrees.sound _ firstMet⟩))
      · have firstFalls := ((agrees.on _).mp firstDone).1
        exact Flow.seq_on ((agrees.on _).mpr ⟨firstFalls, firstOn⟩)
          (behind.complete ⟨_, secondMet⟩ _ secondNoted) rfl
  within := by
    rintro ⟨written, ⟨-, firstMet⟩ | ⟨_, _, -, secondMet, -⟩⟩
    · exact .inl (agrees.within ⟨_, firstMet⟩)
    · exact .inr (behind.within ⟨_, secondMet⟩)

/-- One of two branches. Where they join, only those that fall through count. -/
theorem branch (agrees : Agrees point points flow part falls)
    (elsewhere : Agrees point more other rest goesOn) (once : point ∈ points → point ∉ more) :
    Agrees point (points ∪ more) (Flow.choice flow other)
      (.aside (Flow.choice part.flow rest.flow)
        (.joined {written | (falls = true ∧ part.flow .normal written) ∨
          (goesOn = true ∧ rest.flow .normal written)})) (falls || goesOn) where
  on written := by
    have outputs : (falls || goesOn) = true → ∃ written, (falls = true ∧ part.flow .normal written) ∨
        (goesOn = true ∧ rest.flow .normal written) := by
      intro either
      obtain here | there := Bool.or_eq_true_iff.mp either
      · obtain ⟨written, firstOn⟩ := part.total
        exact ⟨written, .inl ⟨here, firstOn⟩⟩
      · obtain ⟨written, secondOn⟩ := rest.total
        exact ⟨written, .inr ⟨there, secondOn⟩⟩
    constructor
    · intro done
      have output := done.imp (agrees.on written).mp (elsewhere.on written).mp
      refine ⟨Bool.or_eq_true_iff.mpr (output.imp And.left And.left), .inr ⟨rfl, .inl output⟩⟩
    · rintro ⟨either, ⟨early, -⟩ | ⟨-, output | ⟨empty, -⟩⟩⟩
      · exact absurd rfl early
      · exact output.imp (agrees.on written).mpr (elsewhere.on written).mpr
      · obtain ⟨some, inside⟩ := outputs either
        exact absurd inside (Set.eq_empty_iff_forall_notMem.mp empty some)
  sound written met := .inl ⟨nofun, met.imp (agrees.sound written) (elsewhere.sound written)⟩
  complete := by
    rintro ⟨reached, met⟩ written (⟨-, noted⟩ | ⟨early, -⟩)
    · obtain noted | noted := noted
      · have absent := once (agrees.within ⟨_, noted⟩)
        obtain met | met := met
        · exact .inl (agrees.complete ⟨_, met⟩ _ noted)
        · exact absurd (elsewhere.within ⟨_, elsewhere.sound _ met⟩) absent
      · have inside := elsewhere.within ⟨_, noted⟩
        obtain met | met := met
        · exact absurd inside (once (agrees.within ⟨_, agrees.sound _ met⟩))
        · exact .inr (elsewhere.complete ⟨_, met⟩ _ noted)
    · cases early
  within := by
    rintro ⟨written, ⟨-, met | met⟩ | ⟨early, -⟩⟩
    · exact .inl (agrees.within ⟨_, met⟩)
    · exact .inr (elsewhere.within ⟨_, met⟩)
    · cases early

end Agrees

end VirtTestTools
