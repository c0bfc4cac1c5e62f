import VirtTestTools.Text

/-!
# Lines that `str.splitlines` cuts

A text that was written line by line, each line ended by a line feed, is cut by
`str.splitlines` at further characters: form feeds, Unicode separators, carriage
returns that stand alone. The first piece of a written line reaches to its first
line break; the pieces behind it are stray. A text that is read in text mode is cut at
its carriage returns in the same way.
-/

namespace VirtTestTools.Text

/-- The pieces behind the first line break of a line, its own line feed aside. -/
def strayPieces (line : Text) : List Text := (splitlines (line ++ ['\n'])).tail

/-- The line up to its first line break. -/
def firstPiece (line : Text) : Text := line.takeWhile fun character => !isLineBreak character

/-- A character that ends no line is collected. -/
theorem splitlinesFrom_char (pending : Text) (character : Char) (rest : Text)
    (inside : isLineBreak character = false) :
    splitlinesFrom pending (character :: rest) = splitlinesFrom (character :: pending) rest := by
  rw [splitlinesFrom.eq_def]
  split
  · simp_all
  · simp_all [isLineBreak]
  · simp_all

/-- A line break ends the pending piece, whatever is pending. -/
theorem splitlinesFrom_break (character : Char) (rest : Text)
    (ending : isLineBreak character = true) :
    ∃ pieces, ∀ pending, splitlinesFrom pending (character :: rest) =
      pending.reverse :: pieces := by
  by_cases pair : character = '\r' ∧ ∃ behind, rest = '\n' :: behind
  · obtain ⟨rfl, behind, rfl⟩ := pair
    exact ⟨splitlinesFrom [] behind, fun pending => by simp [splitlinesFrom]⟩
  · refine ⟨splitlinesFrom [] rest, fun pending => ?_⟩
    rw [splitlinesFrom.eq_def]
    split
    · simp_all
    · rename_i opening
      cases opening
      exact absurd ⟨rfl, _, rfl⟩ pair
    · simp_all

/-- A line feed ends the line; what follows is cut on its own. -/
theorem splitlinesFrom_append (pending line rest : Text) :
    splitlinesFrom pending (line ++ '\n' :: rest) =
      splitlinesFrom pending (line ++ ['\n']) ++ splitlinesFrom [] rest := by
  have feed (pending rest : Text) :
      splitlinesFrom pending ('\n' :: rest) = pending.reverse :: splitlinesFrom [] rest := by
    rw [splitlinesFrom.eq_def]
    simp [isLineBreak]
  have pair (pending rest : Text) : splitlinesFrom pending ('\r' :: '\n' :: rest) =
      pending.reverse :: splitlinesFrom [] rest := by
    simp [splitlinesFrom]
  have done : splitlinesFrom [] [] = [] := rfl
  induction pending, line using splitlinesFrom.induct with
  | case1 pending =>
    rw [List.nil_append, List.nil_append, feed, feed, done, List.singleton_append]
  | case2 pending =>
    rw [List.nil_append, List.nil_append, feed, feed, done, List.singleton_append]
  | case3 pending line inductionHypothesis =>
    simp only [List.cons_append, pair, inductionHypothesis]
  | case4 pending character line notPair ending inductionHypothesis =>
    -- A carriage return at the end of the line is taken together with the line feed.
    cases line with
    | nil =>
      by_cases carriage : character = '\r'
      · subst carriage
        simp only [List.cons_append, List.nil_append, pair, done]
      · have single (rest : Text) : splitlinesFrom pending (character :: '\n' :: rest) =
            pending.reverse :: splitlinesFrom [] ('\n' :: rest) := by
          rw [splitlinesFrom.eq_def]
          split <;> simp_all
        simp only [List.cons_append, List.nil_append, single, feed, done, List.reverse_nil]
    | cons next line =>
      have cut (rest : Text) : splitlinesFrom pending (character :: next :: rest) =
          pending.reverse :: splitlinesFrom [] (next :: rest) := by
        rw [splitlinesFrom.eq_def]
        split
        · simp_all
        · rename_i opening
          cases opening
          exact (notPair line rfl rfl).elim
        · simp_all
      simp only [List.cons_append] at inductionHypothesis ⊢
      rw [cut, cut, inductionHypothesis, List.cons_append]
  | case5 pending character line notPair inside inductionHypothesis =>
    rw [Bool.not_eq_true] at inside
    rw [List.cons_append, List.cons_append, splitlinesFrom_char _ _ _ inside,
      splitlinesFrom_char _ _ _ inside, inductionHypothesis]

/-- A line is cut into its first piece and its stray pieces. -/
theorem splitlinesFrom_terminated (pending line : Text) :
    splitlinesFrom pending (line ++ ['\n']) =
      (pending.reverse ++ firstPiece line) :: strayPieces line := by
  induction line generalizing pending with
  | nil =>
    rw [List.nil_append, splitlinesFrom.eq_def]
    simp [isLineBreak, firstPiece, strayPieces, splitlines, splitlinesFrom]
  | cons character line inductionHypothesis =>
    cases ending : isLineBreak character with
    | true =>
      obtain ⟨pieces, cut⟩ := splitlinesFrom_break character (line ++ ['\n']) ending
      simp [firstPiece, strayPieces, splitlines, ending, cut]
    | false =>
      have same : strayPieces (character :: line) = strayPieces line := by
        rw [strayPieces, splitlines, List.cons_append, splitlinesFrom_char _ _ _ ending,
          inductionHypothesis, List.tail_cons]
      rw [List.cons_append, splitlinesFrom_char _ _ _ ending, inductionHypothesis, same]
      simp [firstPiece, ending]

/-- A text that was written line by line is cut line by line. -/
theorem splitlines_joinLines_eq (lines : List Text) :
    splitlines (joinLines lines) = lines.flatMap fun line => firstPiece line :: strayPieces line := by
  induction lines with
  | nil => rfl
  | cons line lines inductionHypothesis =>
    rw [joinLines, List.flatMap_cons, List.append_assoc, List.singleton_append, splitlines,
      splitlinesFrom_append, splitlinesFrom_terminated, List.flatMap_cons]
    exact congrArg (_ ++ ·) inductionHypothesis

/-- What comes before the first line break has no stray pieces of its own. -/
theorem strayPieces_append (opening line : Text)
    (whole : opening.all (fun character => !isLineBreak character) = true) :
    strayPieces (opening ++ line) = strayPieces line := by
  induction opening with
  | nil => rfl
  | cons character opening inductionHypothesis =>
    rw [List.all_cons, Bool.and_eq_true, Bool.not_eq_true'] at whole
    rw [← inductionHypothesis whole.2, strayPieces, splitlines, List.cons_append,
      List.cons_append, splitlinesFrom_char _ _ _ whole.1, splitlinesFrom_terminated,
      List.tail_cons]

/-- An opening without line breaks is in the first piece. -/
theorem firstPiece_append (opening line : Text)
    (whole : opening.all (fun character => !isLineBreak character) = true) :
    firstPiece (opening ++ line) = opening ++ firstPiece line :=
  List.takeWhile_append_of_pos (List.all_eq_true.mp whole)

/-- A line without line breaks is one piece. -/
theorem pieces_of_whole (line : Text)
    (whole : line.all (fun character => !isLineBreak character) = true) :
    firstPiece line :: strayPieces line = [line] := by
  have first := firstPiece_append line [] whole
  have stray := strayPieces_append line [] whole
  rw [List.append_nil] at first stray
  rw [first, stray]
  simp [firstPiece, strayPieces, splitlines, splitlinesFrom, isLineBreak]

/-- Lines that are joined are split again. -/
theorem splitlines_joinLines (lines : List Text)
    (single : ∀ line ∈ lines, line.all (fun character => !isLineBreak character) = true) :
    splitlines (joinLines lines) = lines := by
  rw [splitlines_joinLines_eq]
  induction lines with
  | nil => rfl
  | cons line lines inductionHypothesis =>
    rw [List.flatMap_cons, pieces_of_whole line (single line (by simp)), List.singleton_append,
      inductionHypothesis fun other member => single other (List.mem_cons_of_mem _ member)]

/-! ## Lines read in text mode -/

/-- The worker of `returnPieces`. -/
def returnPiecesFrom (pending : Text) : Text → List Text
  | [] => [pending.reverse]
  | character :: rest =>
    if character = '\r' then
      if rest.isEmpty then [pending.reverse] else pending.reverse :: returnPiecesFrom [] rest
    else returnPiecesFrom (character :: pending) rest

/-- The lines that a written line is read as in text mode: each carriage return in it ends
one, and the one at its end belongs to its line feed. -/
def returnPieces (line : Text) : List Text := returnPiecesFrom [] line

/-- A line up to its first carriage return. -/
def firstReturn (line : Text) : Text := line.takeWhile fun character => decide (character ≠ '\r')

/-- The lines behind it. -/
def strayReturns (line : Text) : List Text := (returnPieces line).tail

/-- The pieces of a line are the first one and the stray ones. -/
theorem returnPiecesFrom_eq (pending line : Text) :
    returnPiecesFrom pending line = (pending.reverse ++ firstReturn line) :: strayReturns line := by
  induction line generalizing pending with
  | nil => simp [returnPiecesFrom, firstReturn, strayReturns, returnPieces]
  | cons character rest inductionHypothesis =>
    rw [strayReturns, returnPieces, returnPiecesFrom, returnPiecesFrom]
    by_cases returned : character = '\r'
    · rw [if_pos returned, if_pos returned, firstReturn,
        List.takeWhile_cons_of_neg (by simpa using returned), List.append_nil]
      cases rest <;> rfl
    · have longer : firstReturn (character :: rest) = character :: firstReturn rest :=
        List.takeWhile_cons_of_pos (decide_eq_true returned)
      rw [if_neg returned, if_neg returned, inductionHypothesis, inductionHypothesis, longer]
      simp

/-- The pieces of a line are the first one and the stray ones. -/
theorem returnPieces_eq (line : Text) : returnPieces line = firstReturn line :: strayReturns line :=
  returnPiecesFrom_eq [] line

/-- What stands before the carriage returns belongs to the first piece. -/
theorem returnPieces_append (opening rest : Text) (whole : '\r' ∉ opening) :
    returnPieces (opening ++ rest) = (opening ++ firstReturn rest) :: strayReturns rest := by
  have read (pending : Text) : returnPiecesFrom pending (opening ++ rest) =
      returnPiecesFrom (opening.reverse ++ pending) rest := by
    induction opening generalizing pending with
    | nil => rfl
    | cons character opening inductionHypothesis =>
      rw [List.mem_cons, not_or] at whole
      rw [List.cons_append, returnPiecesFrom, if_neg (Ne.symm whole.1),
        inductionHypothesis whole.2, List.reverse_cons, List.append_assoc]
      rfl
  rw [returnPieces, read, returnPiecesFrom_eq, List.append_nil, List.reverse_reverse]

/-- A line without carriage return is read as it is. -/
theorem returnPieces_of_not_mem (line : Text) (whole : '\r' ∉ line) : returnPieces line = [line] := by
  have read := returnPieces_append line [] whole
  rw [List.append_nil, firstReturn, List.takeWhile_nil, List.append_nil] at read
  exact read

/-- A character of a piece is in the line. -/
theorem mem_returnPiecesFrom (pending line piece : Text) (character : Char)
    (member : piece ∈ returnPiecesFrom pending line) (inside : character ∈ piece) :
    character ∈ pending ∨ character ∈ line := by
  induction line generalizing pending with
  | nil =>
    rw [returnPiecesFrom, List.mem_singleton] at member
    subst member
    exact Or.inl (List.mem_reverse.mp inside)
  | cons first rest inductionHypothesis =>
    rw [returnPiecesFrom] at member
    split at member
    · split at member
      · rw [List.mem_singleton] at member
        subst member
        exact Or.inl (List.mem_reverse.mp inside)
      · rcases List.mem_cons.mp member with rfl | later
        · exact Or.inl (List.mem_reverse.mp inside)
        · rcases inductionHypothesis [] later with none | behind
          · cases none
          · exact Or.inr (List.mem_cons_of_mem _ behind)
    · rcases inductionHypothesis _ member with before | behind
      · rcases List.mem_cons.mp before with rfl | before
        · exact Or.inr List.mem_cons_self
        · exact Or.inl before
      · exact Or.inr (List.mem_cons_of_mem _ behind)

/-- A written line with its line feed, read from a piece that is pending. A line feed directly
behind a carriage return would be taken together with it. -/
theorem universalNewlinesFrom_line (returned : Bool) (pending line rest : Text)
    (plain : '\n' ∉ line) (apart : returned = true → line ≠ []) :
    pending.reverse ++ universalNewlinesFrom returned (line ++ '\n' :: rest) =
      joinLines (returnPiecesFrom pending line) ++ universalNewlinesFrom false rest := by
  induction line generalizing returned pending with
  | nil =>
    have separate : returned = false := by
      cases returned with
      | true => exact absurd rfl (apart rfl)
      | false => rfl
    subst separate
    simp [universalNewlinesFrom, returnPiecesFrom, joinLines]
  | cons character behind inductionHypothesis =>
    rw [List.mem_cons, not_or] at plain
    have notFeed : ¬ (character = '\n' ∧ returned = true) := fun both => plain.1 both.1.symm
    rw [List.cons_append, universalNewlinesFrom, returnPiecesFrom]
    by_cases isReturn : character = '\r'
    · rw [if_pos isReturn, if_pos isReturn]
      cases behind with
      | nil => simp [universalNewlinesFrom, joinLines]
      | cons next behind =>
        have later := inductionHypothesis true [] plain.2 (fun _ => List.cons_ne_nil _ _)
        rw [List.reverse_nil, List.nil_append] at later
        rw [later]
        simp [joinLines]
    · rw [if_neg isReturn, if_neg notFeed, if_neg isReturn,
        ← inductionHypothesis false (character :: pending) plain.2 (fun impossible => by
          cases impossible)]
      simp

/-- Written lines, read in text mode, are the lines that each of them is read as. -/
theorem universalNewlines_joinLines (lines : List Text) (plain : ∀ line ∈ lines, '\n' ∉ line) :
    universalNewlines (joinLines lines) = joinLines (lines.flatMap returnPieces) := by
  rw [universalNewlines]
  induction lines with
  | nil => rfl
  | cons line lines inductionHypothesis =>
    have first := universalNewlinesFrom_line false [] line (joinLines lines) (plain line (by simp))
      (fun impossible => by cases impossible)
    rw [inductionHypothesis fun other member => plain other (List.mem_cons_of_mem _ member)] at first
    simp only [joinLines, List.flatMap_cons, List.append_assoc, List.singleton_append,
      List.flatMap_append] at first ⊢
    exact first

/-- The lines of a written text that is read in text mode. -/
theorem split_universalNewlines (lines : List Text) (plain : ∀ line ∈ lines, '\n' ∉ line) :
    split ['\n'] (universalNewlines (joinLines lines)) = lines.flatMap returnPieces ++ [[]] := by
  rw [universalNewlines_joinLines lines plain]
  refine split_terminated '\n' _ fun piece member feed => ?_
  obtain ⟨line, written, inside⟩ := List.mem_flatMap.mp member
  rcases mem_returnPiecesFrom [] line piece '\n' inside feed with none | inLine
  · cases none
  · exact plain line written inLine

example : split ['\n'] (universalNewlines "a\rb\r\nc".toList) = ["a".toList, "b".toList, "c".toList] := by
  decide +kernel

/-- A character that is no line end stays where it is, and what is in front of it is read on
its own. -/
theorem universalNewlinesFrom_append (returned : Bool) (text rest : Text) (character : Char)
    (notReturn : character ≠ '\r') (notFeed : character ≠ '\n') :
    universalNewlinesFrom returned (text ++ character :: rest) =
      universalNewlinesFrom returned text ++ character :: universalNewlinesFrom false rest := by
  induction text generalizing returned with
  | nil =>
    rw [List.nil_append, universalNewlinesFrom, universalNewlinesFrom, if_neg notReturn,
      if_neg (fun both => notFeed both.1)]
    rfl
  | cons first text inductionHypothesis =>
    rw [List.cons_append, universalNewlinesFrom, universalNewlinesFrom, inductionHypothesis,
      inductionHypothesis]
    split
    · rfl
    · split <;> rfl

/-- Fields that a character ends are read one by one. -/
theorem universalNewlines_terminated (character : Char) (fields : List Text)
    (notReturn : character ≠ '\r') (notFeed : character ≠ '\n') :
    universalNewlines (fields.flatMap (· ++ [character])) =
      (fields.map universalNewlines).flatMap (· ++ [character]) := by
  induction fields with
  | nil => rfl
  | cons field fields inductionHypothesis =>
    rw [List.flatMap_cons, List.append_assoc, List.singleton_append, universalNewlines,
      universalNewlinesFrom_append false field _ character notReturn notFeed, List.map_cons,
      List.flatMap_cons, ← inductionHypothesis, List.append_assoc, List.singleton_append]
    rfl

/-- A translated text has no new characters but line feeds. -/
theorem mem_universalNewlinesFrom (returned : Bool) (text : Text) (character : Char)
    (notFeed : character ≠ '\n') (member : character ∈ universalNewlinesFrom returned text) :
    character ∈ text := by
  induction text generalizing returned with
  | nil => cases member
  | cons first text inductionHypothesis =>
    rw [universalNewlinesFrom] at member
    split at member
    · rcases List.mem_cons.mp member with feed | later
      · exact absurd feed notFeed
      · exact List.mem_cons_of_mem _ (inductionHypothesis true later)
    · split at member
      · exact List.mem_cons_of_mem _ (inductionHypothesis false member)
      · rcases List.mem_cons.mp member with rfl | later
        · exact List.mem_cons_self
        · exact List.mem_cons_of_mem _ (inductionHypothesis false later)

/-- A translated text is not empty unless the text is. -/
theorem universalNewlines_ne_nil (text : Text) (nonempty : text ≠ []) :
    universalNewlines text ≠ [] := by
  cases text with
  | nil => exact absurd rfl nonempty
  | cons first text =>
    rw [universalNewlines, universalNewlinesFrom]
    split
    · exact List.cons_ne_nil _ _
    · rw [if_neg (fun both => Bool.false_ne_true both.2)]
      exact List.cons_ne_nil _ _

/-- A line has no more pieces than the text that it is read as. -/
theorem length_returnPiecesFrom_le (returned : Bool) (known pending line : Text)
    (plain : '\n' ∉ line) :
    (returnPiecesFrom pending line).length ≤
      (splitFrom ['\n'] 0 known (universalNewlinesFrom returned line)).length := by
  have positive (known text : Text) : 1 ≤ (splitFrom ['\n'] 0 known text).length :=
    List.length_pos_iff.mpr (splitFrom_ne_nil ['\n'] 0 known text)
  induction line generalizing returned known pending with
  | nil => exact positive known []
  | cons character rest inductionHypothesis =>
    rw [List.mem_cons, not_or] at plain
    rw [returnPiecesFrom]
    split
    · rename_i isReturn
      split
      · exact positive known _
      · rw [universalNewlinesFrom, if_pos isReturn, splitFrom, if_pos (by rfl)]
        exact Nat.succ_le_succ (inductionHypothesis true [] [] plain.2)
    · rename_i notReturn
      rw [universalNewlinesFrom, if_neg notReturn, if_neg (fun both => plain.1 both.1.symm),
        splitFrom, if_neg (by simpa using plain.1)]
      exact inductionHypothesis false _ _ plain.2

/-- Lines that are joined in front of a rest are split off again. -/
theorem split_joinLines_append (lines : List Text) (rest : Text)
    (plain : ∀ line ∈ lines, '\n' ∉ line) :
    split ['\n'] (joinLines lines ++ rest) = lines ++ split ['\n'] rest := by
  induction lines with
  | nil => rfl
  | cons line lines inductionHypothesis =>
    have cut := split_char '\n' line (joinLines lines ++ rest) (plain line List.mem_cons_self)
    rw [inductionHypothesis fun other member => plain other (List.mem_cons_of_mem _ member)] at cut
    rw [joinLines, List.flatMap_cons, List.append_assoc, List.append_assoc, List.singleton_append]
    exact cut

end VirtTestTools.Text
