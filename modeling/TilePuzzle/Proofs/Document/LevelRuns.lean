import TilePuzzle.Proofs.Blank
import TilePuzzle.Proofs.Document.LevelRows

/-!
# Levels are the maximal runs of rows

A row of a level is a line that is neither blank nor a message. Rows that follow each other belong
to one level, so a section has a level for every maximal run of rows, wherever the run begins and
whatever ends it. Of the messages nothing is kept, but each of them is reported.

## Runs

`IsMaximalRun` says of elements of a list that they satisfy a predicate and that the elements next
to them do not. How runs change when a list grows at its end is all that the reader needs: an
element that fails the predicate ends a run, and elements that satisfy it at the end of the list are
a run of their own (`isMaximalRun_append_iff`).

## The invariant

The finished levels are the runs of the lines up to one that is no row, and all lines behind it are
the rows of the present level (`Reading.Lists`).

## Messages

What counts as a message is decided by the first word of the line, in any ASCII case
(`isMessage_iff`).
-/

namespace TilePuzzle

/-! ## Runs -/

section Runs

variable {α : Type}

/-- Elements that satisfy `p` follow each other from a place on, and neither the element before them
nor the one behind them satisfies it. -/
structure IsMaximalRun (p : α → Bool) (xs : List α) (place : Nat) (run : List α) : Prop where
  ne_nil : run ≠ []
  all : ∀ x ∈ run, p x = true
  placed : ∃ above below, xs = above ++ run ++ below ∧ above.length = place ∧
    above.getLast?.any p = false ∧ below.head?.any p = false

variable {p : α → Bool} {xs run above tail : List α} {place : Nat}

theorem not_isMaximalRun_nil : ¬IsMaximalRun p [] place run := by
  rintro ⟨hne, -, above, below, hnil, -⟩
  rw [List.append_assoc, eq_comm, List.append_eq_nil_iff, List.append_eq_nil_iff] at hnil
  exact hne hnil.2.1

theorem IsMaximalRun.place_lt (h : IsMaximalRun p xs place run) : place < xs.length := by
  obtain ⟨hne, -, above, below, rfl, rfl, -⟩ := h
  have hpos := List.length_pos_iff.mpr hne
  rw [List.length_append, List.length_append]
  omega

theorem eq_nil_of_getLast? {front : List α} (hlast : (front ++ tail).getLast?.any p = false)
    (hall : ∀ x ∈ tail, p x = true) : tail = [] := by
  rcases List.eq_nil_or_concat tail with htail | ⟨rest, x, rfl⟩
  · exact htail
  · rw [List.concat_eq_append, ← List.append_assoc, List.getLast?_concat] at hlast
    rw [List.concat_eq_append, List.forall_mem_append, List.forall_mem_singleton] at hall
    rw [Option.any_some, hall.2] at hlast
    cases hlast

theorem eq_nil_of_head? (hhead : tail.head?.any p = false) (hall : ∀ x ∈ tail, p x = true) :
    tail = [] := by
  cases tail with
  | nil => rfl
  | cons x rest =>
    rw [List.head?_cons, Option.any_some, hall x List.mem_cons_self] at hhead
    cases hhead

/-- The runs of a list that ends with elements satisfying `p` are those of the part before, and the
end if there is one. -/
theorem isMaximalRun_append_iff (habove : above.getLast?.any p = false)
    (htail : ∀ x ∈ tail, p x = true) : IsMaximalRun p (above ++ tail) place run ↔
      IsMaximalRun p above place run ∨ tail ≠ [] ∧ place = above.length ∧ run = tail := by
  constructor
  · rintro ⟨hne, hall, front, back, heq, rfl, hfront, hback⟩
    rcases List.append_eq_append_iff.mp heq with ⟨rest, hrun, rfl⟩ | ⟨rest, rfl, rfl⟩
    · -- the run goes into the end, so it begins and ends with it
      rw [List.forall_mem_append] at htail
      obtain rfl := eq_nil_of_head? hback htail.2
      rw [List.append_nil]
      rcases List.append_eq_append_iff.mp hrun with ⟨gap, rfl, rfl⟩ | ⟨gap, rfl, rfl⟩
      · rw [List.forall_mem_append] at hall
        obtain rfl := eq_nil_of_getLast? habove hall.1
        rw [List.append_nil]
        exact .inr ⟨hne, rfl, rfl⟩
      · rw [List.forall_mem_append] at htail
        obtain rfl := eq_nil_of_getLast? hfront htail.1.1
        rw [List.append_nil]
        exact .inr ⟨hne, rfl, rfl⟩
    · refine .inl ⟨hne, hall, front, rest, rfl, rfl, hfront, ?_⟩
      cases rest with
      | nil => rfl
      | cons x rest => exact hback
  · rintro (⟨hne, hall, front, back, rfl, rfl, hfront, hback⟩ | ⟨hne, rfl, rfl⟩)
    · refine ⟨hne, hall, front, back ++ tail, List.append_assoc .., rfl, hfront, ?_⟩
      cases back with
      | nil =>
        rw [List.append_nil] at habove
        exact absurd (eq_nil_of_getLast? habove hall) hne
      | cons x back => exact hback
    · exact ⟨hne, htail, above, [], (List.append_nil _).symm, rfl, habove, rfl⟩

/-- An element that fails `p` ends a run and begins none. -/
theorem isMaximalRun_concat_iff {x : α} (hx : p x = false) :
    IsMaximalRun p (xs ++ [x]) place run ↔ IsMaximalRun p xs place run := by
  constructor
  · rintro ⟨hne, hall, front, back, heq, rfl, hfront, hback⟩
    rcases List.eq_nil_or_concat back with rfl | ⟨rest, y, rfl⟩
    · rw [List.append_nil] at heq
      have hlast : (front ++ run).getLast?.any p = false := by
        rw [← heq, List.getLast?_concat]
        exact hx
      exact absurd (eq_nil_of_getLast? hlast hall) hne
    · rw [List.concat_eq_append] at heq hback
      rw [← List.append_assoc] at heq
      obtain ⟨rfl, -⟩ := List.append_inj' heq rfl
      refine ⟨hne, hall, front, rest, rfl, rfl, hfront, ?_⟩
      cases rest with
      | nil => rfl
      | cons z rest => exact hback
  · rintro ⟨hne, hall, front, back, rfl, rfl, hfront, hback⟩
    refine ⟨hne, hall, front, back ++ [x], List.append_assoc .., rfl, hfront, ?_⟩
    cases back with
    | nil => exact hx
    | cons y back => exact hback

end Runs

/-! ## Levels -/

namespace Drawing

/-- A message is a line whose first word is `message`, in any ASCII case; what follows the word is
set off by a blank. -/
theorem isMessage_iff {line : Line} : isMessage line = true ↔
    ∃ front word back, line.text.toList = front ++ word ++ back ∧
      (∀ c ∈ front, Text.isBlank c = true) ∧ word.map Char.toLower = "message".toList ∧
      back.head?.all Text.isBlank = true := by
  have hwords : isMessage line = true ↔ ∃ word,
      (Text.pieces Text.isBlank line.text.toList).head? = some word ∧
        word.map Char.toLower = "message".toList := by
    rw [isMessage, Text.words, List.head?_map, Option.any_map, Option.any_eq_true]
    refine exists_congr fun word ↦ and_congr_right' ?_
    have htext : (String.ofList word).toList = word := String.toList_ofList
    rw [Text.sameWord, beq_iff_eq, Text.foldChars, Text.foldChars, htext, eq_comm]
    rfl
  rw [hwords]
  constructor
  · rintro ⟨word, hhead, hword⟩
    obtain ⟨front, back, htext, -, hfront, -, hback⟩ := Text.head?_pieces_eq_some_iff.mp hhead
    exact ⟨front, word, back, htext, hfront, hword, hback⟩
  · rintro ⟨front, word, back, htext, hfront, hword, hback⟩
    refine ⟨word, Text.head?_pieces_eq_some_iff.mpr ⟨front, back, htext, ?_, hfront, ?_, hback⟩,
      hword⟩
    · rintro rfl
      cases hword
    · -- a blank has no other case, and `message` has no blank
      intro c hc
      refine Bool.eq_false_iff.mpr fun hblank ↦ ?_
      have hmem : c.toLower ∈ "message".toList := hword ▸ List.mem_map_of_mem hc
      rw [Text.toLower_eq_self (.inl hblank)] at hmem
      have hletters : "message".toList.any Text.isBlank = false := by decide
      exact ne_true_of_eq_false hletters (List.any_eq_true.mpr ⟨c, hmem, hblank⟩)

/-- A line is a row of a level: it is neither blank nor a message. -/
def isRow (line : Line) : Bool := !line.isBlank && !isMessage line

/-- The maximal runs of rows among some lines, in order, each with its place. -/
structure AreRuns (runs : List (Nat × List Line)) (lines : List Line) : Prop where
  sorted : runs.Pairwise fun run next ↦ run.1 < next.1
  mem_iff : ∀ place run, (place, run) ∈ runs ↔ IsMaximalRun isRow lines place run

/-- Drawings are written on the lines of runs. -/
def AreWrittenOn (drawings : List Drawing) (runs : List (Nat × List Line)) : Prop :=
  List.Forall₂ (fun run drawing ↦ drawing.IsWrittenOn run.2) runs drawings

variable {runs : List (Nat × List Line)} {lines above tail : List Line} {reading : Reading}

theorem areRuns_nil : AreRuns [] [] where
  sorted := .nil
  mem_iff _ _ := iff_of_false List.not_mem_nil not_isMaximalRun_nil

theorem AreRuns.concat (h : AreRuns runs lines) {line : Line} (hline : isRow line = false) :
    AreRuns runs (lines ++ [line]) where
  sorted := h.sorted
  mem_iff place run := (h.mem_iff place run).trans (isMaximalRun_concat_iff hline).symm

theorem AreRuns.append (h : AreRuns runs above) (habove : above.getLast?.any isRow = false)
    (htail : ∀ line ∈ tail, isRow line = true) (hne : tail ≠ []) :
    AreRuns (runs ++ [(above.length, tail)]) (above ++ tail) where
  sorted := by
    refine List.pairwise_append.mpr ⟨h.sorted, List.pairwise_singleton _ _, ?_⟩
    rintro ⟨place, run⟩ hrun last hlast
    obtain rfl := List.mem_singleton.mp hlast
    exact ((h.mem_iff place run).mp hrun).place_lt
  mem_iff place run := by
    simp [isMaximalRun_append_iff habove htail, h.mem_iff, hne]

/-- What is known after some lines: the finished levels are the runs of the lines up to one that is
no row, and all lines behind it are the rows of the present level. -/
structure Reading.Lists (reading : Reading) (runs : List (Nat × List Line))
    (above tail : List Line) : Prop where
  above_last : above.getLast?.any isRow = false
  tail_all : ∀ line ∈ tail, isRow line = true
  areRuns : AreRuns runs above
  finished : AreWrittenOn reading.finished.reverse runs
  current : reading.current =
    tail.head?.map fun first ↦ (first.number, (tail.map Line.text).reverse)

theorem Reading.lists_nil : Reading.Lists ⟨[], none⟩ [] [] [] where
  above_last := rfl
  tail_all := nofun
  areRuns := areRuns_nil
  finished := .nil
  current := rfl

/-- If the present level ends here, the levels are the runs of all lines. -/
theorem Reading.Lists.drawings (h : reading.Lists runs above tail) :
    ∃ all, AreRuns all (above ++ tail) ∧ AreWrittenOn reading.drawings.reverse all := by
  rw [Reading.drawings, h.current]
  cases htail : tail with
  | nil =>
    rw [List.append_nil]
    exact ⟨runs, h.areRuns, h.finished⟩
  | cons first rest =>
    rw [← htail]
    have hne : tail ≠ [] := htail ▸ List.cons_ne_nil first rest
    refine ⟨_, h.areRuns.append h.above_last h.tail_all hne, ?_⟩
    have hlast : IsWrittenOn ⟨first.number, (tail.map Line.text).reverse.reverse⟩ tail :=
      ⟨List.reverse_reverse _, congrArg (·.head?.map Line.number) htail⟩
    rw [htail, List.head?_cons, Option.map_some]
    dsimp only
    rw [List.reverse_cons, ← htail]
    exact List.rel_append h.finished (.cons hlast .nil)

theorem isRow_eq_false_iff {line : Line} :
    isRow line = false ↔ (line.isBlank || isMessage line) = true := by
  rw [isRow]
  cases line.isBlank <;> cases isMessage line <;> decide

theorem Reading.Lists.step_break (h : reading.Lists runs above tail) {line : Line}
    (hline : isRow line = false) :
    ∃ all, (reading.step line).Lists all (above ++ tail ++ [line]) [] := by
  obtain ⟨all, hruns, hdrawings⟩ := h.drawings
  rw [Reading.step, if_pos (isRow_eq_false_iff.mp hline)]
  refine ⟨all, ?_, List.forall_mem_nil _, hruns.concat hline, hdrawings, rfl⟩
  rw [List.getLast?_concat]
  exact hline

theorem Reading.Lists.step_row (h : reading.Lists runs above tail) {line : Line}
    (hline : isRow line = true) : (reading.step line).Lists runs above (tail ++ [line]) := by
  have hall : ∀ row ∈ tail ++ [line], isRow row = true :=
    List.forall_mem_append.mpr ⟨h.tail_all, List.forall_mem_singleton.mpr hline⟩
  have hrow : ¬(line.isBlank || isMessage line) = true := by
    rw [← isRow_eq_false_iff, hline]
    decide
  rw [Reading.step, if_neg hrow, h.current]
  cases tail with
  | nil => exact ⟨h.above_last, hall, h.areRuns, h.finished, rfl⟩
  | cons first rest =>
    refine ⟨h.above_last, hall, h.areRuns, h.finished, ?_⟩
    rw [List.map_append, List.reverse_append]
    rfl

theorem Reading.exists_lists_foldl (lines : List Line) : ∃ runs above tail,
    lines = above ++ tail ∧ (lines.foldl Reading.step ⟨[], none⟩).Lists runs above tail := by
  induction lines using List.reverseRecOn with
  | nil => exact ⟨[], [], [], rfl, Reading.lists_nil⟩
  | append_singleton lines line ih =>
    obtain ⟨runs, above, tail, rfl, h⟩ := ih
    rw [List.foldl_append]
    cases hline : isRow line with
    | false =>
      obtain ⟨all, hall⟩ := h.step_break hline
      exact ⟨all, _, [], (List.append_nil _).symm, hall⟩
    | true => exact ⟨runs, above, tail ++ [line], List.append_assoc .., h.step_row hline⟩

theorem exists_areRuns_ofLines (lines : List Line) :
    ∃ runs, AreRuns runs lines ∧ AreWrittenOn (ofLines lines) runs := by
  obtain ⟨runs, above, tail, rfl, h⟩ := Reading.exists_lists_foldl lines
  exact h.drawings

end Drawing

/-! ## Messages -/

theorem Logged.runOn_forM_info {ε α : Type} (message : α → String) (xs : List α) (log : Log) :
    (xs.forM fun x ↦ (Logged.info (message x) : Logged ε Unit)).runOn log =
      (.ok (), ⟨log.notes ++ (xs.map fun x ↦ ⟨.info, message x⟩).toArray⟩) :=
  writes_forM (fun x ↦ writes_info (message x)) xs log

namespace Document

/-- **Levels are the maximal runs of rows.** A section of levels has one level for every maximal run
of lines that are neither blank nor messages, in the order of the runs; its rows are the lines of
the run, and its line is the first of them. Reading the section leaves a note for every message, in
order, and no other. -/
theorem readLevels_runs (lines : List Line) (document : Document) (log : Log) :
    (∃ runs : List (Nat × List Line), runs.Pairwise (fun run next ↦ run.1 < next.1) ∧
      (∀ place run, (place, run) ∈ runs ↔ IsMaximalRun Drawing.isRow lines place run) ∧
      List.Forall₂ (fun run drawing ↦ drawing.IsWrittenOn run.2) runs (Drawing.ofLines lines)) ∧
    Logged.runOn (do
        reportSkipped ⟨some .levels, lines⟩
        Logged.lift (document.readChunk ⟨some .levels, lines⟩)) log =
      (.ok { document with levels := Drawing.ofLines lines },
        ⟨log.notes ++ ((lines.filter Drawing.isMessage).map fun line ↦
          ⟨.info, s!"line {line.number}: skipping level message"⟩).toArray⟩) := by
  constructor
  · obtain ⟨runs, hruns, hwritten⟩ := Drawing.exists_areRuns_ofLines lines
    exact ⟨runs, hruns.sorted, hruns.mem_iff, hwritten⟩
  · have hreport : (reportSkipped ⟨some .levels, lines⟩).runOn log =
        (.ok (), ⟨log.notes ++ ((lines.filter Drawing.isMessage).map fun line ↦
          ⟨.info, s!"line {line.number}: skipping level message"⟩).toArray⟩) := by
      rw [reportSkipped, if_pos rfl]
      refine (Logged.runOn_forM_info _ _ log).trans ?_
      rw [Drawing.messageLines, List.map_map]
      rfl
    exact Logged.runOn_bind_of_ok hreport

/-- Two messages divide a section into two levels, while a word that only begins like one is a row;
the blank line and the second message, which follow each other, make no level between them. -/
example : Drawing.ofLines [⟨1, "P."⟩, ⟨2, "messages"⟩, ⟨3, "Message hi"⟩, ⟨4, ""⟩, ⟨5, "MESSAGE"⟩,
    ⟨6, ".P"⟩] = [⟨1, ["P.", "messages"]⟩, ⟨6, [".P"]⟩] := by decide

end Document

end TilePuzzle
