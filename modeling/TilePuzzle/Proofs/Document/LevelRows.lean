import TilePuzzle.Proofs.Document.Sections

/-!
# The lines of a level

The rows of a level are written on lines that follow each other once the separators are left out. Of
these lines a drawing keeps the number of the first alone. The line of any other row lies below it
by as many lines as there are rows before, and by one more for each separator in between.

## The invariant

While a section is read, every finished level is written on lines that follow each other, and the
present one is written on the last lines that were read (`Reading.Reads`). Separators are dropped
before, when the document is divided into sections, so the lines of a section need not follow each
other in the text.
-/

namespace TilePuzzle

namespace Drawing

/-- The rows of a drawing are written on some lines, one on each. -/
structure IsWrittenOn (drawing : Drawing) (written : List Line) : Prop where
  rows_eq : drawing.rows = written.map Line.text
  line_eq : written.head?.map Line.number = some drawing.line

/-! ## Reading a section -/

/-- What is known after some lines: every level is written on lines that follow each other, and the
one being read on the last of them. -/
structure Reading.Reads (reading : Reading) (lines : List Line) : Prop where
  finished : ∀ drawing ∈ reading.finished, ∃ written, written <:+: lines ∧
    drawing.IsWrittenOn written
  current : ∀ first rows, reading.current = some (first, rows) → ∃ written, written <:+ lines ∧
    IsWrittenOn ⟨first, rows.reverse⟩ written

variable {reading : Reading} {lines : List Line} {drawing : Drawing}

theorem Reading.reads_nil : Reading.Reads ⟨[], none⟩ [] where
  finished := nofun
  current := nofun

theorem Reading.Reads.drawings (h : reading.Reads lines) (hdrawing : drawing ∈ reading.drawings) :
    ∃ written, written <:+: lines ∧ drawing.IsWrittenOn written := by
  rw [Reading.drawings] at hdrawing
  split at hdrawing
  · exact h.finished drawing hdrawing
  · next first rows hcurrent =>
    rcases List.mem_cons.mp hdrawing with rfl | hdrawing
    · obtain ⟨written, hsuffix, hwritten⟩ := h.current first rows hcurrent
      exact ⟨written, hsuffix.isInfix, hwritten⟩
    · exact h.finished drawing hdrawing

theorem Reading.Reads.step (h : reading.Reads lines) (line : Line) :
    (reading.step line).Reads (lines ++ [line]) := by
  have hlater : ∀ {written : List Line}, written <:+: lines → written <:+: lines ++ [line] :=
    fun hwritten ↦ hwritten.trans (List.prefix_append lines [line]).isInfix
  rw [Reading.step]
  split
  · refine ⟨fun drawing hdrawing ↦ ?_, nofun⟩
    obtain ⟨written, hrun, hwritten⟩ := h.drawings hdrawing
    exact ⟨written, hlater hrun, hwritten⟩
  · have hfinished : ∀ drawing ∈ reading.finished, ∃ written, written <:+: lines ++ [line] ∧
        drawing.IsWrittenOn written := by
      intro drawing hdrawing
      obtain ⟨written, hrun, hwritten⟩ := h.finished drawing hdrawing
      exact ⟨written, hlater hrun, hwritten⟩
    split
    · refine ⟨hfinished, ?_⟩
      rintro first rows hcurrent
      obtain ⟨rfl, rfl⟩ := Prod.mk.inj (Option.some.inj hcurrent)
      exact ⟨[line], List.suffix_append lines [line], rfl, rfl⟩
    · next first rows hcurrent =>
      refine ⟨hfinished, ?_⟩
      rintro first' rows' hcurrent'
      obtain ⟨rfl, rfl⟩ := Prod.mk.inj (Option.some.inj hcurrent')
      obtain ⟨written, ⟨before, rfl⟩, hrows, hline⟩ := h.current first rows hcurrent
      refine ⟨written ++ [line], ⟨before, (List.append_assoc ..).symm⟩, ?_, ?_⟩
      · rw [List.map_append, ← hrows]
        exact List.reverse_cons
      · rcases written with _ | ⟨head, written⟩
        · cases hline
        · exact hline

theorem Reading.reads_foldl (lines : List Line) :
    (lines.foldl Reading.step ⟨[], none⟩).Reads lines := by
  induction lines using List.reverseRecOn with
  | nil => exact Reading.reads_nil
  | append_singleton lines line ih =>
    rw [List.foldl_append]
    exact ih.step line

theorem exists_written_of_mem_ofLines (h : drawing ∈ ofLines lines) :
    ∃ written, written <:+: lines ∧ drawing.IsWrittenOn written :=
  (Reading.reads_foldl lines).drawings (List.mem_reverse.mp h)

end Drawing

/-! ## Reading a document -/

theorem Chunk.IsWrittenAs.suffix {chunk : Chunk} {part : List Line} (h : IsWrittenAs chunk part) :
    chunk.lines <:+ part := by
  rcases h with _ | _
  · exact List.suffix_refl _
  · exact List.suffix_cons _ _

/-- The lines of a chunk follow each other once the separators are left out. -/
theorem Chunk.Divides.isInfix {chunks : List Chunk} {lines : List Line} (h : Divides chunks lines)
    {chunk : Chunk} (hchunk : chunk ∈ chunks) :
    chunk.lines <:+: lines.filter fun line ↦ !line.isSeparator := by
  obtain ⟨parts, hparts, hflatten⟩ := h.written
  rw [← hflatten]
  clear hflatten h
  induction hparts with
  | nil => exact absurd hchunk List.not_mem_nil
  | @cons first part chunks parts hpart hparts ih =>
    rw [List.flatten_cons]
    rcases List.mem_cons.mp hchunk with rfl | hchunk
    · exact hpart.suffix.isInfix.trans (List.prefix_append part _).isInfix
    · exact (ih hchunk).trans (List.suffix_append part _).isInfix

namespace Document

/-- Every level is written on lines that follow each other once the separators are left out. -/
def IsDrawnOn (document : Document) (lines : List Line) : Prop :=
  ∀ drawing ∈ document.levels, ∃ written,
    written <:+: (lines.filter fun line ↦ !line.isSeparator) ∧ drawing.IsWrittenOn written

/-- **The levels of a text are drawn on its lines.** -/
theorem exists_isDrawnOn_of_read {source : String} {document : Document}
    (h : (read source).Gives document) :
    ∃ lines, Line.split source = .ok lines ∧ document.IsDrawnOn lines := by
  obtain ⟨lines, hlines, h⟩ := Logged.Gives.bind h
  obtain ⟨chunks, hchunks, h⟩ := Logged.Gives.bind h
  have hdivides := Chunk.divides_of_split (Logged.Gives.lift hchunks)
  refine ⟨lines, Logged.Gives.lift hlines, ?_⟩
  refine h.foldlM (P := fun document ↦ document.IsDrawnOn lines) ?_ nofun
  intro before chunk after hchunk hstep hbefore drawing hdrawing
  obtain ⟨-, -, hread⟩ := Logged.Gives.bind hstep
  rcases (readChunk_cases (Logged.Gives.lift hread)).2 with hlevels | hlevels
  · exact hbefore drawing (hlevels ▸ hdrawing)
  · rw [hlevels] at hdrawing
    obtain ⟨written, hrun, hwritten⟩ := Drawing.exists_written_of_mem_ofLines hdrawing
    exact ⟨written, hrun.trans (hdivides.isInfix hchunk), hwritten⟩

end Document

/-! ## The line of a row -/

/-- What is left of a list after some elements are left out, cut before one of them. -/
theorem exists_of_filter_eq {α : Type} {p : α → Bool} {xs front run back : List α} {x : α}
    (h : xs.filter p = front ++ (run ++ x :: back)) :
    ∃ above between below, xs = above ++ (between ++ x :: below) ∧ between.filter p = run ∧
      between.head?.getD x = run.head?.getD x := by
  obtain ⟨above, rest, rfl, -, hrest⟩ := List.filter_eq_append_iff.mp h
  -- what is left out before the first element of the run belongs to the part above
  rcases run with _ | ⟨first, run⟩
  · obtain ⟨gap, below, rfl, -⟩ := List.filter_eq_cons_iff.mp hrest
    exact ⟨above ++ gap, [], below, (List.append_assoc ..).symm, rfl, rfl⟩
  · obtain ⟨gap, rest, rfl, -, hfirst, hrest⟩ := List.filter_eq_cons_iff.mp hrest
    obtain ⟨between, rest, rfl, hbetween, hrest⟩ := List.filter_eq_append_iff.mp hrest
    obtain ⟨gap', below, rfl, hgap', -⟩ := List.filter_eq_cons_iff.mp hrest
    refine ⟨above ++ gap, first :: (between ++ gap'), below, ?_, ?_, rfl⟩
    · simp only [List.append_assoc, List.cons_append]
    · rw [List.filter_cons, if_pos hfirst, List.filter_append, hbetween,
        List.filter_eq_nil_iff.mpr hgap', List.append_nil]

namespace Drawing

/-- A row of a drawing is written on a line: from the line of the first row down to this one, the
lines that are no separators are the rows above it. -/
structure IsRowAt (drawing : Drawing) (lines : List Line) (place : Nat) (between : List Line)
    (row : Line) : Prop where
  placed : ∃ above below, lines = above ++ (between ++ row :: below) ∧
    drawing.line = above.length + 1
  above : (between.filter fun line ↦ !line.isSeparator).map Line.text = drawing.rows.take place
  text : drawing.rows[place]? = some row.text
  isSeparator : row.isSeparator = false
  number : row.number = drawing.line + between.length

variable {drawing : Drawing} {lines between : List Line} {place : Nat} {row : Line}

/-- **The line of a row lies below the first one** by the rows before it and the separators in
between. -/
theorem IsRowAt.number_eq (h : drawing.IsRowAt lines place between row) :
    row.number = drawing.line + place + between.countP Line.isSeparator := by
  have hplace : place < drawing.rows.length := (List.getElem?_eq_some_iff.mp h.text).1
  have hrows : (between.filter fun line ↦ !line.isSeparator).length = place := by
    rw [← List.length_map Line.text, h.above, List.length_take]
    exact Nat.min_eq_left (Nat.le_of_lt hplace)
  rw [h.number, List.length_eq_length_filter_add Line.isSeparator, hrows,
    List.countP_eq_length_filter, Nat.add_comm (List.length _), Nat.add_assoc]

theorem IsWrittenOn.exists_isRowAt {source : String} {written : List Line}
    (hlines : Line.split source = .ok lines)
    (hrun : written <:+: lines.filter fun line ↦ !line.isSeparator)
    (h : drawing.IsWrittenOn written) (hplace : place < drawing.rows.length) :
    ∃ between row, drawing.IsRowAt lines place between row := by
  have hlt : place < written.length := by
    rwa [h.rows_eq, List.length_map] at hplace
  obtain ⟨front, back, hfilter⟩ := hrun
  have hcut : written = written.take place ++ written[place] :: written.drop (place + 1) := by
    rw [List.getElem_cons_drop, List.take_append_drop]
  rw [hcut, List.append_assoc, List.append_assoc] at hfilter
  obtain ⟨above, between, below, rfl, hbetween, hhead⟩ := exists_of_filter_eq hfilter.symm
  have hfirst : ((written.take place).head?.getD written[place]).number = drawing.line := by
    have hline := h.line_eq
    rw [hcut, List.head?_append, List.head?_cons, Option.or_some, Option.map_some] at hline
    exact Option.some.inj hline
  have habove : drawing.line = above.length + 1 := by
    rw [← hfirst, ← hhead]
    rcases between with _ | ⟨first, between⟩
    · exact Line.number_of_split hlines
    · exact Line.number_of_split hlines
  have hrow : written[place] ∈ (above ++ (between ++ written[place] :: below)).filter
      fun line ↦ !line.isSeparator := by
    rw [← hfilter]
    exact List.mem_append_right _ (List.mem_append_right _ List.mem_cons_self)
  refine ⟨between, written[place], ⟨above, below, rfl, habove⟩, ?_, ?_, ?_, ?_⟩
  · rw [hbetween, h.rows_eq, List.map_take]
  · simp [h.rows_eq, hlt]
  · exact (Bool.not_eq_eq_eq_not ..).mp (List.mem_filter.mp hrow).2
  · rw [← List.append_assoc] at hlines
    rw [Line.number_of_split hlines, List.length_append, habove, Nat.add_right_comm]

end Drawing

end TilePuzzle
