import Mathlib.Data.List.Nodup
import TilePuzzle.Proofs.Document.Sections

/-!
# Lines have numbers of their own

The lines of a text are numbered in order, with those inside of comments counted, and dividing the
text into sections drops lines but never changes their order. So the numbers of the lines in a
section grow, and no two rules of a document are read from the same line: what names a line names at
most one rule.

## The invariants

Each of the two stages has one: the finished lines are in order and the line being read comes behind
them (`Scan.IsNumbered`), and the lines of each chunk are in order and come before the lines still
to be divided (`Division.IsOrdered`).
-/

namespace TilePuzzle

/-- The numbers of the lines grow. -/
def Line.IsOrdered (lines : List Line) : Prop := lines.Pairwise fun a b ↦ a.number < b.number

/-! ## Cutting a text into lines -/

namespace Line

/-- The finished lines are in order, and the line being read comes behind them. -/
structure Scan.IsNumbered (scan : Scan) : Prop where
  ordered : IsOrdered scan.lines.reverse
  below : ∀ line ∈ scan.lines, line.number < scan.number

theorem Scan.isNumbered_start : Scan.start.IsNumbered where
  ordered := .nil
  below _ h := absurd h List.not_mem_nil

theorem Scan.IsNumbered.endLine {scan : Scan} (h : scan.IsNumbered) : scan.endLine.IsNumbered where
  ordered := by
    rw [Scan.endLine, List.reverse_cons]
    refine List.pairwise_append.mpr ⟨h.ordered, List.pairwise_singleton .., ?_⟩
    intro line hline last hlast
    obtain rfl := List.mem_singleton.mp hlast
    exact h.below line (List.mem_reverse.mp hline)
  below := by
    refine List.forall_mem_cons.mpr ⟨Nat.lt_succ_self _, fun line hline ↦ ?_⟩
    exact Nat.lt_succ_of_lt (h.below line hline)

theorem Scan.IsNumbered.step {scan : Scan} (h : scan.IsNumbered) (c : Char) :
    (scan.step c).IsNumbered := by
  rw [Scan.step]
  split
  · exact h.endLine
  · split
    · exact ⟨h.ordered, h.below⟩
    · split
      · split
        · exact ⟨h.ordered, h.below⟩
        · exact h
      · exact ⟨h.ordered, h.below⟩

theorem Scan.IsNumbered.finish {scan : Scan} (h : scan.IsNumbered) {lines : List Line}
    (hfinish : scan.finish = .ok lines) : IsOrdered lines := by
  rw [Scan.finish] at hfinish
  split at hfinish
  · cases hfinish
  · split at hfinish
    · cases hfinish
      exact h.ordered
    · cases hfinish
      exact h.endLine.ordered

/-- **The lines of a text are numbered in order.** -/
theorem isOrdered_of_split {source : String} {lines : List Line} (h : split source = .ok lines) :
    IsOrdered lines := by
  refine Scan.IsNumbered.finish ?_ h
  exact List.foldlRecOn (motive := Scan.IsNumbered) source.toList _ Scan.isNumbered_start
    fun _ hscan c _ ↦ hscan.step c

end Line

/-! ## Dividing a text into sections -/

namespace Chunk

/-- The lines of every chunk are in order, and those of the chunk being read come before the lines
still to be read. -/
structure Division.IsOrdered (division : Division) (rest : List Line) : Prop where
  finished : ∀ chunk ∈ division.finished, Line.IsOrdered chunk.lines
  current : Line.IsOrdered (division.lines.reverse ++ rest)

variable {division division' : Division} {line : Line} {rest : List Line}

theorem Division.IsOrdered.skip (h : division.IsOrdered (line :: rest)) :
    division.IsOrdered rest where
  finished := h.finished
  current := h.current.sublist (List.Sublist.append_left (List.sublist_cons_self line rest) _)

theorem Division.IsOrdered.add (h : division.IsOrdered (line :: rest)) :
    (division.add line).IsOrdered rest where
  finished := h.finished
  current := by
    rw [Division.add, List.reverse_cons, List.append_assoc]
    exact h.current

theorem Division.IsOrdered.begin (h : division.IsOrdered (line :: rest)) (name : SectionName) :
    (division.begin name).IsOrdered rest where
  finished := List.forall_mem_cons.mpr
    ⟨h.current.sublist (List.sublist_append_left _ _), h.finished⟩
  current := h.skip.current.sublist (List.sublist_append_right _ _)

theorem Division.IsOrdered.divide {below : Bool} (h : division.IsOrdered rest)
    (hdivide : divide below rest division = .ok division') : division'.IsOrdered [] := by
  induction rest generalizing below division with
  | nil =>
    cases hdivide
    exact h
  | cons line rest ih =>
    rw [Chunk.divide] at hdivide
    split at hdivide
    · exact ih h.skip hdivide
    · split at hdivide
      · split at hdivide
        · cases hdivide
        · exact ih (h.begin _) hdivide
      · split at hdivide
        · cases hdivide
        · exact ih h.add hdivide

/-- **Sections keep the order of the lines.** -/
theorem isOrdered_of_split {lines : List Line} (hlines : Line.IsOrdered lines)
    {chunks : List Chunk} (h : split lines = .ok chunks) :
    ∀ chunk ∈ chunks, Line.IsOrdered chunk.lines := by
  obtain ⟨division, hdivide, rfl⟩ := map_eq_ok_iff.mp h
  have hstart : Division.start.IsOrdered lines := ⟨fun _ h ↦ absurd h List.not_mem_nil, hlines⟩
  have hordered := hstart.divide hdivide
  intro chunk hchunk
  rcases List.mem_cons.mp (List.mem_reverse.mp hchunk) with rfl | hchunk
  · have hcurrent := hordered.current
    rwa [List.append_nil] at hcurrent
  · exact hordered.finished chunk hchunk

end Chunk

/-! ## Rules -/

/-- The rules of a document are in the order of their lines. -/
def Document.IsNumbered (document : Document) : Prop :=
  document.rules.Pairwise fun a b ↦ a.line < b.line

theorem RuleDeclaration.line_of_ofLine {line : Line} {declaration : RuleDeclaration}
    (h : ofLine line = .ok declaration) : declaration.line = line.number := by
  obtain ⟨front, -, h⟩ := bind_eq_ok_iff.mp (mapError_eq_ok_iff.mp h)
  obtain ⟨opened, -, h⟩ := bind_eq_ok_iff.mp h
  obtain ⟨left, -, h⟩ := bind_eq_ok_iff.mp h
  obtain ⟨arrowed, -, h⟩ := bind_eq_ok_iff.mp h
  obtain ⟨right, -, h⟩ := bind_eq_ok_iff.mp h
  obtain ⟨commands, -, h⟩ := bind_eq_ok_iff.mp h
  obtain rfl := pure_eq_ok_iff.mp h
  rfl

theorem RuleDeclaration.pairwise_of_mapM_ofLine {lines : List Line} (hlines : Line.IsOrdered lines)
    {rules : List RuleDeclaration} (h : lines.mapM ofLine = .ok rules) :
    rules.Pairwise fun a b ↦ a.line < b.line := by
  have hnumbers : rules.map RuleDeclaration.line = lines.map Line.number :=
    map_of_mapM_eq_ok (fun _ _ hline ↦ line_of_ofLine hline) h
  rw [← List.pairwise_map, hnumbers, List.pairwise_map]
  exact hlines

namespace Document

theorem IsNumbered.readChunk {document document' : Document} (h : document.IsNumbered)
    {chunk : Chunk} (hchunk : Line.IsOrdered chunk.lines)
    (hread : document.readChunk chunk = .ok document') : document'.IsNumbered := by
  rcases (readChunk_cases hread).1 with hrules | hrules
  · rw [IsNumbered, hrules]
    exact h
  · exact RuleDeclaration.pairwise_of_mapM_ofLine (hchunk.filter _) hrules

/-- **The rules of a text are in the order of their lines.** -/
theorem isNumbered_of_read {source : String} {document : Document}
    (h : (read source).Gives document) : document.IsNumbered := by
  obtain ⟨lines, hlines, h⟩ := Logged.Gives.bind h
  obtain ⟨chunks, hchunks, h⟩ := Logged.Gives.bind h
  have hordered := Chunk.isOrdered_of_split (Line.isOrdered_of_split (Logged.Gives.lift hlines))
    (Logged.Gives.lift hchunks)
  refine h.foldlM ?_ .nil
  intro before chunk after hchunk hstep hbefore
  obtain ⟨-, -, hread⟩ := Logged.Gives.bind hstep
  exact hbefore.readChunk (hordered chunk hchunk) (Logged.Gives.lift hread)

theorem IsNumbered.eq_of_line_eq {document : Document} (h : document.IsNumbered)
    {a b : RuleDeclaration} (ha : a ∈ document.rules) (hb : b ∈ document.rules)
    (hline : a.line = b.line) : a = b := by
  have hnodup : (document.rules.map RuleDeclaration.line).Nodup :=
    List.pairwise_map.mpr (h.imp fun hlt ↦ Nat.ne_of_lt hlt)
  exact List.inj_on_of_nodup_map hnodup ha hb hline

end Document

end TilePuzzle
