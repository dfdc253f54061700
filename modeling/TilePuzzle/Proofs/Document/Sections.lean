import Mathlib.Data.List.Forall2
import Mathlib.Data.List.Induction
import Mathlib.Data.List.Nodup
import TilePuzzle.Document
import TilePuzzle.Proofs.Document.Comments
import TilePuzzle.Proofs.Outcome

/-!
# The sections divide a document

A document without its separators is the prelude followed by its sections, each written as its
header and the lines under it. So every line belongs to the nearest header above it and to no other.

There are two faults by which a document cannot be divided: a header occurs again, or a line between
two separators is no header. The first line with a fault is the one that is reported.

## The invariant

`Divides` is the invariant of the division and its result at once: at any time the finished chunks
and the one being read divide the lines that have been read. A header begins a chunk, a separator is
passed, and any other line is added to the chunk being read. Dividing ends with the first line that
has a fault, and otherwise with the document (`divide_cases`).

## What a section declares

Reading a chunk changes one part of a document. Of the rules and the levels, whose order and lines
matter later, this is said at the end (`Document.readChunk_cases`).
-/

namespace TilePuzzle

namespace Line

/-- The section of which the line is the header. -/
def header? (line : Line) : Option SectionName := SectionName.ofWord? line.text

theorem header?_of_isSeparator {line : Line} (h : line.isSeparator = true) :
    line.header? = none := by
  have hbars : ∀ c ∈ Text.foldChars line.text, c = '=' := by
    intro c hc
    obtain ⟨d, hd, rfl⟩ := List.mem_map.mp hc
    rw [isSeparator, Bool.and_eq_true, List.all_eq_true] at h
    rw [eq_of_beq (h.2 d hd)]
    rfl
  have hword : ∀ name : SectionName, ∃ c ∈ Text.foldChars name.word, c ≠ '=' := by
    intro name
    cases name <;> exact ⟨_, List.mem_cons_self, by decide⟩
  rw [header?, SectionName.ofWord?, Text.readWord?, List.find?_eq_none]
  intro name _ hsame
  obtain ⟨c, hc, hne⟩ := hword name
  exact hne (hbars c (eq_of_beq hsame ▸ hc))

end Line

namespace Chunk

/-! ## Faults -/

/-- The headers among some lines, in order. -/
def headers (lines : List Line) : List SectionName := lines.filterMap Line.header?

/-- A line has a fault, given the lines above and below it: it is a header that has occurred, or it
is none although it stands between two separators. -/
inductive HasFault (above : List Line) (line : Line) (below : List Line) : SyntaxFault → Prop
  | repeated {name : SectionName} (header : line.header? = some name)
      (occurs : name ∈ headers above) : HasFault above line below (.duplicateSection name)
  | framed (header : line.header? = none) (separator : line.isSeparator = false)
      (above_bar : above.getLast?.any Line.isSeparator = true)
      (below_bar : below.head?.any Line.isSeparator = true) :
      HasFault above line below (.unknownSection line.text)

/-- No line of the first part of a document has a fault. -/
def IsFaultless (lines rest : List Line) : Prop :=
  ∀ above line below, lines = above ++ line :: below →
    ∀ fault, ¬HasFault above line (below ++ rest) fault

/-- An error is about the first line that has a fault. -/
def IsFirstFault (lines : List Line) (error : SyntaxError) : Prop :=
  ∃ above line below, lines = above ++ line :: below ∧ IsFaultless above (line :: below) ∧
    HasFault above line below error.fault ∧ error.line = line.number

/-! ## Divisions -/

/-- The lines that a chunk is written as: its header, unless it is the prelude, and its lines. -/
inductive IsWrittenAs : Chunk → List Line → Prop
  | prelude (lines : List Line) : IsWrittenAs ⟨none, lines⟩ lines
  | headed {head : Line} {name : SectionName} (header : head.header? = some name)
      (lines : List Line) : IsWrittenAs ⟨some name, lines⟩ (head :: lines)

/-- The lines under a header: those that are neither headers nor separators, and for which it is the
nearest header above. The lines of the prelude have none. -/
def linesUnder (lines : List Line) (header : Option SectionName) : List Line :=
  (lines.zipIdx.filter fun (line, place) ↦ line.isSeparator = false ∧ line.header? = none ∧
    (headers (lines.take place)).getLast? = header).map Prod.fst

/-- Chunks divide a document. -/
structure Divides (chunks : List Chunk) (lines : List Line) : Prop where
  /-- The prelude comes first, then the sections in the order of their headers. -/
  map_header : chunks.map Chunk.header = none :: (headers lines).map some
  nodup : (headers lines).Nodup
  /-- Written out, the chunks are the document without its separators. -/
  written : ∃ parts, List.Forall₂ IsWrittenAs chunks parts ∧
    parts.flatten = lines.filter fun line ↦ !line.isSeparator
  /-- Every line belongs to the nearest header above it. -/
  lines_eq : ∀ chunk ∈ chunks, chunk.lines = linesUnder lines chunk.header

variable {lines : List Line} {line : Line}

@[simp] theorem headers_concat (lines : List Line) (line : Line) :
    headers (lines ++ [line]) = headers lines ++ line.header?.toList := by
  rw [headers, List.filterMap_append]
  cases h : line.header? <;> simp [headers, h]

theorem linesUnder_concat (lines : List Line) (line : Line) (header : Option SectionName) :
    linesUnder (lines ++ [line]) header = linesUnder lines header ++
      if line.isSeparator = false ∧ line.header? = none ∧ (headers lines).getLast? = header then
        [line] else [] := by
  refine map_fst_filter_zipIdx_concat ?_ ?_
  · rintro ⟨other, place⟩ hplace
    simp only [List.take_append_of_le_length (Nat.le_of_lt hplace)]
  · simp only [List.take_left, decide_eq_true_eq]

theorem of_mem_linesUnder {header : Option SectionName} (h : line ∈ linesUnder lines header) :
    line ∈ lines ∧ line.isSeparator = false ∧ line.header? = none := by
  obtain ⟨⟨line, place⟩, hpair, rfl⟩ := List.mem_map.mp h
  obtain ⟨hmem, hline⟩ := List.mem_filter.mp hpair
  exact ⟨List.fst_mem_of_mem_zipIdx hmem, (of_decide_eq_true hline).1,
    (of_decide_eq_true hline).2.1⟩

theorem linesUnder_of_not_mem {name : SectionName} (h : name ∉ headers lines) :
    linesUnder lines (some name) = [] := by
  rw [linesUnder, List.map_eq_nil_iff, List.filter_eq_nil_iff]
  rintro ⟨line, place⟩ - hline
  apply h
  have hmem : name ∈ headers (lines.take place) :=
    List.mem_of_getLast? (of_decide_eq_true hline).2.2
  exact ((List.take_sublist place lines).filterMap Line.header?).subset hmem

theorem divides_nil : Divides [⟨none, []⟩] [] where
  map_header := rfl
  nodup := List.nodup_nil
  written := ⟨[[]], .cons (.prelude []) .nil, rfl⟩
  lines_eq := by
    intro chunk hchunk
    obtain rfl := List.mem_singleton.mp hchunk
    rfl

variable {chunks : List Chunk} {chunk : Chunk} {name : SectionName}

theorem Divides.skip (h : Divides chunks lines) (hline : line.isSeparator = true) :
    Divides chunks (lines ++ [line]) := by
  have hheaders : headers (lines ++ [line]) = headers lines := by
    rw [headers_concat, Line.header?_of_isSeparator hline]
    exact List.append_nil _
  refine ⟨?_, ?_, ?_, fun chunk hchunk ↦ ?_⟩
  · rw [hheaders]
    exact h.map_header
  · rw [hheaders]
    exact h.nodup
  · obtain ⟨parts, hparts, hflatten⟩ := h.written
    refine ⟨parts, hparts, ?_⟩
    rw [hflatten, List.filter_append]
    simp [hline]
  · rw [h.lines_eq chunk hchunk, linesUnder_concat, if_neg (by simp [hline]), List.append_nil]

theorem Divides.begin (h : Divides chunks lines) (hline : line.header? = some name)
    (hname : name ∉ headers lines) : Divides (chunks ++ [⟨some name, []⟩]) (lines ++ [line]) := by
  have hheaders : headers (lines ++ [line]) = headers lines ++ [name] := by
    rw [headers_concat, hline]
    rfl
  have hsame : ∀ header, linesUnder (lines ++ [line]) header = linesUnder lines header := by
    intro header
    rw [linesUnder_concat, if_neg (by simp [hline]), List.append_nil]
  refine ⟨?_, ?_, ?_, ?_⟩
  · simp [hheaders, h.map_header]
  · rw [hheaders]
    exact h.nodup.append (List.nodup_singleton name) (List.disjoint_singleton.mpr hname)
  · have hseparator : line.isSeparator = false := by
      by_contra hbar
      rw [Line.header?_of_isSeparator (eq_true_of_ne_false hbar)] at hline
      cases hline
    obtain ⟨parts, hparts, hflatten⟩ := h.written
    refine ⟨parts ++ [[line]], ?_, ?_⟩
    · exact List.rel_append hparts (.cons (.headed hline []) .nil)
    · rw [List.flatten_append, hflatten, List.filter_append]
      simp [hseparator]
  · intro chunk hchunk
    rw [hsame]
    rcases List.mem_append.mp hchunk with hchunk | hchunk
    · exact h.lines_eq chunk hchunk
    · obtain rfl := List.mem_singleton.mp hchunk
      exact (linesUnder_of_not_mem hname).symm

theorem Divides.header_eq (h : Divides (chunks ++ [chunk]) lines) :
    chunk.header = (headers lines).getLast? := by
  have hlast := congrArg List.getLast? h.map_header
  rw [List.map_append, List.map_singleton, List.getLast?_concat, List.getLast?_cons,
    List.getLast?_map, Option.some.injEq] at hlast
  rw [hlast]
  rcases (headers lines).getLast? with _ | name <;> rfl

theorem Divides.header_ne (h : Divides (chunks ++ [chunk]) lines) {other : Chunk}
    (hother : other ∈ chunks) : (headers lines).getLast? ≠ other.header := by
  have hnodup : ((chunks ++ [chunk]).map Chunk.header).Nodup := by
    rw [h.map_header, List.nodup_cons]
    exact ⟨by simp, h.nodup.map fun _ _ ↦ Option.some.inj⟩
  rw [List.map_append, List.nodup_append] at hnodup
  rw [← h.header_eq]
  exact (hnodup.2.2 _ (List.mem_map_of_mem hother) _ List.mem_cons_self).symm

theorem Divides.add (h : Divides (chunks ++ [chunk]) lines) (hheader : line.header? = none)
    (hline : line.isSeparator = false) :
    Divides (chunks ++ [{ chunk with lines := chunk.lines ++ [line] }]) (lines ++ [line]) := by
  have hheaders : headers (lines ++ [line]) = headers lines := by
    rw [headers_concat, hheader]
    exact List.append_nil _
  refine ⟨?_, ?_, ?_, fun other hother ↦ ?_⟩
  · rw [hheaders, ← h.map_header, List.map_append, List.map_append]
    rfl
  · rw [hheaders]
    exact h.nodup
  · obtain ⟨parts, hparts, hflatten⟩ := h.written
    -- the chunk being read is the last one, so its part is found from the end
    rw [← List.forall₂_reverse_iff, List.reverse_append] at hparts
    obtain ⟨part, rest, hpart, hrest, hreverse⟩ := List.forall₂_cons_left_iff.mp hparts
    obtain rfl : parts = rest.reverse ++ [part] := by
      rw [← List.reverse_cons, ← hreverse, List.reverse_reverse]
    refine ⟨rest.reverse ++ [part ++ [line]], ?_, ?_⟩
    · refine List.rel_append ?_ (.cons ?_ .nil)
      · rwa [← List.forall₂_reverse_iff, List.reverse_reverse]
      · obtain ⟨lines⟩ | ⟨hhead, lines⟩ := hpart
        · exact .prelude _
        · exact .headed hhead _
    · rw [List.filter_append, ← hflatten]
      simp [hline]
  · rw [linesUnder_concat]
    rcases List.mem_append.mp hother with hother | hother
    · rw [if_neg fun hhere ↦ h.header_ne hother hhere.2.2, List.append_nil]
      exact h.lines_eq other (List.mem_append_left _ hother)
    · obtain rfl := List.mem_singleton.mp hother
      rw [if_pos ⟨hline, hheader, h.header_eq.symm⟩]
      exact congrArg (· ++ [line]) (h.lines_eq chunk (List.mem_append_right _ List.mem_cons_self))

/-! ## Dividing -/

theorem Division.finish_begin (division : Division) (name : SectionName) :
    (division.begin name).finish = division.finish ++ [⟨some name, []⟩] := List.reverse_cons

theorem Division.finish_eq (division : Division) :
    division.finish = division.finished.reverse ++ [division.current] := List.reverse_cons

theorem Division.finish_add (division : Division) (line : Line) : (division.add line).finish =
    division.finished.reverse ++
      [{ division.current with lines := division.current.lines ++ [line] }] := by
  rw [Division.finish_eq, Division.add, Division.current, List.reverse_cons]
  rfl

/-- The division knows which headers have occurred. -/
theorem Division.hasHeader_iff {division : Division} (h : Divides division.finish lines) :
    division.hasHeader name = true ↔ name ∈ headers lines := by
  have hmem : some name ∈ division.finish.map Chunk.header ↔ name ∈ headers lines := by
    rw [h.map_header]
    simp
  rw [← hmem, Division.finish, List.map_reverse, List.mem_reverse, List.map_cons, List.mem_cons,
    hasHeader, Bool.or_eq_true, List.any_eq_true, List.mem_map, beq_iff_eq]
  simp only [beq_iff_eq]
  exact or_congr_left eq_comm

theorem IsFaultless.concat {rest : List Line} (h : IsFaultless lines (line :: rest))
    (hline : ∀ fault, ¬HasFault lines line rest fault) : IsFaultless (lines ++ [line]) rest := by
  intro above other below heq
  rcases List.eq_nil_or_concat below with rfl | ⟨below, last, rfl⟩
  · obtain ⟨rfl, hlast⟩ := List.append_inj' heq rfl
    obtain rfl := List.singleton_inj.mp hlast
    exact hline
  · rw [List.concat_eq_append] at heq ⊢
    rw [← List.cons_append, ← List.append_assoc] at heq
    obtain ⟨rfl, hlast⟩ := List.append_inj' heq rfl
    obtain rfl := List.singleton_inj.mp hlast
    rw [List.append_assoc]
    exact h above other below rfl

section Steps

variable {rest : List Line} {below : Bool} {division : Division}

theorem divide_header (hline : line.isSeparator = false) (hheader : line.header? = some name) :
    divide below (line :: rest) division =
      if division.hasHeader name then .error ⟨line.number, .duplicateSection name⟩
      else divide false rest (division.begin name) := by
  rw [Line.header?] at hheader
  rw [divide, if_neg (Bool.eq_false_iff.mp hline), hheader]

theorem divide_line (hline : line.isSeparator = false) (hheader : line.header? = none) :
    divide below (line :: rest) division =
      if below && rest.head?.any Line.isSeparator then
        .error ⟨line.number, .unknownSection line.text⟩
      else divide false rest (division.add line) := by
  rw [Line.header?] at hheader
  rw [divide, if_neg (Bool.eq_false_iff.mp hline), hheader]

end Steps

/-- **Dividing goes on up to the first fault.** What has been read is divided by the chunks so far,
and the first line that has a fault ends it with an error about that line. -/
theorem divide_cases {rest : List Line} {division : Division} {below : Bool}
    (h : Divides division.finish lines) (hbelow : below = lines.getLast?.any Line.isSeparator)
    (hlines : IsFaultless lines rest) :
    (∃ division', divide below rest division = .ok division' ∧
      Divides division'.finish (lines ++ rest) ∧ IsFaultless (lines ++ rest) []) ∨
    ∃ error, divide below rest division = .error error ∧ IsFirstFault (lines ++ rest) error := by
  induction rest generalizing lines division below with
  | nil =>
    rw [List.append_nil]
    exact .inl ⟨division, rfl, h, hlines⟩
  | cons line rest ih =>
    have hlast : (lines ++ [line]).getLast?.any Line.isSeparator = line.isSeparator := by
      rw [List.getLast?_concat]
      rfl
    by_cases hbar : line.isSeparator = true
    · rw [divide, if_pos hbar, List.append_cons]
      refine ih (h.skip hbar) (hlast.trans hbar).symm (hlines.concat ?_)
      rintro fault (⟨hheader, -⟩ | ⟨-, hline, -, -⟩)
      · rw [Line.header?_of_isSeparator hbar] at hheader
        cases hheader
      · rw [hbar] at hline
        cases hline
    · have hline : line.isSeparator = false := eq_false_of_ne_true hbar
      rcases hheader : line.header? with _ | name
      · rw [divide_line hline hheader]
        by_cases hframed : (below && rest.head?.any Line.isSeparator) = true
        · rw [if_pos hframed]
          rw [Bool.and_eq_true, hbelow] at hframed
          exact .inr ⟨_, rfl, lines, line, rest, rfl, hlines,
            .framed hheader hline hframed.1 hframed.2, rfl⟩
        · rw [if_neg hframed, List.append_cons]
          refine ih ?_ (hlast.trans hline).symm (hlines.concat ?_)
          · rw [Division.finish_add]
            exact (division.finish_eq ▸ h).add hheader hline
          · rintro fault (⟨hheader', -⟩ | ⟨-, -, habove, hrest⟩)
            · rw [hheader] at hheader'
              cases hheader'
            · rw [Bool.and_eq_true, hbelow] at hframed
              exact hframed ⟨habove, hrest⟩
      · rw [divide_header hline hheader]
        by_cases hagain : division.hasHeader name = true
        · rw [if_pos hagain]
          exact .inr ⟨_, rfl, lines, line, rest, rfl, hlines,
            .repeated hheader ((Division.hasHeader_iff h).mp hagain), rfl⟩
        · rw [if_neg hagain, List.append_cons]
          rw [Division.hasHeader_iff h] at hagain
          refine ih ?_ (hlast.trans hline).symm (hlines.concat ?_)
          · rw [Division.finish_begin]
            exact h.begin hheader hagain
          · rintro fault (⟨hheader', hoccurs⟩ | ⟨hheader', -, -, -⟩)
            · obtain rfl := Option.some.inj (hheader.symm.trans hheader')
              exact hagain hoccurs
            · rw [hheader] at hheader'
              cases hheader'

theorem split_cases (lines : List Line) :
    (∃ chunks, split lines = .ok chunks ∧ Divides chunks lines ∧ IsFaultless lines []) ∨
      ∃ error, split lines = .error error ∧ IsFirstFault lines error := by
  have hstart : Divides Division.start.finish [] := divides_nil
  have hbelow : false = ([] : List Line).getLast?.any Line.isSeparator := rfl
  have hempty : IsFaultless [] lines := fun above line below heq ↦ by simp at heq
  rcases divide_cases hstart hbelow hempty with
    ⟨division, hdivide, hdivides, hlines⟩ | ⟨error, hdivide, herror⟩
  · exact .inl ⟨division.finish, by rw [split, hdivide]; rfl, hdivides, hlines⟩
  · exact .inr ⟨error, by rw [split, hdivide]; rfl, herror⟩

theorem divides_of_split (h : split lines = .ok chunks) : Divides chunks lines := by
  rcases split_cases lines with ⟨chunks', hsplit, hdivides, -⟩ | ⟨error, hsplit, -⟩
  · obtain rfl := Except.ok.inj (h.symm.trans hsplit)
    exact hdivides
  · rw [h] at hsplit
    cases hsplit

/-! ## The first fault -/

theorem HasFault.eq {above below : List Line} {fault fault' : SyntaxFault}
    (h : HasFault above line below fault) (h' : HasFault above line below fault') :
    fault = fault' := by
  obtain ⟨hheader, -⟩ | ⟨hheader, -, -, -⟩ := h
  · obtain ⟨hheader', -⟩ | ⟨hheader', -, -, -⟩ := h'
    · obtain rfl := Option.some.inj (hheader.symm.trans hheader')
      rfl
    · rw [hheader] at hheader'
      cases hheader'
  · obtain ⟨hheader', -⟩ | ⟨-, -, -, -⟩ := h'
    · rw [hheader] at hheader'
      cases hheader'
    · rfl

/-- Lines without a fault end before the first one that has a fault. -/
theorem HasFault.prefix_of_isFaultless {above below above' rest : List Line} {fault : SyntaxFault}
    (h : HasFault above line below fault) (hlines : IsFaultless above' rest)
    (heq : above ++ line :: below = above' ++ rest) : above' <+: above := by
  rcases List.append_eq_append_iff.mp heq with ⟨mid, rfl, hmid⟩ | ⟨mid, rfl, -⟩
  · rcases mid with _ | ⟨other, mid⟩
    · exact ⟨[], by rw [List.append_nil, List.append_nil]⟩
    · obtain ⟨rfl, rfl⟩ := List.cons.inj hmid
      exact absurd h (hlines above line mid rfl fault)
  · exact List.prefix_append above' mid

theorem IsFirstFault.eq {error error' : SyntaxError} (h : IsFirstFault lines error)
    (h' : IsFirstFault lines error') : error = error' := by
  obtain ⟨above, line, below, rfl, hlines, hfault, hline⟩ := h
  obtain ⟨above', line', below', heq, hlines', hfault', hline'⟩ := h'
  have hle : above <+: above' := hfault'.prefix_of_isFaultless hlines heq.symm
  have hge : above' <+: above := hfault.prefix_of_isFaultless hlines' heq
  obtain rfl := hle.eq_of_length (Nat.le_antisymm hle.length_le hge.length_le)
  obtain ⟨rfl, rfl⟩ := List.cons.inj (List.append_cancel_left heq)
  obtain ⟨number, fault⟩ := error
  obtain ⟨number', fault'⟩ := error'
  obtain rfl : fault = fault' := hfault.eq hfault'
  obtain rfl : number = number' := hline.trans hline'.symm
  rfl

theorem IsFirstFault.not_isFaultless {error : SyntaxError} (h : IsFirstFault lines error) :
    ¬IsFaultless lines [] := by
  obtain ⟨above, line, below, rfl, -, hfault, -⟩ := h
  intro hlines
  refine hlines above line below rfl error.fault ?_
  rwa [List.append_nil]

/-- **The first fault is the one that is reported.** -/
theorem split_eq_error_iff {error : SyntaxError} :
    split lines = .error error ↔ IsFirstFault lines error := by
  rcases split_cases lines with ⟨chunks, hsplit, -, hlines⟩ | ⟨error', hsplit, herror'⟩
  · rw [hsplit]
    exact iff_of_false nofun fun h ↦ h.not_isFaultless hlines
  · rw [hsplit, Except.error.injEq]
    constructor
    · rintro rfl
      exact herror'
    · exact fun h ↦ herror'.eq h

theorem IsFaultless.nodup {rest : List Line} (h : IsFaultless lines rest) :
    (headers lines).Nodup := by
  induction lines using List.reverseRecOn generalizing rest with
  | nil => exact List.nodup_nil
  | append_singleton lines line ih =>
    have hlines : IsFaultless lines (line :: rest) := by
      rintro above other below rfl fault hfault
      refine h above other (below ++ [line]) ?_ fault ?_
      · rw [List.append_assoc, List.cons_append]
      · rwa [List.append_assoc]
    rw [headers_concat]
    rcases hheader : line.header? with _ | name
    · rw [Option.toList_none, List.append_nil]
      exact ih hlines
    · have hnew : name ∉ headers lines := fun hoccurs ↦
        h lines line [] rfl _ (.repeated hheader hoccurs)
      exact (ih hlines).append (List.nodup_singleton name) (List.disjoint_singleton.mpr hnew)

/-- **Sections divide a document.** If dividing succeeds, the prelude comes first, then each header
with its section in the order of the document; no header occurs twice. Written out, they are the
document without its separators, and every line belongs to the nearest header above it. A header is
reported to be declared twice just where it occurs for the second time. -/
theorem split_partitions (lines : List Line) :
    (∀ chunks, split lines = .ok chunks →
      chunks.map Chunk.header = none :: (headers lines).map some ∧ (headers lines).Nodup ∧
      (∃ parts, List.Forall₂ IsWrittenAs chunks parts ∧
        parts.flatten = lines.filter fun line ↦ !line.isSeparator) ∧
      ∀ chunk ∈ chunks, chunk.lines = linesUnder lines chunk.header) ∧
    ∀ number name, split lines = .error ⟨number, .duplicateSection name⟩ →
      ∃ above line below, lines = above ++ line :: below ∧ line.number = number ∧
        line.header? = some name ∧ (headers above).count name = 1 := by
  constructor
  · intro chunks hsplit
    obtain ⟨hheader, hnodup, hwritten, hlines⟩ := divides_of_split hsplit
    exact ⟨hheader, hnodup, hwritten, hlines⟩
  · intro number name hsplit
    obtain ⟨above, line, below, rfl, habove, hfault, hnumber⟩ := split_eq_error_iff.mp hsplit
    obtain ⟨hheader, hoccurs⟩ := hfault
    exact ⟨above, line, below, rfl, hnumber.symm, hheader,
      List.count_eq_one_of_mem habove.nodup hoccurs⟩

/-- A title above an empty banner and two bare headers, and a header that occurs again. -/
theorem split_partitions_titled :
    (headers [⟨1, "title X"⟩, ⟨2, "==="⟩, ⟨3, "Objects"⟩, ⟨4, "==="⟩, ⟨5, "LEGEND"⟩,
      ⟨6, "levels"⟩, ⟨7, "#P"⟩]).Nodup ∧
    ∃ above line below, [⟨1, "RULES"⟩, ⟨2, "===="⟩, ⟨3, "Rules"⟩] = above ++ line :: below ∧
      line.number = 3 ∧ line.header? = some .rules ∧ (headers above).count .rules = 1 :=
  ⟨((split_partitions _).1
      [⟨none, [⟨1, "title X"⟩]⟩, ⟨some .objects, []⟩, ⟨some .legend, []⟩,
        ⟨some .levels, [⟨7, "#P"⟩]⟩] (by decide +kernel)).2.1,
    (split_partitions _).2 3 .rules (by decide +kernel)⟩

end Chunk

/-! ## What a section declares -/

/-- A section leaves the rules and the levels of a document as they are, unless it declares them. -/
theorem Document.readChunk_cases {document document' : Document} {chunk : Chunk}
    (h : document.readChunk chunk = .ok document') :
    (document'.rules = document.rules ∨
      (content chunk.lines).mapM RuleDeclaration.ofLine = .ok document'.rules) ∧
    (document'.levels = document.levels ∨ document'.levels = Drawing.ofLines chunk.lines) := by
  rw [readChunk] at h
  split at h
  · cases h
    exact ⟨.inl rfl, .inl rfl⟩
  · cases h
    exact ⟨.inl rfl, .inl rfl⟩
  · obtain ⟨legend, -, h⟩ := bind_eq_ok_iff.mp h
    obtain rfl := pure_eq_ok_iff.mp h
    exact ⟨.inl rfl, .inl rfl⟩
  · cases h
    exact ⟨.inl rfl, .inl rfl⟩
  · cases h
    exact ⟨.inl rfl, .inl rfl⟩
  · obtain ⟨rules, hrules, h⟩ := bind_eq_ok_iff.mp h
    obtain rfl := pure_eq_ok_iff.mp h
    exact ⟨.inr hrules, .inl rfl⟩
  · obtain ⟨conditions, -, h⟩ := bind_eq_ok_iff.mp h
    obtain rfl := pure_eq_ok_iff.mp h
    exact ⟨.inl rfl, .inl rfl⟩
  · cases h
    exact ⟨.inl rfl, .inr rfl⟩

end TilePuzzle
