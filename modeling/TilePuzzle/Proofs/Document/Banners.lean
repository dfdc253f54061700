import TilePuzzle.Proofs.Document.Comments
import TilePuzzle.Proofs.Document.Sections
import TilePuzzle.Proofs.Loading.Result
import TilePuzzle.Proofs.Outcome

/-!
# Banners and blank lines

A section is often announced by a banner: its header between two separators. Blank lines may stand
between one banner and the next and mean nothing, in any number but one. A single blank line there
stands between two separators itself, and so it is taken for a header that is not known.

## The division

Whether a line is taken for a header depends on the lines right above and right below it. So a
banner is passed as a whole: the state in which it is left begins its section, and what stands above
its first separator makes no difference any more (`divide_of_separator`). Banners are gone through
from the top, up to the first single blank line, if there is one.
-/

namespace TilePuzzle

namespace Line

variable {line : Line}

theorem text_of_isBlank (h : line.isBlank = true) : line.text = "" := String.isEmpty_iff.mp h

theorem isSeparator_of_isBlank (h : line.isBlank = true) : line.isSeparator = false := by
  rw [isSeparator, h]
  rfl

theorem header?_of_isBlank (h : line.isBlank = true) : line.header? = none := by
  rw [header?, text_of_isBlank h]
  decide

@[simp] theorem isSeparator_bar (number : Nat) : (⟨number, "="⟩ : Line).isSeparator = true := by
  change (!"=".isEmpty && "=".toList.all (· == '=')) = true
  decide

end Line

@[simp] theorem SectionName.ofWord?_word (name : SectionName) : ofWord? name.word = some name := by
  cases name <;> decide

/-- A header between two separators, and the blank lines that follow. -/
structure Banner where
  top : Line
  head : Line
  bottom : Line
  gap : List Line
  /-- The section that is announced. -/
  name : SectionName
  isSeparator_top : top.isSeparator = true
  header?_head : head.header? = some name
  isSeparator_bottom : bottom.isSeparator = true
  isBlank_gap : ∀ line ∈ gap, line.isBlank = true

namespace Banner

/-- The lines of a banner. -/
def lines (banner : Banner) : List Line :=
  banner.top :: banner.head :: banner.bottom :: banner.gap

variable {banner : Banner} {line : Line}

@[simp] theorem head_isSeparator (banner : Banner) : banner.head.isSeparator = false := by
  by_contra hbar
  have hnone := Line.header?_of_isSeparator (eq_true_of_ne_false hbar)
  rw [banner.header?_head] at hnone
  cases hnone

/-- The banner of a section from a certain line on, with some blank lines below it. -/
def standard (number : Nat) (name : SectionName) (blanks : Nat) : Banner where
  top := ⟨number, "="⟩
  head := ⟨number + 1, name.word⟩
  bottom := ⟨number + 2, "="⟩
  gap := (List.range' (number + 3) blanks).map fun number ↦ ⟨number, ""⟩
  name
  isSeparator_top := Line.isSeparator_bar number
  header?_head := SectionName.ofWord?_word name
  isSeparator_bottom := Line.isSeparator_bar (number + 2)
  isBlank_gap := by
    intro line hline
    obtain ⟨number, -, rfl⟩ := List.mem_map.mp hline
    rfl

theorem exists_first_gap {banners : List Banner}
    (h : ¬∀ banner ∈ banners.dropLast, banner.gap.length ≠ 1) :
    ∃ before banner next after line, banners = before ++ banner :: next :: after ∧
      (∀ other ∈ before, other.gap.length ≠ 1) ∧ banner.gap = [line] := by
  induction banners with
  | nil => exact absurd (fun banner hbanner ↦ absurd hbanner List.not_mem_nil) h
  | cons banner banners ih =>
    rcases banners with _ | ⟨next, after⟩
    · exact absurd (fun banner hbanner ↦ absurd hbanner List.not_mem_nil) h
    · by_cases hone : banner.gap.length = 1
      · obtain ⟨line, hline⟩ := List.length_eq_one_iff.mp hone
        refine ⟨[], banner, next, after, line, rfl, ?_, hline⟩
        exact fun other hother ↦ absurd hother List.not_mem_nil
      · obtain ⟨before, found, next', after', line, heq, hbefore, hline⟩ :=
          ih fun hgaps ↦ h (List.forall_mem_cons.mpr ⟨hone, hgaps⟩)
        refine ⟨banner :: before, found, next', after', line, ?_, ?_, hline⟩
        · exact congrArg (banner :: ·) heq
        · exact List.forall_mem_cons.mpr ⟨hone, hbefore⟩

theorem isBlank_of_mem (h : line ∈ banner.lines) (hbar : line.isSeparator = false)
    (hheader : line.header? = none) : line.isBlank = true := by
  rw [lines, List.mem_cons, List.mem_cons, List.mem_cons] at h
  rcases h with rfl | rfl | rfl | h
  · rw [banner.isSeparator_top] at hbar
    cases hbar
  · rw [banner.header?_head] at hheader
    cases hheader
  · rw [banner.isSeparator_bottom] at hbar
    cases hbar
  · exact banner.isBlank_gap line h

end Banner

/-! ## Dividing banners -/

namespace Chunk

namespace Division

/-- Adds lines to the chunk being read. -/
def addAll (division : Division) (lines : List Line) : Division := lines.foldl add division

/-- Begins the section that a banner announces; the blank lines behind it are its first ones. -/
def enter (division : Division) (banner : Banner) : Division :=
  (division.begin banner.name).addAll banner.gap

variable {division : Division} {name : SectionName}

@[simp] theorem hasHeader_addAll (division : Division) (lines : List Line) :
    (division.addAll lines).hasHeader name = division.hasHeader name := by
  induction lines generalizing division with
  | nil => rfl
  | cons line lines ih => exact ih (division.add line)

theorem hasHeader_enter {banner : Banner} (h : division.hasHeader name = false)
    (hne : banner.name ≠ name) : (division.enter banner).hasHeader name = false := by
  rw [enter, hasHeader_addAll, hasHeader, begin, List.any_cons, current, ← hasHeader, h,
    Bool.or_false]
  exact beq_false_of_ne fun heq ↦ hne (Option.some.inj heq)

theorem hasHeader_foldl_enter {banners : List Banner} (h : division.hasHeader name = false)
    (hne : ∀ banner ∈ banners, banner.name ≠ name) :
    (banners.foldl enter division).hasHeader name = false :=
  List.foldlRecOn (motive := fun division : Division ↦ division.hasHeader name = false) banners _ h
    fun _ hdivision banner hbanner ↦ hasHeader_enter hdivision (hne banner hbanner)

end Division

variable {rest : List Line} {below : Bool} {division : Division}

/-- Right above a separator it does not matter what stands there. -/
theorem divide_of_separator (h : rest.head?.any Line.isSeparator = true) (below below' : Bool) :
    divide below rest division = divide below' rest division := by
  obtain ⟨line, hline, hbar⟩ := (Option.any_eq_true ..).mp h
  obtain ⟨rest, rfl⟩ := List.head?_eq_some_iff.mp hline
  simp [divide, hbar]

/-- Blank lines are lines like others, unless a single one parts two separators. -/
theorem divide_blanks {gap : List Line} (hgap : ∀ line ∈ gap, line.isBlank = true)
    (hparts : below = true → gap.length = 1 → rest.head?.any Line.isSeparator = false) :
    divide below (gap ++ rest) division =
      divide (below && gap.isEmpty) rest (division.addAll gap) := by
  induction gap generalizing below division with
  | nil => rw [List.isEmpty_nil, Bool.and_true]; rfl
  | cons line gap ih =>
    obtain ⟨hline, hgap⟩ := List.forall_mem_cons.mp hgap
    have hframed : (below && (gap ++ rest).head?.any Line.isSeparator) = false := by
      rw [Bool.and_eq_false_imp]
      intro hbelow
      rcases gap with _ | ⟨next, gap⟩
      · exact hparts hbelow rfl
      · exact Line.isSeparator_of_isBlank (hgap next List.mem_cons_self)
    rw [List.cons_append, divide_line (Line.isSeparator_of_isBlank hline)
      (Line.header?_of_isBlank hline), hframed, if_neg Bool.false_ne_true,
      ih hgap fun hbelow ↦ absurd hbelow Bool.false_ne_true,
      List.isEmpty_cons, Bool.and_false, Bool.false_and]
    rfl

theorem divide_banner {banner : Banner} (hnew : division.hasHeader banner.name = false) :
    divide below (banner.lines ++ rest) division =
      divide true (banner.gap ++ rest) (division.begin banner.name) := by
  rw [Banner.lines, List.cons_append, List.cons_append, List.cons_append, divide,
    if_pos banner.isSeparator_top, divide_header banner.head_isSeparator banner.header?_head,
    hnew, if_neg Bool.false_ne_true, divide, if_pos banner.isSeparator_bottom]

theorem head?_flatMap_lines (banners : List Banner) (h : rest.head?.any Line.isSeparator = true) :
    (banners.flatMap Banner.lines ++ rest).head?.any Line.isSeparator = true := by
  rcases banners with _ | ⟨banner, banners⟩
  · exact h
  · exact banner.isSeparator_top

theorem divide_banners {banners : List Banner}
    (hnew : ∀ banner ∈ banners, division.hasHeader banner.name = false)
    (hnodup : (banners.map Banner.name).Nodup)
    (hgaps : ∀ banner ∈ banners, banner.gap.length ≠ 1)
    (hrest : rest.head?.any Line.isSeparator = true) :
    divide below (banners.flatMap Banner.lines ++ rest) division =
      divide below rest (banners.foldl Division.enter division) := by
  induction banners generalizing division with
  | nil => rfl
  | cons banner banners ih =>
    rw [List.map_cons, List.nodup_cons] at hnodup
    obtain ⟨hfirst, hnew⟩ := List.forall_mem_cons.mp hnew
    obtain ⟨hgap, hgaps⟩ := List.forall_mem_cons.mp hgaps
    -- a separator follows the gap, so it does not matter whether the gap is empty
    have hbars := head?_flatMap_lines banners hrest
    rw [List.flatMap_cons, List.append_assoc, divide_banner hfirst,
      divide_blanks banner.isBlank_gap fun _ hone ↦ absurd hone hgap,
      divide_of_separator hbars _ below]
    refine ih (fun next hnext ↦ Division.hasHeader_enter (hnew next hnext) ?_) hnodup.2 hgaps
    rintro heq
    exact hnodup.1 (heq ▸ List.mem_map_of_mem hnext)

/-- What stands above the gap of a banner does not end the division. -/
theorem divide_to_gap {leading : List Line} {before : List Banner} {banner : Banner}
    (rest : List Line)
    (hleading : ∀ line ∈ leading, line.isBlank = true)
    (hnodup : ((before ++ [banner]).map Banner.name).Nodup)
    (hgaps : ∀ other ∈ before, other.gap.length ≠ 1) :
    ∃ division, divide false (leading ++ (before.flatMap Banner.lines ++ (banner.lines ++ rest)))
      .start = divide true (banner.gap ++ rest) division := by
  rw [List.map_append, List.nodup_append] at hnodup
  obtain ⟨hbefore, -, hdisjoint⟩ := hnodup
  have hstart : ∀ name, (Division.start.addAll leading).hasHeader name = false := fun name ↦
    Division.hasHeader_addAll .start leading
  have hnew : ∀ other ∈ before, other.name ≠ banner.name := fun other hother ↦
    hdisjoint _ (List.mem_map_of_mem hother) _ List.mem_cons_self
  have hbanner : (banner.lines ++ rest).head?.any Line.isSeparator = true := banner.isSeparator_top
  refine ⟨(before.foldl Division.enter (Division.start.addAll leading)).begin banner.name, ?_⟩
  rw [divide_blanks hleading fun hbelow ↦ absurd hbelow Bool.false_ne_true,
    divide_banners (fun other _ ↦ hstart other.name) hbefore hgaps hbanner,
    divide_banner (Division.hasHeader_foldl_enter (hstart banner.name) hnew)]

variable {leading : List Line} {banners : List Banner}

theorem exists_split_banners (hleading : ∀ line ∈ leading, line.isBlank = true)
    (hnodup : (banners.map Banner.name).Nodup)
    (hgaps : ∀ banner ∈ banners.dropLast, banner.gap.length ≠ 1) :
    ∃ chunks, split (leading ++ banners.flatMap Banner.lines) = .ok chunks := by
  suffices h : ∃ division,
      divide false (leading ++ banners.flatMap Banner.lines) .start = .ok division by
    obtain ⟨division, hdivide⟩ := h
    exact ⟨division.finish, by rw [split, hdivide]; rfl⟩
  rcases List.eq_nil_or_concat banners with rfl | ⟨before, banner, rfl⟩
  · rw [List.flatMap_nil,
      divide_blanks hleading fun hbelow ↦ absurd hbelow Bool.false_ne_true]
    exact ⟨_, rfl⟩
  · rw [List.concat_eq_append] at hnodup hgaps ⊢
    rw [List.dropLast_concat] at hgaps
    obtain ⟨division, hdivide⟩ := divide_to_gap [] hleading hnodup hgaps
    rw [List.flatMap_append, List.flatMap_singleton, ← List.append_nil banner.lines, hdivide,
      divide_blanks banner.isBlank_gap fun _ _ ↦ rfl]
    exact ⟨_, rfl⟩

theorem split_banners_eq_error {before after : List Banner} {banner next : Banner} {line : Line}
    (hleading : ∀ line ∈ leading, line.isBlank = true)
    (hnodup : ((before ++ banner :: next :: after).map Banner.name).Nodup)
    (hgaps : ∀ other ∈ before, other.gap.length ≠ 1) (hgap : banner.gap = [line]) :
    split (leading ++ (before ++ banner :: next :: after).flatMap Banner.lines) =
      .error ⟨line.number, .unknownSection ""⟩ := by
  have hline : line.isBlank = true := banner.isBlank_gap line (hgap ▸ List.mem_cons_self)
  have hfront : ((before ++ [banner]).map Banner.name).Nodup := by
    refine hnodup.sublist (List.Sublist.map _ (List.Sublist.append_left ?_ before))
    exact (List.nil_sublist _).cons_cons banner
  obtain ⟨division, hdivide⟩ :=
    divide_to_gap ((next :: after).flatMap Banner.lines) hleading hfront hgaps
  have hbars : ((next :: after).flatMap Banner.lines).head?.any Line.isSeparator = true :=
    next.isSeparator_top
  rw [split, List.flatMap_append, List.flatMap_cons, hdivide, hgap, List.singleton_append,
    divide_line (Line.isSeparator_of_isBlank hline) (Line.header?_of_isBlank hline), hbars,
    Bool.and_self, if_pos rfl, Line.text_of_isBlank hline]
  rfl

end Chunk

/-! ## Reading banners -/

theorem ObjectDeclaration.ofLines_of_blank {lines : List Line}
    (h : ∀ line ∈ lines, line.isBlank = true) : ofLines lines = [] := by
  have hread : lines.foldl Reading.step ⟨[], .between⟩ = ⟨[], .between⟩ := by
    refine List.foldlRecOn (motive := fun reading : Reading ↦ reading = ⟨[], .between⟩) lines
      _ rfl ?_
    rintro reading rfl line hline
    rw [Reading.step, if_pos (h line hline)]
    rfl
  rw [ofLines, hread]
  rfl

theorem Drawing.ofLines_of_blank {lines : List Line} (h : ∀ line ∈ lines, line.isBlank = true) :
    ofLines lines = [] := by
  have hread : lines.foldl Reading.step ⟨[], none⟩ = ⟨[], none⟩ := by
    refine List.foldlRecOn (motive := fun reading : Reading ↦ reading = ⟨[], none⟩) lines _ rfl ?_
    rintro reading rfl line hline
    rw [Reading.step, h line hline, Bool.true_or, if_pos rfl]
    rfl
  rw [ofLines, hread]
  rfl

namespace Document

theorem readChunk_of_blank {chunk : Chunk} (h : ∀ line ∈ chunk.lines, line.isBlank = true) :
    empty.readChunk chunk = .ok empty := by
  have hcontent : content chunk.lines = [] :=
    List.filter_eq_nil_iff.mpr fun line hline ↦ by rw [h line hline]; exact Bool.false_ne_true
  rw [readChunk, hcontent, ObjectDeclaration.ofLines_of_blank h, Drawing.ofLines_of_blank h]
  rcases chunk.header with _ | name
  · rfl
  · cases name <;> rfl

variable {source : String} {lines leading : List Line} {banners : List Banner}

theorem readResult_of_lines (hlines : Line.split source = .ok lines) :
    readResult source = Chunk.split lines >>= fun chunks ↦ chunks.foldlM readChunk empty := by
  rw [readResult, hlines]
  rfl

/-- Banners among blank lines declare nothing, and nothing is wrong with them if no single blank
line parts two of them. -/
theorem readResult_of_banners
    (hlines : Line.split source = .ok (leading ++ banners.flatMap Banner.lines))
    (hleading : ∀ line ∈ leading, line.isBlank = true) (hnodup : (banners.map Banner.name).Nodup)
    (hgaps : ∀ banner ∈ banners.dropLast, banner.gap.length ≠ 1) :
    readResult source = .ok empty := by
  obtain ⟨chunks, hsplit⟩ := Chunk.exists_split_banners hleading hnodup hgaps
  have hblank : ∀ chunk ∈ chunks, ∀ line ∈ chunk.lines, line.isBlank = true := by
    intro chunk hchunk line hline
    rw [(Chunk.divides_of_split hsplit).lines_eq chunk hchunk] at hline
    obtain ⟨hmem, hbar, hheader⟩ := Chunk.of_mem_linesUnder hline
    rcases List.mem_append.mp hmem with hmem | hmem
    · exact hleading line hmem
    · obtain ⟨banner, -, hmem⟩ := List.mem_flatMap.mp hmem
      exact Banner.isBlank_of_mem hmem hbar hheader
  have hread : chunks.foldlM readChunk empty = .ok empty := by
    rw [foldlM_eq_ok_foldl (g := fun document _ ↦ document) (P := fun document ↦ document = empty)
      ?_ rfl, List.foldl_fixed]
    rintro document chunk hchunk rfl
    exact ⟨readChunk_of_blank (hblank chunk hchunk), rfl⟩
  rw [readResult_of_lines hlines, hsplit]
  exact hread

/-- **A blank line is wrong only if it stands alone between two separators.** A line that is
reported to be an unknown section is no header, and right above and right below it are separators.
So banners of different sections with blank lines around them are read, unless a single blank line
parts two of them; the first that does so is reported. -/
theorem read_banners (hlines : Line.split source = .ok lines) :
    (∀ number text, Chunk.split lines = .error ⟨number, .unknownSection text⟩ →
      ∃ above line below, lines = above ++ line :: below ∧ number = above.length + 1 ∧
        line.text = text ∧ line.header? = none ∧ line.isSeparator = false ∧
        above.getLast?.any Line.isSeparator = true ∧
        below.head?.any Line.isSeparator = true) ∧
    ∀ (leading : List Line) (banners : List Banner),
      lines = leading ++ banners.flatMap Banner.lines →
      (∀ line ∈ leading, line.isBlank = true) → (banners.map Banner.name).Nodup →
      ((read source).Returns (.ok empty) ↔
        ∀ banner ∈ banners.dropLast, banner.gap.length ≠ 1) ∧
      ∀ before banner next after line, banners = before ++ banner :: next :: after →
        (∀ other ∈ before, other.gap.length ≠ 1) → banner.gap = [line] →
        (read source).Returns (.error ⟨line.number, .unknownSection ""⟩) := by
  refine ⟨fun number text hsplit ↦ ?_, fun leading banners heq hleading hnodup ↦ ?_⟩
  · obtain ⟨above, line, below, rfl, -, hfault, hnumber⟩ := Chunk.split_eq_error_iff.mp hsplit
    obtain _ | ⟨hheader, hbar, habove, hbelow⟩ := hfault
    rw [Line.number_of_split hlines] at hnumber
    exact ⟨above, line, below, rfl, hnumber, rfl, hheader, hbar, habove, hbelow⟩
  · subst heq
    have hparted : ∀ before banner next after line, banners = before ++ banner :: next :: after →
        (∀ other ∈ before, other.gap.length ≠ 1) → banner.gap = [line] →
        (read source).Returns (.error ⟨line.number, .unknownSection ""⟩) := by
      rintro before banner next after line rfl hbefore hgap
      have hresult : readResult source = .error ⟨line.number, .unknownSection ""⟩ := by
        rw [readResult_of_lines hlines, Chunk.split_banners_eq_error hleading hnodup hbefore hgap]
        rfl
      exact hresult ▸ returns_read source
    refine ⟨⟨fun hread ↦ ?_, fun hgaps ↦ ?_⟩, hparted⟩
    · by_contra hgaps
      obtain ⟨before, banner, next, after, line, heq, hbefore, hgap⟩ :=
        Banner.exists_first_gap hgaps
      cases hread.eq (hparted before banner next after line heq hbefore hgap)
    · exact readResult_of_banners hlines hleading hnodup hgaps ▸ returns_read source

/-- Two banners, with a single blank line and with two blank lines between them. -/
theorem read_banners_parted :
    (read "=\nOBJECTS\n=\n\n=\nLEGEND\n=\n").Returns (.error ⟨4, .unknownSection ""⟩) ∧
      (read "=\nOBJECTS\n=\n\n\n=\nLEGEND\n=\n").Returns (.ok empty) := by
  have hone : Line.split "=\nOBJECTS\n=\n\n=\nLEGEND\n=\n" =
      .ok ([.standard 1 .objects 1, .standard 5 .legend 0].flatMap Banner.lines) := by
    decide +kernel
  have htwo : Line.split "=\nOBJECTS\n=\n\n\n=\nLEGEND\n=\n" =
      .ok ([.standard 1 .objects 2, .standard 6 .legend 0].flatMap Banner.lines) := by
    decide +kernel
  constructor
  · exact ((read_banners hone).2 [] [.standard 1 .objects 1, .standard 5 .legend 0] rfl nofun
      (by decide)).2 [] _ _ [] ⟨4, ""⟩ rfl nofun rfl
  · exact ((read_banners htwo).2 [] [.standard 1 .objects 2, .standard 6 .legend 0] rfl nofun
      (by decide)).1.mpr (List.forall_mem_singleton.mpr (by decide))

/-- It is not so that a blank line is never an unknown section, nor that banners with blank lines
between them are always read. -/
theorem not_forall_read_banners :
    (¬∀ source lines number text line, Line.split source = .ok lines →
      Chunk.split lines = .error ⟨number, .unknownSection text⟩ → line ∈ lines →
      line.number = number → line.isBlank = false) ∧
    ¬∀ (source : String) (banners : List Banner),
      Line.split source = .ok (banners.flatMap Banner.lines) → (banners.map Banner.name).Nodup →
      (read source).Returns (.ok empty) := by
  have hlines : Line.split "=\nOBJECTS\n=\n\n=\nLEGEND\n=\n" =
      .ok ([.standard 1 .objects 1, .standard 5 .legend 0].flatMap Banner.lines) := by
    decide +kernel
  constructor
  · intro h
    have hblank := h _ _ 4 "" ⟨4, ""⟩ hlines (by decide +kernel) (by decide +kernel) rfl
    cases hblank
  · intro h
    have hread : readResult "=\nOBJECTS\n=\n\n=\nLEGEND\n=\n" = .ok empty :=
      (returns_read _).eq (h _ _ hlines (by decide))
    have hfails : (readResult "=\nOBJECTS\n=\n\n=\nLEGEND\n=\n").isOk = false := by
      decide +kernel
    rw [hread] at hfails
    cases hfails

end Document

end TilePuzzle
