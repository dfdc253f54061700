import Mathlib.Data.List.Forall2
import TilePuzzle.Document.ObjectDeclaration
import TilePuzzle.Proofs.Blank
import TilePuzzle.Proofs.Document.Comments

/-!
# Object declarations keep every line in its role

A section of objects falls into gaps, the blank lines, and passages of lines that are not blank. A
passage is the declaration of one object: the line with its name, then at most one line of colours,
then rows of its sprite. What is declared has the words of these lines, and no line is left over.

Only the characters of a line and the role of the line before it decide where a declaration begins.
The line of a name is not looked at any further, so it may be written like a row.

## The invariant

`Reading.Reads` relates what has been read to the parts of the section so far, the latest first: the
finished declarations are written on the passages, and the stage of the reader tells how the latest
part ends. One more line is one more gap, begins a passage or goes to the latest one. Each of the
three is a lemma on parts first, and the steps of the reader are read off these.
-/

namespace TilePuzzle

/-! ## Trimmed lines -/

namespace Line

/-- No blanks stand at the ends of a line. -/
def IsTrimmed (line : Line) : Prop := Text.trim line.text = line.text

instance : DecidablePred IsTrimmed := fun _ ↦ inferInstanceAs (Decidable (_ = _))

/-- The lines of a text are trimmed. -/
theorem isTrimmed_of_split {source : String} {lines : List Line} (h : split source = .ok lines) :
    ∀ line ∈ lines, line.IsTrimmed := by
  obtain ⟨-, rfl⟩ := split_eq_ok_iff.mp h
  rw [allOfText, List.forall_mem_map]
  intro line _
  rw [IsTrimmed, ofText, Text.trim, String.toList_ofList, Text.trimChars_trimChars]

/-- A line consists of points and digits. -/
def IsPixels (line : Line) : Prop := ∀ c ∈ line.text.toList, c = '.' ∨ c.isDigit = true

variable {line : Line}

theorem IsTrimmed.words_ne_nil (h : line.IsTrimmed) (hline : line.isBlank = false) :
    Text.words line.text ≠ [] := by
  intro hwords
  rw [Text.words, List.map_eq_nil_iff, Text.pieces_eq_nil_iff] at hwords
  refine Bool.eq_false_iff.mp hline ?_
  rw [isBlank, String.isEmpty_iff, ← h, Text.trim, Text.trimChars,
    List.dropWhile_eq_nil_iff.mpr hwords]
  rfl

theorem IsPixels.words_eq (h : line.IsPixels) (hline : line.isBlank = false) :
    Text.words line.text = [line.text] := by
  have hne : line.text.toList ≠ [] := by
    rw [Ne, String.toList_eq_nil_iff, ← String.isEmpty_iff]
    exact Bool.eq_false_iff.mp hline
  have hsolid : ∀ c ∈ line.text.toList, Text.isBlank c = false := by
    intro c hc
    rcases h c hc with rfl | hdigit
    · rfl
    · exact Text.isBlank_of_isDigit hdigit
  simp [Text.words, Text.pieces_of_solid hne hsolid]

end Line

namespace ObjectDeclaration

theorem isSpriteRow_iff {line : Line} (h : line.isBlank = false) :
    isSpriteRow line.text = true ↔ line.IsPixels := by
  rw [isSpriteRow, show line.text.isEmpty = false from h, Line.IsPixels]
  simp

/-! ## Roles -/

/-- What a line of a section is there for. -/
inductive Role
  | gap
  | name
  | colors
  | row
deriving DecidableEq

/-- What a line has to be for its role. -/
def Role.Suits (line : Line) : Role → Prop
  | .gap => line.isBlank = true
  | .name => line.isBlank = false
  | .colors => line.isBlank = false ∧ ¬line.IsPixels
  | .row => line.isBlank = false ∧ line.IsPixels

/-- The lines that a declaration is written on. -/
structure Passage where
  name : Line
  colors : Option Line
  rows : List Line

/-- The lines of a passage in order, each with its role. -/
def Passage.roles (passage : Passage) : List (Line × Role) :=
  (passage.name, .name) ::
    (passage.colors.toList.map (·, .colors) ++ passage.rows.map (·, .row))

theorem Passage.ne_gap_of_mem_roles (passage : Passage) {line : Line} {role : Role}
    (h : (line, role) ∈ passage.roles) : role ≠ .gap := by
  rintro rfl
  simp [roles] at h

/-- The passage with one more row. -/
def Passage.addRow (passage : Passage) (line : Line) : Passage :=
  { passage with rows := passage.rows ++ [line] }

theorem Passage.roles_addRow (passage : Passage) (line : Line) :
    (passage.addRow line).roles = passage.roles ++ [(line, .row)] := by
  rw [roles, roles, addRow, List.map_append, ← List.append_assoc]
  rfl

/-- A part of a section. -/
inductive Part
  | gap (line : Line)
  | declared (passage : Passage)

namespace Part

def passage? : Part → Option Passage
  | .gap _ => none
  | .declared passage => some passage

def roles : Part → List (Line × Role)
  | .gap line => [(line, .gap)]
  | .declared passage => passage.roles

/-- The lines of a part. -/
def lines (part : Part) : List Line := part.roles.map Prod.fst

end Part

/-- A line begins a declaration: it is not blank, and it stands behind a gap or at the top, or it is
not made of pixels and stands behind colours or a row. -/
def Begins (above : List (Line × Role)) (line : Line) : Prop :=
  line.isBlank = false ∧ ((∀ last ∈ above.getLast?, last.1.isBlank = true) ∨
    ¬line.IsPixels ∧ ∃ last ∈ above.getLast?, last.2 = .colors ∨ last.2 = .row)

/-- A section falls into parts: all lines suit their roles, and declarations begin at the lines that
have to begin one. -/
structure AreParts (parts : List Part) (lines : List Line) : Prop where
  lines_eq : parts.flatMap Part.lines = lines
  suits : ∀ line role, (line, role) ∈ parts.flatMap Part.roles → role.Suits line
  begins_iff : ∀ above line role below,
    parts.flatMap Part.roles = above ++ (line, role) :: below → (role = .name ↔ Begins above line)

/-- A declaration is written on the lines of a passage. -/
structure IsWrittenOn (declaration : ObjectDeclaration) (passage : Passage) : Prop where
  line_eq : declaration.line = passage.name.number
  name_eq : declaration.name :: declaration.glyphs = Text.words passage.name.text
  colors_eq : declaration.colors = passage.colors.toList.flatMap fun line ↦ Text.words line.text
  sprite_eq : declaration.sprite = passage.rows.map Line.text

/-- What is written of a declaration, word by word. -/
def words (declaration : ObjectDeclaration) : List String :=
  declaration.name :: (declaration.glyphs ++ declaration.colors ++ declaration.sprite)

/-! ## One more line -/

variable {parts : List Part} {lines : List Line} {line : Line}

theorem areParts_nil : AreParts [] [] where
  lines_eq := rfl
  suits _ _ := nofun
  begins_iff above line role below h := by simp at h

/-- A line more at the end, in whichever part. -/
theorem AreParts.concat (h : AreParts parts lines) {parts' : List Part} {role : Role}
    (hroles : parts'.flatMap Part.roles = parts.flatMap Part.roles ++ [(line, role)])
    (hsuits : role.Suits line)
    (hbegins : role = .name ↔ Begins (parts.flatMap Part.roles) line) :
    AreParts parts' (lines ++ [line]) where
  lines_eq := by
    have hlines : ∀ parts : List Part,
        parts.flatMap Part.lines = (parts.flatMap Part.roles).map Prod.fst :=
      fun parts ↦ List.map_flatMap.symm
    rw [hlines, hroles, List.map_append, ← hlines, h.lines_eq]
    rfl
  suits line' role' hmem := by
    rw [hroles, List.mem_append, List.mem_singleton] at hmem
    rcases hmem with hmem | hlast
    · exact h.suits line' role' hmem
    · obtain ⟨rfl, rfl⟩ := Prod.mk.inj hlast
      exact hsuits
  begins_iff above line' role' below heq := by
    rw [hroles] at heq
    rcases List.eq_nil_or_concat below with rfl | ⟨rest, last, rfl⟩
    · obtain ⟨rfl, hlast⟩ := List.append_inj' heq rfl
      obtain ⟨rfl, rfl⟩ := Prod.mk.inj (List.singleton_inj.mp hlast)
      exact hbegins
    · rw [List.concat_eq_append, ← List.cons_append, ← List.append_assoc] at heq
      exact h.begins_iff above line' role' rest (List.append_inj' heq rfl).1

theorem Role.Suits.isBlank_eq_false {role : Role} (h : role.Suits line) (hrole : role ≠ .gap) :
    line.isBlank = false := by
  cases role with
  | gap => exact absurd rfl hrole
  | name => exact h
  | colors => exact h.1
  | row => exact h.1

theorem roles_reverse_cons (part : Part) (parts : List Part) :
    (part :: parts).reverse.flatMap Part.roles =
      parts.reverse.flatMap Part.roles ++ part.roles := by
  simp

/-- The last line of the latest passage is the last of all. -/
theorem getLast?_roles (parts : List Part) {passage : Passage} {last : Line × Role}
    (h : passage.roles.getLast? = some last) :
    ((Part.declared passage :: parts).reverse.flatMap Part.roles).getLast? = some last := by
  rw [roles_reverse_cons, List.getLast?_append, Part.roles, h]
  rfl

theorem AreParts.concat_gap (h : AreParts parts.reverse lines) (hline : line.isBlank = true) :
    AreParts (.gap line :: parts).reverse (lines ++ [line]) := by
  refine h.concat (roles_reverse_cons ..) hline (iff_of_false nofun fun hbegins ↦ ?_)
  exact Bool.false_ne_true (hbegins.1.symm.trans hline)

theorem AreParts.concat_name (h : AreParts parts.reverse lines)
    (hbegins : Begins (parts.reverse.flatMap Part.roles) line) :
    AreParts (.declared ⟨line, none, []⟩ :: parts).reverse (lines ++ [line]) :=
  h.concat (roles_reverse_cons ..) hbegins.1 (iff_of_true rfl hbegins)

/-- A line that goes on with the latest passage. It must not be one that begins a declaration. -/
theorem AreParts.concat_passage {passage passage' : Passage} {last : Line × Role} {role : Role}
    (h : AreParts (.declared passage :: parts).reverse lines)
    (hroles : passage'.roles = passage.roles ++ [(line, role)]) (hsuits : role.Suits line)
    (hrole : role ≠ .name) (hlast : passage.roles.getLast? = some last) (hgap : last.2 ≠ .gap)
    (hrow : line.IsPixels ∨ last.2 = .name) :
    AreParts (.declared passage' :: parts).reverse (lines ++ [line]) := by
  have habove := getLast?_roles parts hlast
  have hnonblank : last.1.isBlank = false :=
    (h.suits last.1 last.2 (List.mem_of_getLast? habove)).isBlank_eq_false hgap
  refine h.concat ?_ hsuits (iff_of_false hrole ?_)
  · rw [roles_reverse_cons, roles_reverse_cons, Part.roles, Part.roles, hroles, List.append_assoc]
  · rw [Begins, habove]
    rintro ⟨-, hblank | ⟨hline, last', hlast', hrole'⟩⟩
    -- the line before belongs to the passage, so it is no gap to begin behind
    · exact Bool.false_ne_true (hnonblank.symm.trans (hblank last rfl))
    · obtain rfl := Option.some.inj hlast'
      rcases hrow with hrow | hname
      · exact hline hrow
      · rw [hname] at hrole'
        exact hrole'.elim nofun nofun

/-! ## Reading a section -/

/-- What is known after some parts, the latest first: the finished declarations are written on the
passages, and the stage tells how the latest part ends. -/
inductive Reading.Reads : Reading → List Part → Prop
  | between {finished : List ObjectDeclaration} {parts : List Part}
      (hwritten : List.Forall₂ IsWrittenOn finished (parts.filterMap Part.passage?))
      (hblank : ∀ last ∈ (parts.reverse.flatMap Part.roles).getLast?, last.1.isBlank = true) :
      Reads ⟨finished, .between⟩ parts
  | named {finished : List ObjectDeclaration} {parts : List Part} {declaration : ObjectDeclaration}
      {name : Line}
      (hwritten : List.Forall₂ IsWrittenOn finished (parts.filterMap Part.passage?))
      (hpresent : declaration.IsWrittenOn ⟨name, none, []⟩) :
      Reads ⟨finished, .named declaration⟩ (.declared ⟨name, none, []⟩ :: parts)
  | drawing {finished : List ObjectDeclaration} {parts : List Part}
      {declaration : ObjectDeclaration} {rows : List String} {passage : Passage}
      (hwritten : List.Forall₂ IsWrittenOn finished (parts.filterMap Part.passage?))
      (hpresent : { declaration with sprite := rows.reverse }.IsWrittenOn passage)
      (hlast : ∃ last ∈ passage.roles.getLast?, last.2 = .colors ∨ last.2 = .row) :
      Reads ⟨finished, .drawing declaration rows⟩ (.declared passage :: parts)

variable {reading : Reading}

theorem Reading.reads_nil : Reads ⟨[], .between⟩ [] := .between .nil nofun

theorem Reading.Reads.declarations (h : reading.Reads parts) :
    List.Forall₂ IsWrittenOn reading.declarations (parts.filterMap Part.passage?) := by
  cases h with
  | between hwritten hblank => exact hwritten
  | named hwritten hpresent => exact .cons hpresent hwritten
  | drawing hwritten hpresent hlast => exact .cons hpresent hwritten

theorem isWrittenOn_ofNameLine (h : Text.words line.text ≠ []) :
    (ofNameLine line).IsWrittenOn ⟨line, none, []⟩ := by
  obtain ⟨name, glyphs, hwords⟩ := List.exists_cons_of_ne_nil h
  rw [ofNameLine, hwords]
  exact ⟨rfl, hwords.symm, rfl, rfl⟩

theorem Reading.Reads.begin (h : reading.Reads parts) (hwords : Text.words line.text ≠ []) :
    (reading.begin line).Reads (.declared ⟨line, none, []⟩ :: parts) :=
  .named h.declarations (isWrittenOn_ofNameLine hwords)

theorem Reading.Reads.step_blank (h : reading.Reads parts) (hblank : line.isBlank = true) :
    (reading.step line).Reads (.gap line :: parts) := by
  rw [Reading.step, if_pos hblank]
  refine .between h.declarations ?_
  rw [roles_reverse_cons, Part.roles, List.getLast?_concat]
  rintro last hlast
  obtain rfl := Option.some.inj hlast
  exact hblank

theorem Reading.Reads.step_named {finished : List ObjectDeclaration}
    {declaration : ObjectDeclaration} {name : Line}
    (hwritten : List.Forall₂ IsWrittenOn finished (parts.filterMap Part.passage?))
    (hpresent : declaration.IsWrittenOn ⟨name, none, []⟩)
    (hparts : AreParts (.declared ⟨name, none, []⟩ :: parts).reverse lines)
    (hnonblank : line.isBlank = false) : ∃ parts' : List Part,
      (Reading.step ⟨finished, .named declaration⟩ line).Reads parts' ∧
        AreParts parts'.reverse (lines ++ [line]) := by
  rw [Reading.step, if_neg (Bool.eq_false_iff.mp hnonblank)]
  dsimp only
  split
  · next hrow =>
    have hpresent' : { declaration with sprite := [line.text] }.IsWrittenOn ⟨name, none, [line]⟩ :=
      ⟨hpresent.line_eq, hpresent.name_eq, hpresent.colors_eq, rfl⟩
    have hsuits : Role.Suits line .row := ⟨hnonblank, (isSpriteRow_iff hnonblank).mp hrow⟩
    exact ⟨_, .drawing hwritten hpresent' ⟨_, rfl, .inr rfl⟩,
      hparts.concat_passage rfl hsuits nofun rfl nofun (.inr rfl)⟩
  · next hrow =>
    have hpresent' :
        { declaration with colors := Text.words line.text, sprite := [] }.IsWrittenOn
          ⟨name, some line, []⟩ :=
      ⟨hpresent.line_eq, hpresent.name_eq, (List.append_nil _).symm, rfl⟩
    have hsuits : Role.Suits line .colors :=
      ⟨hnonblank, fun hpixels ↦ hrow ((isSpriteRow_iff hnonblank).mpr hpixels)⟩
    exact ⟨_, .drawing hwritten hpresent' ⟨_, rfl, .inl rfl⟩,
      hparts.concat_passage rfl hsuits nofun rfl nofun (.inr rfl)⟩

theorem Reading.Reads.step_drawing {finished : List ObjectDeclaration}
    {declaration : ObjectDeclaration} {rows : List String} {passage : Passage} {last : Line × Role}
    (hwritten : List.Forall₂ IsWrittenOn finished (parts.filterMap Part.passage?))
    (hpresent : { declaration with sprite := rows.reverse }.IsWrittenOn passage)
    (hlast : passage.roles.getLast? = some last) (hrole : last.2 = .colors ∨ last.2 = .row)
    (hparts : AreParts (.declared passage :: parts).reverse lines)
    (hnonblank : line.isBlank = false) (hwords : Text.words line.text ≠ []) :
    ∃ parts' : List Part,
      (Reading.step ⟨finished, .drawing declaration rows⟩ line).Reads parts' ∧
        AreParts parts'.reverse (lines ++ [line]) := by
  have hreads : Reads ⟨finished, .drawing declaration rows⟩ (.declared passage :: parts) :=
    .drawing hwritten hpresent ⟨last, hlast, hrole⟩
  rw [Reading.step, if_neg (Bool.eq_false_iff.mp hnonblank)]
  dsimp only
  split
  · next hrow =>
    have hpixels : line.IsPixels := (isSpriteRow_iff hnonblank).mp hrow
    have hpresent' :
        { declaration with sprite := (line.text :: rows).reverse }.IsWrittenOn
          (passage.addRow line) := by
      refine ⟨hpresent.line_eq, hpresent.name_eq, hpresent.colors_eq, ?_⟩
      rw [Passage.addRow, List.map_append, ← hpresent.sprite_eq]
      exact List.reverse_cons
    have hgap : last.2 ≠ .gap := by
      intro hgap
      rw [hgap] at hrole
      exact hrole.elim nofun nofun
    refine ⟨_, .drawing hwritten hpresent' ⟨(line, .row), ?_, .inr rfl⟩,
      hparts.concat_passage (passage.roles_addRow line) ⟨hnonblank, hpixels⟩ nofun hlast hgap
        (.inl hpixels)⟩
    rw [passage.roles_addRow, List.getLast?_concat]
    rfl
  · next hrow =>
    have hpixels : ¬line.IsPixels := fun hpixels ↦ hrow ((isSpriteRow_iff hnonblank).mpr hpixels)
    exact ⟨_, hreads.begin hwords,
      hparts.concat_name ⟨hnonblank, .inr ⟨hpixels, last, getLast?_roles parts hlast, hrole⟩⟩⟩

theorem Reading.Reads.step (h : reading.Reads parts) (hparts : AreParts parts.reverse lines)
    (hline : line.IsTrimmed) : ∃ parts' : List Part,
      (reading.step line).Reads parts' ∧ AreParts parts'.reverse (lines ++ [line]) := by
  cases hblank : line.isBlank with
  | true => exact ⟨_, h.step_blank hblank, hparts.concat_gap hblank⟩
  | false =>
    have hwords := hline.words_ne_nil hblank
    cases h with
    | @between finished parts hwritten habove =>
      rw [Reading.step, if_neg (Bool.eq_false_iff.mp hblank)]
      exact ⟨_, Reads.begin (.between hwritten habove) hwords,
        hparts.concat_name ⟨hblank, .inl habove⟩⟩
    | named hwritten hpresent => exact Reads.step_named hwritten hpresent hparts hblank
    | drawing hwritten hpresent hlast =>
      obtain ⟨last, hlast, hrole⟩ := hlast
      exact Reads.step_drawing hwritten hpresent hlast hrole hparts hblank hwords

theorem Reading.exists_reads_foldl (h : ∀ line ∈ lines, line.IsTrimmed) : ∃ parts : List Part,
    (lines.foldl Reading.step ⟨[], .between⟩).Reads parts ∧ AreParts parts.reverse lines := by
  induction lines using List.reverseRecOn with
  | nil => exact ⟨[], reads_nil, areParts_nil⟩
  | append_singleton lines line ih =>
    rw [List.forall_mem_append, List.forall_mem_singleton] at h
    obtain ⟨parts, hreads, hparts⟩ := ih h.1
    rw [List.foldl_append]
    exact hreads.step hparts h.2

theorem exists_areParts_ofLines (h : ∀ line ∈ lines, line.IsTrimmed) : ∃ parts : List Part,
    AreParts parts lines ∧
      List.Forall₂ IsWrittenOn (ofLines lines) (parts.filterMap Part.passage?) := by
  obtain ⟨parts, hreads, hparts⟩ := Reading.exists_reads_foldl h
  refine ⟨parts.reverse, hparts, ?_⟩
  rw [ofLines, List.filterMap_reverse]
  exact List.rel_reverse hreads.declarations

/-! ## Words -/

theorem IsWrittenOn.words_eq {declaration : ObjectDeclaration} {passage : Passage}
    (h : declaration.IsWrittenOn passage)
    (hsuits : ∀ line role, (line, role) ∈ passage.roles → role.Suits line) :
    declaration.words =
      (Part.declared passage).lines.flatMap fun line ↦ Text.words line.text := by
  have hlines : (Part.declared passage).lines =
      passage.name :: (passage.colors.toList ++ passage.rows) := by
    simp [Part.lines, Part.roles, Passage.roles, Function.comp_def]
  have hrows : passage.rows.flatMap (fun line ↦ Text.words line.text) =
      passage.rows.map Line.text := by
    rw [← List.flatMap_singleton' (passage.rows.map Line.text), List.flatMap_map]
    refine List.flatMap_congr fun row hrow ↦ ?_
    have hsuited : Role.Suits row .row := hsuits row .row (by simp [Passage.roles, hrow])
    exact hsuited.2.words_eq hsuited.1
  rw [hlines, List.flatMap_cons, List.flatMap_append, hrows, ← h.name_eq, ← h.colors_eq,
    ← h.sprite_eq, words, List.cons_append, List.append_assoc]

/-- Gaps have no words, so the declarations have all that there are. -/
theorem words_of_parts {declarations : List ObjectDeclaration}
    (hsuits : ∀ line role, (line, role) ∈ parts.flatMap Part.roles → role.Suits line)
    (hwritten : List.Forall₂ IsWrittenOn declarations (parts.filterMap Part.passage?)) :
    declarations.flatMap words =
      ((parts.flatMap Part.lines).filter fun line ↦ !line.isBlank).flatMap
        fun line ↦ Text.words line.text := by
  induction parts generalizing declarations with
  | nil =>
    cases hwritten
    rfl
  | cons part parts ih =>
    simp only [List.flatMap_cons, List.mem_append] at hsuits
    have hrest := fun line role hmem ↦ hsuits line role (.inr hmem)
    rw [List.flatMap_cons, List.filter_append, List.flatMap_append]
    cases part with
    | gap line =>
      have hblank : line.isBlank = true := hsuits line .gap (.inl List.mem_cons_self)
      simp [ih hrest hwritten, Part.lines, Part.roles, hblank]
    | declared passage =>
      obtain ⟨declaration, rest, hdeclaration, hbelow, rfl⟩ :=
        List.forall₂_cons_right_iff.mp hwritten
      have hpassage := fun line role hmem ↦ hsuits line role (.inl hmem)
      have hnonblank : ∀ line ∈ (Part.declared passage).lines, (!line.isBlank) = true := by
        intro line hline
        obtain ⟨⟨line, role⟩, hmem, rfl⟩ := List.mem_map.mp hline
        rw [(hpassage line role hmem).isBlank_eq_false (passage.ne_gap_of_mem_roles hmem)]
        rfl
      rw [List.flatMap_cons, hdeclaration.words_eq hpassage, ih hrest hbelow,
        List.filter_eq_self.mpr hnonblank]

/-- **Every line of a section keeps its role.** The declarations of a section have all words of its
lines that are not blank, in order. The section falls into blank lines and passages, and the
declarations are written on the passages one by one: on the line of the name, at most one line of
colours right behind it, and rows. All rows consist of pixels alone, and colours never do. Among
lines that are not blank, a declaration begins just at the first, and at each line after colours or
a row that does not consist of pixels. -/
theorem ofLines_roles (lines : List Line) (h : ∀ line ∈ lines, line.IsTrimmed) :
    (ofLines lines).flatMap words =
      (lines.filter fun line ↦ !line.isBlank).flatMap (fun line ↦ Text.words line.text) ∧
    ∃ parts : List Part, AreParts parts lines ∧
      List.Forall₂ IsWrittenOn (ofLines lines) (parts.filterMap Part.passage?) := by
  obtain ⟨parts, hparts, hwritten⟩ := exists_areParts_ofLines h
  refine ⟨?_, parts, hparts, hwritten⟩
  rw [words_of_parts hparts.suits hwritten, hparts.lines_eq]

/-- The lines of a text: an object without colours is written right behind another one, and the name
of a third looks like a row. -/
theorem ofLines_roles_numeral :
    let lines : List Line := [⟨1, "Wall W"⟩, ⟨2, "brown"⟩, ⟨3, "0.0"⟩, ⟨4, "Crate"⟩, ⟨5, "..1"⟩,
      ⟨6, ""⟩, ⟨7, "00"⟩, ⟨8, "red"⟩]
    Line.split "Wall W\nbrown\n0.0 (pixels)\n  Crate\n..1\n \n00\nred\n" = .ok lines ∧
      (∀ line ∈ lines, line.IsTrimmed) ∧
      (ofLines lines).flatMap words =
        ["Wall", "W", "brown", "0.0", "Crate", "..1", "00", "red"] ∧
      ∃ parts : List Part, AreParts parts lines ∧
        List.Forall₂ IsWrittenOn (ofLines lines) (parts.filterMap Part.passage?) := by
  intro lines
  have hsplit : Line.split "Wall W\nbrown\n0.0 (pixels)\n  Crate\n..1\n \n00\nred\n" =
      .ok lines := by decide +kernel
  have h := Line.isTrimmed_of_split hsplit
  obtain ⟨hwords, hparts⟩ := ofLines_roles lines h
  exact ⟨hsplit, h, hwords.trans (by decide +kernel), hparts⟩

end ObjectDeclaration

end TilePuzzle
