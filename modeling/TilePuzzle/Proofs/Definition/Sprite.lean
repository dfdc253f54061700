import TilePuzzle.Definition.Appearance
import TilePuzzle.Proofs.Outcome

/-!
# Sprites are drawn as they are written

The rows of a sprite may have different lengths. They are filled up to the longest one and put one
behind the other, and a pixel is found again by counting: whole rows first, then the column. It is
shown that this finds the character that was written at the pixel, that it never reads behind the
last pixel, and that what is shown there is the colour the character stands for.

## What is written and what is drawn

What is written is described by characters (`ObjectDeclaration.Shows`); what is drawn is described
by palette indices. The rows of a declaration that was read consist of points and digits, so every
character is one or the other.

## Warnings

A word that is no colour and a digit without a colour are warned of one by one, the digits row by
row. Neither is an error: the word is a place of the palette without a colour, and the digit a pixel
that stays transparent.
-/

namespace TilePuzzle

/-! ## Colour words -/

namespace Color

/-- The colour of a word; the word `transparent` has none. -/
def ofWord? (word : String) : Option Color :=
  if Text.sameWord "transparent" word then
    none
  else
    match ofHex word with
    | .ok hex => hex.or (named? word)
    | .error _ => none

/-- A word that should have a colour has none. -/
def isUnknown (word : String) : Bool := !Text.sameWord "transparent" word && (ofWord? word).isNone

end Color

/-! ## Rows of one length -/

section Rows

variable {α β : Type} {f : α → List β} {xs : List α} {width : Nat}

theorem length_flatMap_of_length (h : ∀ x ∈ xs, (f x).length = width) :
    (xs.flatMap f).length = width * xs.length := by
  rw [List.length_flatMap, List.map_congr_left h, List.map_const', List.sum_replicate_nat,
    Nat.mul_comm]

theorem getElem?_flatMap_of_length (h : ∀ x ∈ xs, (f x).length = width) {column : Nat}
    (hcolumn : column < width) (row : Nat) :
    (xs.flatMap f)[row * width + column]? = xs[row]?.bind fun x ↦ (f x)[column]? := by
  induction xs generalizing row with
  | nil => rfl
  | cons x xs ih =>
    have hfirst := h x List.mem_cons_self
    rw [List.flatMap_cons]
    rcases row with _ | row
    · rw [Nat.zero_mul, Nat.zero_add, List.getElem?_append_left (by rwa [hfirst])]
      rfl
    · have hrest := ih (fun y hy ↦ h y (List.mem_cons_of_mem x hy)) row
      rw [Nat.succ_mul, List.getElem?_append_right (by omega), hfirst, List.getElem?_cons_succ,
        ← hrest]
      congr 1
      omega

theorem filterMap_getElem?_range {n : Nat} (h : xs.length ≤ n) :
    (List.range n).filterMap (xs[·]?) = xs := by
  induction xs generalizing n with
  | nil =>
    rw [List.filterMap_eq_nil_iff]
    intro place _
    rfl
  | cons x xs ih =>
    obtain ⟨n, rfl⟩ := Nat.exists_eq_add_of_le' (Nat.zero_lt_of_lt h)
    rw [List.range_succ_eq_map, List.filterMap_cons, List.filterMap_map]
    exact congrArg (x :: ·) (ih (Nat.le_of_succ_le_succ h))

theorem flatMap_eq_flatMap_range (xs : List α) (f : α → List β) :
    xs.flatMap f = (List.range xs.length).flatMap fun place ↦ xs[place]?.elim [] f := by
  induction xs with
  | nil => rfl
  | cons x xs ih =>
    rw [List.length_cons, List.range_succ_eq_map, List.flatMap_cons, List.flatMap_cons,
      List.flatMap_map, ih]
    rfl

theorem flatMap_ite_eq_map_filter (p : α → Bool) (f : α → β) (xs : List α) :
    (xs.flatMap fun x ↦ if p x then [f x] else []) = (xs.filter p).map f := by
  induction xs with
  | nil => rfl
  | cons x xs ih =>
    rw [List.flatMap_cons, List.filter_cons, ih]
    split <;> rfl

end Rows

namespace ObjectDeclaration

variable {declaration : ObjectDeclaration} {colors x y : Nat}

/-! ## Rows that are read -/

/-- All that has been read of sprites are rows. -/
def Reading.HasRows (reading : Reading) : Prop :=
  ∀ declaration ∈ reading.declarations, ∀ row ∈ declaration.sprite, isSpriteRow row = true

@[simp] theorem sprite_ofNameLine (line : Line) : (ofNameLine line).sprite = [] := by
  rw [ofNameLine]
  split <;> rfl

theorem Reading.HasRows.begin {reading : Reading} (h : reading.HasRows) (line : Line) :
    (reading.begin line).HasRows := by
  intro declaration hdeclaration
  rcases List.mem_cons.mp hdeclaration with rfl | hbefore
  · rw [sprite_ofNameLine]
    exact nofun
  · exact h declaration hbefore

/-- **One line** leaves rows in the sprites. -/
theorem Reading.HasRows.step {reading : Reading} (h : reading.HasRows) (line : Line) :
    (reading.step line).HasRows := by
  have hbegin := h.begin line
  obtain ⟨finished, stage⟩ := reading
  rw [Reading.step]
  split
  · exact h
  · rcases stage with _ | present | ⟨present, rows⟩ <;> dsimp only
    · exact hbegin
    · have hfinished : ∀ declaration ∈ finished, ∀ row ∈ declaration.sprite,
          isSpriteRow row = true := by
        intro declaration hdeclaration
        exact h declaration (List.mem_cons_of_mem present hdeclaration)
      split
      · next hline =>
        exact List.forall_mem_cons.mpr ⟨List.forall_mem_singleton.mpr hline, hfinished⟩
      · exact List.forall_mem_cons.mpr ⟨nofun, hfinished⟩
    · split
      · next hline =>
        obtain ⟨hrows, hfinished⟩ := List.forall_mem_cons.mp h
        refine List.forall_mem_cons.mpr ⟨?_, hfinished⟩
        intro row hrow
        rcases List.mem_cons.mp (List.mem_reverse.mp hrow) with rfl | hbefore
        · exact hline
        · exact hrows row (List.mem_reverse.mpr hbefore)
      · exact hbegin

theorem isSpriteRow_of_mem_ofLines {lines : List Line} (h : declaration ∈ ofLines lines) :
    ∀ row ∈ declaration.sprite, isSpriteRow row = true := by
  have hrows : (lines.foldl Reading.step ⟨[], .between⟩).HasRows := by
    refine List.foldlRecOn lines Reading.step (motive := Reading.HasRows) nofun ?_
    intro reading hreading line _
    exact hreading.step line
  exact hrows declaration (List.mem_reverse.mp h)

theorem isSpriteRow_iff_forall {row : String} : isSpriteRow row = true ↔
    row.toList ≠ [] ∧ ∀ c ∈ row.toList, c = '.' ∨ c.isDigit = true := by
  rw [isSpriteRow, Bool.and_eq_true, Bool.not_eq_true', ← Bool.not_eq_true, String.isEmpty_iff,
    ← String.toList_eq_nil_iff, List.all_eq_true]
  simp only [Bool.or_eq_true, beq_iff_eq]

/-! ## The size of a sprite -/

theorem width_mem_and_le (declaration : ObjectDeclaration) :
    declaration.width ∈ 0 :: declaration.sprite.map String.length ∧
      ∀ length ∈ 0 :: declaration.sprite.map String.length, length ≤ declaration.width :=
  List.max?_eq_some_iff.mp rfl

theorem length_le_width {row : String} (h : row ∈ declaration.sprite) :
    row.length ≤ declaration.width :=
  declaration.width_mem_and_le.2 row.length (List.mem_cons_of_mem 0 (List.mem_map_of_mem h))

theorem width_of_nil (h : declaration.sprite = []) : declaration.width = 0 := by
  rw [width, h]
  rfl

theorem width_pos (hrows : ∀ row ∈ declaration.sprite, isSpriteRow row = true)
    (h : declaration.sprite ≠ []) : 0 < declaration.width := by
  obtain ⟨row, hrow⟩ := List.exists_mem_of_ne_nil _ h
  have hne := (isSpriteRow_iff_forall.mp (hrows row hrow)).1
  have hpos : 0 < row.length := by
    rw [← String.length_toList]
    exact List.length_pos_of_ne_nil hne
  exact Nat.lt_of_lt_of_le hpos (length_le_width hrow)

theorem exists_length_eq_width (hrows : ∀ row ∈ declaration.sprite, isSpriteRow row = true)
    (h : declaration.sprite ≠ []) : ∃ row ∈ declaration.sprite, row.length = declaration.width := by
  rcases List.mem_cons.mp declaration.width_mem_and_le.1 with hzero | hlength
  · exact absurd hzero (Nat.ne_of_gt (width_pos hrows h))
  · exact List.mem_map.mp hlength

/-! ## Pixels -/

/-- The character that is written at a pixel. -/
def character? (declaration : ObjectDeclaration) (x y : Nat) : Option Char :=
  declaration.sprite[y]?.bind fun row ↦ row.toList[x]?

theorem character?_eq_none (h : ¬(x < declaration.width ∧ y < declaration.sprite.length)) :
    declaration.character? x y = none := by
  rw [character?, Option.bind_eq_none_iff]
  intro row hrow
  have hwidth := length_le_width (List.mem_of_getElem? hrow)
  have hy := (List.getElem?_eq_some_iff.mp hrow).1
  apply List.getElem?_eq_none
  rw [String.length_toList]
  omega

theorem pixel?_of_lt {c : Char} {digit : Nat} (hdigit : digit? c = some digit)
    (h : digit < colors) : pixel? colors c = some digit := by
  rw [pixel?, hdigit, Option.filter_some, if_pos (decide_eq_true h)]

theorem pixel?_of_le {c : Char} {digit : Nat} (hdigit : digit? c = some digit)
    (h : colors ≤ digit) : pixel? colors c = none := by
  rw [pixel?, hdigit, Option.filter_some, if_neg (mt of_decide_eq_true (Nat.not_lt.mpr h))]

/-- The colour of the character that is written at a pixel. -/
def characterColor? (declaration : ObjectDeclaration) (palette : List (Option Color))
    (x y : Nat) : Option Color :=
  ((declaration.character? x y).bind (pixel? palette.length)).bind fun index ↦
    palette[index]?.join

theorem length_rowPixels {width : Nat} {row : String} (h : row.length ≤ width) :
    (rowPixels colors width row).length = width := by
  rw [rowPixels, List.length_append, List.length_map, List.length_replicate, String.length_toList]
  omega

/-- A pixel of a row is read from its character; there is none where the row is filled up. -/
theorem join_getElem?_rowPixels (colors width : Nat) (row : String) (x : Nat) :
    (rowPixels colors width row)[x]?.join = row.toList[x]?.bind (pixel? colors) := by
  rw [rowPixels, List.getElem?_append, List.length_map]
  split
  · next hx =>
    rw [List.getElem?_map, List.getElem?_eq_getElem hx]
    rfl
  · next hx =>
    rw [List.getElem?_eq_none (Nat.not_lt.mp hx), List.getElem?_replicate]
    split <;> rfl

@[simp] theorem length_pixels_drawWith (declaration : ObjectDeclaration)
    (palette : List (Option Color)) :
    (declaration.drawWith palette).pixels.length =
      declaration.width * declaration.sprite.length :=
  length_flatMap_of_length fun _ hrow ↦ length_rowPixels (length_le_width hrow)

/-- Reading behind the last pixel cannot happen inside the sprite. -/
theorem place_lt_length_pixels (palette : List (Option Color)) (hx : x < declaration.width)
    (hy : y < declaration.sprite.length) :
    y * declaration.width + x < (declaration.drawWith palette).pixels.length := by
  have hrows := Nat.mul_le_mul_left declaration.width (Nat.succ_le_of_lt hy)
  rw [Nat.mul_succ, Nat.mul_comm _ y] at hrows
  rw [length_pixels_drawWith]
  omega

theorem lt_of_mem_pixels {palette : List (Option Color)} {index : Nat}
    (h : some index ∈ (declaration.drawWith palette).pixels) : index < palette.length := by
  obtain ⟨row, -, hindex⟩ := List.mem_flatMap.mp h
  rcases List.mem_append.mp hindex with hpixel | hfilled
  · obtain ⟨c, -, hc⟩ := List.mem_map.mp hpixel
    exact of_decide_eq_true (Option.filter_eq_some_iff.mp hc).2
  · exact absurd (List.eq_of_mem_replicate hfilled) nofun

/-- **The colour of a pixel is that of its character.** -/
theorem colorAt?_drawWith (hrows : ∀ row ∈ declaration.sprite, isSpriteRow row = true)
    (h : declaration.sprite ≠ []) (palette : List (Option Color)) (x y : Nat) :
    (declaration.drawWith palette).colorAt? x y = declaration.characterColor? palette x y := by
  -- no row is empty, so there are pixels and the first colour is not shown everywhere
  have hpixels : (declaration.drawWith palette).pixels.isEmpty = false := by
    have hpos := Nat.mul_pos (width_pos hrows h) (List.length_pos_of_ne_nil h)
    rw [← length_pixels_drawWith declaration palette] at hpos
    exact List.isEmpty_eq_false_iff.mpr (List.ne_nil_of_length_pos hpos)
  rw [Appearance.colorAt?, hpixels, if_neg Bool.false_ne_true]
  by_cases hinside : x < declaration.width ∧ y < declaration.sprite.length
  · have hpixel : (declaration.drawWith palette).pixels[y * declaration.width + x]?.join =
        (declaration.character? x y).bind (pixel? palette.length) := by
      rw [drawWith, getElem?_flatMap_of_length
        (fun row hrow ↦ length_rowPixels (length_le_width hrow)) hinside.1, character?]
      rcases declaration.sprite[y]? with _ | row
      · rfl
      · exact join_getElem?_rowPixels ..
    rw [characterColor?, ← hpixel]
    exact if_pos hinside
  · rw [characterColor?, character?_eq_none hinside]
    exact if_neg hinside

/-! ## What a sprite shows -/

/-- What is written at a pixel has the colour, or no colour. -/
inductive Shows (declaration : ObjectDeclaration) (palette : List (Option Color)) (x y : Nat) :
    Option Color → Prop
  /-- A digit that is an index of the palette. -/
  | painted {c : Char} {digit : Nat} {color : Option Color}
      (hc : declaration.character? x y = some c) (hdigit : digit? c = some digit)
      (hcolor : palette[digit]? = some color) : Shows declaration palette x y color
  | point (hc : declaration.character? x y = some '.') : Shows declaration palette x y none
  /-- A digit behind the end of the palette. -/
  | stray {c : Char} {digit : Nat} (hc : declaration.character? x y = some c)
      (hdigit : digit? c = some digit) (hle : palette.length ≤ digit) :
      Shows declaration palette x y none
  | behindRow {row : String} (hrow : declaration.sprite[y]? = some row) (hx : row.length ≤ x) :
      Shows declaration palette x y none
  | below (hy : declaration.sprite.length ≤ y) : Shows declaration palette x y none

theorem shows_characterColor? (hrows : ∀ row ∈ declaration.sprite, isSpriteRow row = true)
    (palette : List (Option Color)) (x y : Nat) :
    declaration.Shows palette x y (declaration.characterColor? palette x y) := by
  rw [characterColor?]
  rcases hrow : declaration.sprite[y]? with _ | row
  · rw [character?, hrow]
    exact .below (List.getElem?_eq_none_iff.mp hrow)
  · rcases hcolumn : row.toList[x]? with _ | c
    · rw [character?, hrow, Option.bind_some, hcolumn]
      refine .behindRow hrow ?_
      rw [← String.length_toList]
      exact List.getElem?_eq_none_iff.mp hcolumn
    · have hc : declaration.character? x y = some c := by
        rw [character?, hrow, Option.bind_some, hcolumn]
      have hsprite := (isSpriteRow_iff_forall.mp (hrows row (List.mem_of_getElem? hrow))).2
      rw [hc, Option.bind_some]
      rcases hsprite c (List.mem_of_getElem? hcolumn) with rfl | hwritten
      · exact .point hc
      · -- the palette may be too short for the digit
        have hdigit : digit? c = some (c.toNat - '0'.toNat) := if_pos hwritten
        rcases Nat.lt_or_ge (c.toNat - '0'.toNat) palette.length with hlt | hle
        · rw [pixel?_of_lt hdigit hlt, Option.bind_some, List.getElem?_eq_getElem hlt,
            Option.join_some]
          exact .painted hc hdigit (List.getElem?_eq_getElem hlt)
        · rw [pixel?_of_le hdigit hle]
          exact .stray hc hdigit hle

theorem Shows.eq {palette : List (Option Color)} {color : Option Color}
    (h : declaration.Shows palette x y color) :
    declaration.characterColor? palette x y = color := by
  rw [characterColor?]
  rcases h with ⟨hc, hdigit, hcolor⟩ | hc | ⟨hc, hdigit, hle⟩ | ⟨hrow, hx⟩ | hy
  · have hlt := (List.getElem?_eq_some_iff.mp hcolor).1
    simp [hc, pixel?_of_lt hdigit hlt, hcolor]
  · rw [hc]
    rfl
  · rw [hc, Option.bind_some, pixel?_of_le hdigit hle]
    rfl
  · rw [← String.length_toList] at hx
    simp [character?, hrow, hx]
  · rw [character?, List.getElem?_eq_none hy]
    rfl

/-- An appearance shows what the declaration says. -/
structure IsDrawnAs (declaration : ObjectDeclaration) (appearance : Appearance) : Prop where
  palette_eq : appearance.palette = declaration.colors.map Color.ofWord?
  height_eq : appearance.height = declaration.sprite.length
  length_le : ∀ row ∈ declaration.sprite, row.length ≤ appearance.width
  width_eq : declaration.sprite = [] → appearance.width = 0
  exists_length_eq : declaration.sprite ≠ [] →
    ∃ row ∈ declaration.sprite, row.length = appearance.width
  length_pixels : appearance.pixels.length = appearance.width * appearance.height
  index_lt : ∀ index, some index ∈ appearance.pixels → index < appearance.palette.length
  /-- No pixel is read that is not there. -/
  place_lt : ∀ x y, x < appearance.width → y < appearance.height →
    y * appearance.width + x < appearance.pixels.length
  /-- Without a sprite there is a square of the first colour. -/
  colorAt?_eq : declaration.sprite = [] → ∀ x y,
    appearance.colorAt? x y = appearance.palette.head?.join
  /-- Inside the sprite and outside, what is shown is what is written. -/
  colorAt?_eq_iff : declaration.sprite ≠ [] → ∀ x y color,
    appearance.colorAt? x y = color ↔ declaration.Shows appearance.palette x y color

theorem isDrawnAs_drawWith (hrows : ∀ row ∈ declaration.sprite, isSpriteRow row = true) :
    declaration.IsDrawnAs (declaration.drawWith (declaration.colors.map Color.ofWord?)) where
  palette_eq := rfl
  height_eq := rfl
  length_le _ hrow := length_le_width hrow
  width_eq := width_of_nil
  exists_length_eq := exists_length_eq_width hrows
  length_pixels := length_pixels_drawWith ..
  index_lt _ := lt_of_mem_pixels
  place_lt _ _ := place_lt_length_pixels _
  colorAt?_eq hnil x y := by
    rw [Appearance.colorAt?, drawWith, hnil]
    rfl
  colorAt?_eq_iff hne x y color := by
    rw [colorAt?_drawWith hrows hne]
    constructor
    · rintro rfl
      exact shows_characterColor? hrows _ x y
    · exact Shows.eq

/-! ## Warnings -/

/-- The warning of a word that is no colour. -/
def unknownColor (declaration : ObjectDeclaration) (word : String) : Note :=
  ⟨.warning, s!"line {declaration.line}: unknown color `{word}` for `{declaration.name}`"⟩

/-- The warning of a digit without a colour. -/
def strayDigit (declaration : ObjectDeclaration) (digit : Nat) : Note :=
  ⟨.warning, s!"line {declaration.line}: sprite of `{declaration.name}` " ++
    s!"uses color {digit} but only {declaration.colors.length} are defined"⟩

/-- The digit at a pixel, if it is behind the end of the palette. -/
def strayAt? (declaration : ObjectDeclaration) (x y : Nat) : Option Nat :=
  (declaration.character? x y).bind fun c ↦ (digit? c).filter (declaration.colors.length ≤ ·)

/-- The digits without a colour, row by row. -/
def strays (declaration : ObjectDeclaration) : List Nat :=
  (List.range declaration.sprite.length).flatMap fun y ↦
    (List.range declaration.width).filterMap fun x ↦ declaration.strayAt? x y

/-- One warning for each word that is no colour, and one for each digit without a colour. -/
def warnings (declaration : ObjectDeclaration) : List Note :=
  (declaration.colors.filter Color.isUnknown).map declaration.unknownColor ++
    declaration.strays.map declaration.strayDigit

theorem strayDigits_eq (declaration : ObjectDeclaration) :
    declaration.strayDigits declaration.colors.length = declaration.strays := by
  have hrow : ∀ row ∈ declaration.sprite,
      (row.toList.filterMap fun c ↦ (digit? c).filter (declaration.colors.length ≤ ·)) =
        (List.range declaration.width).filterMap fun x ↦
          row.toList[x]?.bind fun c ↦ (digit? c).filter (declaration.colors.length ≤ ·) := by
    intro row hrow
    have hwidth := length_le_width hrow
    rw [← String.length_toList] at hwidth
    rw [← List.filterMap_filterMap, filterMap_getElem?_range hwidth]
  rw [strayDigits, List.flatMap_congr hrow, strays, flatMap_eq_flatMap_range]
  apply List.flatMap_congr
  intro y _
  simp only [strayAt?, character?]
  rcases declaration.sprite[y]? with _ | row
  · exact (List.filterMap_eq_nil_iff.mpr fun _ _ ↦ rfl).symm
  · rfl

theorem writes_readColor (declaration : ObjectDeclaration) {word : String}
    (h : ∃ hex, Color.ofHex word = .ok hex) :
    (declaration.readColor word).Writes (Color.ofWord? word)
      (if Color.isUnknown word then [declaration.unknownColor word] else []) := by
  obtain ⟨hex, hhex⟩ := h
  by_cases htransparent : Text.sameWord "transparent" word = true
  · rw [readColor, Color.isUnknown, Color.ofWord?, htransparent]
    exact Logged.writes_pure none
  · have hcolor : Color.ofWord? word = hex.or (Color.named? word) := by
      rw [Color.ofWord?, if_neg htransparent, hhex]
    have hunknown : Color.isUnknown word = (hex.or (Color.named? word)).isNone := by
      rw [Color.isUnknown, eq_false_of_ne_true htransparent, hcolor]
      rfl
    rw [readColor, if_neg htransparent, hhex, hcolor, hunknown]
    apply (Logged.writes_lift rfl).bind
    rcases hex.or (Color.named? word) with _ | color
    · exact (Logged.writes_warning _).bind (Logged.writes_pure none)
    · exact Logged.writes_pure (some color)

theorem writes_appearance (h : ∀ word ∈ declaration.colors, ∃ hex, Color.ofHex word = .ok hex) :
    declaration.appearance.Writes (declaration.drawWith (declaration.colors.map Color.ofWord?))
      declaration.warnings := by
  have hpalette := Logged.Writes.mapM fun word hword ↦
    declaration.writes_readColor (h word hword)
  rw [flatMap_ite_eq_map_filter] at hpalette
  have hstrays :
      (declaration.strays.forM (declaration.warnOfDigit declaration.colors.length)).Writes ()
        (declaration.strays.map declaration.strayDigit) := by
    apply Logged.writes_forM
    intro digit
    exact Logged.writes_warning _
  apply hpalette.bind
  rw [List.length_map, strayDigits_eq, ← List.append_nil (declaration.strays.map _)]
  exact hstrays.bind (f := fun _ ↦ pure _) (Logged.writes_pure _)

/-- **Sprites are faithful and in range.** A declaration that was read, and whose colour words do
not stop the reading, gets an appearance that shows what is written; on the way there is one
warning for each word that is no colour and one for each digit without a colour. -/
theorem appearance_shows {lines : List Line} (hread : declaration ∈ ofLines lines)
    (hcolors : ∀ word ∈ declaration.colors, ∃ hex, Color.ofHex word = .ok hex) :
    ∃ appearance, declaration.IsDrawnAs appearance ∧ ∀ log,
      declaration.appearance.runOn log =
        (.ok appearance, ⟨log.notes ++ declaration.warnings.toArray⟩) :=
  ⟨_, isDrawnAs_drawWith (isSpriteRow_of_mem_ofLines hread), writes_appearance hcolors⟩

/-- A crate of two rows, with a word that is no colour and a digit without one. -/
def crate : ObjectDeclaration := ⟨3, "Crate", [], ["orange", "mauve"], [".05", "1"]⟩

/-- The crate is drawn with two warnings. -/
theorem appearance_shows_crate :
    crate ∈ ofLines [⟨3, "Crate"⟩, ⟨4, "orange mauve"⟩, ⟨5, ".05"⟩, ⟨6, "1"⟩] ∧
    ∃ appearance, crate.IsDrawnAs appearance ∧ crate.appearance.runOn .empty =
      (.ok appearance, ⟨#[⟨.warning, "line 3: unknown color `mauve` for `Crate`"⟩,
        ⟨.warning, "line 3: sprite of `Crate` uses color 5 but only 2 are defined"⟩]⟩) := by
  have hread : crate ∈ ofLines [⟨3, "Crate"⟩, ⟨4, "orange mauve"⟩, ⟨5, ".05"⟩, ⟨6, "1"⟩] := by
    decide +kernel
  have hcolors : ∀ word ∈ crate.colors, ∃ hex, Color.ofHex word = .ok hex := by
    have hnone : ∀ word ∈ crate.colors, Color.ofHex word = .ok none := by decide +kernel
    intro word hword
    exact ⟨none, hnone word hword⟩
  obtain ⟨appearance, hdrawn, hwritten⟩ := appearance_shows hread hcolors
  have hwarnings : crate.warnings.toArray =
      #[⟨.warning, "line 3: unknown color `mauve` for `Crate`"⟩,
        ⟨.warning, "line 3: sprite of `Crate` uses color 5 but only 2 are defined"⟩] := by
    decide +kernel
  refine ⟨hread, appearance, hdrawn, ?_⟩
  rw [hwritten, hwarnings]
  rfl

end ObjectDeclaration

end TilePuzzle
