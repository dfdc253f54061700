import Std.Data.TreeMap.Lemmas
import TilePuzzle.Proofs.Loading.Color
import TilePuzzle.Proofs.Loading.Places
import TilePuzzle.Proofs.Loading.Result

/-!
# Texts that crash

A text is loaded or refused with a cause, except that reading a colour may cut a character. Here it
is told which texts do this to a session. Loading stops at the first refusal, so a colour is read
only if the document is well formed, and only if the names up to its object are new and there are
not too many objects.

Everything else that is cut out of the text, fetched by its number or counted down is there.

## Before the crash

Objects are added to the table one by one, first their names and then their appearance. Adding one
of them succeeds, is refused, or crashes (`addObjectResult_cases`), and what is refused never
crashes later. So the objects before the one that crashes have been added with success, and that
comes down to a condition on their number and their names, without a table
(`Document.CutsCharacter`).
-/

namespace TilePuzzle

theorem bind_refused_eq_crashed_iff {ε α β : Type} {result : Except (Failure ε) α}
    {next : α → Except ε β} {crash : Crash} :
    (result >>= fun a ↦ (next a).mapError .refused) = .error (.crashed crash) ↔
      result = .error (.crashed crash) := by
  cases result with
  | error failure => simp [bind, Except.bind]
  | ok a =>
    change (next a).mapError _ = _ ↔ _
    cases next a with
    | error error =>
      change Except.error (Failure.refused error) = _ ↔ _
      simp
    | ok b =>
      change Except.ok b = _ ↔ _
      simp

/-! ## Appearances -/

namespace ObjectDeclaration

/-- Some colour word of the declaration cuts a character. -/
def CutsCharacter (declaration : ObjectDeclaration) : Prop :=
  ∃ word ∈ declaration.colors, Color.CutsCharacter word

theorem not_cutsCharacter_of_sameWord {word : String}
    (h : Text.sameWord "transparent" word = true) : ¬Color.CutsCharacter word := by
  rintro ⟨digits, hword, -⟩
  -- a number sign is no letter
  rw [Text.sameWord, Text.foldChars, Text.foldChars, hword, beq_iff_eq] at h
  exact absurd (List.cons.inj h).1 (by decide)

theorem readColorResult_eq_error_iff (word : String) (crash : Crash) :
    readColorResult word = .error crash ↔ Color.CutsCharacter word := by
  rw [readColorResult]
  split
  · next hword =>
    exact iff_of_false (fun h ↦ by cases h) (not_cutsCharacter_of_sameWord hword)
  · rw [← Color.ofHex_eq_error_iff word crash]
    cases Color.ofHex word with
    | error other => rfl
    | ok hex => exact iff_of_false (fun h ↦ by cases h) (fun h ↦ by cases h)

theorem mapM_readColorResult_eq_error_iff (words : List String) (crash : Crash) :
    words.mapM readColorResult = .error crash ↔ ∃ word ∈ words, Color.CutsCharacter word := by
  induction words with
  | nil => exact iff_of_false nofun (by simp)
  | cons word words ih =>
    simp only [List.mem_cons, exists_eq_or_imp]
    rw [List.mapM_cons, ← readColorResult_eq_error_iff word crash, ← ih]
    cases readColorResult word with
    | error other =>
      obtain ⟨⟩ := other
      obtain ⟨⟩ := crash
      exact iff_of_true rfl (.inl rfl)
    | ok color =>
      rw [or_iff_right nofun]
      cases words.mapM readColorResult with
      | error other => rfl
      | ok palette => exact iff_of_false nofun nofun

theorem appearanceResult_eq_error_iff (declaration : ObjectDeclaration) (crash : Crash) :
    declaration.appearanceResult = .error crash ↔ declaration.CutsCharacter := by
  rw [CutsCharacter, ← mapM_readColorResult_eq_error_iff declaration.colors crash, appearanceResult]
  cases declaration.colors.mapM readColorResult with
  | error other =>
    obtain ⟨⟩ := other
    obtain ⟨⟩ := crash
    exact iff_of_true rfl rfl
  | ok palette => exact iff_of_false nofun nofun

end ObjectDeclaration

/-! ## Names -/

/-- The names are new to a legend, and none of them is given twice. -/
def Legend.IsNew (legend : Legend) (names : List String) : Prop :=
  names.Nodup ∧ ∀ name ∈ names, name ∉ legend

/-- The names under which a declared object is filed. -/
def ObjectDeclaration.filedNames (declaration : ObjectDeclaration) : List String :=
  (declaration.name :: declaration.glyphs).map Text.fold

namespace Legend

variable {legend legend' : Legend}

@[simp] theorem isNew_empty (names : List String) : (∅ : Legend).IsNew names ↔ names.Nodup :=
  and_iff_left fun _ _ ↦ Std.TreeMap.not_mem_emptyc

/-- More names are new if they are new to the legend with the first of them. -/
theorem isNew_append {names names' : List String}
    (h : ∀ name, name ∈ legend' ↔ name ∈ legend ∨ name ∈ names) :
    legend.IsNew (names ++ names') ↔ legend.IsNew names ∧ legend'.IsNew names' := by
  simp only [IsNew, List.nodup_append, List.forall_mem_append, h, not_or]
  constructor
  · rintro ⟨⟨hnodup, hnodup', hapart⟩, hnew, hnew'⟩
    exact ⟨⟨hnodup, hnew⟩, hnodup', fun name hname ↦
      ⟨hnew' name hname, fun hother ↦ hapart name hother name hname rfl⟩⟩
  · rintro ⟨⟨hnodup, hnew⟩, hnodup', hnew'⟩
    refine ⟨⟨hnodup, hnodup', fun name hname name' hname' hsame ↦ ?_⟩, hnew, fun name hname ↦
      (hnew' name hname).1⟩
    exact (hnew' name' hname').2 (hsame ▸ hname)

theorem define_cases (legend : Legend) (line : Nat) (name : String) (meaning : Meaning) :
    (∃ legend', legend.define line name meaning = .ok legend' ∧ Text.fold name ∉ legend ∧
        ∀ other, other ∈ legend' ↔ other ∈ legend ∨ other = Text.fold name) ∨
      ∃ error, legend.define line name meaning = .error error ∧ Text.fold name ∈ legend := by
  rw [define]
  by_cases hmem : Text.fold name ∈ legend
  · exact .inr ⟨_, if_pos hmem, hmem⟩
  · refine .inl ⟨_, if_neg hmem, hmem, fun other ↦ ?_⟩
    rw [Std.TreeMap.mem_insert, Std.LawfulEqCmp.compare_eq_iff_eq, or_comm, eq_comm]

theorem foldlM_define_cases (line : Nat) (meaning : Meaning) (names : List String)
    (legend : Legend) :
    (∃ legend', names.foldlM (fun legend name ↦ legend.define line name meaning) legend =
        .ok legend' ∧ legend.IsNew (names.map Text.fold) ∧
          ∀ name, name ∈ legend' ↔ name ∈ legend ∨ name ∈ names.map Text.fold) ∨
      ∃ error, names.foldlM (fun legend name ↦ legend.define line name meaning) legend =
        .error error ∧ ¬legend.IsNew (names.map Text.fold) := by
  induction names generalizing legend with
  | nil => exact .inl ⟨legend, rfl, ⟨List.nodup_nil, nofun⟩, fun name ↦ (or_iff_left nofun).symm⟩
  | cons first names ih =>
    rw [List.foldlM_cons, List.map_cons, ← List.singleton_append]
    rcases legend.define_cases line first meaning with
      ⟨next, hnext, hfirst, hmem⟩ | ⟨error, herror, hfirst⟩
    · have hone : legend.IsNew [Text.fold first] :=
        ⟨by simp, fun name hname ↦ List.mem_singleton.mp hname ▸ hfirst⟩
      simp only [← List.mem_singleton] at hmem
      rw [hnext, isNew_append hmem, and_iff_right hone]
      rcases ih next with ⟨last, hlast, hnew, hmem'⟩ | ⟨error, herror, hnew⟩
      · refine .inl ⟨last, hlast, hnew, fun name ↦ ?_⟩
        rw [hmem', hmem, List.mem_append, or_assoc]
      · exact .inr ⟨error, herror, hnew⟩
    · rw [herror]
      exact .inr ⟨error, rfl, fun h ↦ h.2 _ List.mem_cons_self hfirst⟩

end Legend

namespace SymbolTable

/-- The names of a declared object are taken up unless one of them is not new or there are too many
objects. -/
theorem nameObject_cases (table : SymbolTable) (declaration : ObjectDeclaration) :
    (∃ legend, table.nameObject declaration = .ok legend ∧ table.objects.size ≤ maxObjects ∧
        table.legend.IsNew declaration.filedNames ∧
        ∀ name, name ∈ legend ↔ name ∈ table.legend ∨ name ∈ declaration.filedNames) ∨
      ∃ error, table.nameObject declaration = .error error ∧
        ¬(table.objects.size ≤ maxObjects ∧ table.legend.IsNew declaration.filedNames) := by
  rw [nameObject]
  split
  · next hmany => exact .inr ⟨_, rfl, fun h ↦ Nat.not_lt.mpr h.1 hmany⟩
  · next hfew =>
    rcases Legend.foldlM_define_cases declaration.line (.object (.ofIndex table.objects.size))
      (declaration.name :: declaration.glyphs) table.legend with
      ⟨legend, hlegend, hnew, hmem⟩ | ⟨error, herror, hnew⟩
    · exact .inl ⟨legend, hlegend, Nat.not_lt.mp hfew, hnew, hmem⟩
    · exact .inr ⟨error, herror, fun h ↦ hnew h.2⟩

/-- A declared object has a colour that cuts a character, and once the ones before it are added to a
table there are not too many, and all names up to its own are new. -/
def CrashesAt (table : SymbolTable) (before : List ObjectDeclaration)
    (declaration : ObjectDeclaration) : Prop :=
  table.objects.size + before.length ≤ maxObjects ∧
    table.legend.IsNew ((before ++ [declaration]).flatMap ObjectDeclaration.filedNames) ∧
    declaration.CutsCharacter

/-- If the names of the first object cannot be taken up, loading gets no further. -/
theorem CrashesAt.nameable {table : SymbolTable} {before : List ObjectDeclaration}
    {first declaration : ObjectDeclaration} (h : table.CrashesAt (first :: before) declaration) :
    table.objects.size ≤ maxObjects ∧ table.legend.IsNew first.filedNames := by
  obtain ⟨hsize, ⟨hnodup, hnew⟩, -⟩ := h
  rw [List.cons_append, List.flatMap_cons] at hnodup hnew
  exact ⟨Nat.le_trans (Nat.le_add_right _ _) hsize, (List.nodup_append.mp hnodup).1,
    fun name hname ↦ hnew name (List.mem_append_left _ hname)⟩

theorem crashesAt_nil {table : SymbolTable} {declaration : ObjectDeclaration} :
    table.CrashesAt [] declaration ↔ table.objects.size ≤ maxObjects ∧
      table.legend.IsNew declaration.filedNames ∧ declaration.CutsCharacter := by
  simp [CrashesAt]

/-- What adding an object comes to, and where a crash may follow. -/
theorem addObjectResult_cases (table : SymbolTable) (first : ObjectDeclaration) :
    (∃ next, table.addObjectResult first = .ok next ∧ ¬table.CrashesAt [] first ∧
        ∀ before declaration,
          table.CrashesAt (first :: before) declaration ↔ next.CrashesAt before declaration) ∨
      (table.addObjectResult first = .error (.crashed .splitCharacter) ∧
        table.CrashesAt [] first) ∨
      ∃ error, table.addObjectResult first = .error (.refused error) ∧
        ¬(table.objects.size ≤ maxObjects ∧ table.legend.IsNew first.filedNames) := by
  rw [addObjectResult]
  rcases table.nameObject_cases first with
    ⟨legend, hlegend, hsize, hnew, hmem⟩ | ⟨error, herror, hname⟩
  · rw [hlegend, crashesAt_nil, and_iff_right hsize, and_iff_right hnew,
      ← first.appearanceResult_eq_error_iff .splitCharacter]
    cases first.appearanceResult with
    | error crash =>
      obtain ⟨⟩ := crash
      exact .inr (.inl ⟨rfl, rfl⟩)
    | ok appearance =>
      refine .inl ⟨_, rfl, nofun, fun before declaration ↦ ?_⟩
      rw [CrashesAt, CrashesAt, List.cons_append, List.flatMap_cons, Legend.isNew_append hmem,
        and_iff_right hnew, List.length_cons, Array.size_push, Nat.add_right_comm, Nat.add_assoc]
  · rw [herror]
    exact .inr (.inr ⟨error, rfl, hname⟩)

private theorem exists_split_cons {α : Type} {P : List α → α → Prop} {first : α} {rest : List α} :
    (∃ before x after, first :: rest = before ++ x :: after ∧ P before x) ↔
      P [] first ∨ ∃ before x after, rest = before ++ x :: after ∧ P (first :: before) x := by
  constructor
  · rintro ⟨before, x, after, hsplit, h⟩
    cases before with
    | nil =>
      obtain ⟨rfl, -⟩ := List.cons.inj hsplit
      exact .inl h
    | cons other before =>
      obtain ⟨rfl, hrest⟩ := List.cons.inj hsplit
      exact .inr ⟨before, x, after, hrest, h⟩
  · rintro (h | ⟨before, x, after, rfl, h⟩)
    · exact ⟨[], first, rest, rfl, h⟩
    · exact ⟨first :: before, x, after, rfl, h⟩

/-- **Adding objects crashes just at an object whose colour cuts a character**, if loading gets so
far. -/
theorem foldlM_addObjectResult_eq_crashed_iff (declarations : List ObjectDeclaration)
    (table : SymbolTable) :
    (∃ crash, declarations.foldlM addObjectResult table = .error (.crashed crash)) ↔
      ∃ before declaration after, declarations = before ++ declaration :: after ∧
        table.CrashesAt before declaration := by
  induction declarations generalizing table with
  | nil => exact iff_of_false nofun (by simp)
  | cons first rest ih =>
    rw [List.foldlM_cons, exists_split_cons]
    rcases table.addObjectResult_cases first with
      ⟨next, hnext, hfirst, hrest⟩ | ⟨hcrash, hfirst⟩ | ⟨error, herror, hname⟩
    · simp only [hrest]
      rw [hnext, or_iff_right hfirst]
      exact ih next
    · rw [hcrash]
      exact iff_of_true ⟨_, rfl⟩ (.inl hfirst)
    · rw [herror]
      refine iff_of_false nofun ?_
      rintro (h | ⟨before, declaration, -, -, h⟩)
      · exact hname ⟨(crashesAt_nil.mp h).1, (crashesAt_nil.mp h).2.1⟩
      · exact hname h.nameable

end SymbolTable

/-! ## Sessions -/

/-- Loading the document cuts a character: some declared object has a colour that does so, at most
`maxObjects` objects come before it, and all names up to its own are different. -/
def Document.CutsCharacter (document : Document) : Prop :=
  ∃ before declaration after, document.objects = before ++ declaration :: after ∧
    before.length ≤ SymbolTable.maxObjects ∧
    ((before ++ [declaration]).flatMap ObjectDeclaration.filedNames).Nodup ∧
    declaration.CutsCharacter

theorem Game.ofDocumentResult_eq_crashed_iff (document : Document) :
    (∃ crash, ofDocumentResult document = .error (.crashed crash)) ↔ document.CutsCharacter := by
  have hcrashes : ∀ before declaration, SymbolTable.empty.CrashesAt before declaration ↔
      before.length ≤ SymbolTable.maxObjects ∧
        ((before ++ [declaration]).flatMap ObjectDeclaration.filedNames).Nodup ∧
        declaration.CutsCharacter := by
    intro before declaration
    rw [SymbolTable.CrashesAt, ← Legend.isNew_empty]
    simp [SymbolTable.empty]
  simp only [ofDocumentResult, SymbolTable.buildResult, bind_refused_eq_crashed_iff,
    SymbolTable.foldlM_addObjectResult_eq_crashed_iff, hcrashes, Document.CutsCharacter]

theorem Game.ofDocumentOrReport_crashes_iff (document : Document) (log : Log) :
    (∃ crash, (ofDocumentOrReport document log).1 = .error crash) ↔ document.CutsCharacter := by
  rw [← ofDocumentResult_eq_crashed_iff, ← returns_ofDocument document log, ofDocumentOrReport]
  rcases (ofDocument document).runOn log with ⟨(error | crash) | game, log'⟩
  · exact iff_of_false nofun nofun
  · exact iff_of_true ⟨crash, rfl⟩ ⟨crash, rfl⟩
  · exact iff_of_false nofun nofun

theorem Document.readOrReport_eq_some_iff {source : String} {log : Log} {document : Document} :
    (readOrReport source log).1 = some document ↔ readResult source = .ok document := by
  rw [← returns_read source log, readOrReport]
  rcases (read source).runOn log with ⟨error | document', log'⟩
  · exact iff_of_false nofun nofun
  · exact ⟨fun h ↦ congrArg Except.ok (Option.some.inj h), fun h ↦ congrArg some (Except.ok.inj h)⟩

namespace Session

theorem readGameResult_eq_crashed_iff (source : String) :
    (∃ crash, readGameResult source = .error (.crashed crash)) ↔
      ∃ document, Document.readResult source = .ok document ∧ document.CutsCharacter := by
  rw [readGameResult]
  cases Document.readResult source with
  | error error => exact iff_of_false nofun nofun
  | ok document =>
    simp only [Except.ok.injEq, exists_eq_left', ← Game.ofDocumentResult_eq_crashed_iff]
    change (∃ crash, (Game.ofDocumentResult document).mapError _ = _) ↔ _
    rcases Game.ofDocumentResult document with (error | crash) | game
    · exact iff_of_false nofun nofun
    · exact iff_of_true ⟨crash, rfl⟩ ⟨crash, rfl⟩
    · exact iff_of_false nofun nofun

theorem answers_iff_not_crashed (session : Session) (source : String) :
    (∃ reply, session.load source = .ok reply) ↔
      ¬∃ crash, readGameResult source = .error (.crashed crash) := by
  rw [← returns_readGame source .empty, load]
  rcases (readGame source).runOn .empty with ⟨(error | crash) | game, log⟩ <;> simp

/-- **A text is answered unless a colour cuts a character, and nothing else is ever missing.** A
text that is no document, or whose names are taken before such a colour is read, is answered as
well.

As for the rest of loading, at every offset at which a rule line is cut there begins a character,
every word of a cell, every claimed requirement, every object that is given a layer and every cell
of a level is there when it is fetched by its number, and no row of a sprite is longer than the
longest one. -/
theorem load_answers_iff (session : Session) (source : String) :
    ((∃ reply, session.load source = .ok reply) ↔
      ∀ document, (Document.readOrReport source .empty).1 = some document →
        ¬document.CutsCharacter) ∧
    (∀ document log, (∃ crash, (Game.ofDocumentOrReport document log).1 = .error crash) ↔
      document.CutsCharacter) ∧
    (∀ text, Token.sliceText? text = some (Token.ofText text)) ∧
    (∀ word, RuleDeclaration.splitSymbolAt word = some (RuleDeclaration.splitSymbol word)) ∧
    (∀ words, RuleDeclaration.readCellAt words = some (RuleDeclaration.readCell words)) ∧
    (∀ legend line along left right, ClaimedCell.ofPatternAt legend line along left right =
      Accessing.lift (RuleCell.ofPattern legend line along left right)) ∧
    (∀ (declaration : ObjectDeclaration) (colors : Nat),
      declaration.sprite.mapM (ObjectDeclaration.rowPixelsAt colors declaration.width) =
        some (declaration.sprite.map (ObjectDeclaration.rowPixels colors declaration.width))) ∧
    (∀ declarations definitions table layers,
      (SymbolTable.build declarations definitions).Gives table →
        LayerAssignment.buildAt table layers =
          Accessing.lift (LayerAssignment.build table layers)) ∧
    (∀ legend objects layerCount drawing, Board.ofDrawingAt legend objects layerCount drawing =
      Accessing.lift (Board.ofDrawing legend objects layerCount drawing)) := by
  refine ⟨?_, Game.ofDocumentOrReport_crashes_iff, Token.sliceText?_eq,
    RuleDeclaration.splitSymbolAt_eq, RuleDeclaration.readCellAt_eq, ClaimedCell.ofPatternAt_eq,
    ObjectDeclaration.mapM_rowPixelsAt, fun _ _ _ layers htable ↦
      LayerAssignment.buildAt_eq (SymbolTable.isClosed_of_build htable) layers,
    Board.ofDrawingAt_eq⟩
  rw [answers_iff_not_crashed, readGameResult_eq_crashed_iff]
  simp only [Document.readOrReport_eq_some_iff, not_exists, not_and]

/-- A document whose only colour has a character of two bytes on the border of a pair. -/
def accented : String := "OBJECTS\nPlayer P\n#aéaaa\nCOLLISIONLAYERS\nPlayer\nLEVELS\nP\n"

/-- It is not so that every text is answered. -/
theorem not_forall_load_answers :
    ¬∀ (session : Session) (source : String), ∃ reply, session.load source = .ok reply := by
  intro h
  obtain ⟨reply, hreply⟩ := h (start .standard) accented
  have hcrash : ((start .standard).load accented).isOk = false := by decide +kernel
  rw [hreply] at hcrash
  cases hcrash

end Session

end TilePuzzle
