import TilePuzzle.Proofs.Loading.RuleLine

/-!
# Colours that cut a character

The three pairs of a hexadecimal colour are cut out by counting bytes, and here a cut may fall
inside a character. It is told which words this happens to: six bytes follow the `#`, and behind no,
one or two pairs that can be read, the next two bytes end inside a character. Any other word is a
colour or is none.

## One pair after the other

A pair that cannot be read ends the reading without a crash, so a later cut does not matter then.
The reader is therefore taken as `readPair` with what follows it left open, and the condition for a
crash is passed on from the last pair to the first.
-/

namespace TilePuzzle.Color

/-! ## Cuts -/

/-- The first two bytes of a text end inside a character. -/
def CutsFirst : List Char → Prop
  | [] => False
  | [c] => 2 < c.utf8Size
  | c :: d :: _ => 2 < c.utf8Size ∨ c.utf8Size = 1 ∧ 1 < d.utf8Size

/-- Some pairs of a text can be read, and the two bytes behind them end inside a character. -/
def CutsPair : List Char → Prop
  | c :: d :: rest =>
    CutsFirst (c :: d :: rest) ∨ (pairChannel? [c, d]).isSome = true ∧ CutsPair rest
  | cs => CutsFirst cs

/-- The word is written like a colour of three pairs, and reading it cuts a character. -/
def CutsCharacter (word : String) : Prop :=
  ∃ digits, word.toList = '#' :: digits ∧ byteCount digits = 6 ∧ CutsPair digits

/-! ## One pair -/

theorem utf8Size_of_hexDigit? {c : Char} (h : (hexDigit? c).isSome = true) : c.utf8Size = 1 := by
  have hle : c ≤ 'f' := by
    rw [hexDigit?] at h
    split at h
    · next hdigit => exact Char.le_trans hdigit.2 (by decide)
    · split at h
      · next hlower => exact hlower.2
      · split at h
        · next hupper => exact Char.le_trans hupper.2 (by decide)
        · cases h
  have hval : c.val ≤ 0x7f := UInt32.le_trans hle (by decide)
  exact if_pos hval

theorem utf8Size_of_pairChannel? {c d : Char} (h : (pairChannel? [c, d]).isSome = true) :
    c.utf8Size = 1 ∧ d.utf8Size = 1 := by
  by_cases hplus : c = '+'
  · subst hplus
    rw [pairChannel?, Option.isSome_map] at h
    exact ⟨by decide, utf8Size_of_hexDigit? h⟩
  · obtain ⟨channel, hchannel⟩ := Option.isSome_iff_exists.mp h
    rw [pairChannel?.eq_2 _ _ hplus] at hchannel
    obtain ⟨high, hhigh, hchannel⟩ := Option.bind_eq_some_iff.mp hchannel
    obtain ⟨low, hlow, -⟩ := Option.bind_eq_some_iff.mp hchannel
    exact ⟨utf8Size_of_hexDigit? (Option.isSome_of_eq_some hhigh),
      utf8Size_of_hexDigit? (Option.isSome_of_eq_some hlow)⟩

theorem splitBytes_cons {n : Nat} {c : Char} (h : c.utf8Size ≤ n + 1) (cs : List Char) :
    splitBytes (n + 1) (c :: cs) =
      (splitBytes (n + 1 - c.utf8Size) cs).map fun (front, rest) ↦ (c :: front, rest) := by
  rw [splitBytes, if_neg (Nat.not_lt.mpr h)]
  cases splitBytes (n + 1 - c.utf8Size) cs with
  | error crash => rfl
  | ok cut => rfl

theorem splitBytes_pair {c d : Char} (hc : c.utf8Size = 1) (hd : d.utf8Size = 1)
    (rest : List Char) : splitBytes 2 (c :: d :: rest) = .ok ([c, d], rest) := by
  rw [splitBytes_cons (by omega), hc, splitBytes_cons (by omega), hd, Nat.zero_add, Nat.sub_self,
    splitBytes]
  rfl

/-- Cutting off two bytes: either they end inside a character, or they are no pair that can be read,
or they are and the rest remains to be read. -/
theorem splitBytes_two (cs : List Char) :
    (CutsPair cs ∧ splitBytes 2 cs = .error .splitCharacter) ∨
      ∃ pair rest, splitBytes 2 cs = .ok (pair, rest) ∧
        ((pairChannel? pair = none ∧ ¬CutsPair cs) ∨ ∃ channel, pairChannel? pair = some channel ∧
          (CutsPair cs ↔ CutsPair rest) ∧ byteCount cs = byteCount rest + 2) := by
  rcases cs with _ | ⟨c, _ | ⟨d, rest⟩⟩
  · exact .inr ⟨[], [], rfl, .inl ⟨by simp [pairChannel?], id⟩⟩
  · by_cases hc : 2 < c.utf8Size
    · exact .inl ⟨hc, if_pos hc⟩
    · refine .inr ⟨[c], [], ?_, .inl ⟨by simp [pairChannel?], hc⟩⟩
      rw [splitBytes_cons (Nat.not_lt.mp hc)]
      cases 1 + 1 - c.utf8Size with
      | zero => rfl
      | succ n => rfl
  · have hpos := c.utf8Size_pos
    by_cases hlarge : 2 < c.utf8Size
    · exact .inl ⟨.inl (.inl hlarge), if_pos hlarge⟩
    · by_cases hone : c.utf8Size = 1
      · by_cases hcut : 1 < d.utf8Size
        · refine .inl ⟨.inl (.inr ⟨hone, hcut⟩), ?_⟩
          rw [splitBytes_cons (Nat.not_lt.mp hlarge), hone, splitBytes, if_pos hcut]
          rfl
        · have hd : d.utf8Size = 1 := Nat.le_antisymm (Nat.not_lt.mp hcut) d.utf8Size_pos
          have hfirst : ¬CutsFirst (c :: d :: rest) := by
            rintro (h | h)
            · exact hlarge h
            · exact hcut h.2
          refine .inr ⟨[c, d], rest, splitBytes_pair hone hd rest, ?_⟩
          cases hchannel : pairChannel? [c, d] with
          | none =>
            refine .inl ⟨rfl, ?_⟩
            rintro (h | h)
            · exact hfirst h
            · rw [hchannel] at h
              cases h.1
          | some channel =>
            refine .inr ⟨channel, rfl, ⟨fun h ↦ ?_, fun h ↦ ?_⟩, ?_⟩
            · exact (h.resolve_left hfirst).2
            · exact .inr ⟨Option.isSome_of_eq_some hchannel, h⟩
            · rw [byteCount_cons, byteCount_cons, hone, hd]
              omega
      · -- a character of two bytes is no pair
        have htwo : c.utf8Size = 2 := by omega
        refine .inr ⟨[c], d :: rest, ?_, .inl ⟨by simp [pairChannel?], ?_⟩⟩
        · rw [splitBytes_cons (Nat.not_lt.mp hlarge), htwo]
          rfl
        · rintro ((h | h) | h)
          · exact hlarge h
          · exact hone h.1
          · exact hone (utf8Size_of_pairChannel? h.1).1

/-! ## Colours -/

theorem byteCount_eq_zero {cs : List Char} (h : byteCount cs = 0) : cs = [] := by
  cases cs with
  | nil => rfl
  | cons c cs =>
    have hpos := c.utf8Size_pos
    rw [byteCount_cons] at h
    omega

/-- Reads a pair and goes on, unless the pair cannot be read. -/
def readPair (cs : List Char) (next : UInt8 → List Char → Except Crash (Option Color)) :
    Except Crash (Option Color) := do
  let (pair, rest) ← splitBytes 2 cs
  let some channel := pairChannel? pair | return none
  next channel rest

theorem ofPairs_eq (digits : List Char) : ofPairs digits =
    readPair digits fun red digits ↦ readPair digits fun green digits ↦
      readPair digits fun blue _ ↦ .ok (some ⟨red, green, blue⟩) := rfl

theorem readPair_eq {cs pair rest : List Char} (h : splitBytes 2 cs = .ok (pair, rest))
    (next : UInt8 → List Char → Except Crash (Option Color)) :
    readPair cs next =
      match pairChannel? pair with
      | some channel => next channel rest
      | none => .ok none := by
  rw [readPair, h]
  change (match pairChannel? pair with
    | some channel => next channel rest
    | _ => pure none) = _
  cases pairChannel? pair with
  | none => rfl
  | some channel => rfl

theorem readPair_eq_error_iff {cs : List Char}
    {next : UInt8 → List Char → Except Crash (Option Color)}
    (hnext : ∀ channel rest, byteCount cs = byteCount rest + 2 →
      (next channel rest = .error .splitCharacter ↔ CutsPair rest)) :
    readPair cs next = .error .splitCharacter ↔ CutsPair cs := by
  rcases splitBytes_two cs with ⟨hcut, hsplit⟩ | ⟨pair, rest, hsplit, hpair⟩
  · rw [readPair, hsplit]
    exact iff_of_true rfl hcut
  · rw [readPair_eq hsplit]
    rcases hpair with ⟨hnone, hcut⟩ | ⟨channel, hchannel, hcut, hcount⟩
    · rw [hnone]
      exact iff_of_false nofun hcut
    · rw [hchannel, hcut]
      exact hnext channel rest hcount

theorem ofPairs_eq_error_iff {digits : List Char} (h : byteCount digits = 6) :
    ofPairs digits = .error .splitCharacter ↔ CutsPair digits := by
  rw [ofPairs_eq]
  refine readPair_eq_error_iff fun red rest hred ↦ ?_
  refine readPair_eq_error_iff fun green rest' hgreen ↦ ?_
  refine readPair_eq_error_iff fun blue rest'' hblue ↦ ?_
  -- six bytes are three pairs, and nothing is left
  have hnil : rest'' = [] := byteCount_eq_zero (by omega)
  rw [hnil]
  exact iff_of_false nofun id

/-- **Reading a colour crashes just if it cuts a character.** -/
theorem ofHex_eq_error_iff (word : String) (crash : Crash) :
    ofHex word = .error crash ↔ CutsCharacter word := by
  obtain ⟨⟩ := crash
  rw [ofHex, CutsCharacter]
  split
  · next digits hword =>
    have hdigits : (∃ others, word.toList = '#' :: others ∧ byteCount others = 6 ∧
        CutsPair others) ↔ byteCount digits = 6 ∧ CutsPair digits := by
      rw [hword]
      constructor
      · rintro ⟨others, hothers, h⟩
        obtain rfl := (List.cons.inj hothers).2
        exact h
      · exact fun h ↦ ⟨digits, rfl, h⟩
    rw [hdigits]
    split
    · next hthree => exact iff_of_false (by simp) fun h ↦ by omega
    · split
      · next hsix => rw [ofPairs_eq_error_iff hsix, and_iff_right hsix]
      · next hsix => exact iff_of_false (by simp) fun h ↦ hsix h.1
  · next hword =>
    refine iff_of_false (by simp) ?_
    rintro ⟨digits, hdigits, -⟩
    exact hword digits hdigits

end TilePuzzle.Color
