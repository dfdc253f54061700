import TilePuzzle.Proofs.Loading.Color

/-!
# The grammar of hexadecimal colours

A hexadecimal colour is a mark with three digits or three pairs of digits behind it (`IsWritten
IsPair`). What is read as a colour is a little more: the reader of a pair also takes a plus sign and
a digit for one, while the reader of a single digit does not (`IsWritten IsReadable`). This is the
only difference, so among texts without a plus sign the colours are just the texts of the grammar.

## Bytes

The reader tells the two forms apart by the number of their bytes. Whatever can be read as a digit
or as a pair consists of characters of one byte each, so no colour is missed by counting them; and a
text that is no colour is none, unless a pair ends inside a character.
-/

namespace TilePuzzle.Color

/-! ## The grammar -/

/-- The digits in their order, with small letters. -/
def smallDigits : List Char :=
  ['0', '1', '2', '3', '4', '5', '6', '7', '8', '9', 'a', 'b', 'c', 'd', 'e', 'f']

/-- The digits in their order, with capital letters. -/
def capitalDigits : List Char :=
  ['0', '1', '2', '3', '4', '5', '6', '7', '8', '9', 'A', 'B', 'C', 'D', 'E', 'F']

/-- A character is the digit of a given value. -/
def Denotes (c : Char) (n : Nat) : Prop := smallDigits[n]? = some c ∨ capitalDigits[n]? = some c

instance (c : Char) (n : Nat) : Decidable (Denotes c n) := inferInstanceAs (Decidable (_ ∨ _))

/-- A digit denotes a channel: seventeen times its value. -/
def IsDoubled (c : Char) (channel : UInt8) : Prop := ∃ n, Denotes c n ∧ channel.toNat = 17 * n

/-- Two digits denote a channel. -/
def IsPair (high low : Char) (channel : UInt8) : Prop :=
  ∃ m n, Denotes high m ∧ Denotes low n ∧ channel.toNat = 16 * m + n

/-- A plus sign and a digit, which are read as the value of the digit. -/
def IsSigned (sign low : Char) (channel : UInt8) : Prop := sign = '+' ∧ Denotes low channel.toNat

/-- Two characters that are read as a channel. -/
def IsReadable (high low : Char) (channel : UInt8) : Prop :=
  IsPair high low channel ∨ IsSigned high low channel

/-- The text of a colour: a mark with three digits or three pairs behind it. What a pair is, is left
open. -/
inductive IsWritten (Pair : Char → Char → UInt8 → Prop) : List Char → Color → Prop
  | digits {r g b : Char} {color : Color} (red : IsDoubled r color.red)
      (green : IsDoubled g color.green) (blue : IsDoubled b color.blue) :
      IsWritten Pair ['#', r, g, b] color
  | pairs {r r' g g' b b' : Char} {color : Color} (red : Pair r r' color.red)
      (green : Pair g g' color.green) (blue : Pair b b' color.blue) :
      IsWritten Pair ['#', r, r', g, g', b, b'] color

variable {c high low : Char} {n : Nat} {channel : UInt8} {color : Color}

/-! ## Digits -/

theorem Denotes.lt (h : Denotes c n) : n < 16 := by
  rcases h with h | h <;> exact (List.getElem?_eq_some_iff.mp h).1

/-- The characters of a range are digits of successive values. -/
theorem denotes_of_range {first last : Char} {m : Nat}
    (hdigits : ∀ k ≤ last.toNat - first.toNat, Denotes (.ofNat (first.toNat + k)) (k + m))
    (h : first ≤ c ∧ c ≤ last) : Denotes c (c.toNat - first.toNat + m) := by
  have hfirst : first.toNat ≤ c.toNat := UInt32.le_iff_toNat_le.mp h.1
  have hlast : c.toNat ≤ last.toNat := UInt32.le_iff_toNat_le.mp h.2
  have hdigit := hdigits (c.toNat - first.toNat) (by omega)
  rwa [Nat.add_sub_cancel' hfirst, Char.ofNat_toNat] at hdigit

theorem denotes_of_hexDigit? (h : hexDigit? c = some n) : Denotes c n := by
  rw [hexDigit?] at h
  split at h
  · next hdecimal =>
    obtain rfl := Option.some.inj h
    exact denotes_of_range (m := 0) (by decide) hdecimal
  · split at h
    · next hsmall =>
      obtain rfl := Option.some.inj h
      exact denotes_of_range (by decide) hsmall
    · split at h
      · next hcapital =>
        obtain rfl := Option.some.inj h
        exact denotes_of_range (by decide) hcapital
      · cases h

theorem hexDigit?_eq_some_iff : hexDigit? c = some n ↔ Denotes c n := by
  refine ⟨denotes_of_hexDigit?, fun h ↦ ?_⟩
  have hsmall : ∀ i : Fin 16, hexDigit? (smallDigits.get i) = some i.val := by decide
  have hcapital : ∀ i : Fin 16, hexDigit? (capitalDigits.get i) = some i.val := by decide
  rcases h with h | h
  · obtain ⟨hlt, rfl⟩ := List.getElem?_eq_some_iff.mp h
    exact hsmall ⟨n, hlt⟩
  · obtain ⟨hlt, rfl⟩ := List.getElem?_eq_some_iff.mp h
    exact hcapital ⟨n, hlt⟩

theorem Denotes.utf8Size (h : Denotes c n) : c.utf8Size = 1 :=
  utf8Size_of_hexDigit? (Option.isSome_of_eq_some (hexDigit?_eq_some_iff.mpr h))

theorem Denotes.ne_plus (h : Denotes c n) : c ≠ '+' := by
  rintro rfl
  rw [← hexDigit?_eq_some_iff, show hexDigit? '+' = none by decide] at h
  cases h

/-! ## Channels -/

theorem eq_ofNat_iff {k : Nat} (h : k < 256) : channel = .ofNat k ↔ channel.toNat = k := by
  rw [← UInt8.toNat_inj, UInt8.toNat_ofNat_of_lt' h]

theorem digitChannel?_eq_some_iff : digitChannel? c = some channel ↔ IsDoubled c channel := by
  rw [digitChannel?, Option.map_eq_some_iff]
  apply exists_congr
  intro n
  rw [hexDigit?_eq_some_iff]
  apply and_congr_right
  intro hn
  have hlt := hn.lt
  rw [eq_comm, eq_ofNat_iff (by omega)]

theorem pairChannel?_eq_some_iff :
    pairChannel? [high, low] = some channel ↔ IsReadable high low channel := by
  by_cases hplus : high = '+'
  · subst hplus
    have hpair : ¬IsPair '+' low channel := fun ⟨_, _, hm, _⟩ ↦ hm.ne_plus rfl
    rw [IsReadable, or_iff_right hpair, IsSigned, and_iff_right rfl, pairChannel?,
      Option.map_eq_some_iff]
    constructor
    · rintro ⟨n, hn, rfl⟩
      rw [hexDigit?_eq_some_iff] at hn
      have hlt := hn.lt
      rwa [(eq_ofNat_iff (by omega)).mp rfl]
    · intro h
      exact ⟨_, hexDigit?_eq_some_iff.mpr h, UInt8.ofNat_toNat⟩
  · have hsigned : ¬IsSigned high low channel := fun h ↦ hplus h.1
    rw [IsReadable, or_iff_left hsigned, IsPair, pairChannel?.eq_2 _ _ hplus]
    simp only [Option.bind_eq_bind, Option.bind_eq_some_iff, hexDigit?_eq_some_iff]
    constructor
    · rintro ⟨m, hm, n, hn, h⟩
      have hm' := hm.lt
      have hn' := hn.lt
      exact ⟨m, n, hm, hn, (eq_ofNat_iff (by omega)).mp (Option.some.inj h).symm⟩
    · rintro ⟨m, n, hm, hn, h⟩
      have hm' := hm.lt
      have hn' := hn.lt
      exact ⟨m, hm, n, hn, congrArg some ((eq_ofNat_iff (by omega)).mpr h).symm⟩

theorem exists_of_pairChannel? {pair : List Char} (h : pairChannel? pair = some channel) :
    ∃ high low, pair = [high, low] ∧ IsReadable high low channel := by
  match pair, h with
  | [high, low], h => exact ⟨high, low, rfl, pairChannel?_eq_some_iff.mp h⟩
  | [], h => simp [pairChannel?] at h
  | [_], h => simp [pairChannel?] at h
  | _ :: _ :: _ :: _, h => simp [pairChannel?] at h

/-! ## Bytes -/

theorem splitBytes_append {k : Nat} {cs front rest : List Char}
    (h : splitBytes k cs = .ok (front, rest)) : cs = front ++ rest := by
  fun_induction splitBytes k cs generalizing front with
  | case1 cs =>
    cases h
    rfl
  | case2 k =>
    cases h
    rfl
  | case3 k c cs hcut => cases h
  | case4 k c cs hcut ih =>
    cases hsplit : splitBytes (k + 1 - c.utf8Size) cs with
    | error crash =>
      rw [hsplit] at h
      cases h
    | ok cut =>
      rw [hsplit] at h
      cases h
      rw [ih hsplit, List.cons_append]

theorem IsReadable.utf8Size (h : IsReadable high low channel) :
    high.utf8Size = 1 ∧ low.utf8Size = 1 :=
  utf8Size_of_pairChannel? (Option.isSome_of_eq_some (pairChannel?_eq_some_iff.mpr h))

theorem IsReadable.byteCount (h : IsReadable high low channel) (rest : List Char) :
    byteCount (high :: low :: rest) = byteCount rest + 2 := by
  rw [byteCount_cons, byteCount_cons, h.utf8Size.1, h.utf8Size.2]
  omega

theorem IsDoubled.byteCount (h : IsDoubled c channel) (rest : List Char) :
    byteCount (c :: rest) = byteCount rest + 1 := by
  obtain ⟨n, hn, -⟩ := h
  rw [byteCount_cons, hn.utf8Size, Nat.add_comm]

/-! ## Reading a colour -/

theorem ofDigits?_eq_some_iff {cs : List Char} :
    ofDigits? cs = some color ↔ ∃ r g b, cs = [r, g, b] ∧ IsDoubled r color.red ∧
      IsDoubled g color.green ∧ IsDoubled b color.blue := by
  constructor
  · intro h
    match cs, h with
    | [r, g, b], h =>
      simp only [ofDigits?, Option.bind_eq_bind, Option.bind_eq_some_iff,
        digitChannel?_eq_some_iff] at h
      obtain ⟨red, hred, green, hgreen, blue, hblue, h⟩ := h
      cases h
      exact ⟨r, g, b, rfl, hred, hgreen, hblue⟩
    | [], h => cases h
    | [_], h => cases h
    | [_, _], h => cases h
    | _ :: _ :: _ :: _ :: _, h => cases h
  · rintro ⟨r, g, b, rfl, hred, hgreen, hblue⟩
    rw [ofDigits?, digitChannel?_eq_some_iff.mpr hred, digitChannel?_eq_some_iff.mpr hgreen,
      digitChannel?_eq_some_iff.mpr hblue]
    rfl

theorem readPair_eq_some_iff {cs : List Char}
    {next : UInt8 → List Char → Except Crash (Option Color)} :
    readPair cs next = .ok (some color) ↔
      ∃ high low rest channel, cs = high :: low :: rest ∧ IsReadable high low channel ∧
        next channel rest = .ok (some color) := by
  constructor
  · intro h
    cases hsplit : splitBytes 2 cs with
    | error crash =>
      rw [readPair, hsplit] at h
      cases h
    | ok cut =>
      obtain ⟨pair, rest⟩ := cut
      rw [readPair_eq hsplit] at h
      cases hchannel : pairChannel? pair with
      | none =>
        rw [hchannel] at h
        cases h
      | some channel =>
        rw [hchannel] at h
        obtain ⟨high, low, rfl, hread⟩ := exists_of_pairChannel? hchannel
        exact ⟨high, low, rest, channel, splitBytes_append hsplit, hread, h⟩
  · rintro ⟨high, low, rest, channel, rfl, hread, h⟩
    rw [readPair_eq (splitBytes_pair hread.utf8Size.1 hread.utf8Size.2 rest),
      pairChannel?_eq_some_iff.mpr hread]
    exact h

theorem ofPairs_eq_some_iff {cs : List Char} (h : byteCount cs = 6) :
    ofPairs cs = .ok (some color) ↔ ∃ r r' g g' b b', cs = [r, r', g, g', b, b'] ∧
      IsReadable r r' color.red ∧ IsReadable g g' color.green ∧ IsReadable b b' color.blue := by
  simp only [ofPairs_eq, readPair_eq_some_iff]
  constructor
  · rintro ⟨r, r', _, red, rfl, hred, g, g', _, green, rfl, hgreen, b, b', rest, blue, rfl, hblue,
      hcolor⟩
    cases hcolor
    -- three pairs are six bytes, so nothing is left behind them
    rw [hred.byteCount, hgreen.byteCount, hblue.byteCount] at h
    obtain rfl : rest = [] := byteCount_eq_zero (by omega)
    exact ⟨r, r', g, g', b, b', rfl, hred, hgreen, hblue⟩
  · rintro ⟨r, r', g, g', b, b', rfl, hred, hgreen, hblue⟩
    exact ⟨r, r', _, _, rfl, hred, g, g', _, _, rfl, hgreen, b, b', _, _, rfl, hblue, rfl⟩

theorem ofHex_eq_some_iff {text : String} :
    ofHex text = .ok (some color) ↔ IsWritten IsReadable text.toList color := by
  rw [ofHex]
  constructor
  · intro h
    split at h
    · next digits htext =>
      rw [htext]
      split at h
      · obtain ⟨r, g, b, rfl, hred, hgreen, hblue⟩ := ofDigits?_eq_some_iff.mp (Except.ok.inj h)
        exact .digits hred hgreen hblue
      · split at h
        · next hsix =>
          obtain ⟨r, r', g, g', b, b', rfl, hred, hgreen, hblue⟩ := (ofPairs_eq_some_iff hsix).mp h
          exact .pairs hred hgreen hblue
        · cases h
    · cases h
  · intro h
    generalize text.toList = cs at h
    cases h with
    | @digits r g b _ hred hgreen hblue =>
      have hthree : byteCount [r, g, b] = 3 := by
        rw [hred.byteCount, hgreen.byteCount, hblue.byteCount]
        rfl
      refine (if_pos hthree).trans (congrArg Except.ok ?_)
      exact ofDigits?_eq_some_iff.mpr ⟨r, g, b, rfl, hred, hgreen, hblue⟩
    | @pairs r r' g g' b b' _ hred hgreen hblue =>
      have hsix : byteCount [r, r', g, g', b, b'] = 6 := by
        rw [hred.byteCount, hgreen.byteCount, hblue.byteCount]
        rfl
      refine (if_neg (by omega)).trans ((if_pos hsix).trans ?_)
      exact (ofPairs_eq_some_iff hsix).mpr ⟨r, r', g, g', b, b', rfl, hred, hgreen, hblue⟩

/-! ## Texts without a plus sign -/

theorem isPair_iff : IsPair high low channel ↔
    IsReadable high low channel ∧ high ≠ '+' ∧ low ≠ '+' := by
  constructor
  · intro h
    obtain ⟨m, n, hm, hn, -⟩ := id h
    exact ⟨.inl h, hm.ne_plus, hn.ne_plus⟩
  · rintro ⟨h | h, hhigh, -⟩
    · exact h
    · exact absurd h.1 hhigh

theorem isWritten_isPair_iff {cs : List Char} :
    IsWritten IsPair cs color ↔ IsWritten IsReadable cs color ∧ '+' ∉ cs := by
  constructor
  · rintro (⟨hred, hgreen, hblue⟩ | ⟨hred, hgreen, hblue⟩)
    · refine ⟨.digits hred hgreen hblue, ?_⟩
      obtain ⟨_, hr, -⟩ := hred
      obtain ⟨_, hg, -⟩ := hgreen
      obtain ⟨_, hb, -⟩ := hblue
      simp [hr.ne_plus.symm, hg.ne_plus.symm, hb.ne_plus.symm]
    · rw [isPair_iff] at hred hgreen hblue
      refine ⟨.pairs hred.1 hgreen.1 hblue.1, ?_⟩
      simp [hred.2.1.symm, hred.2.2.symm, hgreen.2.1.symm, hgreen.2.2.symm, hblue.2.1.symm,
        hblue.2.2.symm]
  · rintro ⟨⟨hred, hgreen, hblue⟩ | ⟨hred, hgreen, hblue⟩, hplus⟩
    · exact .digits hred hgreen hblue
    · simp only [List.mem_cons, not_or, eq_comm (a := '+')] at hplus
      obtain ⟨-, hr, hr', hg, hg', hb, hb', -⟩ := hplus
      exact .pairs (isPair_iff.mpr ⟨hred, hr, hr'⟩) (isPair_iff.mpr ⟨hgreen, hg, hg'⟩)
        (isPair_iff.mpr ⟨hblue, hb, hb'⟩)

/-- **What is read as a hexadecimal colour.** A text gives a colour exactly if it is a mark with
three digits or three pairs behind it, where a plus sign and a digit count as a pair as well; it
crashes exactly if a pair that is to be read ends inside a character; and any other text is no
colour. The texts of the grammar, without that pair, are the colours without a plus sign. -/
theorem ofHex_grammar (text : String) :
    (∀ color, ofHex text = .ok (some color) ↔ IsWritten IsReadable text.toList color) ∧
    (∀ crash, ofHex text = .error crash ↔ CutsCharacter text) ∧
    (ofHex text = .ok none ↔
      ¬CutsCharacter text ∧ ∀ color, ¬IsWritten IsReadable text.toList color) ∧
    ∀ color, IsWritten IsPair text.toList color ↔
      ofHex text = .ok (some color) ∧ '+' ∉ text.toList := by
  refine ⟨fun color ↦ ofHex_eq_some_iff, ofHex_eq_error_iff text, ?_, fun color ↦ ?_⟩
  · rw [← ofHex_eq_error_iff text .splitCharacter]
    simp only [← ofHex_eq_some_iff]
    rcases ofHex text with ⟨⟨⟩⟩ | _ | color
    · simp
    · simp
    · simp
  · rw [ofHex_eq_some_iff, isWritten_isPair_iff]

/-- A plus sign is taken for the first digit of a pair, so not every colour is a text of the
grammar. -/
theorem not_forall_ofHex_grammar :
    ¬∀ text : String,
      (∀ color, ofHex text = .ok (some color) ↔ IsWritten IsPair text.toList color) ∧
        ((∀ color, ¬IsWritten IsPair text.toList color) → ofHex text = .ok none) := by
  intro h
  have hchannel : IsReadable '+' 'f' 15 := .inr ⟨rfl, by decide⟩
  have hread : ofHex "#+f+f+f" = .ok (some ⟨15, 15, 15⟩) :=
    ofHex_eq_some_iff.mpr (.pairs hchannel hchannel hchannel)
  have hwritten := ((h "#+f+f+f").1 ⟨15, 15, 15⟩).mp hread
  exact (isWritten_isPair_iff.mp hwritten).2 (by decide)

end TilePuzzle.Color
