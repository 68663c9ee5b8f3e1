import ClassHost.Text.Units

/-!
# Reading units back

Writing a text as UTF-16 units loses nothing: `ofUnits?_units` reads the text back, so texts with
the same units are the same (`units_injective`). One character is one step of the reader, whether it
was written as one unit or as two (`readUnits_unitsOfChar`).

Nothing else is read. Units that are read are well-formed, which is said without the reader
(`IsWellFormed`), and well-formed units are those of a text (`isWellFormed_iff`); so what is read is
the text with exactly these units (`ofUnits?_eq_some_iff`).
-/

namespace ClassHost.Text

theorem isHighSurrogate_iff {u : UInt16} :
    isHighSurrogate u = true ↔ 0xD800 ≤ u.toNat ∧ u.toNat < 0xDC00 := by
  simp [isHighSurrogate, UInt16.le_iff_toNat_le, UInt16.lt_iff_toNat_lt]

theorem isLowSurrogate_iff {u : UInt16} :
    isLowSurrogate u = true ↔ 0xDC00 ≤ u.toNat ∧ u.toNat < 0xE000 := by
  simp [isLowSurrogate, UInt16.le_iff_toNat_le, UInt16.lt_iff_toNat_lt]

/-- No character has a number that is a surrogate, and none is larger than two units can say. -/
theorem toNat_cases (c : Char) :
    c.toNat < 0xD800 ∨ 0xDFFF < c.toNat ∧ c.toNat < 0x110000 := c.valid

theorem toNat_toUInt16 {n : Nat} (h : n < 0x10000) : n.toUInt16.toNat = n := by
  rw [Nat.toUInt16_eq, UInt16.toNat_ofNat_of_lt' h]

/-- The two halves of a supplementary character give it back. -/
theorem charOfPair_halves {c : Char} (h : 0x10000 ≤ c.toNat) :
    charOfPair (0xD800 + (c.toNat - 0x10000) / 0x400).toUInt16
      (0xDC00 + (c.toNat - 0x10000) % 0x400).toUInt16 = c := by
  have hvalid := toNat_cases c
  rw [charOfPair, toNat_toUInt16 (by omega), toNat_toUInt16 (by omega)]
  have hnumber : 0x10000 + (0xD800 + (c.toNat - 0x10000) / 0x400 - 0xD800) * 0x400 +
      (0xDC00 + (c.toNat - 0x10000) % 0x400 - 0xDC00) = c.toNat := by omega
  rw [hnumber, Char.ofNat_toNat]

/-- A character is one unit that is no surrogate, or a pair of halves. -/
theorem unitsOfChar_cases (c : Char) :
    (∃ u, unitsOfChar c = [u] ∧ ¬ isHighSurrogate u = true ∧ ¬ isLowSurrogate u = true ∧
      Char.ofNat u.toNat = c) ∨
    ∃ high low, unitsOfChar c = [high, low] ∧ isHighSurrogate high = true ∧
      isLowSurrogate low = true ∧ charOfPair high low = c := by
  -- a scalar value below `0x10000` is no surrogate, so it is its own unit
  have hvalid := toNat_cases c
  by_cases hsmall : c.toNat < 0x10000
  · left
    refine ⟨c.toNat.toUInt16, by rw [unitsOfChar, if_pos hsmall], ?_, ?_, ?_⟩
    · rw [isHighSurrogate_iff, toNat_toUInt16 hsmall]
      omega
    · rw [isLowSurrogate_iff, toNat_toUInt16 hsmall]
      omega
    · rw [toNat_toUInt16 hsmall, Char.ofNat_toNat]
  · right
    refine ⟨_, _, by rw [unitsOfChar, if_neg hsmall], ?_, ?_, charOfPair_halves (by omega)⟩
    · rw [isHighSurrogate_iff, toNat_toUInt16 (by omega)]
      omega
    · rw [isLowSurrogate_iff, toNat_toUInt16 (by omega)]
      omega

/-- **One step.** The units of a character are read as that character, whatever follows. -/
theorem readUnits_unitsOfChar (c : Char) (rest : List UInt16) (read : List Char) :
    readUnits (unitsOfChar c ++ rest) read = readUnits rest (c :: read) := by
  rcases unitsOfChar_cases c with ⟨u, hunits, hhigh, hlow, hc⟩ |
    ⟨high, low, hunits, hhigh, hlow, hc⟩
  · rw [hunits, List.singleton_append, readUnits.eq_def]
    dsimp only
    rw [if_neg hhigh, if_neg hlow, hc]
  · rw [hunits, List.cons_append, List.singleton_append, readUnits, if_pos hhigh, if_pos hlow, hc]

theorem readUnits_flatMap (cs read : List Char) :
    readUnits (cs.flatMap unitsOfChar) read = some (read.reverse ++ cs) := by
  induction cs generalizing read with
  | nil => rw [List.flatMap_nil, readUnits, List.append_nil]
  | cons c cs ih =>
    rw [List.flatMap_cons, readUnits_unitsOfChar, ih, List.reverse_cons, List.append_assoc,
      List.singleton_append]

/-- **Units say everything.** The units of a text are read as that text. -/
theorem ofUnits?_units (text : String) : ofUnits? (units text) = some text := by
  rw [ofUnits?, units, readUnits_flatMap, List.reverse_nil, List.nil_append, Option.map_some,
    String.ofList_toList]

theorem units_injective : Function.Injective units := by
  intro s t h
  have hread : some s = some t := by rw [← ofUnits?_units s, h, ofUnits?_units]
  exact Option.some.inj hread

-- ---------------------------------------------------------------------------
-- Well-formed units
-- ---------------------------------------------------------------------------

/-- Well-formed UTF-16: every surrogate is half of a pair, the high one first. -/
inductive IsWellFormed : List UInt16 → Prop where
  | nil : IsWellFormed []
  | unit {u : UInt16} {rest : List UInt16} (hhigh : ¬ isHighSurrogate u = true)
      (hlow : ¬ isLowSurrogate u = true) (hrest : IsWellFormed rest) : IsWellFormed (u :: rest)
  | pair {high low : UInt16} {rest : List UInt16} (hhigh : isHighSurrogate high = true)
      (hlow : isLowSurrogate low = true) (hrest : IsWellFormed rest) :
      IsWellFormed (high :: low :: rest)

variable {us : List UInt16} {text : String}

theorem toNat_charOfNat {n : Nat} (h : n < 0xD800 ∨ 0xDFFF < n ∧ n < 0x110000) :
    (Char.ofNat n).toNat = n := by
  have hvalid : n.isValidChar := h
  rw [Char.ofNat, dif_pos hvalid]
  rfl

/-- A unit that is no surrogate is all of a character. -/
theorem unitsOfChar_ofNat {u : UInt16} (hhigh : ¬ isHighSurrogate u = true)
    (hlow : ¬ isLowSurrogate u = true) : unitsOfChar (Char.ofNat u.toNat) = [u] := by
  have hu : u.toNat < 0x10000 := u.toNat_lt
  rw [isHighSurrogate_iff] at hhigh
  rw [isLowSurrogate_iff] at hlow
  have hnumber : (Char.ofNat u.toNat).toNat = u.toNat := toNat_charOfNat (by omega)
  rw [unitsOfChar, hnumber, if_pos hu, Nat.toUInt16_eq, UInt16.ofNat_toNat]

/-- The two halves of a pair are all of a character. -/
theorem unitsOfChar_charOfPair {high low : UInt16} (hhigh : isHighSurrogate high = true)
    (hlow : isLowSurrogate low = true) : unitsOfChar (charOfPair high low) = [high, low] := by
  rw [isHighSurrogate_iff] at hhigh
  rw [isLowSurrogate_iff] at hlow
  have hnumber : (charOfPair high low).toNat =
      0x10000 + (high.toNat - 0xD800) * 0x400 + (low.toNat - 0xDC00) :=
    toNat_charOfNat (by omega)
  have hfirst : (0xD800 + ((charOfPair high low).toNat - 0x10000) / 0x400).toUInt16 = high := by
    apply UInt16.toNat_inj.mp
    rw [toNat_toUInt16 (by omega)]
    omega
  have hsecond : (0xDC00 + ((charOfPair high low).toNat - 0x10000) % 0x400).toUInt16 = low := by
    apply UInt16.toNat_inj.mp
    rw [toNat_toUInt16 (by omega)]
    omega
  rw [unitsOfChar, if_neg (by omega), hfirst, hsecond]

theorem isWellFormed_append (c : Char) (h : IsWellFormed us) :
    IsWellFormed (unitsOfChar c ++ us) := by
  rcases unitsOfChar_cases c with ⟨u, hunits, hhigh, hlow, -⟩ |
    ⟨high, low, hunits, hhigh, hlow, -⟩
  · rw [hunits]
    exact .unit hhigh hlow h
  · rw [hunits]
    exact .pair hhigh hlow h

/-- Well-formed units are made up of characters. -/
theorem IsWellFormed.exists_chars (h : IsWellFormed us) :
    ∃ cs : List Char, cs.flatMap unitsOfChar = us := by
  induction h with
  | nil => exact ⟨[], rfl⟩
  | @unit u rest hhigh hlow hrest ih =>
    obtain ⟨cs, hcs⟩ := ih
    refine ⟨Char.ofNat u.toNat :: cs, ?_⟩
    rw [List.flatMap_cons, hcs, unitsOfChar_ofNat hhigh hlow, List.singleton_append]
  | @pair high low rest hhigh hlow hrest ih =>
    obtain ⟨cs, hcs⟩ := ih
    refine ⟨charOfPair high low :: cs, ?_⟩
    rw [List.flatMap_cons, hcs, unitsOfChar_charOfPair hhigh hlow]
    rfl

/-- **Well-formed units are those of texts.** -/
theorem isWellFormed_iff : IsWellFormed us ↔ ∃ text, units text = us := by
  constructor
  · intro h
    obtain ⟨cs, hcs⟩ := h.exists_chars
    exact ⟨String.ofList cs, by rw [units, String.toList_ofList, hcs]⟩
  · rintro ⟨text, rfl⟩
    rw [units]
    induction text.toList with
    | nil => exact .nil
    | cons c cs ih => exact isWellFormed_append c ih

theorem isWellFormed_of_readUnits {read cs : List Char} (h : readUnits us read = some cs) :
    IsWellFormed us := by
  -- a pair and a unit of its own are read on; the three ways to meet half a pair fail
  induction us, read using readUnits.induct with
  | case1 read => exact .nil
  | case2 u read hhigh =>
    rw [readUnits, if_pos hhigh] at h
    exact nomatch h
  | case3 u read hhigh v rest hlow ih =>
    rw [readUnits, if_pos hhigh, if_pos hlow] at h
    exact .pair hhigh hlow (ih h)
  | case4 u read hhigh v rest hlow =>
    rw [readUnits, if_pos hhigh, if_neg hlow] at h
    exact nomatch h
  | case5 u rest read hhigh hlow =>
    rw [readUnits.eq_def] at h
    dsimp only at h
    rw [if_neg hhigh, if_pos hlow] at h
    exact nomatch h
  | case6 u rest read hhigh hlow ih =>
    rw [readUnits.eq_def] at h
    dsimp only at h
    rw [if_neg hhigh, if_neg hlow] at h
    exact .unit hhigh hlow (ih h)

/-- **Reading is exact.** Units are read as the text that has these units. -/
theorem ofUnits?_eq_some_iff : ofUnits? us = some text ↔ units text = us := by
  constructor
  · intro h
    obtain ⟨cs, hcs, -⟩ := Option.map_eq_some_iff.mp h
    obtain ⟨text', rfl⟩ := isWellFormed_iff.mp (isWellFormed_of_readUnits hcs)
    rw [ofUnits?_units] at h
    rw [Option.some.inj h]
  · rintro rfl
    exact ofUnits?_units text

end ClassHost.Text
