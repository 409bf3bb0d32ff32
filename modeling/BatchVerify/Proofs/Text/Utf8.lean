import BatchVerify.Text.Utf8
import Mathlib.Tactic.SplitIfs

/-!
# Reading what was encoded

The bytes of a text read as its characters, with nothing stray (`Utf8.parts_encode`), so the strict
reader gives the text back (`Utf8.decode?_encode`). A character is one to four bytes; the reader has
one lemma for each of these lengths.
-/

namespace BatchVerify.Utf8

/-! ## Well-formed sequences -/

theorem parts_one {a : UInt8} (ha : a < 0x80) (rest : Bytes) :
    parts (a :: rest) = .char (Char.ofNat a.toNat) :: parts rest := by
  rw [parts.eq_def]
  simp [ha]

theorem parts_two {a b : UInt8} (ha : 0xC2 ≤ a) (ha' : a < 0xE0) (hb : continues b = true)
    (rest : Bytes) : parts (a :: b :: rest) = .char (character 5 a [b]) :: parts rest := by
  have hone : ¬ a < 0x80 := UInt8.not_lt.mpr (UInt8.le_trans (by decide) ha)
  rw [parts.eq_def]
  simp [hone, ha, ha', hb]

theorem parts_three {a b c : UInt8} (ha : 0xE0 ≤ a) (ha' : a < 0xF0)
    (hb : secondOfThree a b = true) (hc : continues c = true) (rest : Bytes) :
    parts (a :: b :: c :: rest) = .char (character 4 a [b, c]) :: parts rest := by
  have hone : ¬ a < 0x80 := UInt8.not_lt.mpr (UInt8.le_trans (by decide) ha)
  have htwo : ¬ a < 0xE0 := UInt8.not_lt.mpr ha
  rw [parts.eq_def]
  simp [hone, htwo, ha, ha', hb, hc]

theorem parts_four {a b c d : UInt8} (ha : 0xF0 ≤ a) (ha' : a < 0xF5)
    (hb : secondOfFour a b = true) (hc : continues c = true) (hd : continues d = true)
    (rest : Bytes) :
    parts (a :: b :: c :: d :: rest) = .char (character 3 a [b, c, d]) :: parts rest := by
  have hone : ¬ a < 0x80 := UInt8.not_lt.mpr (UInt8.le_trans (by decide) ha)
  have htwo : ¬ a < 0xE0 := UInt8.not_lt.mpr (UInt8.le_trans (by decide) ha)
  have hthree : ¬ a < 0xF0 := UInt8.not_lt.mpr ha
  rw [parts.eq_def]
  simp [hone, htwo, hthree, ha, ha', hb, hc, hd]

/-! ## The bytes of a character -/

theorem toNat_ofNat_of_lt {n : Nat} (h : n < 256) : (UInt8.ofNat n).toNat = n := by
  rw [UInt8.toNat_ofNat', Nat.mod_eq_of_lt h]

/-- The numbers of characters leave out the surrogates. -/
theorem toNat_char (c : Char) :
    c.val.toNat < 0xD800 ∨ 0xDFFF < c.val.toNat ∧ c.val.toNat < 0x110000 := c.valid

theorem continues_ofNat (n : Nat) : continues (UInt8.ofNat (n % 0x40 + 0x80)) = true := by
  have hbyte : (UInt8.ofNat (n % 0x40 + 0x80)).toNat = n % 0x40 + 0x80 :=
    toNat_ofNat_of_lt (by omega)
  simp only [continues, UInt8.le_iff_toNat_le, UInt8.lt_iff_toNat_lt, hbyte, Bool.and_eq_true,
    decide_eq_true_eq]
  show 0x80 ≤ _ ∧ _ < 0xC0
  omega

/-- A lead byte between two others, by its number. -/
theorem lead_bounds {n low high : Nat} (hlow : low ≤ n) (hhigh : n < high) (h : high < 256) :
    UInt8.ofNat low ≤ UInt8.ofNat n ∧ UInt8.ofNat n < UInt8.ofNat high := by
  rw [UInt8.le_iff_toNat_le, UInt8.lt_iff_toNat_lt, toNat_ofNat_of_lt (by omega),
    toNat_ofNat_of_lt (by omega), toNat_ofNat_of_lt h]
  exact ⟨hlow, hhigh⟩

theorem bounds_and {b : UInt8} {n low high : Nat} (hb : b.toNat = n) (hlow : low ≤ n)
    (hhigh : n < high) (h : high < 256) :
    (decide (UInt8.ofNat low ≤ b) && decide (b < UInt8.ofNat high)) = true := by
  subst hb
  have hbound := lead_bounds hlow hhigh h
  rw [UInt8.ofNat_toNat] at hbound
  simp [hbound]

/-- The second of three bytes makes for no overlong form and no surrogate. -/
theorem secondOfThree_ofNat {v : Nat} (hlow : 0x7FF < v) (hhigh : v ≤ 0xFFFF)
    (hvalid : v < 0xD800 ∨ 0xDFFF < v ∧ v < 0x110000) :
    secondOfThree (UInt8.ofNat (v / 4096 % 0x10 + 0xE0)) (UInt8.ofNat (v / 64 % 0x40 + 0x80)) =
      true := by
  have hlead : (UInt8.ofNat (v / 4096 % 0x10 + 0xE0)).toNat = v / 4096 % 0x10 + 0xE0 :=
    toNat_ofNat_of_lt (by omega)
  have hsecond : (UInt8.ofNat (v / 64 % 0x40 + 0x80)).toNat = v / 64 % 0x40 + 0x80 :=
    toNat_ofNat_of_lt (by omega)
  unfold secondOfThree
  split_ifs with hE0 hED
  -- the lowest lead byte: what could be written in two bytes is not written in three
  · have hnum := hlead.symm.trans (congrArg UInt8.toNat hE0)
    change _ = 0xE0 at hnum
    exact bounds_and hsecond (show 0xA0 ≤ _ by omega) (show _ < 0xC0 by omega) (by decide)
  -- the lead byte of the surrogates, which are no characters
  · have hnum := hlead.symm.trans (congrArg UInt8.toNat hED)
    change _ = 0xED at hnum
    exact bounds_and hsecond (show 0x80 ≤ _ by omega) (show _ < 0xA0 by omega) (by decide)
  · exact continues_ofNat (v / 64)

/-- The second of four bytes makes for no overlong form and nothing beyond the last character. -/
theorem secondOfFour_ofNat {v : Nat} (hlow : 0xFFFF < v) (hhigh : v < 0x110000) :
    secondOfFour (UInt8.ofNat (v / 262144 % 0x08 + 0xF0))
      (UInt8.ofNat (v / 4096 % 0x40 + 0x80)) = true := by
  have hlead : (UInt8.ofNat (v / 262144 % 0x08 + 0xF0)).toNat = v / 262144 % 0x08 + 0xF0 :=
    toNat_ofNat_of_lt (by omega)
  have hsecond : (UInt8.ofNat (v / 4096 % 0x40 + 0x80)).toNat = v / 4096 % 0x40 + 0x80 :=
    toNat_ofNat_of_lt (by omega)
  unfold secondOfFour
  split_ifs with hF0 hF4
  -- the lowest lead byte: what could be written in three bytes is not written in four
  · have hnum := hlead.symm.trans (congrArg UInt8.toNat hF0)
    change _ = 0xF0 at hnum
    exact bounds_and hsecond (show 0x90 ≤ _ by omega) (show _ < 0xC0 by omega) (by decide)
  -- the highest lead byte: there is no character beyond U+10FFFF
  · have hnum := hlead.symm.trans (congrArg UInt8.toNat hF4)
    change _ = 0xF4 at hnum
    exact bounds_and hsecond (show 0x80 ≤ _ by omega) (show _ < 0x90 by omega) (by decide)
  · exact continues_ofNat (v / 4096)

/-- The bytes of a character read as that character, whatever follows. -/
theorem parts_utf8EncodeChar (c : Char) (rest : Bytes) :
    parts (String.utf8EncodeChar c ++ rest) = .char c :: parts rest := by
  have hvalid := toNat_char c
  have hback : Char.ofNat c.val.toNat = c := Char.ofNat_toNat c
  unfold String.utf8EncodeChar
  generalize c.val.toNat = v at *
  have hlast : (UInt8.ofNat (v % 0x40 + 0x80)).toNat = v % 0x40 + 0x80 :=
    toNat_ofNat_of_lt (by omega)
  have hmiddle : (UInt8.ofNat (v / 64 % 0x40 + 0x80)).toNat = v / 64 % 0x40 + 0x80 :=
    toNat_ofNat_of_lt (by omega)
  dsimp only
  split_ifs with hone htwo hthree
  · have hlead : (UInt8.ofNat v).toNat = v := toNat_ofNat_of_lt (by omega)
    have hbound := lead_bounds (Nat.zero_le v) (show v < 0x80 by omega) (by decide)
    rw [List.singleton_append, parts_one hbound.2, hlead, hback]
  · have hlead : (UInt8.ofNat (v / 64 % 0x20 + 0xC0)).toNat = v / 64 % 0x20 + 0xC0 :=
      toNat_ofNat_of_lt (by omega)
    have hbound := lead_bounds (show 0xC2 ≤ v / 64 % 0x20 + 0xC0 by omega)
      (show v / 64 % 0x20 + 0xC0 < 0xE0 by omega) (by decide)
    have hchar : character 5 (UInt8.ofNat (v / 64 % 0x20 + 0xC0))
        [UInt8.ofNat (v % 0x40 + 0x80)] = c := by
      rw [← hback]
      show Char.ofNat (_ % 32 * 64 + _ % 64) = _
      rw [hlead, hlast]
      congr 1
      omega
    show parts (_ :: _ :: rest) = _
    rw [parts_two hbound.1 hbound.2 (continues_ofNat v), hchar]
  · have hlead : (UInt8.ofNat (v / 4096 % 0x10 + 0xE0)).toNat = v / 4096 % 0x10 + 0xE0 :=
      toNat_ofNat_of_lt (by omega)
    have hbound := lead_bounds (show 0xE0 ≤ v / 4096 % 0x10 + 0xE0 by omega)
      (show v / 4096 % 0x10 + 0xE0 < 0xF0 by omega) (by decide)
    have hchar : character 4 (UInt8.ofNat (v / 4096 % 0x10 + 0xE0))
        [UInt8.ofNat (v / 64 % 0x40 + 0x80), UInt8.ofNat (v % 0x40 + 0x80)] = c := by
      rw [← hback]
      show Char.ofNat ((_ % 16 * 64 + _ % 64) * 64 + _ % 64) = _
      rw [hlead, hmiddle, hlast]
      congr 1
      omega
    show parts (_ :: _ :: _ :: rest) = _
    rw [parts_three hbound.1 hbound.2 (secondOfThree_ofNat (by omega) hthree hvalid)
      (continues_ofNat v), hchar]
  · have hlead : (UInt8.ofNat (v / 262144 % 0x08 + 0xF0)).toNat = v / 262144 % 0x08 + 0xF0 :=
      toNat_ofNat_of_lt (by omega)
    have hsecond : (UInt8.ofNat (v / 4096 % 0x40 + 0x80)).toNat = v / 4096 % 0x40 + 0x80 :=
      toNat_ofNat_of_lt (by omega)
    have hbound := lead_bounds (show 0xF0 ≤ v / 262144 % 0x08 + 0xF0 by omega)
      (show v / 262144 % 0x08 + 0xF0 < 0xF5 by omega) (by decide)
    have hchar : character 3 (UInt8.ofNat (v / 262144 % 0x08 + 0xF0))
        [UInt8.ofNat (v / 4096 % 0x40 + 0x80), UInt8.ofNat (v / 64 % 0x40 + 0x80),
          UInt8.ofNat (v % 0x40 + 0x80)] = c := by
      rw [← hback]
      show Char.ofNat (((_ % 8 * 64 + _ % 64) * 64 + _ % 64) * 64 + _ % 64) = _
      rw [hlead, hsecond, hmiddle, hlast]
      congr 1
      omega
    show parts (_ :: _ :: _ :: _ :: rest) = _
    rw [parts_four hbound.1 hbound.2 (secondOfFour_ofNat (by omega) (by omega))
      (continues_ofNat (v / 64)) (continues_ofNat v), hchar]

/-- The bytes of a text read as its characters. -/
theorem parts_encode (text : String) : parts (encode text) = text.toList.map Part.char := by
  unfold encode
  induction text.toList with
  | nil => rfl
  | cons c chars ih =>
    rw [List.flatMap_cons, parts_utf8EncodeChar, ih]
    rfl

/-- What was encoded is read back. -/
theorem decode?_encode (text : String) : decode? (encode text) = some text := by
  have hchars (chars : List Char) : (chars.map Part.char).mapM Part.char? = some chars := by
    induction chars with
    | nil => rfl
    | cons c chars ih => simp [List.mapM_cons, Part.char?, ih]
  rw [decode?, parts_encode, hchars, Option.map_some, String.ofList_toList]

end BatchVerify.Utf8
