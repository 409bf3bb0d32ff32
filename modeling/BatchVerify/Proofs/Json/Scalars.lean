import BatchVerify.Json.Reader
import Mathlib.Tactic.SplitIfs

/-!
# Strings and numbers in JSON text

What stands between quotes is read back character by character, whatever the text holds
(`Json.readString_quoted`), and the decimal digits of a number are read back where no further digit
follows them (`Json.readInteger_toString`).
-/

namespace BatchVerify.Json

/-! ## Strings -/

/-- Puts a character before the text of a string that was read. -/
def afterChar (c : Char) (read : Option (List Char × List Char)) : Option (List Char × List Char) :=
  read.map fun (chars, rest) => (c :: chars, rest)

theorem readString_letter {letter c : Char} (h : unescape? letter = some c) (hletter : letter ≠ 'u')
    (rest : List Char) :
    readString ('\\' :: letter :: rest) = afterChar c (readString rest) := by
  rw [readString.eq_def]
  split
  · next heq => cases heq
  · next heq => cases heq
  · next heq =>
    cases heq
    exact absurd rfl hletter
  · next heq =>
    cases heq
    rw [h, afterChar, Option.map_eq_bind]
    rfl
  · next hother heq =>
    cases heq
    exact absurd rfl (hother letter rest rfl)

theorem readString_code {a b d e c : Char} (h : (hexNumber? [a, b, d, e]).bind codePoint? = some c)
    (rest : List Char) :
    readString ('\\' :: 'u' :: a :: b :: d :: e :: rest) = afterChar c (readString rest) := by
  rw [readString.eq_def]
  simp only [h]
  rfl

theorem readString_plain {c : Char} (hquote : c ≠ '"') (hbackslash : c ≠ '\\')
    (h : ¬ c.toNat < 0x20) (rest : List Char) :
    readString (c :: rest) = afterChar c (readString rest) := by
  rw [readString.eq_def]
  split
  · next heq => cases heq
  · next heq =>
    cases heq
    exact absurd rfl hquote
  · next heq =>
    cases heq
    exact absurd rfl hbackslash
  · next heq =>
    cases heq
    exact absurd rfl hbackslash
  · next heq =>
    cases heq
    rw [if_neg h]
    rfl

/-- Two hexadecimal digits write the number of a control character. -/
theorem hexNumber?_control :
    ∀ n < 0x20, hexNumber? ['0', '0', Nat.digitChar (n / 16), Nat.digitChar (n % 16)] = some n := by
  decide

theorem codePoint?_toNat (c : Char) : codePoint? c.toNat = some c := by
  have hvalid : c.toNat.isValidChar := c.valid
  rw [codePoint?, if_pos hvalid, Char.ofNat_toNat]

/-- A character is read from what is written for it. -/
theorem readString_escapeChar (c : Char) (rest : List Char) :
    readString (escapeChar c ++ rest) = afterChar c (readString rest) := by
  unfold escapeChar
  split_ifs
  -- seven characters are written as a letter after a backslash
  iterate 7
    next hchar =>
      rw [hchar]
      exact readString_letter rfl (by decide) rest
  · next hcontrol =>
    refine readString_code ?_ rest
    rw [hexNumber?_control c.toNat hcontrol, Option.bind_some, codePoint?_toNat]
  · next hquote hbackslash _ _ _ _ _ hcontrol => exact readString_plain hquote hbackslash hcontrol rest

theorem readString_escaped (chars rest : List Char) :
    readString (chars.flatMap escapeChar ++ '"' :: rest) = some (chars, rest) := by
  induction chars with
  | nil => rfl
  | cons c chars ih =>
    rw [List.flatMap_cons, List.append_assoc, readString_escapeChar, ih]
    rfl

/-- A string in quotes is read back, whatever follows it. -/
theorem readString_quoted (text : String) (rest : List Char) :
    ∃ inner, quoted text ++ rest = '"' :: inner ∧ readString inner = some (text.toList, rest) := by
  refine ⟨text.toList.flatMap escapeChar ++ '"' :: rest, ?_, readString_escaped _ _⟩
  rw [quoted, List.cons_append, List.cons_append, List.append_assoc, List.singleton_append]

/-! ## Numbers -/

/-- What follows a number does not go on with it. -/
def EndsNumber (rest : List Char) : Prop := ∀ c ∈ rest.head?, c.isDigit = false

theorem endsNumber_cons {c : Char} (h : c.isDigit = false) (rest : List Char) :
    EndsNumber (c :: rest) := by
  intro d hd
  obtain rfl : c = d := by simpa using hd
  exact h

theorem EndsNumber.takeWhile {rest : List Char} (h : EndsNumber rest) :
    rest.takeWhile Char.isDigit = [] := by
  cases rest with
  | nil => rfl
  | cons c rest => simp [h c rfl]

theorem EndsNumber.dropWhile {rest : List Char} (h : EndsNumber rest) :
    rest.dropWhile Char.isDigit = rest := by
  cases rest with
  | nil => rfl
  | cons c rest => simp [h c rfl]

/-- Only the digits of zero start with a zero. -/
theorem eq_zero_of_toDigits {n : Nat} {digits : List Char} (h : Nat.toDigits 10 n = '0' :: digits) :
    n = 0 := by
  have hzero : ∀ digit < 10, Nat.digitChar digit = '0' → digit = 0 := by decide
  induction n using Nat.strongRecOn generalizing digits with
  | ind n ih =>
    by_cases hn : n < 10
    · rw [Nat.toDigits_of_lt_base hn] at h
      exact hzero n hn (List.cons.inj h).1
    · rw [Nat.toDigits_of_base_le (by decide) (by omega)] at h
      -- the first digit is that of a tenth of the number
      obtain ⟨first, others, hdigits⟩ :=
        List.exists_cons_of_ne_nil (Nat.toDigits_ne_nil (n := n / 10) (b := 10))
      rw [hdigits] at h
      obtain rfl : first = '0' := (List.cons.inj h).1
      have htenth := ih (n / 10) (by omega) hdigits
      omega

/-- The digits of a number read as that number. -/
theorem decimal?_toDigits (n : Nat) : decimal? (Nat.toDigits 10 n) = some n := by
  have hvalue : (Nat.toDigits 10 n).foldl (fun n c => n * 10 + (c.toNat - '0'.toNat)) 0 = n := by
    have hread := Nat.ofDigitChars_ten_toDigits (n := n)
    rw [Nat.ofDigitChars_eq_foldl] at hread
    simpa only [Nat.mul_comm 10] using hread
  unfold decimal?
  split
  · next hnil => exact absurd hnil Nat.toDigits_ne_nil
  · next hdigits =>
    -- no digits stand after the zero of zero
    rw [eq_zero_of_toDigits hdigits, Nat.toDigits_zero] at hdigits
    cases hdigits
  · rw [hvalue]

theorem all_isDigit_toDigits (n : Nat) : ∀ c ∈ Nat.toDigits 10 n, c.isDigit = true :=
  fun _ hc => Nat.isDigit_of_mem_toDigits (by decide) (by decide) hc

theorem decimal?_digits (n : Nat) {rest : List Char} (hrest : EndsNumber rest) :
    decimal? ((Nat.toDigits 10 n ++ rest).takeWhile Char.isDigit) = some n ∧
      (Nat.toDigits 10 n ++ rest).dropWhile Char.isDigit = rest := by
  have hdigits := all_isDigit_toDigits n
  rw [List.takeWhile_append_of_pos hdigits, List.dropWhile_append_of_pos hdigits, hrest.takeWhile,
    hrest.dropWhile, List.append_nil]
  exact ⟨decimal?_toDigits n, rfl⟩

theorem toList_toString_natCast (n : Nat) : (toString (n : Int)).toList = Nat.toDigits 10 n := by
  rw [Int.toString_eq_repr, Int.repr_eq_if, if_pos (Int.natCast_nonneg n), Int.toNat_natCast,
    Nat.repr_eq_ofList_toDigits, String.toList_ofList]

theorem toList_toString_negSucc (n : Nat) :
    (toString (Int.negSucc n)).toList = '-' :: Nat.toDigits 10 (n + 1) := by
  have hneg : ¬ 0 ≤ Int.negSucc n := by omega
  have habs : (-Int.negSucc n).toNat = n + 1 := by omega
  have hsign : ("-" : String).toList = ['-'] := rfl
  rw [Int.toString_eq_repr, Int.repr_eq_if, if_neg hneg, habs, Nat.repr_eq_ofList_toDigits,
    String.toList_append, hsign, String.toList_ofList, List.singleton_append]

/-- A number starts with its sign or a digit. -/
def StartsNumber (c : Char) : Prop := c = '-' ∨ c.isDigit = true

instance (c : Char) : Decidable (StartsNumber c) := inferInstanceAs (Decidable (_ ∨ _))

theorem StartsNumber.ne {c d : Char} (h : StartsNumber c) (hd : ¬ StartsNumber d) : c ≠ d := by
  rintro rfl
  exact hd h

theorem toString_integer_eq_cons (value : Int) :
    ∃ c rest, (toString value).toList = c :: rest ∧ StartsNumber c := by
  cases value with
  | ofNat n =>
    obtain ⟨c, rest, hdigits⟩ := List.exists_cons_of_ne_nil (Nat.toDigits_ne_nil (n := n) (b := 10))
    refine ⟨c, rest, (toList_toString_natCast n).trans hdigits, Or.inr ?_⟩
    exact all_isDigit_toDigits n c (hdigits ▸ List.mem_cons_self)
  | negSucc n => exact ⟨'-', _, toList_toString_negSucc n, Or.inl rfl⟩

/-- A number is read back, where no digit follows it. -/
theorem readInteger_toString (value : Int) {rest : List Char} (hrest : EndsNumber rest) :
    readInteger ((toString value).toList ++ rest) = some (value, rest) := by
  cases value with
  | ofNat n =>
    obtain ⟨hvalue, hleft⟩ := decimal?_digits n hrest
    have htext : (toString (Int.ofNat n)).toList = Nat.toDigits 10 n := toList_toString_natCast n
    rw [htext]
    unfold readInteger
    split
    · next hsign =>
      -- a digit is no sign
      have hdigit : '-' ∈ Nat.toDigits 10 n := by
        obtain ⟨c, digits, hdigits⟩ :=
          List.exists_cons_of_ne_nil (Nat.toDigits_ne_nil (n := n) (b := 10))
        rw [hdigits] at hsign ⊢
        obtain rfl : c = '-' := (List.cons.inj hsign).1
        exact List.mem_cons_self
      exact absurd (all_isDigit_toDigits n '-' hdigit) (by decide)
    · rw [hvalue, hleft]
      rfl
  | negSucc n =>
    obtain ⟨hvalue, hleft⟩ := decimal?_digits (n + 1) hrest
    rw [toList_toString_negSucc, List.cons_append]
    unfold readInteger
    split
    · next hsign =>
      cases hsign
      rw [hvalue, hleft]
      rfl
    · next hplain => exact absurd rfl (hplain _)

end BatchVerify.Json
