import BatchVerify.Proofs.Text.Utf8

/-!
# Bytes that stand for themselves

A byte below 0x80 occurs in the bytes of a text just where its character occurs in the text, so what
is cut at such a byte is cut at that character.
-/

namespace BatchVerify.Utf8

/-- The bytes of a character beyond the first 128 are all above them. -/
theorem mem_utf8EncodeChar_iff {b : UInt8} (hb : b.toNat < 0x80) (c : Char) :
    b ∈ String.utf8EncodeChar c ↔ c.val.toNat = b.toNat := by
  have hbyte {n : Nat} (hn : n < 256) : b = UInt8.ofNat n ↔ b.toNat = n := by
    rw [← UInt8.toNat_inj, toNat_ofNat_of_lt hn]
  have hvalid := toNat_char c
  unfold String.utf8EncodeChar
  generalize c.val.toNat = v at *
  dsimp only
  -- a byte of a longer sequence is above 0x80, and so is the number of its character
  split_ifs with hone htwo hthree
  · rw [List.mem_singleton, hbyte (by omega)]
    omega
  · simp only [List.mem_cons, List.not_mem_nil, or_false]
    rw [hbyte (by omega), hbyte (by omega)]
    omega
  · simp only [List.mem_cons, List.not_mem_nil, or_false]
    rw [hbyte (by omega), hbyte (by omega), hbyte (by omega)]
    omega
  · simp only [List.mem_cons, List.not_mem_nil, or_false]
    rw [hbyte (by omega), hbyte (by omega), hbyte (by omega), hbyte (by omega)]
    omega

theorem mem_encode_iff {b : UInt8} {c : Char} (hb : b.toNat < 0x80) (hc : c.val.toNat = b.toNat)
    (text : String) : b ∈ encode text ↔ c ∈ text.toList := by
  unfold encode
  rw [List.mem_flatMap]
  constructor
  · rintro ⟨d, hd, hmem⟩
    have hnumber : d.val.toNat = c.val.toNat := ((mem_utf8EncodeChar_iff hb d).mp hmem).trans hc.symm
    rwa [← Char.ext (UInt32.toNat_inj.mp hnumber)]
  · intro hmem
    exact ⟨c, hmem, (mem_utf8EncodeChar_iff hb c).mpr hc⟩

theorem slash_mem_encode_iff (text : String) : Bytes.slash ∈ encode text ↔ '/' ∈ text.toList :=
  mem_encode_iff (by decide) rfl text

theorem dot_mem_encode_iff (text : String) : Bytes.dot ∈ encode text ↔ '.' ∈ text.toList :=
  mem_encode_iff (by decide) rfl text

theorem encode_append (text text' : String) :
    encode (text ++ text') = encode text ++ encode text' := by
  unfold encode
  rw [String.toList_append, List.flatMap_append]

theorem encode_injective {text text' : String} (h : encode text = encode text') : text = text' := by
  have hread := congrArg decode? h
  rw [decode?_encode, decode?_encode] at hread
  exact Option.some.inj hread

theorem encode_eq_nil_iff {text : String} : encode text = [] ↔ text.toList = [] := by
  constructor
  · intro h
    have hempty : encode text = encode "" := h
    rw [encode_injective hempty]
    rfl
  · intro h
    rw [encode, h]
    rfl

end BatchVerify.Utf8
