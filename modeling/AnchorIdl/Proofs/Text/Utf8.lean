/-
# The octets of strings

A text that holds no lone surrogate is the text of a string (`ofString_toString`),
and its octets are those that the string has in memory (`encode_ofString`).  So
what UTF-8 makes of a text can be said without the encoder of texts.
-/

import AnchorIdl.Proofs.Text.Basic

namespace AnchorIdl

theorem CodePoint.isSurrogate_ofChar (c : Char) : (ofChar c).isSurrogate = false := by
  have hval : (ofChar c).val = c.val.toNat := rfl
  simp only [isSurrogate, hval, Bool.and_eq_false_iff, decide_eq_false_iff_not]
  rcases c.valid with h | ⟨h, _⟩ <;> omega

/-- A text without lone surrogates is that of a string. -/
theorem Text.ofString_toString {t : Text} (h : ∀ c ∈ t, c.isSurrogate = false) :
    ofString t.toString = t := by
  have hchar : ∀ c ∈ t, CodePoint.ofChar (c.toChar?.getD '\uFFFD') = c := by
    intro c hc
    have hsurrogate := h c hc
    have hvalid : c.val.isValidChar := by
      have hlt := c.val_lt
      simp only [CodePoint.isSurrogate, Bool.and_eq_false_iff, decide_eq_false_iff_not]
        at hsurrogate
      unfold Nat.isValidChar
      omega
    rw [CodePoint.toChar?, dif_pos hvalid]
    rfl
  unfold ofString toString
  rw [String.toList_ofList, List.map_map]
  exact (List.map_congr_left hchar).trans (List.map_id t)

namespace Utf8

theorem encodeOne_ofChar (c : Char) :
    encodeOne (CodePoint.ofChar c) = String.utf8EncodeChar c := by
  have hlt : c.val.toNat < 0x110000 := (CodePoint.ofChar c).val_lt
  have hval : (CodePoint.ofChar c).val = c.val.toNat := rfl
  unfold encodeOne String.utf8EncodeChar
  simp only [hval]
  generalize c.val.toNat = n at hlt
  -- the two add the marks of an octet on different sides, and cut off different numbers of bits
  by_cases h1 : n < 0x80
  · rw [if_pos h1, if_pos (by omega)]
  by_cases h2 : n < 0x800
  · rw [if_neg h1, if_pos h2, if_neg (by omega), if_pos (by omega)]
    simp only [List.cons.injEq, and_true]
    exact ⟨congrArg _ (by omega), congrArg _ (by omega)⟩
  by_cases h3 : n < 0x10000
  · rw [if_neg h1, if_neg h2, if_pos h3, if_neg (by omega), if_neg (by omega), if_pos (by omega)]
    simp only [List.cons.injEq, and_true]
    exact ⟨congrArg _ (by omega), congrArg _ (by omega), congrArg _ (by omega)⟩
  · rw [if_neg h1, if_neg h2, if_neg h3, if_neg (by omega), if_neg (by omega), if_neg (by omega)]
    simp only [List.cons.injEq, and_true]
    exact ⟨congrArg _ (by omega), congrArg _ (by omega), congrArg _ (by omega),
      congrArg _ (by omega)⟩

/-- **The octets of a string's text are those of the string.** -/
theorem encode_ofString (s : String) :
    encode (Text.ofString s) = .ok s.toUTF8.data.toList := by
  have hs : encodable (Text.ofString s) = true := by
    simp [encodable, Text.ofString, CodePoint.isSurrogate_ofChar]
  have ho : (Text.ofString s).flatMap encodeOne = s.toList.flatMap String.utf8EncodeChar := by
    rw [Text.ofString, List.flatMap_map]
    simp only [encodeOne_ofChar]
  rw [encode, if_pos hs, ho, String.toUTF8, ← String.utf8Encode_toList, List.utf8Encode,
    List.data_toByteArray]

end Utf8
end AnchorIdl
