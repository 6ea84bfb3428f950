import Masthead.Text.Utf8
import Mathlib.Data.List.Basic

/-! Texts and bytes. Only one sequence of bytes is read as a given text, and it is the one that is
written for the text. -/

namespace Masthead.Utf8

theorem encode_append (s t : Text) : encode (s ++ t) = encode s ++ encode t := List.flatMap_append

theorem encode_cons (c : Char) (s : Text) : encode (c :: s) = String.utf8EncodeChar c ++ encode s :=
  rfl

section Characters
variable {lead b b' b'' : UInt8}

theorem isContinuation_iff : isContinuation b = true ↔ 0x80 ≤ b.toNat ∧ b.toNat < 0xc0 := by
  simp [isContinuation, UInt8.le_iff_toNat_le, UInt8.lt_iff_toNat_lt]

theorem mayFollow_bounds (h : mayFollow lead b = true) :
    (0x80 ≤ b.toNat ∧ b.toNat < 0xc0) ∧ (lead.toNat = 0xe0 → 0xa0 ≤ b.toNat) ∧
      (lead.toNat = 0xed → b.toNat < 0xa0) ∧ (lead.toNat = 0xf0 → 0x90 ≤ b.toNat) ∧
      (lead.toNat = 0xf4 → b.toNat < 0x90) := by
  rw [mayFollow, Bool.and_eq_true, isContinuation_iff] at h
  obtain ⟨hb, h⟩ := h
  simp only [UInt8.le_iff_toNat_le, UInt8.lt_iff_toNat_lt, ← UInt8.toNat_inj] at h
  refine ⟨hb, ?_⟩
  split_ifs at h <;> simp_all

theorem val_ofNat {n : Nat} (h : n.isValidChar) : (Char.ofNat n).val.toNat = n := by
  rw [Char.ofNat, dif_pos h]
  rfl

theorem ofNat_eq {n : Nat} (h : n = b.toNat) : UInt8.ofNat n = b := by
  rw [h, UInt8.ofNat_toNat]

theorem encodeChar_one (hu : lead.toNat < 0x80) :
    String.utf8EncodeChar (Char.ofNat lead.toNat) = [lead] := by
  have hv := val_ofNat (n := lead.toNat) (Or.inl (by omega))
  simp only [String.utf8EncodeChar, hv]
  rw [if_pos (by omega), UInt8.ofNat_toNat]

theorem encodeChar_two (hl : 0xc2 ≤ lead.toNat) (hu : lead.toNat < 0xe0)
    (hb : isContinuation b = true) :
    String.utf8EncodeChar (charOf (lead.toNat - 0xc0) [b]) = [lead, b] := by
  rw [isContinuation_iff] at hb
  have hv := val_ofNat (n := 64 * (lead.toNat - 0xc0) + (b.toNat - 0x80)) (Or.inl (by omega))
  simp only [String.utf8EncodeChar, charOf, List.foldl_cons, List.foldl_nil, hv]
  rw [if_neg (by omega), if_pos (by omega), ofNat_eq (b := lead) (by omega),
    ofNat_eq (b := b) (by omega)]

theorem encodeChar_three (hl : 0xe0 ≤ lead.toNat) (hu : lead.toNat < 0xf0)
    (hb : mayFollow lead b = true) (hb' : isContinuation b' = true) :
    String.utf8EncodeChar (charOf (lead.toNat - 0xe0) [b, b']) = [lead, b, b'] := by
  obtain ⟨hb, hlow, hsurrogate, -, -⟩ := mayFollow_bounds hb
  rw [isContinuation_iff] at hb'
  have hvalid : Nat.isValidChar (64 * (64 * (lead.toNat - 0xe0) + (b.toNat - 0x80)) +
      (b'.toNat - 0x80)) := by
    by_cases h : lead.toNat ≤ 0xed
    · exact Or.inl (by omega)
    · exact Or.inr (by omega)
  simp only [String.utf8EncodeChar, charOf, List.foldl_cons, List.foldl_nil, val_ofNat hvalid]
  rw [if_neg (by omega), if_neg (by omega), if_pos (by omega), ofNat_eq (b := lead) (by omega),
    ofNat_eq (b := b) (by omega), ofNat_eq (b := b') (by omega)]

theorem encodeChar_four (hl : 0xf0 ≤ lead.toNat) (hu : lead.toNat < 0xf5)
    (hb : mayFollow lead b = true) (hb' : isContinuation b' = true)
    (hb'' : isContinuation b'' = true) :
    String.utf8EncodeChar (charOf (lead.toNat - 0xf0) [b, b', b'']) = [lead, b, b', b''] := by
  obtain ⟨hb, -, -, hlow, hhigh⟩ := mayFollow_bounds hb
  rw [isContinuation_iff] at hb' hb''
  have hvalid : Nat.isValidChar (64 * (64 * (64 * (lead.toNat - 0xf0) + (b.toNat - 0x80)) +
      (b'.toNat - 0x80)) + (b''.toNat - 0x80)) := Or.inr (by omega)
  simp only [String.utf8EncodeChar, charOf, List.foldl_cons, List.foldl_nil, val_ofNat hvalid]
  rw [if_neg (by omega), if_neg (by omega), if_neg (by omega), ofNat_eq (b := lead) (by omega),
    ofNat_eq (b := b) (by omega), ofNat_eq (b := b') (by omega), ofNat_eq (b := b'') (by omega)]

end Characters

theorem exists_of_map_cons {c : Char} {x : Except Fault Text} {s : Text}
    (h : x.map (c :: ·) = .ok s) :
    ∃ t, x = .ok t ∧ s = c :: t := by
  cases x with
  | error e => cases h
  | ok t =>
    cases h
    exact ⟨t, rfl, rfl⟩

theorem encode_decodeFrom {position : Nat} {bytes : List UInt8} {s : Text}
    (h : decodeFrom position bytes = .ok s) : encode s = bytes := by
  -- One case for each length that a character can have; in all others the bytes are at fault.
  fun_induction decodeFrom position bytes generalizing s with
  | case1 =>
    cases h
    rfl
  | case2 position lead rest hlead ih =>
    obtain ⟨t, ht, rfl⟩ := exists_of_map_cons h
    rw [UInt8.lt_iff_toNat_lt] at hlead
    rw [encode_cons, encodeChar_one hlead, ih ht]
    rfl
  | case5 position lead _ hlow hlead b rest hb ih =>
    obtain ⟨t, ht, rfl⟩ := exists_of_map_cons h
    rw [UInt8.lt_iff_toNat_lt] at hlow hlead
    rw [encode_cons, encodeChar_two (Nat.le_of_not_lt hlow) hlead hb, ih ht]
    rfl
  | case12 position lead _ _ hlow hlead b b' rest hb hb' ih =>
    obtain ⟨t, ht, rfl⟩ := exists_of_map_cons h
    rw [UInt8.lt_iff_toNat_lt] at hlow hlead
    rw [encode_cons, encodeChar_three (Nat.le_of_not_lt hlow) hlead (by simpa using hb)
      (by simpa using hb'), ih ht]
    rfl
  | case22 position lead _ _ _ hlow hlead b b' b'' rest hb hb' hb'' ih =>
    obtain ⟨t, ht, rfl⟩ := exists_of_map_cons h
    rw [UInt8.lt_iff_toNat_lt] at hlow hlead
    rw [encode_cons, encodeChar_four (Nat.le_of_not_lt hlow) hlead (by simpa using hb)
      (by simpa using hb')
      (by simpa using hb''), ih ht]
    rfl
  | _ => cases h

theorem encode_decode {bytes : List UInt8} {s : Text} (h : decode bytes = .ok s) :
    encode s = bytes :=
  encode_decodeFrom h

/-! What is written is read -/

theorem mayFollow_of_bounds {lead b : UInt8} (hb : 0x80 ≤ b.toNat ∧ b.toNat < 0xc0)
    (hlow : lead.toNat = 0xe0 → 0xa0 ≤ b.toNat)
    (hsurrogate : lead.toNat = 0xed → b.toNat < 0xa0) (hlow' : lead.toNat = 0xf0 → 0x90 ≤ b.toNat)
    (hhigh : lead.toNat = 0xf4 → b.toNat < 0x90) : mayFollow lead b = true := by
  rw [mayFollow, Bool.and_eq_true, isContinuation_iff]
  refine ⟨hb, ?_⟩
  simp only [UInt8.le_iff_toNat_le, UInt8.lt_iff_toNat_lt, ← UInt8.toNat_inj]
  split_ifs <;> simp_all

section Lengths
variable {lead b b' b'' : UInt8} {rest : List UInt8} {position : Nat}

theorem decodeFrom_one (h : lead.toNat < 0x80) :
    decodeFrom position (lead :: rest) =
    (decodeFrom (position + 1) rest).map (Char.ofNat lead.toNat :: ·) := by
  rw [decodeFrom.eq_def]
  dsimp only
  rw [if_pos (UInt8.lt_iff_toNat_lt.mpr h)]

theorem decodeFrom_two (hl : 0xc2 ≤ lead.toNat) (hu : lead.toNat < 0xe0)
    (hb : isContinuation b = true) :
    decodeFrom position (lead :: b :: rest) =
      (decodeFrom (position + 2) rest).map (charOf (lead.toNat - 0xc0) [b] :: ·) := by
  have h₁ : ¬ lead < 0x80 := by
    rw [UInt8.lt_iff_toNat_lt]; exact Nat.not_lt.mpr (Nat.le_trans (by decide) hl)
  have h₂ : ¬ lead < 0xc2 := by rw [UInt8.lt_iff_toNat_lt]; exact Nat.not_lt.mpr hl
  rw [decodeFrom, if_neg h₁, if_neg h₂, if_pos (UInt8.lt_iff_toNat_lt.mpr hu)]
  dsimp only
  rw [if_pos hb]

theorem decodeFrom_three (hl : 0xe0 ≤ lead.toNat) (hu : lead.toNat < 0xf0)
    (hb : mayFollow lead b = true) (hb' : isContinuation b' = true) :
    decodeFrom position (lead :: b :: b' :: rest) =
      (decodeFrom (position + 3) rest).map (charOf (lead.toNat - 0xe0) [b, b'] :: ·) := by
  have h₁ : ¬ lead < 0x80 := by
    rw [UInt8.lt_iff_toNat_lt]; exact Nat.not_lt.mpr (Nat.le_trans (by decide) hl)
  have h₂ : ¬ lead < 0xc2 := by
    rw [UInt8.lt_iff_toNat_lt]; exact Nat.not_lt.mpr (Nat.le_trans (by decide) hl)
  have h₃ : ¬ lead < 0xe0 := by rw [UInt8.lt_iff_toNat_lt]; exact Nat.not_lt.mpr hl
  rw [decodeFrom, if_neg h₁, if_neg h₂, if_neg h₃, if_pos (UInt8.lt_iff_toNat_lt.mpr hu)]
  simp [hb, hb']

theorem decodeFrom_four (hl : 0xf0 ≤ lead.toNat) (hu : lead.toNat < 0xf5)
    (hb : mayFollow lead b = true) (hb' : isContinuation b' = true)
    (hb'' : isContinuation b'' = true) :
    decodeFrom position (lead :: b :: b' :: b'' :: rest) =
      (decodeFrom (position + 4) rest).map (charOf (lead.toNat - 0xf0) [b, b', b''] :: ·) := by
  have h₁ : ¬ lead < 0x80 := by
    rw [UInt8.lt_iff_toNat_lt]; exact Nat.not_lt.mpr (Nat.le_trans (by decide) hl)
  have h₂ : ¬ lead < 0xc2 := by
    rw [UInt8.lt_iff_toNat_lt]; exact Nat.not_lt.mpr (Nat.le_trans (by decide) hl)
  have h₃ : ¬ lead < 0xe0 := by
    rw [UInt8.lt_iff_toNat_lt]; exact Nat.not_lt.mpr (Nat.le_trans (by decide) hl)
  have h₄ : ¬ lead < 0xf0 := by rw [UInt8.lt_iff_toNat_lt]; exact Nat.not_lt.mpr hl
  rw [decodeFrom, if_neg h₁, if_neg h₂, if_neg h₃, if_neg h₄, if_pos (UInt8.lt_iff_toNat_lt.mpr hu)]
  simp [hb, hb', hb'']

end Lengths

theorem decodeFrom_encodeChar (c : Char) (bytes : List UInt8) (position : Nat) :
    ∃ next, decodeFrom position (String.utf8EncodeChar c ++ bytes) =
    (decodeFrom next bytes).map (c :: ·) := by
  have hbyte {n : Nat} (h : n < 256) : (UInt8.ofNat n).toNat = n := UInt8.toNat_ofNat_of_lt' h
  have hc : Char.ofNat c.val.toNat = c := Char.ofNat_toNat c
  have hvalid : c.val.toNat.isValidChar := c.valid
  rw [Nat.isValidChar] at hvalid
  rw [String.utf8EncodeChar]
  generalize c.val.toNat = v at hc hvalid
  split_ifs with hone htwo hthree
  · have hlead := hbyte (n := v) (by omega)
    refine ⟨position + 1, ?_⟩
    rw [List.singleton_append, decodeFrom_one (by omega), hlead, hc]
  · have hlead := hbyte (n := v / 64 % 32 + 192) (by omega)
    have hb := hbyte (n := v % 64 + 128) (by omega)
    refine ⟨position + 2, ?_⟩
    rw [List.cons_append, List.singleton_append,
      decodeFrom_two (by omega) (by omega) (isContinuation_iff.mpr (by omega)), charOf,
      List.foldl_cons,
      List.foldl_nil, hlead, hb]
    have hvalue : 64 * (v / 64 % 32 + 192 - 0xc0) + (v % 64 + 128 - 0x80) = v := by omega
    rw [hvalue, hc]
  · have hlead := hbyte (n := v / 4096 % 16 + 224) (by omega)
    have hb := hbyte (n := v / 64 % 64 + 128) (by omega)
    have hb' := hbyte (n := v % 64 + 128) (by omega)
    refine ⟨position + 3, ?_⟩
    rw [List.cons_append, List.cons_append, List.singleton_append,
      decodeFrom_three (by omega) (by omega)
        (mayFollow_of_bounds (by omega) (by omega) (by omega) (by omega) (by omega))
        (isContinuation_iff.mpr (by omega)),
      charOf, List.foldl_cons, List.foldl_cons, List.foldl_nil, hlead, hb, hb']
    have hvalue :
        64 * (64 * (v / 4096 % 16 + 224 - 0xe0) + (v / 64 % 64 + 128 - 0x80)) +
        (v % 64 + 128 - 0x80) = v := by omega
    rw [hvalue, hc]
  · have hlead := hbyte (n := v / 262144 % 8 + 240) (by omega)
    have hb := hbyte (n := v / 4096 % 64 + 128) (by omega)
    have hb' := hbyte (n := v / 64 % 64 + 128) (by omega)
    have hb'' := hbyte (n := v % 64 + 128) (by omega)
    refine ⟨position + 4, ?_⟩
    rw [List.cons_append, List.cons_append, List.cons_append, List.singleton_append,
      decodeFrom_four (by omega) (by omega) (mayFollow_of_bounds (by omega) (by omega) (by omega)
        (by omega) (by omega))
        (isContinuation_iff.mpr (by omega)) (isContinuation_iff.mpr (by omega)),
      charOf, List.foldl_cons, List.foldl_cons, List.foldl_cons, List.foldl_nil, hlead,
        hb, hb', hb'']
    have hvalue : 64 * (64 * (64 * (v / 262144 % 8 + 240 - 0xf0) + (v / 4096 % 64 + 128 - 0x80)) +
        (v / 64 % 64 + 128 - 0x80)) + (v % 64 + 128 - 0x80) = v := by omega
    rw [hvalue, hc]

theorem decode_encode (s : Text) : decode (encode s) = .ok s := by
  have hfrom (position : Nat) : decodeFrom position (encode s) = .ok s := by
    induction s generalizing position with
    | nil => rw [encode, List.flatMap_nil, decodeFrom]
    | cons c s ih =>
      obtain ⟨next, hnext⟩ := decodeFrom_encodeChar c (encode s) position
      rw [encode_cons, hnext, ih]
      rfl
  exact hfrom 0

end Masthead.Utf8
