import Mathlib.Data.List.Basic
import NexusPilot.Execution.Artifact

/-!
# Decoding UTF-8

`fromUtf8` is read against the encoding of the characters. What stands at the front of a byte string is a character
with its bytes, the beginning of one, or nothing that a text goes on with (`front_readUtf8`). So the characters before an
error are the longest text that the bytes begin with (`decoded_fromUtf8`, `prefix_of_noChar`).
-/

namespace Execution

/-- The encoding of a text. -/
def encodeUtf8 (text : List Char) : List UInt8 :=
  text.flatMap String.utf8EncodeChar

@[simp]
theorem encodeUtf8_nil : encodeUtf8 [] = [] :=
  rfl

@[simp]
theorem encodeUtf8_cons (c : Char) (text : List Char) :
    encodeUtf8 (c :: text) = String.utf8EncodeChar c ++ encodeUtf8 text :=
  List.flatMap_cons

theorem encodeUtf8_append (text text' : List Char) : encodeUtf8 (text ++ text') = encodeUtf8 text ++ encodeUtf8 text' :=
  List.flatMap_append

/-! ### Bytes of a character -/

theorem between_iff (low high b : UInt8) :
    (decide (low ≤ b) && decide (b ≤ high)) = true ↔ low.toNat ≤ b.toNat ∧ b.toNat ≤ high.toNat := by
  rw [Bool.and_eq_true, decide_eq_true_eq, decide_eq_true_eq, UInt8.le_iff_toNat_le, UInt8.le_iff_toNat_le]

theorem isContinuation_iff (b : UInt8) : isContinuation b = true ↔ 128 ≤ b.toNat ∧ b.toNat ≤ 191 :=
  between_iff 0x80 0xBF b

theorem isSecondOfThree_iff (b₀ b₁ : UInt8) : isSecondOfThree b₀ b₁ = true ↔
    128 ≤ b₁.toNat ∧ b₁.toNat ≤ 191 ∧ (b₀.toNat = 224 → 160 ≤ b₁.toNat) ∧ (b₀.toNat = 237 → b₁.toNat ≤ 159) := by
  have hfirst : b₀ = 0xE0 ↔ b₀.toNat = 224 := UInt8.toNat_inj.symm
  have hlast : b₀ = 0xED ↔ b₀.toNat = 237 := UInt8.toNat_inj.symm
  rw [isSecondOfThree]
  split
  · next h =>
    have h' := hfirst.1 h
    rw [between_iff]
    show 160 ≤ b₁.toNat ∧ b₁.toNat ≤ 191 ↔ _
    omega
  · next h =>
    have h' := mt hfirst.2 h
    split
    · next h₁ =>
      have h₁' := hlast.1 h₁
      rw [between_iff]
      show 128 ≤ b₁.toNat ∧ b₁.toNat ≤ 159 ↔ _
      omega
    · next h₁ =>
      have h₁' := mt hlast.2 h₁
      rw [isContinuation_iff]
      omega

theorem isSecondOfFour_iff (b₀ b₁ : UInt8) : isSecondOfFour b₀ b₁ = true ↔
    128 ≤ b₁.toNat ∧ b₁.toNat ≤ 191 ∧ (b₀.toNat = 240 → 144 ≤ b₁.toNat) ∧ (b₀.toNat = 244 → b₁.toNat ≤ 143) := by
  have hfirst : b₀ = 0xF0 ↔ b₀.toNat = 240 := UInt8.toNat_inj.symm
  have hlast : b₀ = 0xF4 ↔ b₀.toNat = 244 := UInt8.toNat_inj.symm
  rw [isSecondOfFour]
  split
  · next h =>
    have h' := hfirst.1 h
    rw [between_iff]
    show 144 ≤ b₁.toNat ∧ b₁.toNat ≤ 191 ↔ _
    omega
  · next h =>
    have h' := mt hfirst.2 h
    split
    · next h₁ =>
      have h₁' := hlast.1 h₁
      rw [between_iff]
      show 128 ≤ b₁.toNat ∧ b₁.toNat ≤ 143 ↔ _
      omega
    · next h₁ =>
      have h₁' := mt hlast.2 h₁
      rw [isContinuation_iff]
      omega

/-- The sequences of bytes that are characters, with the numbers of these. -/
inductive CharBytes : ℕ → List UInt8 → Prop
  | one {b₀ : UInt8} (h₀ : b₀.toNat < 128) : CharBytes b₀.toNat [b₀]
  | two {b₀ b₁ : UInt8} (h₀ : 194 ≤ b₀.toNat ∧ b₀.toNat ≤ 223) (h₁ : isContinuation b₁ = true) :
      CharBytes (b₀.toNat % 32 * 64 + b₁.toNat % 64) [b₀, b₁]
  | three {b₀ b₁ b₂ : UInt8} (h₀ : 224 ≤ b₀.toNat ∧ b₀.toNat ≤ 239) (h₁ : isSecondOfThree b₀ b₁ = true)
      (h₂ : isContinuation b₂ = true) :
      CharBytes ((b₀.toNat % 16 * 64 + b₁.toNat % 64) * 64 + b₂.toNat % 64) [b₀, b₁, b₂]
  | four {b₀ b₁ b₂ b₃ : UInt8} (h₀ : 240 ≤ b₀.toNat ∧ b₀.toNat ≤ 244) (h₁ : isSecondOfFour b₀ b₁ = true)
      (h₂ : isContinuation b₂ = true) (h₃ : isContinuation b₃ = true) :
      CharBytes (((b₀.toNat % 8 * 64 + b₁.toNat % 64) * 64 + b₂.toNat % 64) * 64 + b₃.toNat % 64) [b₀, b₁, b₂, b₃]

variable {n : ℕ} {bytes tail rest : List UInt8} {b₀ : UInt8} {c : Char} {text text' : List Char}

theorem toNat_ofNat_add {k : ℕ} (h : n + k < 256) : (UInt8.ofNat (n + k)).toNat = n + k := by
  rw [UInt8.toNat_ofNat', Nat.mod_eq_of_lt h]

/-- The encoding of a character is such a sequence. -/
theorem charBytes_utf8EncodeChar (c : Char) : CharBytes c.toNat (String.utf8EncodeChar c) := by
  have hvalid : c.toNat < 0xD800 ∨ 0xDFFF < c.toNat ∧ c.toNat < 0x110000 := c.valid
  have hval : c.val.toNat = c.toNat := rfl
  simp only [String.utf8EncodeChar, hval]
  generalize c.toNat = n at hvalid ⊢
  split
  · next h =>
    have hone : (UInt8.ofNat n).toNat = n := by rw [UInt8.toNat_ofNat', Nat.mod_eq_of_lt (by omega)]
    have hbytes : CharBytes (UInt8.ofNat n).toNat [UInt8.ofNat n] := .one (by omega)
    rwa [hone] at hbytes
  · split
    · next h₁ h₂ =>
      have h₀ := toNat_ofNat_add (show n / 64 % 32 + 192 < 256 by omega)
      have h₁ := toNat_ofNat_add (show n % 64 + 128 < 256 by omega)
      have hbytes : CharBytes _ [UInt8.ofNat (n / 64 % 32 + 192), UInt8.ofNat (n % 64 + 128)] :=
        .two (by omega) ((isContinuation_iff _).2 (by omega))
      rw [h₀, h₁] at hbytes
      have hn : (n / 64 % 32 + 192) % 32 * 64 + (n % 64 + 128) % 64 = n := by omega
      rwa [hn] at hbytes
    · split
      · next h₁ h₂ h₃ =>
        have h₀ := toNat_ofNat_add (show n / 4096 % 16 + 224 < 256 by omega)
        have h₁ := toNat_ofNat_add (show n / 64 % 64 + 128 < 256 by omega)
        have h₂ := toNat_ofNat_add (show n % 64 + 128 < 256 by omega)
        have hbytes : CharBytes _
            [UInt8.ofNat (n / 4096 % 16 + 224), UInt8.ofNat (n / 64 % 64 + 128), UInt8.ofNat (n % 64 + 128)] :=
          .three (by omega) ((isSecondOfThree_iff _ _).2 (by omega)) ((isContinuation_iff _).2 (by omega))
        rw [h₀, h₁, h₂] at hbytes
        have hn : ((n / 4096 % 16 + 224) % 16 * 64 + (n / 64 % 64 + 128) % 64) * 64 + (n % 64 + 128) % 64 = n := by omega
        rwa [hn] at hbytes
      · next h₁ h₂ h₃ =>
        have h₀ := toNat_ofNat_add (show n / 262144 % 8 + 240 < 256 by omega)
        have h₁ := toNat_ofNat_add (show n / 4096 % 64 + 128 < 256 by omega)
        have h₂ := toNat_ofNat_add (show n / 64 % 64 + 128 < 256 by omega)
        have h₃ := toNat_ofNat_add (show n % 64 + 128 < 256 by omega)
        have hbytes : CharBytes _ [UInt8.ofNat (n / 262144 % 8 + 240), UInt8.ofNat (n / 4096 % 64 + 128),
            UInt8.ofNat (n / 64 % 64 + 128), UInt8.ofNat (n % 64 + 128)] :=
          .four (by omega) ((isSecondOfFour_iff _ _).2 (by omega)) ((isContinuation_iff _).2 (by omega))
            ((isContinuation_iff _).2 (by omega))
        rw [h₀, h₁, h₂, h₃] at hbytes
        have hn : (((n / 262144 % 8 + 240) % 8 * 64 + (n / 4096 % 64 + 128) % 64) * 64 + (n / 64 % 64 + 128) % 64) * 64 +
            (n % 64 + 128) % 64 = n := by omega
        rwa [hn] at hbytes

theorem ofNat_eq {b : UInt8} (h : n = b.toNat) : UInt8.ofNat n = b := by
  rw [h, UInt8.ofNat_toNat]

theorem CharBytes.isValidChar {n : ℕ} {bytes : List UInt8} (h : CharBytes n bytes) : n.isValidChar := by
  show n < 0xD800 ∨ 0xDFFF < n ∧ n < 0x110000
  cases h with
  | one h₀ => omega
  | two h₀ h₁ => omega
  | three h₀ h₁ h₂ =>
    have hsecond := (isSecondOfThree_iff _ _).1 h₁
    omega
  | four h₀ h₁ h₂ h₃ =>
    have hsecond := (isSecondOfFour_iff _ _).1 h₁
    omega

/-- Such a sequence is the encoding of the character of its number. -/
theorem CharBytes.encode (h : CharBytes n bytes) :
    String.utf8EncodeChar (Char.ofNat n) = bytes := by
  have hn : (Char.ofNat n).val.toNat = n := by
    rw [Char.ofNat, dif_pos h.isValidChar]
    rfl
  simp only [String.utf8EncodeChar, hn]
  cases h with
  | one h₀ => rw [if_pos (by omega), UInt8.ofNat_toNat]
  | two h₀ h₁ =>
    have hfirst := (isContinuation_iff _).1 h₁
    rw [if_neg (by omega), if_pos (by omega)]
    simp only [List.cons.injEq, and_true]
    exact ⟨ofNat_eq (by omega), ofNat_eq (by omega)⟩
  | three h₀ h₁ h₂ =>
    have hsecond := (isSecondOfThree_iff _ _).1 h₁
    have hthird := (isContinuation_iff _).1 h₂
    rw [if_neg (by omega), if_neg (by omega), if_pos (by omega)]
    simp only [List.cons.injEq, and_true]
    exact ⟨ofNat_eq (by omega), ofNat_eq (by omega), ofNat_eq (by omega)⟩
  | four h₀ h₁ h₂ h₃ =>
    have hsecond := (isSecondOfFour_iff _ _).1 h₁
    have hthird := (isContinuation_iff _).1 h₂
    have hfourth := (isContinuation_iff _).1 h₃
    rw [if_neg (by omega), if_neg (by omega), if_neg (by omega)]
    simp only [List.cons.injEq, and_true]
    exact ⟨ofNat_eq (by omega), ofNat_eq (by omega), ofNat_eq (by omega), ofNat_eq (by omega)⟩

/-! ### The front of a byte string -/

theorem readUtf8_one (h₀ : b₀.toNat < 128) (rest : List UInt8) :
    readUtf8 b₀ rest = .char (Char.ofNat b₀.toNat) 1 := by
  rw [readUtf8.eq_def]
  exact if_pos (UInt8.lt_iff_toNat_lt.2 h₀)

theorem readUtf8_two (h₀ : 194 ≤ b₀.toNat ∧ b₀.toNat ≤ 223) (rest : List UInt8) :
    readUtf8 b₀ rest = match rest with
      | [] => .unexpectedEnd
      | b₁ :: _ => if isContinuation b₁ then .char (charOfBits (b₀.toNat % 32) [b₁]) 2 else .invalid 1 := by
  have hone : ¬ b₀.toNat < 128 := by omega
  rw [readUtf8.eq_def, if_neg (mt UInt8.lt_iff_toNat_lt.1 hone)]
  exact if_pos ((between_iff 0xC2 0xDF b₀).2 h₀)

theorem readUtf8_three (h₀ : 224 ≤ b₀.toNat ∧ b₀.toNat ≤ 239) (rest : List UInt8) :
    readUtf8 b₀ rest = match rest with
      | [] => .unexpectedEnd
      | [b₁] => if isSecondOfThree b₀ b₁ then .unexpectedEnd else .invalid 1
      | b₁ :: b₂ :: _ =>
        if !isSecondOfThree b₀ b₁ then .invalid 1
        else if !isContinuation b₂ then .invalid 2
        else .char (charOfBits (b₀.toNat % 16) [b₁, b₂]) 3 := by
  have hone : ¬ b₀.toNat < 128 := by omega
  have htwo : ¬ (194 ≤ b₀.toNat ∧ b₀.toNat ≤ 223) := by omega
  rw [readUtf8.eq_def, if_neg (mt UInt8.lt_iff_toNat_lt.1 hone), if_neg (mt (between_iff 0xC2 0xDF b₀).1 htwo)]
  exact if_pos ((between_iff 0xE0 0xEF b₀).2 h₀)

theorem readUtf8_four (h₀ : 240 ≤ b₀.toNat ∧ b₀.toNat ≤ 244) (rest : List UInt8) :
    readUtf8 b₀ rest = match rest with
      | [] => .unexpectedEnd
      | [b₁] => if isSecondOfFour b₀ b₁ then .unexpectedEnd else .invalid 1
      | [b₁, b₂] =>
        if !isSecondOfFour b₀ b₁ then .invalid 1
        else if !isContinuation b₂ then .invalid 2
        else .unexpectedEnd
      | b₁ :: b₂ :: b₃ :: _ =>
        if !isSecondOfFour b₀ b₁ then .invalid 1
        else if !isContinuation b₂ then .invalid 2
        else if !isContinuation b₃ then .invalid 3
        else .char (charOfBits (b₀.toNat % 8) [b₁, b₂, b₃]) 4 := by
  have hone : ¬ b₀.toNat < 128 := by omega
  have htwo : ¬ (194 ≤ b₀.toNat ∧ b₀.toNat ≤ 223) := by omega
  have hthree : ¬ (224 ≤ b₀.toNat ∧ b₀.toNat ≤ 239) := by omega
  rw [readUtf8.eq_def, if_neg (mt UInt8.lt_iff_toNat_lt.1 hone), if_neg (mt (between_iff 0xC2 0xDF b₀).1 htwo),
    if_neg (mt (between_iff 0xE0 0xEF b₀).1 hthree)]
  exact if_pos ((between_iff 0xF0 0xF4 b₀).2 h₀)

/-- A character is read from its bytes. -/
theorem readUtf8_of_charBytes (h : CharBytes n (b₀ :: tail)) (rest : List UInt8) :
    readUtf8 b₀ (tail ++ rest) = .char (Char.ofNat n) (tail.length + 1) := by
  cases h with
  | one h₀ => exact readUtf8_one h₀ rest
  | two h₀ h₁ =>
    rw [readUtf8_two h₀]
    show (if isContinuation _ = true then _ else _) = _
    rw [if_pos h₁]
    rfl
  | three h₀ h₁ h₂ =>
    rw [readUtf8_three h₀]
    simp only [List.cons_append, h₁, h₂]
    rfl
  | four h₀ h₁ h₂ h₃ =>
    rw [readUtf8_four h₀]
    simp only [List.cons_append, h₁, h₂, h₃]
    rfl

/-- A beginning of a character is read as one. -/
theorem readUtf8_of_begun {begun missing : List UInt8} (h : CharBytes n (b₀ :: (begun ++ missing)))
    (hmissing : missing ≠ []) : readUtf8 b₀ begun = .unexpectedEnd := by
  have hpos := List.length_pos_iff.2 hmissing
  generalize hall : b₀ :: (begun ++ missing) = bytes at h
  have hlength := congrArg List.length hall
  simp only [List.length_cons, List.length_append] at hlength
  cases h with
  | one h₀ =>
    have hone : begun.length + missing.length + 1 = 1 := hlength
    omega
  | two h₀ h₁ =>
    obtain ⟨rfl, hrest⟩ := List.cons.inj hall
    rw [readUtf8_two h₀]
    match begun with
    | [] => rfl
    | b₁ :: begun => simp at hlength; omega
  | three h₀ h₁ h₂ =>
    obtain ⟨rfl, hrest⟩ := List.cons.inj hall
    rw [readUtf8_three h₀]
    match begun with
    | [] => rfl
    | [b₁] =>
      obtain ⟨rfl, -⟩ := List.cons.inj hrest
      exact if_pos h₁
    | b₁ :: b₂ :: begun => simp at hlength; omega
  | four h₀ h₁ h₂ h₃ =>
    obtain ⟨rfl, hrest⟩ := List.cons.inj hall
    rw [readUtf8_four h₀]
    match begun with
    | [] => rfl
    | [b₁] =>
      obtain ⟨rfl, -⟩ := List.cons.inj hrest
      exact if_pos h₁
    | [b₁, b₂] =>
      obtain ⟨rfl, htail⟩ := List.cons.inj hrest
      obtain ⟨rfl, -⟩ := List.cons.inj htail
      simp only [h₁, h₂]
      rfl
    | b₁ :: b₂ :: b₃ :: begun => simp at hlength; omega

/-- What is read is a character with its bytes, the beginning of one, or nothing that a character begins with. -/
inductive Front (b₀ : UInt8) (rest : List UInt8) : Utf8Read → Prop
  | char {c : Char} {tail rest' : List UInt8} (hrest : rest = tail ++ rest')
      (hbytes : String.utf8EncodeChar c = b₀ :: tail) : Front b₀ rest (.char c (tail.length + 1))
  | unexpectedEnd {c : Char} {missing : List UInt8} (hbytes : String.utf8EncodeChar c = b₀ :: (rest ++ missing))
      (hmissing : missing ≠ []) : Front b₀ rest .unexpectedEnd
  | invalid {errorLen : ℕ} : Front b₀ rest (.invalid errorLen)

theorem front_char {n : ℕ} {b₀ : UInt8} {tail rest' : List UInt8} (h : CharBytes n (b₀ :: tail)) :
    Front b₀ (tail ++ rest') (.char (Char.ofNat n) (tail.length + 1)) :=
  .char rfl h.encode

theorem front_unexpectedEnd {n : ℕ} {b₀ : UInt8} {rest missing : List UInt8}
    (h : CharBytes n (b₀ :: (rest ++ missing))) (hmissing : missing ≠ []) : Front b₀ rest .unexpectedEnd :=
  .unexpectedEnd h.encode hmissing

theorem continuation_80 : isContinuation 0x80 = true := by decide

theorem exists_second_three (b₀ : UInt8) : ∃ b₁, isSecondOfThree b₀ b₁ = true := by
  by_cases h : b₀.toNat = 224
  · exact ⟨0xA0, (isSecondOfThree_iff _ _).2 ⟨by decide, by decide, fun _ ↦ by decide, fun h' ↦ by omega⟩⟩
  · exact ⟨0x80, (isSecondOfThree_iff _ _).2 ⟨by decide, by decide, fun h' ↦ absurd h' h, fun _ ↦ by decide⟩⟩

theorem exists_second_four (b₀ : UInt8) : ∃ b₁, isSecondOfFour b₀ b₁ = true := by
  by_cases h : b₀.toNat = 240
  · exact ⟨0x90, (isSecondOfFour_iff _ _).2 ⟨by decide, by decide, fun _ ↦ by decide, fun h' ↦ by omega⟩⟩
  · exact ⟨0x80, (isSecondOfFour_iff _ _).2 ⟨by decide, by decide, fun h' ↦ absurd h' h, fun _ ↦ by decide⟩⟩

theorem front_readUtf8 (b₀ : UInt8) (rest : List UInt8) : Front b₀ rest (readUtf8 b₀ rest) := by
  by_cases hone : b₀.toNat < 128
  · rw [readUtf8_one hone]
    exact @front_char _ b₀ [] rest (.one hone)
  by_cases htwo : 194 ≤ b₀.toNat ∧ b₀.toNat ≤ 223
  · rw [readUtf8_two htwo]
    match rest with
    | [] => exact front_unexpectedEnd (.two htwo continuation_80) (List.cons_ne_nil _ [])
    | b₁ :: rest =>
      show Front b₀ (b₁ :: rest) (if isContinuation b₁ = true then _ else _)
      split
      · next h₁ => exact @front_char _ b₀ [b₁] rest (.two htwo h₁)
      · exact .invalid
  by_cases hthree : 224 ≤ b₀.toNat ∧ b₀.toNat ≤ 239
  · rw [readUtf8_three hthree]
    match rest with
    | [] =>
      obtain ⟨b₁, h₁⟩ := exists_second_three b₀
      exact front_unexpectedEnd (.three hthree h₁ continuation_80) (List.cons_ne_nil _ _)
    | [b₁] =>
      show Front b₀ [b₁] (if isSecondOfThree b₀ b₁ = true then _ else _)
      split
      · next h₁ => exact @front_unexpectedEnd _ b₀ [b₁] _ (.three hthree h₁ continuation_80) (List.cons_ne_nil _ [])
      · exact .invalid
    | b₁ :: b₂ :: rest =>
      simp only [Bool.not_eq_true']
      split
      · exact .invalid
      · next h₁ =>
        split
        · exact .invalid
        · next h₂ =>
          rw [Bool.not_eq_false] at h₁ h₂
          exact @front_char _ b₀ [b₁, b₂] rest (.three hthree h₁ h₂)
  by_cases hfour : 240 ≤ b₀.toNat ∧ b₀.toNat ≤ 244
  · rw [readUtf8_four hfour]
    match rest with
    | [] =>
      obtain ⟨b₁, h₁⟩ := exists_second_four b₀
      exact front_unexpectedEnd (.four hfour h₁ continuation_80 continuation_80) (List.cons_ne_nil _ _)
    | [b₁] =>
      show Front b₀ [b₁] (if isSecondOfFour b₀ b₁ = true then _ else _)
      split
      · next h₁ =>
        exact @front_unexpectedEnd _ b₀ [b₁] _ (.four hfour h₁ continuation_80 continuation_80) (List.cons_ne_nil _ _)
      · exact .invalid
    | [b₁, b₂] =>
      simp only [Bool.not_eq_true']
      split
      · exact .invalid
      · next h₁ =>
        split
        · exact .invalid
        · next h₂ =>
          rw [Bool.not_eq_false] at h₁ h₂
          exact @front_unexpectedEnd _ b₀ [b₁, b₂] _ (.four hfour h₁ h₂ continuation_80) (List.cons_ne_nil _ [])
    | b₁ :: b₂ :: b₃ :: rest =>
      simp only [Bool.not_eq_true']
      split
      · exact .invalid
      · next h₁ =>
        split
        · exact .invalid
        · next h₂ =>
          split
          · exact .invalid
          · next h₃ =>
            rw [Bool.not_eq_false] at h₁ h₂ h₃
            exact @front_char _ b₀ [b₁, b₂, b₃] rest (.four hfour h₁ h₂ h₃)
  · rw [readUtf8.eq_def, if_neg (mt UInt8.lt_iff_toNat_lt.1 hone), if_neg (mt (between_iff 0xC2 0xDF b₀).1 htwo),
      if_neg (mt (between_iff 0xE0 0xEF b₀).1 hthree), if_neg (mt (between_iff 0xF0 0xF4 b₀).1 hfour)]
    exact .invalid

/-! ### Characters as a code -/

/-- The bytes of a character come to be read as that character. -/
theorem readUtf8_append (h : String.utf8EncodeChar c = b₀ :: tail) (rest : List UInt8) :
    readUtf8 b₀ (tail ++ rest) = .char c (tail.length + 1) := by
  have hbytes := charBytes_utf8EncodeChar c
  rw [h] at hbytes
  have hread := readUtf8_of_charBytes hbytes rest
  rwa [Char.ofNat_toNat] at hread

/-- A byte string begins with one character at most. -/
theorem eq_of_append_eq {c' : Char} {rest' : List UInt8}
    (h : String.utf8EncodeChar c ++ rest = String.utf8EncodeChar c' ++ rest') : c = c' ∧ rest = rest' := by
  obtain ⟨b₀, tail, hc⟩ := List.exists_cons_of_ne_nil (String.utf8EncodeChar_ne_nil (c := c))
  obtain ⟨b₀', tail', hc'⟩ := List.exists_cons_of_ne_nil (String.utf8EncodeChar_ne_nil (c := c'))
  have hall := h
  rw [hc, hc', List.cons_append, List.cons_append] at hall
  obtain ⟨rfl, htails⟩ := List.cons.inj hall
  have hread := readUtf8_append hc rest
  rw [htails, readUtf8_append hc' rest'] at hread
  obtain rfl := (Utf8Read.char.inj hread).1
  exact ⟨rfl, List.append_cancel_left h⟩

/-- No character stands at the front of the bytes. -/
def NoChar (bytes : List UInt8) : Prop :=
  ∀ c, ¬ String.utf8EncodeChar c <+: bytes

theorem noChar_of_readUtf8 (h : ∀ c width, readUtf8 b₀ rest ≠ .char c width) :
    NoChar (b₀ :: rest) := by
  rintro c ⟨rest', heq⟩
  obtain ⟨b₀', tail, hc⟩ := List.exists_cons_of_ne_nil (String.utf8EncodeChar_ne_nil (c := c))
  rw [hc, List.cons_append] at heq
  obtain ⟨rfl, rfl⟩ := List.cons.inj heq
  exact h c _ (readUtf8_append hc rest')

/-- A text that bytes begin with is no longer than the text before which no character stands. -/
theorem prefix_of_noChar (hrest : NoChar rest) (h : encodeUtf8 text' <+: encodeUtf8 text ++ rest) :
    text' <+: text := by
  induction text generalizing text' with
  | nil =>
    cases text' with
    | nil => exact List.prefix_refl _
    | cons c text' =>
      obtain ⟨rest', heq⟩ := h
      exact absurd ⟨encodeUtf8 text' ++ rest', by rw [← List.append_assoc, ← encodeUtf8_cons]; exact heq⟩ (hrest c)
  | cons c text ih =>
    cases text' with
    | nil => exact List.nil_prefix
    | cons c' text' =>
      obtain ⟨rest', heq⟩ := h
      rw [encodeUtf8_cons, encodeUtf8_cons, List.append_assoc, List.append_assoc] at heq
      obtain ⟨rfl, htails⟩ := eq_of_append_eq heq
      exact (List.prefix_cons_inj _).2 (ih ⟨rest', htails⟩)

/-- Bytes that no character begins with, and that begin no character, stand in no text behind another text. -/
theorem not_prefix_encode {errorLen : ℕ} (h : readUtf8 b₀ rest = .invalid errorLen) :
    ¬ encodeUtf8 text ++ b₀ :: rest <+: encodeUtf8 text' := by
  rintro ⟨behind, heq⟩
  induction text generalizing text' with
  | nil =>
    cases text' with
    | nil => cases heq
    | cons c text' =>
      obtain ⟨b₀', tail, hc⟩ := List.exists_cons_of_ne_nil (String.utf8EncodeChar_ne_nil (c := c))
      rw [encodeUtf8_nil, List.nil_append, encodeUtf8_cons, hc, List.cons_append, List.cons_append] at heq
      obtain ⟨rfl, htails⟩ := List.cons.inj heq
      -- Either the bytes hold the character, or they are a part of it.
      obtain ⟨more, hmore⟩ | ⟨more, hmore⟩ := List.prefix_or_prefix_of_prefix ⟨encodeUtf8 text', rfl⟩ ⟨behind, htails⟩
      · rw [← hmore, readUtf8_append hc more] at h
        cases h
      · cases more with
        | nil =>
          rw [List.append_nil] at hmore
          rw [hmore] at h
          have hread := readUtf8_append hc []
          rw [List.append_nil, h] at hread
          cases hread
        | cons b more =>
          have hbytes := charBytes_utf8EncodeChar c
          rw [hc, ← hmore] at hbytes
          rw [readUtf8_of_begun hbytes (List.cons_ne_nil b more)] at h
          cases h
  | cons c text ih =>
    cases text' with
    | nil =>
      have hlength := congrArg List.length heq
      simp at hlength
    | cons c' text' =>
      rw [encodeUtf8_cons, encodeUtf8_cons, List.append_assoc, List.append_assoc] at heq
      obtain ⟨rfl, htails⟩ := eq_of_append_eq heq
      exact ih (by rw [List.append_assoc]; exact htails)

/-! ### `str::from_utf8` -/

theorem fromUtf8From_skip (valid : List Char) (skipped rest : List UInt8) :
    fromUtf8From valid skipped.length (skipped ++ rest) = fromUtf8From valid 0 rest := by
  induction skipped with
  | nil => rfl
  | cons b skipped ih => rw [List.length_cons, List.cons_append, fromUtf8From, ih]

/-- What `str::from_utf8` answers: the whole text; or the longest text in front, with the beginning of a character
behind it; or the longest text in front of bytes that stand in no text. -/
inductive Decoded (bytes : List UInt8) : Except Utf8Error (List Char) → Prop
  | ok {text : List Char} (htext : encodeUtf8 text = bytes) : Decoded bytes (.ok text)
  | unexpectedEnd {text : List Char} {rest : List UInt8} (htext : encodeUtf8 text ++ rest = bytes) (hne : rest ≠ [])
      (hrest : NoChar rest) (hbegun : ∃ c, rest <+: String.utf8EncodeChar c) : Decoded bytes (.error ⟨text, none⟩)
  | invalid {text : List Char} {errorLen : ℕ} (hnone : ∀ text', ¬ bytes <+: encodeUtf8 text') :
      Decoded bytes (.error ⟨text, some errorLen⟩)

theorem decoded_fromUtf8From (valid : List Char) (rest : List UInt8) (h : encodeUtf8 valid ++ rest = bytes) :
    Decoded bytes (fromUtf8From valid 0 rest) := by
  obtain ⟨n, hn⟩ : ∃ n, rest.length ≤ n := ⟨_, Nat.le_refl _⟩
  induction n generalizing valid rest with
  | zero =>
    obtain rfl := List.eq_nil_of_length_eq_zero (Nat.le_zero.1 hn)
    rw [List.append_nil] at h
    exact .ok h
  | succ n ih =>
    cases rest with
    | nil =>
      rw [List.append_nil] at h
      exact .ok h
    | cons b₀ rest =>
      have hfront := front_readUtf8 b₀ rest
      have hnone (hchar : ∀ c width, readUtf8 b₀ rest ≠ .char c width) := noChar_of_readUtf8 hchar
      rw [fromUtf8From]
      generalize hread : readUtf8 b₀ rest = read at hfront hnone
      cases hfront with
      | @char c tail rest' hrest hbytes =>
        subst hrest
        show Decoded bytes (fromUtf8From (valid ++ [c]) tail.length (tail ++ rest'))
        rw [fromUtf8From_skip]
        refine ih _ _ ?_ ?_
        · rw [encodeUtf8_append, encodeUtf8_cons, encodeUtf8_nil, List.append_nil, hbytes, List.append_assoc]
          exact h
        · rw [List.length_cons, List.length_append] at hn
          omega
      | @unexpectedEnd c missing hbytes hmissing =>
        exact .unexpectedEnd h (List.cons_ne_nil _ _) (hnone nofun) ⟨c, missing, hbytes.symm⟩
      | @invalid errorLen =>
        refine .invalid fun text' hstarted ↦ ?_
        rw [← h] at hstarted
        exact not_prefix_encode hread hstarted

/-- **What `str::from_utf8` answers.** -/
theorem decoded_fromUtf8 (bytes : List UInt8) : Decoded bytes (fromUtf8 bytes) :=
  decoded_fromUtf8From [] bytes rfl

end Execution
