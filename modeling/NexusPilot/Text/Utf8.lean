import NexusPilot.Scan.Encode
import NexusPilot.Text.Std

/-!
# A text as bytes

Some of the modelled scanners walk over `str::as_bytes` instead of the characters. A byte is kept as
the character with that code, so that byte literals read as in the source and both kinds of scanner
share one type of text: ASCII characters stand for themselves, and every other character becomes
several symbols above `0x7F`, none of which a scanner asks for. UTF-8 is thus an `Encoding` in the
sense of the scanning library.
-/

namespace Text

/-- A byte, as the character with that code. -/
def byteChar (b : UInt8) : Char :=
  Char.ofNat b.toNat

/-- The bytes of a character. -/
def charBytes (c : Char) : List Char :=
  (String.utf8EncodeChar c).map byteChar

/-- An ASCII character. -/
def isAscii (c : Char) : Bool :=
  c.toNat < 0x80

/-- `u8::is_ascii_whitespace`, which leaves the vertical tab out. -/
def isAsciiWhitespace (c : Char) : Bool :=
  c == ' ' || c == '\t' || c == '\n' || c == '\x0c' || c == '\r'

theorem isWhitespace_of_isAsciiWhitespace {c : Char} (h : isAsciiWhitespace c) : isWhitespace c := by
  simp only [isAsciiWhitespace, Bool.or_eq_true, beq_iff_eq, or_assoc] at h
  obtain rfl | rfl | rfl | rfl | rfl := h <;> rfl

theorem toNat_byteChar (b : UInt8) : (byteChar b).toNat = b.toNat := by
  have hlt : b.toNat < 256 := b.toNat_lt
  have hvalid : b.toNat.isValidChar := .inl (by omega)
  rw [byteChar, Char.ofNat, dif_pos hvalid]
  rfl

theorem charBytes_of_isAscii {c : Char} (h : isAscii c) : charBytes c = [c] := by
  have hlt : c.toNat < 0x80 := by simpa [isAscii] using h
  have hval : c.val.toNat ≤ 127 := by
    show c.toNat ≤ 127
    omega
  have henc : String.utf8EncodeChar c = [UInt8.ofNat c.toNat] := by
    rw [String.utf8EncodeChar]
    exact if_pos hval
  rw [charBytes, henc, List.map_singleton, List.singleton_inj]
  refine Char.toNat_inj.1 ?_
  rw [toNat_byteChar, UInt8.toNat_ofNat']
  omega

theorem isAscii_of_mem_charBytes {c : Char} (h : isAscii c = false) :
    ∀ b ∈ charBytes c, isAscii b = false := by
  have hge : 0x80 ≤ c.toNat := by simpa [isAscii] using h
  have hval : ¬ c.val.toNat ≤ 127 := by
    show ¬ c.toNat ≤ 127
    omega
  intro b hb
  obtain ⟨byte, hbyte, rfl⟩ := List.mem_map.1 hb
  have hhigh : 0x80 ≤ byte.toNat := by
    simp only [String.utf8EncodeChar, hval, if_false] at hbyte
    split_ifs at hbyte
    all_goals
      simp only [List.mem_cons, List.not_mem_nil, or_false] at hbyte
      rcases hbyte with rfl | rfl | rfl | rfl
    all_goals
      rw [UInt8.toNat_ofNat']
      omega
  simp only [isAscii, toNat_byteChar, decide_eq_false_iff_not]
  omega

/-- UTF-8. -/
def utf8 : Scan.Encoding Char where
  plain := isAscii
  encode := charBytes
  encode_plain := fun _ h ↦ charBytes_of_isAscii h
  encode_ne_nil := fun _ h ↦ String.utf8EncodeChar_ne_nil (List.map_eq_nil_iff.1 h)
  plain_of_mem_encode := fun _ h ↦ isAscii_of_mem_charBytes h

/-- `str::as_bytes`. -/
def asBytes (s : List Char) : List Char :=
  utf8.text s

end Text
