import NexusPilot.Machine.Lists
import NexusPilot.WebFetch.Ranges

/-!
# Spellings of an address

`::` for some groups, zeros in front and a dotted end all come to the groups that the address denotes, as long as it has
no zone (**`expandHost_of_groups`**). The digits in front of a piece are what counts (`parseInt_append`), the dotted end
is replaced by two pieces (`embedIpv4_dotted`), and the parts around `::` are filled up with zeros
(`readParts_compressed`).
-/

namespace WebFetch

open Text Machine

/-! ### Digits -/

variable {radix group d a b : ℕ} {c : Char} {digits s piece : List Char}
  {parts segments left right : List (List Char)} {groups : List ℕ} {compressed : Bool}

/-- The characters that are digits of a radix up to 16. -/
theorem range_of_isDigitOf (hradix : radix ≤ 16) (h : isDigitOf radix c = true) :
    (48 ≤ c.toNat ∧ c.toNat ≤ 57) ∨ (97 ≤ c.toNat ∧ c.toNat ≤ 102) ∨ (65 ≤ c.toNat ∧ c.toNat ≤ 70) := by
  unfold isDigitOf digitValue? at h
  split at h
  · next hdigit =>
    rw [Char.isDigit, Bool.and_eq_true, decide_eq_true_iff, decide_eq_true_iff] at hdigit
    exact Or.inl hdigit
  · split at h
    · next hlower => exact Or.inr (Or.inl hlower)
    · split at h
      · next hupper => exact Or.inr (Or.inr hupper)
      · cases h

theorem range_of_isDecimal (h : isDigitOf 10 c = true) : 48 ≤ c.toNat ∧ c.toNat ≤ 57 := by
  unfold isDigitOf digitValue? at h
  split at h
  · next hdigit =>
    rw [Char.isDigit, Bool.and_eq_true, decide_eq_true_iff, decide_eq_true_iff] at hdigit
    exact hdigit
  · split at h
    · next hlower =>
      have hlt : c.toNat - 87 < 10 := of_decide_eq_true h
      omega
    · split at h
      · next hupper =>
        have hlt : c.toNat - 55 < 10 := of_decide_eq_true h
        omega
      · cases h

/-- A digit is no separator and no sign. -/
theorem ne_of_isDigitOf {d : Char} (hradix : radix ≤ 16) (h : isDigitOf radix c = true)
    (hd : d.toNat < 48 ∨ (57 < d.toNat ∧ d.toNat < 65) ∨ (70 < d.toNat ∧ d.toNat < 97) ∨ 102 < d.toNat) :
    c ≠ d := by
  rintro rfl
  have hrange := range_of_isDigitOf hradix h
  omega

theorem isScriptSpace_of_isDigitOf (hradix : radix ≤ 16) (h : isDigitOf radix c = true) :
    isScriptSpace c = false := by
  have hrange := range_of_isDigitOf hradix h
  simp only [isScriptSpace, Bool.or_eq_false_iff, Bool.and_eq_false_iff, decide_eq_false_iff_not,
    beq_eq_false_iff_ne]
  omega

/-- **Only the digits in front** of a piece count. -/
theorem parseInt_append {radix : ℕ} (hradix : radix ≤ 16) {digits behind : List Char} (hne : digits ≠ [])
    (hdigits : ∀ c ∈ digits, isDigitOf radix c = true)
    (hbehind : ∀ c ∈ behind.head?, isDigitOf radix c = false ∧ c ≠ 'x' ∧ c ≠ 'X') :
    parseInt radix (digits ++ behind) = some (digitsValue radix digits : ℤ) := by
  cases digits with
  | nil => exact absurd rfl hne
  | cons first digits =>
    have hfirst := hdigits first List.mem_cons_self
    have htrimmed : ((first :: digits) ++ behind).dropWhile isScriptSpace = (first :: digits) ++ behind := by
      rw [List.cons_append, List.dropWhile_cons_of_neg]
      rw [isScriptSpace_of_isDigitOf hradix hfirst]
      exact Bool.false_ne_true
    have hminus : ((first :: digits) ++ behind).head? ≠ some '-' := fun h ↦
      ne_of_isDigitOf hradix hfirst (by decide) (Option.some.inj h)
    have hplus : ((first :: digits) ++ behind).head? ≠ some '+' := fun h ↦
      ne_of_isDigitOf hradix hfirst (by decide) (Option.some.inj h)
    -- the second character is a digit or the first one behind the digits
    have hsecond (mark : Char) (hmark : mark = 'x' ∨ mark = 'X') : ((first :: digits) ++ behind)[1]? ≠ some mark := by
      cases digits with
      | nil =>
        intro h
        have hhead : mark ∈ behind.head? := by
          cases behind with
          | nil => cases h
          | cons c behind => exact h
        obtain ⟨-, hx, hX⟩ := hbehind mark hhead
        exact hmark.elim hx hX
      | cons second digits =>
        intro h
        have hdigit := hdigits second (List.mem_cons_of_mem _ List.mem_cons_self)
        refine ne_of_isDigitOf hradix hdigit ?_ (Option.some.inj h)
        obtain rfl | rfl := hmark <;> decide
    have htake : ((first :: digits) ++ behind).takeWhile (isDigitOf radix) = first :: digits := by
      rw [List.takeWhile_append_of_pos hdigits]
      cases behind with
      | nil => rw [List.takeWhile_nil, List.append_nil]
      | cons c behind =>
        rw [List.takeWhile_cons_of_neg, List.append_nil]
        rw [(hbehind c rfl).1]
        exact Bool.false_ne_true
    have hmark : ¬ (radix = 16 ∧ ((first :: digits) ++ behind).head? = some '0' ∧
        (((first :: digits) ++ behind)[1]? = some 'x' ∨ ((first :: digits) ++ behind)[1]? = some 'X')) := fun h ↦
      h.2.2.elim (hsecond 'x' (Or.inl rfl)) (hsecond 'X' (Or.inr rfl))
    unfold parseInt
    simp only [htrimmed, hminus, hplus, or_self, if_false, hmark, htake]
    rw [if_neg (List.cons_ne_nil _ _)]

theorem parseInt_digits (hradix : radix ≤ 16) (hne : digits ≠ [])
    (hdigits : ∀ c ∈ digits, isDigitOf radix c = true) :
    parseInt radix digits = some (digitsValue radix digits : ℤ) := by
  have h := @parseInt_append radix hradix digits [] hne hdigits nofun
  rwa [List.append_nil] at h

/-! ### Segments -/

theorem isHexSegment_iff :
    isHexSegment s = true ↔ 1 ≤ s.length ∧ s.length ≤ 4 ∧ ∀ c ∈ s, isDigitOf 16 c = true :=
  decide_eq_true_iff

theorem hexGroup_eq_some_iff :
    hexGroup piece = some group ↔ isHexSegment piece = true ∧ digitsValue 16 piece = group := by
  unfold hexGroup
  split
  · next h => exact ⟨fun heq ↦ ⟨h, Option.some.inj heq⟩, fun heq ↦ congrArg some heq.2⟩
  · next h => exact iff_of_false nofun fun heq ↦ h heq.1

theorem digitValue_lt (hpos : 0 < radix) (h : isDigitOf radix c = true) :
    (digitValue? c).getD 0 < radix := by
  unfold isDigitOf at h
  cases hvalue : digitValue? c with
  | none => exact hpos
  | some v =>
    rw [hvalue] at h
    exact of_decide_eq_true h

theorem digitsValue_concat (radix : ℕ) (digits : List Char) (c : Char) :
    digitsValue radix (digits ++ [c]) = radix * digitsValue radix digits + (digitValue? c).getD 0 := by
  rw [digitsValue, List.foldl_append]
  rfl

theorem digitsValue_lt (hpos : 0 < radix) (h : ∀ c ∈ digits, isDigitOf radix c = true) :
    digitsValue radix digits < radix ^ digits.length := by
  induction digits using List.reverseRecOn with
  | nil => exact Nat.one_pos
  | append_singleton digits c ih =>
    have hrest := ih fun d hd ↦ h d (List.mem_append_left _ hd)
    have hlast := digitValue_lt hpos (h c (List.mem_append_right _ (List.mem_singleton_self c)))
    have hmul : radix * (digitsValue radix digits + 1) ≤ radix * radix ^ digits.length :=
      Nat.mul_le_mul_left _ hrest
    rw [digitsValue_concat, List.length_append, List.length_singleton, Nat.pow_succ, Nat.mul_comm _ radix]
    rw [Nat.mul_add, Nat.mul_one] at hmul
    omega

/-- A hexadecimal segment is a group, and is read as one. -/
theorem parseInt_hexGroup {piece behind : List Char} {group : ℕ} (h : hexGroup piece = some group)
    (hbehind : ∀ c ∈ behind.head?, isDigitOf 16 c = false ∧ c ≠ 'x' ∧ c ≠ 'X') :
    parseInt 16 (piece ++ behind) = some (group : ℤ) ∧ group < 2 ^ 16 := by
  obtain ⟨hsegment, rfl⟩ := hexGroup_eq_some_iff.1 h
  obtain ⟨hlow, hhigh, hdigits⟩ := isHexSegment_iff.1 hsegment
  refine ⟨parseInt_append le_rfl (List.length_pos_iff.1 hlow) hdigits hbehind, ?_⟩
  exact (digitsValue_lt (by decide) hdigits).trans_le (Nat.pow_le_pow_right (by decide) hhigh)

/-! ### Numbers as texts -/

theorem digitValue_digitChar (h : d < 16) : digitValue? d.digitChar = some d := by
  have hall : ∀ e ∈ List.range 16, digitValue? e.digitChar = some e := by decide
  exact hall d (List.mem_range.2 h)

/-- The digits of a number denote it. -/
theorem toDigits_spec (hlow : 1 < radix) (hradix : radix ≤ 16) (n : ℕ) :
    digitsValue radix (Nat.toDigits radix n) = n ∧ ∀ c ∈ Nat.toDigits radix n, isDigitOf radix c = true := by
  have hdigit {d : ℕ} (hd : d < radix) : isDigitOf radix d.digitChar = true := by
    rw [isDigitOf, digitValue_digitChar (hd.trans_le hradix)]
    exact decide_eq_true hd
  induction n using Nat.strong_induction_on with
  | _ n ih =>
    obtain hlt | hge := Nat.lt_or_ge n radix
    · rw [Nat.toDigits_of_lt_base hlt]
      refine ⟨?_, fun c hc ↦ ?_⟩
      · rw [← List.nil_append [n.digitChar], digitsValue_concat, digitValue_digitChar (hlt.trans_le hradix)]
        show radix * 0 + n = n
        omega
      · rw [List.mem_singleton.1 hc]
        exact hdigit hlt
    · have hmod : n % radix < radix := Nat.mod_lt _ (by omega)
      obtain ⟨hvalue, hdigits⟩ := ih (n / radix) (Nat.div_lt_self (by omega) hlow)
      rw [Nat.toDigits_of_base_le hlow hge]
      refine ⟨?_, fun c hc ↦ ?_⟩
      · rw [digitsValue_concat, digitValue_digitChar (hmod.trans_le hradix), hvalue]
        exact Nat.div_add_mod n radix
      · obtain hc | hc := List.mem_append.1 hc
        · exact hdigits c hc
        · rw [List.mem_singleton.1 hc]
          exact hdigit hmod

/-- A group as a text is that group. -/
theorem hexGroup_hexText (h : group < 2 ^ 16) : hexGroup (hexText group) = some group := by
  obtain ⟨hvalue, hdigits⟩ := toDigits_spec (by decide) le_rfl group
  refine hexGroup_eq_some_iff.2 ⟨isHexSegment_iff.2 ⟨Nat.length_toDigits_pos, ?_, hdigits⟩, hvalue⟩
  exact (Nat.length_toDigits_le_iff (by decide) (by decide)).2 h

/-! ### Dotted texts -/

theorem isV4Segment_iff :
    isV4Segment s = true ↔ s ≠ [] ∧ (∀ c ∈ s, isDigitOf 10 c = true) ∧ (s.length = 1 ∨ s.head? ≠ some '0') ∧
      digitsValue 10 s ≤ 255 :=
  decide_eq_true_iff

/-- The four segments of an IPv4 address. -/
structure DottedQuad (s : List Char) (a b c d : ℕ) : Prop where
  exists_split : ∃ first second third fourth, split ['.'] s = [first, second, third, fourth] ∧
    isV4Segment first = true ∧ isV4Segment second = true ∧ isV4Segment third = true ∧ isV4Segment fourth = true ∧
    digitsValue 10 first = a ∧ digitsValue 10 second = b ∧ digitsValue 10 third = c ∧ digitsValue 10 fourth = d

theorem ipv4Segments_eq_some_iff {c : ℕ} :
    ipv4Segments s = some (a, b, c, d) ↔ DottedQuad s a b c d := by
  unfold ipv4Segments
  constructor
  · intro h
    split at h
    · next first second third fourth hsplit =>
      split at h
      · next hsegments =>
        cases h
        obtain ⟨hfirst, hsecond, hthird, hfourth⟩ := hsegments
        exact ⟨_, _, _, _, hsplit, hfirst, hsecond, hthird, hfourth, rfl, rfl, rfl, rfl⟩
      · cases h
    · cases h
  · rintro ⟨first, second, third, fourth, hsplit, hfirst, hsecond, hthird, hfourth, rfl, rfl, rfl, rfl⟩
    rw [hsplit]
    exact if_pos ⟨hfirst, hsecond, hthird, hfourth⟩

/-- One number more is shifted in. -/
theorem shiftIn {x : BitVec 32} {part : ℕ} (hx : x.toNat < 2 ^ 24) (hpart : part < 2 ^ 8) :
    (x <<< 8 ||| BitVec.ofInt 32 (part : ℤ)).toNat = x.toNat * 256 + part := by
  have hpart' : (BitVec.ofInt 32 (part : ℤ)).toNat = part := by
    rw [BitVec.ofInt_natCast, BitVec.toNat_ofNat]
    exact Nat.mod_eq_of_lt (by omega)
  have hshift : x.toNat <<< 8 = x.toNat * 256 := Nat.shiftLeft_eq _ _
  rw [BitVec.toNat_or, BitVec.toNat_shiftLeft, hpart', hshift, Nat.mod_eq_of_lt (by omega), ← hshift,
    ← Nat.shiftLeft_add_eq_or_of_lt hpart, hshift]

/-- **The number of a dotted text.** -/
theorem DottedQuad.ipv4ToNumber {s : List Char} {a b c d : ℕ} (h : DottedQuad s a b c d) :
    (ipv4ToNumber s).toNat = ((a * 256 + b) * 256 + c) * 256 + d ∧ a < 256 ∧ b < 256 ∧ c < 256 ∧ d < 256 := by
  obtain ⟨first, second, third, fourth, hsplit, hfirst, hsecond, hthird, hfourth, rfl, rfl, rfl, rfl⟩ := h.exists_split
  have hread {segment : List Char} (hsegment : isV4Segment segment = true) :
      parseInt 10 segment = some (digitsValue 10 segment : ℤ) ∧ digitsValue 10 segment < 2 ^ 8 := by
    obtain ⟨hne, hdigits, -, hle⟩ := isV4Segment_iff.1 hsegment
    exact ⟨parseInt_digits (by decide) hne hdigits, Nat.lt_succ_of_le hle⟩
  obtain ⟨hfirst, ha⟩ := hread hfirst
  obtain ⟨hsecond, hb⟩ := hread hsecond
  obtain ⟨hthird, hc⟩ := hread hthird
  obtain ⟨hfourth, hd⟩ := hread hfourth
  refine ⟨?_, ha, hb, hc, hd⟩
  unfold WebFetch.ipv4ToNumber
  rw [hsplit, List.map_cons, List.map_cons, List.map_cons, List.map_cons, List.map_nil, hfirst, hsecond, hthird,
    hfourth]
  -- the numbers are shifted in one after the other
  have h1 := @shiftIn 0 _ (by decide) ha
  have h2 := @shiftIn _ _ (by rw [h1]; exact (show 0 * 256 + _ < 2 ^ 24 by omega)) hb
  have h3 := @shiftIn _ _ (by rw [h2, h1]; exact (show (0 * 256 + _) * 256 + _ < 2 ^ 24 by omega)) hc
  have h4 := @shiftIn _ _
    (by rw [h3, h2, h1]; exact (show ((0 * 256 + _) * 256 + _) * 256 + _ < 2 ^ 24 by omega)) hd
  refine h4.trans ?_
  rw [h3, h2, h1]
  show (((0 * 256 + _) * 256 + _) * 256 + _) * 256 + _ = _
  rw [Nat.zero_mul, Nat.zero_add]

/-! ### Pieces -/

/-- The characters of a segment are no separators. -/
theorem not_mem_of_isHexSegment (h : isHexSegment piece = true)
    (hc : c.toNat < 48 ∨ (57 < c.toNat ∧ c.toNat < 65) ∨ (70 < c.toNat ∧ c.toNat < 97) ∨ 102 < c.toNat) :
    c ∉ piece := by
  intro hmem
  exact ne_of_isDigitOf le_rfl ((isHexSegment_iff.1 h).2.2 c hmem) hc rfl

theorem DottedQuad.not_mem {c : ℕ} (h : DottedQuad s a b c d) {x : Char} (hdot : x ≠ '.')
    (hx : x.toNat < 48 ∨ 57 < x.toNat) : x ∉ s := by
  intro hmem
  obtain ⟨first, second, third, fourth, hsplit, hfirst, hsecond, hthird, hfourth, -⟩ := h.exists_split
  obtain hsep | ⟨part, hpart, hmem⟩ := mem_separator_or_mem_split (List.cons_ne_nil '.' []) hmem
  · exact hdot (List.mem_singleton.1 hsep)
  · have hsegment : isV4Segment part = true := by
      rw [hsplit] at hpart
      simp only [List.mem_cons, List.not_mem_nil, or_false] at hpart
      obtain rfl | rfl | rfl | rfl := hpart <;> assumption
    have hrange := range_of_isDecimal ((isV4Segment_iff.1 hsegment).2.1 x hmem)
    omega

theorem DottedQuad.isDotted {s : List Char} {a b c d : ℕ} (h : DottedQuad s a b c d) : isDotted s = true := by
  obtain ⟨first, second, third, fourth, hsplit, hfirst, hsecond, hthird, hfourth, -⟩ := h.exists_split
  refine decide_eq_true ?_
  rw [hsplit]
  refine ⟨rfl, fun part hpart ↦ ?_⟩
  have hsegment : isV4Segment part = true := by
    simp only [List.mem_cons, List.not_mem_nil, or_false] at hpart
    obtain rfl | rfl | rfl | rfl := hpart <;> assumption
  obtain ⟨hne, hdigits, -⟩ := isV4Segment_iff.1 hsegment
  exact ⟨hne, hdigits⟩

/-- Hexadecimal segments and their groups. -/
abbrev HexGroups (segments : List (List Char)) (groups : List ℕ) : Prop :=
  List.Forall₂ (fun segment group ↦ hexGroup segment = some group) segments groups

/-- **The pieces of an address** are segments, and the last one may be dotted. -/
theorem groupsOf_cases (h : groupsOf parts = some groups) :
    HexGroups parts groups ∨
      ∃ segments dotted a b c d front, parts = segments ++ [dotted] ∧ DottedQuad dotted a b c d ∧
        HexGroups segments front ∧ groups = front ++ [a * 256 + b, c * 256 + d] := by
  fun_induction groupsOf parts generalizing groups with
  | case1 =>
    cases h
    exact Or.inl .nil
  | case2 piece a b c d hquad =>
    cases h
    exact Or.inr ⟨[], piece, a, b, c, d, [], rfl, ipv4Segments_eq_some_iff.1 hquad, .nil, rfl⟩
  | case3 piece hquad =>
    obtain ⟨group, hgroup, rfl⟩ := Option.map_eq_some_iff.1 h
    exact Or.inl (.cons hgroup .nil)
  | case4 piece others hothers ih =>
    obtain ⟨group, hgroup, h⟩ := Option.bind_eq_some_iff.1 h
    obtain ⟨rest, hrest, rfl⟩ := Option.map_eq_some_iff.1 h
    obtain hhex | ⟨segments, dotted, a, b, c, d, front, rfl, hquad, hfront, rfl⟩ := ih hrest
    · exact Or.inl (.cons hgroup hhex)
    · exact Or.inr ⟨piece :: segments, dotted, a, b, c, d, group :: front, rfl, hquad, .cons hgroup hfront, rfl⟩

/-! ### Reading -/

theorem forall₂_append_cases {α β : Type*} {R : α → β → Prop} {xs ys : List α} {zs : List β}
    (h : List.Forall₂ R (xs ++ ys) zs) :
    ∃ front behind, zs = front ++ behind ∧ List.Forall₂ R xs front ∧ List.Forall₂ R ys behind := by
  induction xs generalizing zs with
  | nil => exact ⟨[], zs, rfl, .nil, h⟩
  | cons x xs ih =>
    cases h with
    | cons hfirst hrest =>
      obtain ⟨front, behind, rfl, hfront, hbehind⟩ := ih hrest
      exact ⟨_ :: front, behind, rfl, .cons hfirst hfront, hbehind⟩

/-- Pieces and the groups that are read of them. -/
abbrev Reads (parts : List (List Char)) (groups : List ℕ) : Prop :=
  List.Forall₂ (fun part (group : ℕ) ↦ parseInt 16 part = some (group : ℤ) ∧ group < 2 ^ 16) parts groups

/-- The parts of `expandIpv6`. -/
def partsOf (left right : List (List Char)) (compressed : Bool) : List (List Char) :=
  if compressed then left ++ List.replicate (8 - (left.length + right.length)) ['0'] ++ right else left

theorem reads_of_hexGroups (h : HexGroups segments groups) :
    Reads segments groups := by
  refine List.Forall₂.imp (fun segment group hgroup ↦ ?_) h
  have hread := @parseInt_hexGroup segment [] group hgroup nofun
  rwa [List.append_nil] at hread

theorem Reads.lt (h : Reads parts groups) :
    ∀ group ∈ groups, group < 2 ^ 16 := by
  induction h with
  | nil => nofun
  | cons hread _ ih => exact List.forall_mem_cons.2 ⟨hread.2, ih⟩

/-- The values of the parts, in the range of a group. -/
theorem parsed_eq_some_iff :
    ((parts.mapM (parseInt 16)).filter fun parsed ↦ parsed.all fun part ↦ 0 ≤ part ∧ part ≤ 0xffff).map
        (·.map Int.toNat) = some groups ↔ Reads parts groups := by
  rw [Option.map_eq_some_iff]
  constructor
  · rintro ⟨parsed, hfiltered, rfl⟩
    obtain ⟨hparsed, hrange⟩ := Option.filter_eq_some_iff.1 hfiltered
    have hall := mapM_eq_some_iff.1 hparsed
    rw [List.all_eq_true] at hrange
    clear hparsed hfiltered
    induction hall with
    | nil => exact .nil
    | @cons part value parts values hvalue _ ih =>
      obtain ⟨hlow, hhigh⟩ := of_decide_eq_true (hrange value List.mem_cons_self)
      refine .cons ⟨?_, by omega⟩ (ih fun other hother ↦ hrange other (List.mem_cons_of_mem _ hother))
      rw [hvalue, Int.toNat_of_nonneg hlow]
  · intro h
    refine ⟨groups.map fun group : ℕ ↦ (group : ℤ), Option.filter_eq_some_iff.2 ⟨mapM_eq_some_iff.2 ?_, ?_⟩, ?_⟩
    · rw [List.forall₂_map_right_iff]
      exact List.Forall₂.imp (fun part group hread ↦ hread.1) h
    · rw [List.all_eq_true]
      intro value hvalue
      obtain ⟨group, hgroup, rfl⟩ := List.mem_map.1 hvalue
      have hlt := h.lt group hgroup
      exact decide_eq_true ⟨Int.natCast_nonneg _, by omega⟩
    · rw [List.map_map]
      exact List.map_id'' (fun group ↦ Int.toNat_natCast group) groups

/-- **What is read** of the parts before and behind `::`. -/
theorem readParts_eq_some_iff :
    readParts left right compressed = some groups ↔
      ¬ (compressed = true ∧ 8 < left.length + right.length) ∧ (partsOf left right compressed).length = 8 ∧
        Reads (partsOf left right compressed) groups := by
  show (if compressed = true ∧ 8 < left.length + right.length then none
    else if (partsOf left right compressed).length ≠ 8 then none else _) = _ ↔ _
  split
  · next hmany => exact iff_of_false nofun fun h ↦ h.1 hmany
  · next hfew =>
    rw [and_iff_right hfew, ← parsed_eq_some_iff]
    split
    · next hlength => exact iff_of_false nofun fun h ↦ hlength h.1
    · next hlength => exact (and_iff_right (not_not.1 hlength)).symm

theorem isGroups_of_readParts (h : readParts left right compressed = some groups) : IsGroups groups := by
  obtain ⟨-, hlength, hreads⟩ := readParts_eq_some_iff.1 h
  exact ⟨hreads.length_eq.symm.trans hlength, hreads.lt⟩

/-! ### The dotted end -/

/-- The last piece is replaced if it is dotted. -/
theorem embedIpv4_append {before last : List Char} (hbefore : before ≠ []) (hlast : ':' ∉ last) :
    embedIpv4 (before ++ ':' :: last) =
      if isDotted last = true then
        before ++ ':' :: hexText ((ipv4ToNumber last >>> 16) &&& 0xffff#32).toNat ++
          ':' :: hexText (ipv4ToNumber last &&& 0xffff#32).toNat
      else before ++ ':' :: last := by
  have hsplit : split [':'] (before ++ ':' :: last) = split [':'] before ++ [last] := by
    rw [split_singleton_append, split_singleton_of_not_mem hlast]
  have hlength : 2 ≤ (split [':'] before ++ [last]).length := by
    rw [List.length_append, split]
    simp
  unfold embedIpv4
  simp only [hsplit, List.dropLast_concat, intercalate_split (List.cons_ne_nil ':' []), List.getLastD_concat]
  exact if_congr ((and_iff_right hlength).trans (and_iff_right hbefore)) rfl rfl

/-- **A dotted end** comes to two groups. -/
theorem embedIpv4_dotted {before dotted : List Char} {c : ℕ} (hbefore : before ≠ [])
    (hquad : DottedQuad dotted a b c d) :
    embedIpv4 (before ++ ':' :: dotted) =
      before ++ ':' :: hexText (a * 256 + b) ++ ':' :: hexText (c * 256 + d) := by
  obtain ⟨hnumber, ha, hb, hc, hd⟩ := hquad.ipv4ToNumber
  have hhigh : ((ipv4ToNumber dotted >>> 16) &&& 0xffff#32).toNat = a * 256 + b := by
    rw [BitVec.toNat_and, BitVec.toNat_ushiftRight, hnumber, Nat.shiftRight_eq_div_pow]
    show _ &&& (2 ^ 16 - 1) = _
    rw [Nat.and_two_pow_sub_one_eq_mod]
    omega
  have hlow : (ipv4ToNumber dotted &&& 0xffff#32).toNat = c * 256 + d := by
    rw [BitVec.toNat_and, hnumber]
    show _ &&& (2 ^ 16 - 1) = _
    rw [Nat.and_two_pow_sub_one_eq_mod]
    omega
  rw [embedIpv4_append hbefore (hquad.not_mem (by decide) (by decide)), if_pos hquad.isDotted, hhigh, hlow]

theorem embedIpv4_of_not_dotted {host : List Char} {init : List (List Char)} {last : List Char}
    (hsplit : split [':'] host = init ++ [last]) (hlast : isDotted last = false) : embedIpv4 host = host := by
  unfold embedIpv4
  simp only [hsplit, List.getLastD_concat, hlast]
  simp

theorem isDotted_eq_false_of_mem (hmem : c ∈ s) (hdot : c ≠ '.') (hdigit : isDigitOf 10 c = false) :
    isDotted s = false := by
  refine decide_eq_false fun hdotted ↦ ?_
  obtain hsep | ⟨part, hpart, hmem⟩ := mem_separator_or_mem_split (List.cons_ne_nil '.' []) hmem
  · exact hdot (List.mem_singleton.1 hsep)
  · rw [(hdotted.2 part hpart).2 c hmem] at hdigit
    cases hdigit

theorem isDotted_eq_false_of_isHexSegment {segment : List Char} (h : isHexSegment segment = true) :
    isDotted segment = false := by
  have hsplit := split_singleton_of_not_mem (not_mem_of_isHexSegment h (show '.'.toNat < 48 ∨ _ by decide))
  refine decide_eq_false fun hdotted ↦ ?_
  rw [hsplit] at hdotted
  exact (nomatch hdotted.1)

/-! ### Addresses without a zone -/

/-- A text that does not begin with a colon and has no `::` stays in one part behind another. -/
theorem split_double_append {s tail : List Char} {init : List (List Char)} {last : List Char}
    (hs : split [':', ':'] s = init ++ [last]) (hne : tail ≠ []) (hhead : tail.head? ≠ some ':')
    (htail : split [':', ':'] tail = [tail]) : split [':', ':'] (s ++ tail) = init ++ [last ++ tail] := by
  cases tail with
  | nil => exact absurd rfl hne
  | cons c tail =>
    have hc : c ∉ [':', ':'] := by
      intro h
      simp only [List.mem_cons, List.not_mem_nil, or_false, or_self] at h
      exact hhead (congrArg some h)
    exact split_append_cons (List.cons_ne_nil _ _) hc hs htail

theorem split_double_of_not_mem (h : ':' ∉ s) : split [':', ':'] s = [s] :=
  split_of_not_infix fun hinside ↦ h (hinside.subset List.mem_cons_self)

theorem head?_ne_colon (h : ':' ∉ s) : s.head? ≠ some ':' := fun heq ↦
  h (List.mem_of_mem_head? heq)

/-- Two texts without colons and a colon between them have no `::`. -/
theorem split_double_pair {first second : List Char} (hne : second ≠ []) (hfirst : ':' ∉ first)
    (hsecond : ':' ∉ second) : split [':', ':'] (first ++ ':' :: second) = [first ++ ':' :: second] := by
  have hsplit : split [':', ':'] (first ++ [':']) = [] ++ [first ++ [':']] := by
    refine split_of_not_infix ?_
    rintro ⟨before, after, h⟩
    have hcount := congrArg (List.count ':') h
    rw [List.count_append, List.count_append, List.count_append, List.count_eq_zero_of_not_mem hfirst] at hcount
    have htwo : List.count ':' [':', ':'] = 2 := rfl
    have hone : List.count ':' [':'] = 1 := rfl
    omega
  have h := split_double_append hsplit hne (head?_ne_colon hsecond) (split_double_of_not_mem hsecond)
  rw [List.append_assoc] at h
  exact h

/-- The last piece of an address may be replaced by two. -/
theorem split_swap {before piece high low : List Char} (hpiece : ':' ∉ piece) (hpiecene : piece ≠ [])
    (hhigh : ':' ∉ high) (hhighne : high ≠ []) (hlow : ':' ∉ low) (hlowne : low ≠ []) :
    ∃ init last, split [':', ':'] (before ++ ':' :: piece) = init ++ [last ++ piece] ∧
      split [':', ':'] (before ++ ':' :: high ++ ':' :: low) = init ++ [last ++ (high ++ ':' :: low)] ∧
      ∀ segments, split [':'] (last ++ piece) = segments ++ [piece] →
        split [':'] (last ++ (high ++ ':' :: low)) = segments ++ [high, low] := by
  obtain ⟨init, last, hsplit⟩ := exists_split_eq_append [':', ':'] (before ++ [':'])
  have hpair := split_double_pair hlowne hhigh hlow
  have hpairne : high ++ ':' :: low ≠ [] := List.append_ne_nil_of_left_ne_nil hhighne _
  have hpairhead : (high ++ ':' :: low).head? ≠ some ':' := by
    rw [List.head?_append_of_ne_nil _ hhighne]
    exact head?_ne_colon hhigh
  refine ⟨init, last, ?_, ?_, fun segments hsegments ↦ ?_⟩
  · have h := split_double_append hsplit hpiecene (head?_ne_colon hpiece) (split_double_of_not_mem hpiece)
    rwa [List.append_assoc] at h
  · have h := split_double_append hsplit hpairne hpairhead hpair
    rw [List.append_assoc] at h
    rw [List.append_assoc, List.cons_append]
    exact h
  · -- the part in front of the piece ends with a colon
    obtain ⟨front, rest, hlast⟩ := exists_split_eq_append [':'] last
    have hjoin {tail first : List Char} {others : List (List Char)} (hne : tail ≠ []) (hhead : tail.head? ≠ some ':')
        (htail : split [':'] tail = first :: others) :
        split [':'] (last ++ tail) = front ++ (rest ++ first) :: others := by
      cases tail with
      | nil => exact absurd rfl hne
      | cons c tail =>
        refine split_append_cons (List.cons_ne_nil _ _) ?_ hlast htail
        exact fun h ↦ hhead (congrArg some (List.mem_singleton.1 h))
    rw [hjoin hpiecene (head?_ne_colon hpiece) (split_singleton_of_not_mem hpiece)] at hsegments
    obtain ⟨rfl, hrest⟩ := List.append_inj' hsegments rfl
    have hempty : rest = [] := List.append_left_eq_self.1 (List.singleton_injective hrest)
    have htail : split [':'] (high ++ ':' :: low) = high :: [low] := by
      rw [split_singleton_append, split_singleton_of_not_mem hhigh, split_singleton_of_not_mem hlow]
      rfl
    rw [hjoin hpairne hpairhead htail, hempty]
    rfl

/-- What `expandIpv6` does with a host without upper case and brackets. -/
def expandHost (host : List Char) : Option (List ℕ) :=
  match split [':', ':'] (embedIpv4 host) with
  | [left] => readParts (pieces left) [] false
  | [left, right] => readParts (pieces left) (pieces right) true
  | _ => none

theorem partsOf_false (left right : List (List Char)) : partsOf left right false = left :=
  rfl

theorem reads_zeros (n : ℕ) : Reads (List.replicate n ['0']) (List.replicate n 0) := by
  induction n with
  | zero => exact .nil
  | succ n ih => exact .cons ⟨by decide +kernel, by decide⟩ ih

/-- The parts of a compressed address. -/
theorem readParts_compressed {l r : List ℕ} (hleft : Reads left l) (hright : Reads right r)
    (hcount : l.length + r.length ≤ 8) :
    readParts left right true = some (l ++ List.replicate (8 - l.length - r.length) 0 ++ r) := by
  have hl := hleft.length_eq
  have hr := hright.length_eq
  refine readParts_eq_some_iff.2 ⟨fun h ↦ by omega, ?_, ?_⟩
  · rw [partsOf, if_pos rfl, List.length_append, List.length_append, List.length_replicate]
    omega
  · rw [partsOf, if_pos rfl, hl, hr, ← Nat.sub_sub]
    exact List.rel_append (List.rel_append hleft (reads_zeros _)) hright

theorem readParts_whole (hleft : Reads left groups) (hcount : groups.length = 8) :
    readParts left [] false = some groups :=
  readParts_eq_some_iff.2 ⟨nofun, hleft.length_eq.trans hcount, hleft⟩

theorem exists_before (hsplit : split [':'] s = segments ++ [piece]) (hne : segments ≠ []) :
    ∃ before, s = before ++ ':' :: piece ∧ split [':'] before = segments := by
  have hs : s = List.intercalate [':'] segments ++ ':' :: piece := by
    rw [← intercalate_split (List.cons_ne_nil ':' []) s, hsplit]
    clear hsplit
    induction segments with
    | nil => exact absurd rfl hne
    | cons first segments ih =>
      cases segments with
      | nil =>
        rw [List.singleton_append, List.intercalate_cons_of_ne_nil (List.cons_ne_nil _ _), List.intercalate_singleton,
          List.intercalate_singleton, List.append_assoc]
        rfl
      | cons second segments =>
        rw [List.cons_append, List.intercalate_cons_of_ne_nil (by simp), ih (List.cons_ne_nil _ _),
          List.intercalate_cons_of_ne_nil (List.cons_ne_nil _ _)]
        simp only [List.append_assoc]
  have hpiece : ':' ∉ piece := not_mem_of_mem_split (s := s) (by rw [hsplit]; simp)
  refine ⟨_, hs, ?_⟩
  rw [hs, split_singleton_append, split_singleton_of_not_mem hpiece] at hsplit
  exact (List.append_inj' hsplit rfl).1

theorem HexGroups.isHexSegment {segments : List (List Char)} {groups : List ℕ} (h : HexGroups segments groups) :
    ∀ segment ∈ segments, isHexSegment segment = true := by
  induction h with
  | nil => nofun
  | cons hgroup _ ih => exact List.forall_mem_cons.2 ⟨(hexGroup_eq_some_iff.1 hgroup).1, ih⟩

/-- Segments leave a host as it is. -/
theorem embedIpv4_of_hexGroups {host : List Char} {front segments : List (List Char)} {groups : List ℕ}
    (hsplit : split [':'] host = front ++ segments) (hne : segments ≠ []) (hhex : HexGroups segments groups) :
    embedIpv4 host = host := by
  obtain ⟨init, last, rfl⟩ : ∃ init last, segments = init ++ [last] :=
    ⟨_, _, (List.dropLast_concat_getLast hne).symm⟩
  rw [← List.append_assoc] at hsplit
  refine embedIpv4_of_not_dotted hsplit (isDotted_eq_false_of_isHexSegment ?_)
  exact HexGroups.isHexSegment hhex last (List.mem_append_right _ (List.mem_singleton_self last))

/-- **A dotted end** is read as two groups behind the segments of its part. -/
theorem split_embedIpv4 {address part dotted : List Char} {init front segments : List (List Char)} {a b c d : ℕ}
    {groups : List ℕ} (hpart : split [':', ':'] address = init ++ [part]) (hquad : DottedQuad dotted a b c d)
    (hsegments : split [':'] part = segments ++ [dotted]) (hhex : HexGroups segments groups)
    (haddress : split [':'] address = front ++ [dotted]) (hfront : front ≠ []) (hfront' : front ≠ [[]]) :
    ∃ part', split [':', ':'] (embedIpv4 address) = init ++ [part'] ∧
      Reads (pieces part') (groups ++ [a * 256 + b, c * 256 + d]) := by
  obtain ⟨before, rfl, hbefore⟩ := exists_before haddress hfront
  have hbeforene : before ≠ [] := by
    rintro rfl
    exact hfront' hbefore.symm
  obtain ⟨-, ha, hb, hc, hd⟩ := hquad.ipv4ToNumber
  have hcolon : ':' ∉ dotted := hquad.not_mem (by decide) (by decide)
  have hne : dotted ≠ [] := by
    rintro rfl
    exact absurd hquad.isDotted (by decide)
  have htext {group : ℕ} (hgroup : group < 2 ^ 16) : ':' ∉ hexText group ∧ hexText group ≠ [] := by
    obtain ⟨hsegment, -⟩ := hexGroup_eq_some_iff.1 (hexGroup_hexText hgroup)
    exact ⟨not_mem_of_isHexSegment hsegment (by decide), List.length_pos_iff.1 (isHexSegment_iff.1 hsegment).1⟩
  obtain ⟨hhighlt, hlowlt⟩ : a * 256 + b < 2 ^ 16 ∧ c * 256 + d < 2 ^ 16 := by omega
  obtain ⟨hhigh, hhighne⟩ := htext hhighlt
  obtain ⟨hlow, hlowne⟩ := htext hlowlt
  obtain ⟨init', last, hsplit, hswap, hpieces⟩ := 
    @split_swap before _ _ _ hcolon hne hhigh hhighne hlow hlowne
  rw [hsplit] at hpart
  obtain ⟨rfl, hlast⟩ := List.append_inj' hpart rfl
  obtain rfl : last ++ dotted = part := List.singleton_injective hlast
  refine ⟨_, (congrArg _ (embedIpv4_dotted hbeforene hquad)).trans hswap, ?_⟩
  have hpart' : last ++ (hexText (a * 256 + b) ++ ':' :: hexText (c * 256 + d)) ≠ [] := by
    rw [← List.append_assoc]
    exact List.append_ne_nil_of_right_ne_nil _ (List.cons_ne_nil _ _)
  rw [pieces, if_neg hpart', hpieces _ hsegments]
  exact List.rel_append (reads_of_hexGroups hhex)
    (reads_of_hexGroups (.cons (hexGroup_hexText hhighlt) (.cons (hexGroup_hexText hlowlt) .nil)))

/-- **An address without a zone** is read as its groups. -/
theorem expandHost_of_groups {address : List Char} (h : ipv6Groups address = some groups) :
    expandHost address = some groups := by
  unfold ipv6Groups at h
  split at h
  · next whole hsplit =>
    obtain rfl : whole = address := by
      rw [← intercalate_split (List.cons_ne_nil ':' [':']) address, hsplit, List.intercalate_singleton]
    obtain ⟨hgroups, hlength⟩ := Option.filter_eq_some_iff.1 h
    have hlength : groups.length = 8 := of_decide_eq_true hlength
    have hne : whole ≠ [] := by
      rintro rfl
      obtain rfl := Option.some.inj hgroups
      cases hlength
    have hpieces : pieces whole = split [':'] whole := if_neg hne
    rw [hpieces] at hgroups
    obtain hhex | ⟨segments, dotted, a, b, c, d, front, hparts, hquad, hfront, rfl⟩ := groupsOf_cases hgroups
    · have hembed := @embedIpv4_of_hexGroups _ [] _ _ rfl (List.cons_ne_nil _ _) hhex
      rw [expandHost, hembed, hsplit]
      dsimp only
      rw [hpieces]
      exact readParts_whole (reads_of_hexGroups hhex) hlength
    · have hfrontlen := List.Forall₂.length_eq hfront
      rw [List.length_append] at hlength
      have hsix : segments.length = 6 := hfrontlen.trans (Nat.add_right_cancel hlength)
      obtain ⟨part, hpart, hreads⟩ := @split_embedIpv4 _ _ _ [] _ _ _ _ _ _ _ hsplit hquad hparts hfront hparts
        (by rintro rfl; cases hsix) (by rintro rfl; cases hsix)
      rw [expandHost, hpart]
      exact readParts_whole hreads (by rw [List.length_append]; exact hlength)
  · next left right hsplit =>
    obtain ⟨l, hl, h⟩ := Option.bind_eq_some_iff.1 h
    obtain ⟨r, hr, h⟩ := Option.bind_eq_some_iff.1 h
    split at h
    · next hcount =>
      obtain rfl := Option.some.inj h
      have hleft : HexGroups (pieces left) l := mapM_eq_some_iff.1 hl
      have haddress : address = left ++ ':' :: ':' :: right := by
        rw [← intercalate_split (List.cons_ne_nil ':' [':']) address, hsplit]
        simp [List.intercalate]
      have hcolons : split [':'] address = (split [':'] left ++ [[]]) ++ split [':'] right := by
        rw [haddress, split_singleton_append, split_singleton_cons_self, List.append_assoc]
        rfl
      obtain hhex | ⟨segments, dotted, a, b, c, d, front, hparts, hquad, hfront, rfl⟩ := groupsOf_cases hr
      · have hembed : embedIpv4 address = address := by
          by_cases hright : right = []
          · rw [hright] at hcolons
            exact embedIpv4_of_not_dotted hcolons (by decide)
          · rw [pieces, if_neg hright] at hhex
            exact embedIpv4_of_hexGroups hcolons (List.cons_ne_nil _ _) hhex
        rw [expandHost, hembed, hsplit]
        exact readParts_compressed (reads_of_hexGroups hleft) (reads_of_hexGroups hhex) (by omega)
      · have hright : right ≠ [] := by
          rintro rfl
          exact absurd hparts (by simp [pieces])
        rw [pieces, if_neg hright] at hparts
        rw [hparts, ← List.append_assoc] at hcolons
        have hlong : 2 ≤ (split [':'] left ++ [[]] ++ segments).length := by
          rw [List.length_append, List.length_append, split, List.length_cons, List.length_singleton]
          omega
        obtain ⟨part, hpart, hreads⟩ := @split_embedIpv4 _ _ _ [left] _ _ _ _ _ _ _ hsplit hquad hparts hfront hcolons
          (by intro h; rw [h] at hlong; cases hlong) (by intro h; rw [h] at hlong; cases hlong; contradiction)
        rw [expandHost, hpart]
        exact readParts_compressed (reads_of_hexGroups hleft) hreads (by omega)
    · cases h
  · cases h

end WebFetch
