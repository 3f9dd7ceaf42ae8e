import NexusPilot.WebFetch.Zone

/-!
# Blocking by value

Whether an address is blocked depends on what it denotes, not on how it is spelled, except for the pieces of a zone that
are misread. **`blocksByValue_iff`** says that these are the only way to miss a listed address.

Upper and lower case denote the same (`denotes_lower`), and brackets are left out before anything is read.
-/

namespace WebFetch

open Text Machine

/-! ### Upper case -/

theorem toLower_cases (c : Char) :
    (65 ≤ c.toNat ∧ c.toNat ≤ 90 ∧ c.toLower.toNat = c.toNat + 32) ∨
      ((c.toNat < 65 ∨ 90 < c.toNat) ∧ c.toLower = c) := by
  have hval : c.toNat = c.val.toNat := rfl
  unfold Char.toLower
  split
  · next h =>
    simp only [ge_iff_le, UInt32.le_iff_toNat_le] at h
    have hA : 'A'.val.toNat = 65 := rfl
    have hZ : 'Z'.val.toNat = 90 := rfl
    refine Or.inl ⟨by omega, by omega, ?_⟩
    show (c.val + ('a'.val - 'A'.val)).toNat = _
    rw [UInt32.toNat_add]
    have hdiff : ('a'.val - 'A'.val).toNat = 32 := rfl
    omega
  · next h =>
    simp only [ge_iff_le, UInt32.le_iff_toNat_le, not_and_or, not_le] at h
    have hA : 'A'.val.toNat = 65 := rfl
    have hZ : 'Z'.val.toNat = 90 := rfl
    exact Or.inr ⟨by omega, rfl⟩

variable {c : Char} {s text hostname host : List Char} {d a b n : ℕ} {groups : List ℕ}
  {address : Address}

/-- A character that is no letter is the lower case of itself only. -/
theorem toLower_eq_iff {d : Char} (hd : d.toNat < 65 ∨ (90 < d.toNat ∧ d.toNat < 97) ∨ 122 < d.toNat) :
    c.toLower = d ↔ c = d := by
  obtain ⟨hlow, hhigh, hlower⟩ | ⟨-, hsame⟩ := toLower_cases c
  · refine iff_of_false ?_ ?_
    · rintro rfl
      omega
    · rintro rfl
      omega
  · rw [hsame]

theorem isDigit_iff (c : Char) : c.isDigit = true ↔ 48 ≤ c.toNat ∧ c.toNat ≤ 57 := by
  rw [Char.isDigit, Bool.and_eq_true, decide_eq_true_iff, decide_eq_true_iff]
  rfl

theorem digitValue?_toLower (c : Char) : digitValue? c.toLower = digitValue? c := by
  obtain ⟨hlow, hhigh, hlower⟩ | ⟨-, hsame⟩ := toLower_cases c
  · have hdigit : ¬ c.isDigit = true := by
      rw [isDigit_iff]
      omega
    have hdigit' : ¬ c.toLower.isDigit = true := by
      rw [isDigit_iff]
      omega
    have hsmall : ¬ (97 ≤ c.toNat ∧ c.toNat ≤ 102) := by omega
    unfold digitValue?
    rw [if_neg hdigit, if_neg hdigit', if_neg hsmall, hlower]
    by_cases hhex : c.toNat ≤ 70
    · rw [if_pos (by omega), if_pos (by omega)]
      congr 1
    · rw [if_neg (by omega), if_neg (by omega), if_neg (by omega)]
  · rw [hsame]

/-- The lower case of a text. -/
abbrev lower (s : List Char) : List Char :=
  s.map Char.toLower

theorem split_lower {separator : List Char}
    (hseparator : ∀ d ∈ separator, d.toNat < 65 ∨ (90 < d.toNat ∧ d.toNat < 97) ∨ 122 < d.toNat) (s : List Char) :
    split separator (lower s) = (split separator s).map lower :=
  split_map (fun _ d hd ↦ toLower_eq_iff (hseparator d hd)) s

theorem isDigitOf_toLower (radix : ℕ) (c : Char) : isDigitOf radix c.toLower = isDigitOf radix c := by
  rw [isDigitOf, isDigitOf, digitValue?_toLower]

theorem digitsValue_lower (radix : ℕ) (s : List Char) : digitsValue radix (lower s) = digitsValue radix s := by
  rw [digitsValue, digitsValue, List.foldl_map]
  simp only [digitValue?_toLower]

theorem forall_mem_lower {p : Char → Prop} (hp : ∀ c, p c.toLower ↔ p c) :
    (∀ c ∈ lower s, p c) ↔ ∀ c ∈ s, p c := by
  rw [List.forall_mem_map]
  exact forall₂_congr fun c _ ↦ hp c

theorem isV4Segment_lower (s : List Char) : isV4Segment (lower s) = isV4Segment s := by
  rw [Bool.eq_iff_iff, isV4Segment_iff, isV4Segment_iff, digitsValue_lower, List.length_map, List.head?_map,
    forall_mem_lower fun c ↦ by rw [isDigitOf_toLower], ne_eq, List.map_eq_nil_iff]
  refine and_congr_right' (and_congr_right' (and_congr_left' (or_congr_right ?_)))
  rw [ne_eq, ne_eq, not_iff_not, Option.map_eq_some_iff]
  constructor
  · rintro ⟨c, hc, hlower⟩
    rw [hc, (toLower_eq_iff (by decide)).1 hlower]
  · intro h
    exact ⟨'0', h, rfl⟩

theorem isHexSegment_lower (s : List Char) : isHexSegment (lower s) = isHexSegment s := by
  rw [Bool.eq_iff_iff, isHexSegment_iff, isHexSegment_iff, List.length_map,
    forall_mem_lower fun c ↦ by rw [isDigitOf_toLower]]

theorem ipv4Segments_lower (s : List Char) : ipv4Segments (lower s) = ipv4Segments s := by
  unfold ipv4Segments
  rw [split_lower (by decide)]
  match split ['.'] s with
  | [] => rfl
  | [_] => rfl
  | [_, _] => rfl
  | [_, _, _] => rfl
  | [a, b, c, d] => simp only [List.map_cons, List.map_nil, isV4Segment_lower, digitsValue_lower]
  | _ :: _ :: _ :: _ :: _ :: _ => rfl

theorem hexGroup_lower (s : List Char) : hexGroup (lower s) = hexGroup s := by
  rw [hexGroup, hexGroup, isHexSegment_lower, digitsValue_lower]

theorem pieces_lower (s : List Char) : pieces (lower s) = (pieces s).map lower := by
  unfold pieces
  rw [split_lower (by decide)]
  split
  · next h =>
    rw [if_pos (List.map_eq_nil_iff.1 h)]
    rfl
  · next h => rw [if_neg fun hnil ↦ h (List.map_eq_nil_iff.2 hnil)]

theorem groupsOf_lower (parts : List (List Char)) : groupsOf (parts.map lower) = groupsOf parts := by
  fun_induction groupsOf parts with
  | case1 => rfl
  | case2 piece a b c d hquad =>
    rw [List.map_singleton, groupsOf, ipv4Segments_lower, hquad]
  | case3 piece hquad =>
    rw [List.map_singleton, groupsOf, ipv4Segments_lower, hquad]
    dsimp only
    rw [hexGroup_lower]
  | case4 piece others hothers ih =>
    cases others with
    | nil => exact absurd rfl hothers
    | cons second others =>
      rw [List.map_cons, List.map_cons, groupsOf, hexGroup_lower, ← List.map_cons, ih]
      exact nofun

theorem ipv6Groups_lower (address : List Char) : ipv6Groups (lower address) = ipv6Groups address := by
  unfold ipv6Groups
  rw [split_lower (by decide)]
  have hgroup : hexGroup ∘ lower = hexGroup := funext hexGroup_lower
  match split [':', ':'] address with
  | [] => rfl
  | [whole] => simp only [List.map_cons, List.map_nil, pieces_lower, groupsOf_lower]
  | [left, right] => simp only [List.map_cons, List.map_nil, pieces_lower, groupsOf_lower, List.mapM_map, hgroup]
  | _ :: _ :: _ :: _ => rfl

theorem percent_toLower (c : Char) : decide (c.toLower ≠ '%') = decide (c ≠ '%') :=
  decide_eq_decide.2 (not_congr (toLower_eq_iff (by decide)))

theorem addressPart_lower (s : List Char) : addressPart (lower s) = lower (addressPart s) := by
  rw [addressPart, addressPart, List.takeWhile_map]
  exact congrArg (fun p ↦ lower (s.takeWhile p)) (funext percent_toLower)

theorem zone?_lower (s : List Char) : zone? (lower s) = (zone? s).map lower := by
  have hdrop : (lower s).dropWhile (· ≠ '%') = lower (s.dropWhile (· ≠ '%')) := by
    rw [List.dropWhile_map]
    exact congrArg (fun p ↦ lower (s.dropWhile p)) (funext percent_toLower)
  rw [zone?, zone?, hdrop]
  cases s.dropWhile (· ≠ '%') with
  | nil => rfl
  | cons _ _ => rfl

theorem isZone_iff :
    isZone s = true ↔ s ≠ [] ∧ ∀ c ∈ s, c.isAlphanum = true ∨ c = '-' ∨ c = '.' ∨ c = ':' :=
  decide_eq_true_iff

theorem isAlphanum_iff (c : Char) :
    c.isAlphanum = true ↔
      (65 ≤ c.toNat ∧ c.toNat ≤ 90) ∨ (97 ≤ c.toNat ∧ c.toNat ≤ 122) ∨ (48 ≤ c.toNat ∧ c.toNat ≤ 57) := by
  rw [Char.isAlphanum, Bool.or_eq_true, isDigit_iff, or_assoc.symm]
  unfold Char.isAlpha Char.isUpper Char.isLower
  rw [Bool.or_eq_true, decide_eq_true_iff, Bool.and_eq_true, decide_eq_true_iff, decide_eq_true_iff]
  rfl

theorem isAlphanum_toLower (c : Char) : c.toLower.isAlphanum = c.isAlphanum := by
  rw [Bool.eq_iff_iff, isAlphanum_iff, isAlphanum_iff]
  obtain ⟨hlow, hhigh, hlower⟩ | ⟨-, hsame⟩ := toLower_cases c
  · omega
  · rw [hsame]

theorem isZone_lower (s : List Char) : isZone (lower s) = isZone s := by
  rw [Bool.eq_iff_iff, isZone_iff, isZone_iff, ne_eq, List.map_eq_nil_iff, forall_mem_lower fun c ↦ by
    rw [isAlphanum_toLower, toLower_eq_iff (by decide), toLower_eq_iff (by decide), toLower_eq_iff (by decide)]]

theorem ipv6Value_lower (s : List Char) : ipv6Value (lower s) = ipv6Value s := by
  have hzone : ((zone? s).map lower).all isZone = (zone? s).all isZone := by
    match zone? s with
    | none => rfl
    | some zone => exact isZone_lower zone
  rw [ipv6Value, ipv6Value, zone?_lower, addressPart_lower, ipv6Groups_lower, hzone]

/-- **Upper and lower case** denote the same. -/
theorem denotes_lower (s : List Char) : denotes (lower s) = denotes s := by
  rw [denotes, denotes, ipv4Segments_lower, ipv6Value_lower]

/-! ### Hosts -/

theorem not_mem_of_pieces (hcolon : c ≠ ':') (h : ∀ piece ∈ pieces s, c ∉ piece) :
    c ∉ s := by
  intro hmem
  have hne : s ≠ [] := List.ne_nil_of_mem hmem
  rw [pieces, if_neg hne] at h
  obtain hsep | ⟨piece, hpiece, hmem⟩ := mem_separator_or_mem_split (List.cons_ne_nil ':' []) hmem
  · exact hcolon (List.mem_singleton.1 hsep)
  · exact h piece hpiece hmem

/-- A character that is no digit and no separator. -/
structure Foreign (c : Char) : Prop where
  digit : isDigitOf 16 c = false
  colon : c ≠ ':'
  dot : c ≠ '.'

theorem Foreign.not_mem_hex (hc : Foreign c) {segment : List Char} (h : isHexSegment segment = true) :
    c ∉ segment := by
  intro hmem
  have hdigit := hc.digit
  rw [(isHexSegment_iff.1 h).2.2 c hmem] at hdigit
  cases hdigit

theorem Foreign.not_mem_quad {x : Char} (hx : Foreign x) {c : ℕ} (h : DottedQuad s a b c d) :
    x ∉ s := by
  have hdecimal : isDigitOf 10 x = false := by
    have hdigit := hx.digit
    unfold isDigitOf at hdigit ⊢
    cases hvalue : digitValue? x with
    | none => rfl
    | some v =>
      rw [hvalue] at hdigit
      have hlarge : ¬ v < 16 := of_decide_eq_false hdigit
      exact decide_eq_false (show ¬ v < 10 by omega)
  intro hmem
  have hdotted := isDotted_eq_false_of_mem hmem hx.dot hdecimal
  rw [h.isDotted] at hdotted
  cases hdotted

theorem Foreign.not_mem_groupsOf (hc : Foreign c) (h : groupsOf (pieces s) = some groups) : c ∉ s := by
  refine not_mem_of_pieces hc.colon fun piece hpiece ↦ ?_
  obtain hhex | ⟨segments, dotted, _, _, _, _, front, hparts, hquad, hfront, -⟩ := groupsOf_cases h
  · exact hc.not_mem_hex (hhex.isHexSegment piece hpiece)
  · rw [hparts] at hpiece
    obtain hpiece | hpiece := List.mem_append.1 hpiece
    · exact hc.not_mem_hex (hfront.isHexSegment piece hpiece)
    · rw [List.mem_singleton.1 hpiece]
      exact hc.not_mem_quad hquad

theorem Foreign.not_mem_ipv6Groups (hc : Foreign c) {address : List Char}
    (h : ipv6Groups address = some groups) : c ∉ address := by
  intro hmem
  have hseparator : c ∉ [':', ':'] := by
    simp only [List.mem_cons, List.not_mem_nil, or_false, or_self]
    exact hc.colon
  obtain hsep | ⟨part, hpart, hmem⟩ := mem_separator_or_mem_split (List.cons_ne_nil ':' [':']) hmem
  · exact hseparator hsep
  · unfold ipv6Groups at h
    split at h
    · next whole hsplit =>
      rw [hsplit] at hpart
      obtain rfl := List.mem_singleton.1 hpart
      exact hc.not_mem_groupsOf (Option.filter_eq_some_iff.1 h).1 hmem
    · next left right hsplit =>
      rw [hsplit] at hpart
      obtain ⟨l, hl, h⟩ := Option.bind_eq_some_iff.1 h
      obtain ⟨r, hr, -⟩ := Option.bind_eq_some_iff.1 h
      have hleft : HexGroups (pieces left) l := mapM_eq_some_iff.1 hl
      obtain rfl | hpart := List.mem_cons.1 hpart
      · exact not_mem_of_pieces hc.colon (fun piece hpiece ↦ hc.not_mem_hex (hleft.isHexSegment piece hpiece)) hmem
      · obtain rfl := List.mem_singleton.1 hpart
        exact hc.not_mem_groupsOf hr hmem
    · cases h

/-- What a text says that denotes an address. -/
inductive Denotes : List Char → Address → Prop
  | ipv4 {text : List Char} {a b c d : ℕ} (hquad : DottedQuad text a b c d) :
      Denotes text (.ipv4 (((a * 256 + b) * 256 + c) * 256 + d))
  | ipv6 {text : List Char} {groups : List ℕ} (hgroups : ipv6Groups text = some groups) :
      Denotes text (.ipv6 (addressValue groups))
  | zone {text zone : List Char} {groups : List ℕ} (hgroups : ipv6Groups text = some groups)
      (hzone : isZone zone = true) : Denotes (text ++ '%' :: zone) (.ipv6 (addressValue groups))

theorem Denotes.of_denotes (h : denotes text = some address) :
    Denotes text address := by
  unfold denotes at h
  split at h
  · next a b c d hquad =>
    obtain rfl := Option.some.inj h
    exact .ipv4 (ipv4Segments_eq_some_iff.1 hquad)
  · obtain ⟨groups, hgroups, rfl⟩ := Option.map_eq_some_iff.1 h
    unfold ipv6Value at hgroups
    split at hgroups
    · next hzone =>
      have htext : addressPart text ++ text.dropWhile (· ≠ '%') = text := List.takeWhile_append_dropWhile
      unfold zone? at hzone
      cases hrest : text.dropWhile (· ≠ '%') with
      | nil =>
        rw [hrest, List.append_nil] at htext
        rw [htext] at hgroups
        exact .ipv6 hgroups
      | cons c zone =>
        have hpercent : c = '%' := by
          have hhead := List.head?_dropWhile_not (fun c ↦ decide (c ≠ '%')) text
          rw [hrest] at hhead
          exact not_not.1 (of_decide_eq_false hhead)
        rw [hrest] at hzone htext
        rw [hpercent] at htext
        rw [← htext]
        exact .zone hgroups hzone
    · cases hgroups

/-- There are no brackets in a text that denotes an address. -/
theorem not_mem_of_denotes (h : denotes text = some address) (hc : c = '[' ∨ c = ']') : c ∉ text := by
  have hforeign : Foreign c := by
    obtain rfl | rfl := hc <;> exact ⟨by decide, by decide, by decide⟩
  cases Denotes.of_denotes h with
  | ipv4 hquad => exact hforeign.not_mem_quad hquad
  | ipv6 hgroups => exact hforeign.not_mem_ipv6Groups hgroups
  | zone hgroups hzone =>
    intro hmem
    obtain hmem | hmem := List.mem_append.1 hmem
    · exact hforeign.not_mem_ipv6Groups hgroups hmem
    · obtain rfl | hmem := List.mem_cons.1 hmem
      · obtain h | h := hc <;> cases h
      · have hchar := (isZone_iff.1 hzone).2 c hmem
        obtain rfl | rfl := hc <;> revert hchar <;> decide

/-- A host name that is written with the text of an address. -/
def Writes (hostname text : List Char) : Prop :=
  hostname = text ∨ hostname = '[' :: (text ++ [']'])

theorem normalizeHostname_of_writes (h : Writes hostname text) (haddress : denotes text = some address) :
    normalizeHostname hostname = lower text := by
  have hopen : '[' ∉ lower text := by
    intro hmem
    obtain ⟨c, hc, heq⟩ := List.mem_map.1 hmem
    obtain rfl := (toLower_eq_iff (by decide)).1 heq
    exact not_mem_of_denotes haddress (Or.inl rfl) hc
  have hclose : ']' ∉ lower text := by
    intro hmem
    obtain ⟨c, hc, heq⟩ := List.mem_map.1 hmem
    obtain rfl := (toLower_eq_iff (by decide)).1 heq
    exact not_mem_of_denotes haddress (Or.inr rfl) hc
  obtain rfl | rfl := h
  · have hhead : (lower hostname).head? ≠ some '[' := fun h ↦ hopen (List.mem_of_mem_head? h)
    have hlast : (lower hostname).getLast? ≠ some ']' := fun h ↦ hclose (List.mem_of_getLast? h)
    unfold normalizeHostname
    dsimp only
    rw [if_neg hhead, if_neg hlast]
  · have hlower : ('[' :: (text ++ [']'])).map Char.toLower = '[' :: (lower text ++ [']']) := by
      rw [List.map_cons, List.map_append]
      rfl
    have hhead : ('[' :: (lower text ++ [']'])).head? = some '[' := rfl
    unfold normalizeHostname
    rw [hlower]
    dsimp only
    rw [if_pos hhead, List.tail_cons, if_pos (List.getLast?_concat), List.dropLast_concat]

/-! ### Mapped addresses -/

theorem toDigits_octet (h : n < 256) :
    isV4Segment (Nat.toDigits 10 n) = true ∧ digitsValue 10 (Nat.toDigits 10 n) = n := by
  have hall : (List.range 256).all fun n ↦
      isV4Segment (Nat.toDigits 10 n) = true ∧ digitsValue 10 (Nat.toDigits 10 n) = n := by decide +kernel
  exact of_decide_eq_true (List.all_eq_true.1 hall n (List.mem_range.2 h))

/-- Four numbers with dots between them. -/
theorem dottedQuad_intercalate {c : ℕ} (ha : a < 256) (hb : b < 256) (hc : c < 256) (hd : d < 256) :
    DottedQuad (List.intercalate ['.'] ([a, b, c, d].map (Nat.toDigits 10))) a b c d := by
  have hdot {n : ℕ} (hn : n < 256) : '.' ∉ Nat.toDigits 10 n := by
    intro hmem
    have hrange := range_of_isDecimal ((isV4Segment_iff.1 (toDigits_octet hn).1).2.1 '.' hmem)
    exact absurd hrange (by decide)
  refine ⟨Nat.toDigits 10 a, Nat.toDigits 10 b, Nat.toDigits 10 c, Nat.toDigits 10 d, ?_, (toDigits_octet ha).1,
    (toDigits_octet hb).1, (toDigits_octet hc).1, (toDigits_octet hd).1, (toDigits_octet ha).2, (toDigits_octet hb).2,
    (toDigits_octet hc).2, (toDigits_octet hd).2⟩
  have htext : List.intercalate ['.'] ([a, b, c, d].map (Nat.toDigits 10)) =
      Nat.toDigits 10 a ++ '.' :: (Nat.toDigits 10 b ++ '.' :: (Nat.toDigits 10 c ++ '.' :: Nat.toDigits 10 d)) := by
    simp [List.intercalate]
  rw [htext, split_singleton_append, split_singleton_append, split_singleton_append,
    split_singleton_of_not_mem (hdot ha), split_singleton_of_not_mem (hdot hb), split_singleton_of_not_mem (hdot hc),
    split_singleton_of_not_mem (hdot hd)]
  rfl

/-- What stands behind `::ffff:`. -/
theorem ipv6Groups_mapped {behind : List Char} (hne : behind ≠ []) (hhead : behind.head? ≠ some ':')
    (hbehind : split [':', ':'] behind = [behind]) (h : ipv6Groups ("::ffff:".toList ++ behind) = some groups) :
    ∃ rest, groupsOf (split [':'] behind) = some rest ∧
      groups = List.replicate (7 - rest.length) 0 ++ 0xffff :: rest := by
  have htail : split [':', ':'] ("ffff:".toList ++ behind) = ["ffff:".toList ++ behind] :=
    @split_double_append "ffff:".toList behind [] _ (by decide) hne hhead hbehind
  have hsplit : split [':', ':'] ("::ffff:".toList ++ behind) = [[], "ffff:".toList ++ behind] := by
    rw [← htail]
    exact split_separator_append (List.cons_ne_nil _ _) _
  have hpieces : pieces ("ffff:".toList ++ behind) = "ffff".toList :: split [':'] behind := by
    rw [pieces, if_neg (List.append_ne_nil_of_left_ne_nil (by decide) _)]
    exact split_singleton_append "ffff".toList behind
  rw [ipv6Groups, hsplit] at h
  dsimp only at h
  rw [hpieces] at h
  obtain ⟨l, hl, h⟩ := Option.bind_eq_some_iff.1 h
  obtain rfl := Option.some.inj hl
  obtain ⟨r, hr, h⟩ := Option.bind_eq_some_iff.1 h
  have hcons : groupsOf ("ffff".toList :: split [':'] behind) =
      (hexGroup "ffff".toList).bind fun group ↦ (groupsOf (split [':'] behind)).map (group :: ·) := by
    rw [split, groupsOf]
    rintro ⟨⟩
  rw [hcons, show hexGroup "ffff".toList = some 0xffff by decide] at hr
  obtain ⟨rest, hrest, rfl⟩ := Option.map_eq_some_iff.1 hr
  split at h
  · obtain rfl := Option.some.inj h
    refine ⟨rest, hrest, ?_⟩
    show [] ++ List.replicate (8 - 0 - (rest.length + 1)) 0 ++ 0xffff :: rest = _
    rw [Nat.sub_zero, Nat.succ_sub_succ]
    rfl
  · cases h

theorem not_mem_colon_of_isDotted (h : isDotted s = true) : ':' ∉ s := by
  intro hmem
  rw [isDotted_eq_false_of_mem hmem (by decide) (by decide)] at h
  cases h

theorem groupsOf_pair {high low : List Char} (hhigh : isHexSegment high = true) (hlow : isHexSegment low = true) :
    groupsOf [high, low] = some [digitsValue 16 high, digitsValue 16 low] := by
  have hsegments : ipv4Segments low = none := by
    match h : ipv4Segments low with
    | none => rfl
    | some (a, b, c, d) =>
      have hdotted := (ipv4Segments_eq_some_iff.1 h).isDotted
      rw [isDotted_eq_false_of_isHexSegment hlow] at hdotted
      cases hdotted
  rw [groupsOf, groupsOf, hsegments]
  · dsimp only
    rw [hexGroup_eq_some_iff.2 ⟨hhigh, rfl⟩, hexGroup_eq_some_iff.2 ⟨hlow, rfl⟩]
    rfl
  · exact nofun

/-- **What a mapped address embeds.** -/
theorem mapped_spec {mapped : List Char} (hlower : lower host = host)
    (hmapped : parseIpv4MappedIpv6 host = some mapped) (hgroups : ipv6Groups host = some groups) :
    ∃ a b c d, DottedQuad mapped a b c d ∧ groups = [0, 0, 0, 0, 0, 0xffff, a * 256 + b, c * 256 + d] := by
  have hhost {tail : List Char} (h : "::ffff:".toList <+: tail) :
      tail = "::ffff:".toList ++ tail.drop "::ffff:".toList.length := by
    obtain ⟨behind, rfl⟩ := h
    rw [List.drop_left]
  unfold parseIpv4MappedIpv6 at hmapped
  dsimp only at hmapped
  rw [show host.map Char.toLower = host from hlower] at hmapped
  split at hmapped
  · next h =>
    obtain ⟨hstart, hdotted⟩ := h
    obtain rfl := Option.some.inj hmapped
    rw [hhost hstart] at hgroups
    generalize host.drop "::ffff:".toList.length = mapped at hdotted hgroups ⊢
    have hcolon := not_mem_colon_of_isDotted hdotted
    have hne : mapped ≠ [] := by
      rintro rfl
      exact absurd hdotted (by decide)
    obtain ⟨rest, hrest, rfl⟩ :=
      ipv6Groups_mapped hne (head?_ne_colon hcolon) (split_double_of_not_mem hcolon) hgroups
    rw [split_singleton_of_not_mem hcolon, groupsOf] at hrest
    split at hrest
    · next a b c d hquad =>
      obtain rfl := Option.some.inj hrest
      exact ⟨a, b, c, d, ipv4Segments_eq_some_iff.1 hquad, rfl⟩
    · obtain ⟨group, hgroup, -⟩ := Option.map_eq_some_iff.1 hrest
      rw [isDotted_eq_false_of_isHexSegment (hexGroup_eq_some_iff.1 hgroup).1] at hdotted
      cases hdotted
  · split at hmapped
    · next hstart =>
      rw [hhost hstart] at hgroups
      generalize host.drop "::ffff:".toList.length = behind at hmapped hgroups
      split at hmapped
      · next high low hsplit =>
        split at hmapped
        · next hsegments =>
          obtain rfl := Option.some.inj hmapped
          obtain ⟨hhigh, hlow⟩ := hsegments
          have hbehind : behind = high ++ ':' :: low := by
            rw [← intercalate_split (List.cons_ne_nil ':' []) behind, hsplit]
            simp [List.intercalate]
          have hhighcolon : ':' ∉ high := not_mem_of_isHexSegment hhigh (by decide)
          have hlowcolon : ':' ∉ low := not_mem_of_isHexSegment hlow (by decide)
          have hhighne : high ≠ [] := List.length_pos_iff.1 (isHexSegment_iff.1 hhigh).1
          have hlowne : low ≠ [] := List.length_pos_iff.1 (isHexSegment_iff.1 hlow).1
          have hhead : behind.head? ≠ some ':' := by
            rw [hbehind, List.head?_append_of_ne_nil _ hhighne]
            exact head?_ne_colon hhighcolon
          have hdouble : split [':', ':'] behind = [behind] := by
            rw [hbehind]
            exact split_double_pair hlowne hhighcolon hlowcolon
          have hne : behind ≠ [] := by
            rw [hbehind]
            exact List.append_ne_nil_of_left_ne_nil hhighne _
          obtain ⟨rest, hrest, rfl⟩ := ipv6Groups_mapped hne hhead hdouble hgroups
          rw [hsplit, groupsOf_pair hhigh hlow] at hrest
          obtain rfl := Option.some.inj hrest
          have hhighlt := (@parseInt_zone high [] _ (hexGroup_eq_some_iff.2 ⟨hhigh, rfl⟩)).2
          have hlowlt := (@parseInt_zone low [] _ (hexGroup_eq_some_iff.2 ⟨hlow, rfl⟩)).2
          refine ⟨_, _, _, _, dottedQuad_intercalate (Nat.mod_lt _ (by decide)) (Nat.mod_lt _ (by decide))
            (Nat.mod_lt _ (by decide)) (Nat.mod_lt _ (by decide)), ?_⟩
          show [0, 0, 0, 0, 0, 0xffff, digitsValue 16 high, digitsValue 16 low] = _
          generalize digitsValue 16 high = x at *
          generalize digitsValue 16 low = y at *
          obtain ⟨hx, hy⟩ : x = x / 256 % 256 * 256 + x % 256 ∧ y = y / 256 % 256 * 256 + y % 256 := by omega
          rw [← hx, ← hy]
        · cases hmapped
      · cases hmapped
    · cases hmapped

/-! ### Blocking -/

theorem foreign_t : Foreign 't' :=
  ⟨by decide, by decide, by decide⟩

/-- A host without a `t` is not local. -/
theorem not_localhost (h : 't' ∉ host) :
    ¬ (host = "localhost".toList ∨ ".localhost".toList <:+ host) := by
  rintro (rfl | hsuffix)
  · exact h (by decide)
  · exact h (hsuffix.subset (by decide))

/-- **An IPv4 address** is blocked if it is listed. -/
theorem DottedQuad.isBlockedWith_iff {c : ℕ} (h : DottedQuad host a b c d)
    (hnormal : normalizeHostname host = host) (isBlockedIpv6 : List Char → Bool) :
    isBlockedWith isBlockedIpv6 host = true ↔ ListedIpv4 (((a * 256 + b) * 256 + c) * 256 + d) := by
  have hip : isIP host = 4 := by
    rw [isIP, ipv4Segments_eq_some_iff.2 h]
    rfl
  obtain ⟨hnumber, -⟩ := h.ipv4ToNumber
  unfold isBlockedWith
  dsimp only
  rw [hnormal, if_neg (not_localhost (foreign_t.not_mem_quad h)), hip, if_neg (by simp), if_neg (by decide),
    if_neg (by decide), blockedIpv4_iff, hnumber]

theorem DottedQuad.normalizeHostname {s : List Char} {a b c d : ℕ} (h : DottedQuad s a b c d) :
    normalizeHostname s = s := by
  have hdenotes : denotes s = some (.ipv4 (((a * 256 + b) * 256 + c) * 256 + d)) := by
    rw [denotes, ipv4Segments_eq_some_iff.2 h]
  rw [normalizeHostname_of_writes (Or.inl rfl) hdenotes]
  refine (List.map_congr_left fun x hx ↦ ?_).trans (List.map_id s)
  obtain ⟨hlow, -, -⟩ | ⟨-, hsame⟩ := toLower_cases x
  · refine absurd hx (h.not_mem ?_ (by omega))
    rintro rfl
    exact absurd hlow (by decide)
  · exact hsame

/-- No mapped address has a zone. -/
theorem parseIpv4MappedIpv6_eq_none (hlower : lower host = host) (hpercent : '%' ∈ host) :
    parseIpv4MappedIpv6 host = none := by
  have hbehind (h : "::ffff:".toList <+: host) : '%' ∈ host.drop "::ffff:".toList.length := by
    obtain ⟨behind, rfl⟩ := h
    rw [List.drop_left]
    obtain hstart | hbehind := List.mem_append.1 hpercent
    · exact absurd hstart (by decide)
    · exact hbehind
  unfold parseIpv4MappedIpv6
  dsimp only
  rw [show host.map Char.toLower = host from hlower]
  split
  · next h =>
    have hdotted := isDotted_eq_false_of_mem (hbehind h.1) (by decide) (by decide)
    rw [h.2] at hdotted
    cases hdotted
  · split
    · next hstart =>
      have hmem := hbehind hstart
      generalize host.drop "::ffff:".toList.length = behind at hmem ⊢
      split
      · next high low hsplit =>
        split
        · next hsegments =>
          obtain hsep | ⟨part, hpart, hmem⟩ := mem_separator_or_mem_split (List.cons_ne_nil ':' []) hmem
          · exact absurd hsep (by decide)
          · rw [hsplit] at hpart
            have hsegment : isHexSegment part = true := by
              simp only [List.mem_cons, List.not_mem_nil, or_false] at hpart
              obtain rfl | rfl := hpart
              · exact hsegments.1
              · exact hsegments.2
            exact absurd hmem (not_mem_of_isHexSegment hsegment (by decide))
        · rfl
      · rfl
    · rfl

/-- A mapped address lies in the range of the zeros in front. -/
theorem listedIpv6_of_listed (hgroups : IsGroups groups) (h : (Address.ipv6 (addressValue groups)).Listed) :
    ListedIpv6 (addressValue groups) := by
  unfold Address.Listed at h
  dsimp only at h
  split at h
  · next hmapped =>
    obtain ⟨a, b, c, d, rest, rfl⟩ : ∃ a b c d rest, groups = a :: b :: c :: d :: rest := by
      have hlength := hgroups.length
      match groups, hlength with
      | a :: b :: c :: d :: rest, _ => exact ⟨a, b, c, d, rest, rfl⟩
    refine (listedIpv6_of_first hgroups).2 (Or.inl ?_)
    have hrest : (b :: c :: d :: rest).length = 7 := Nat.succ.inj hgroups.length
    have hfirst := @addressValue_cons_div a (b :: c :: d :: rest)
      (fun other hother ↦ hgroups.lt other (List.mem_cons_of_mem a hother)) 0
    rw [hrest] at hfirst
    have hzero : addressValue (a :: b :: c :: d :: rest) / 2 ^ (16 * 7 + 0) = 0 := by
      rw [show 2 ^ (16 * 7 + 0) = 2 ^ 32 * 2 ^ 80 from rfl, ← Nat.div_div_eq_div_mul, hmapped]
      rfl
    rw [hfirst, Nat.pow_zero, Nat.div_one] at hzero
    rw [hzero]
    decide
  · exact h

theorem expandIpv6_eq (hnormal : normalizeHostname host = host) :
    expandIpv6 host = expandHost host := by
  rw [expandIpv6, hnormal]
  rfl

/-- **An IPv6 address without a zone** is blocked by what it denotes. -/
theorem isBlockedIpv6_of_groups (hgroups : ipv6Groups host = some groups) (hlower : lower host = host)
    (hnormal : normalizeHostname host = host) :
    ((Address.ipv6 (addressValue groups)).Listed → isBlockedIpv6 host = true) ∧
      (¬ ListedIpv6 (addressValue groups) → isBlockedIpv6 host = false) := by
  have hexpand := expandHost_of_groups hgroups
  have hsound := isGroups_of_expandHost hexpand
  unfold isBlockedIpv6
  dsimp only
  rw [hnormal]
  split
  · next mapped hmapped =>
    obtain ⟨a, b, c, d, hquad, rfl⟩ := mapped_spec hlower hmapped hgroups
    refine ⟨fun hlisted ↦ ?_, fun hnot ↦ absurd ((listedIpv6_of_first hsound).2 (Or.inl (by decide))) hnot⟩
    obtain ⟨-, ha, hb, hc, hd⟩ := hquad.ipv4ToNumber
    have hvalue : addressValue [0, 0, 0, 0, 0, 0xffff, a * 256 + b, c * 256 + d] =
        0xffff * 2 ^ 32 + (((a * 256 + b) * 256 + c) * 256 + d) := by
      simp only [addressValue, List.length_cons, List.length_nil]
      omega
    have hlt : ((a * 256 + b) * 256 + c) * 256 + d < 2 ^ 32 := by omega
    have hmappedvalue : addressValue [0, 0, 0, 0, 0, 0xffff, a * 256 + b, c * 256 + d] / 2 ^ 32 = 0xffff := by
      rw [hvalue]
      omega
    have hembedded : addressValue [0, 0, 0, 0, 0, 0xffff, a * 256 + b, c * 256 + d] % 2 ^ 32 =
        ((a * 256 + b) * 256 + c) * 256 + d := by
      rw [hvalue]
      omega
    unfold Address.Listed at hlisted
    dsimp only at hlisted
    rw [if_pos hmappedvalue, hembedded] at hlisted
    exact (hquad.isBlockedWith_iff hquad.normalizeHostname _).2 hlisted
  · split
    · next hshort =>
      refine ⟨fun _ ↦ rfl, fun hnot ↦ absurd ?_ hnot⟩
      obtain ⟨b, c, d, rest, rfl⟩ : ∃ b c d rest, groups = 0 :: b :: c :: d :: rest := by
        obtain rfl | rfl := hshort
        · have hzero : ipv6Groups "::".toList = some [0, 0, 0, 0, 0, 0, 0, 0] := by decide +kernel
          exact ⟨_, _, _, _, Option.some.inj (hgroups.symm.trans hzero)⟩
        · have hone : ipv6Groups "::1".toList = some [0, 0, 0, 0, 0, 0, 0, 1] := by decide +kernel
          exact ⟨_, _, _, _, Option.some.inj (hgroups.symm.trans hone)⟩
      exact (listedIpv6_of_first hsound).2 (Or.inl (by decide))
    · rw [expandIpv6_eq hnormal, hexpand]
      dsimp only
      refine ⟨fun hlisted ↦ ?_, fun hnot ↦ ?_⟩
      · exact (blockedIpv6_iff hsound).2 (listedIpv6_of_listed hsound hlisted)
      · exact Bool.eq_false_iff.2 (mt (blockedIpv6_iff hsound).1 hnot)

/-- **An IPv6 address with a zone** is blocked if it is listed and not misread. -/
theorem isBlockedIpv6_zone {address zone : List Char} (hpercent : '%' ∉ address)
    (hgroups : ipv6Groups address = some groups)
    (hlower : lower (address ++ '%' :: zone) = address ++ '%' :: zone)
    (hnormal : normalizeHostname (address ++ '%' :: zone) = address ++ '%' :: zone) :
    ((Address.ipv6 (addressValue groups)).Listed → isBlockedIpv6 (address ++ '%' :: zone) = true) ↔
      ∀ groups', misread (address ++ '%' :: zone) = some groups' →
        (Address.ipv6 (addressValue groups)).Listed → ListedIpv6 (addressValue groups') := by
  have hmem : '%' ∈ address ++ '%' :: zone := List.mem_append_right _ List.mem_cons_self
  have hshort : ¬ (address ++ '%' :: zone = "::".toList ∨ address ++ '%' :: zone = "::1".toList) := by
    rintro (h | h)
    · rw [h] at hmem
      exact absurd hmem (by decide)
    · rw [h] at hmem
      exact absurd hmem (by decide)
  unfold isBlockedIpv6
  dsimp only
  rw [hnormal, parseIpv4MappedIpv6_eq_none hlower hmem]
  dsimp only
  rw [if_neg hshort, expandIpv6_eq hnormal]
  cases hexpand : expandHost (address ++ '%' :: zone) with
  | none =>
    refine iff_of_true (fun _ ↦ rfl) fun groups' hmisread ↦ ?_
    rw [expandHost_of_misread hpercent hmisread] at hexpand
    cases hexpand
  | some read =>
    have hsound := isGroups_of_expandHost hexpand
    show (_ → (blockedIpv6Ranges.any _) = true) ↔ _
    rw [blockedIpv6_iff hsound]
    constructor
    · intro h groups' hmisread hlisted
      obtain rfl := Option.some.inj (hexpand.symm.trans (expandHost_of_misread hpercent hmisread))
      exact h hlisted
    · intro h hlisted
      obtain hmisread | hkept := expandHost_zone hpercent hgroups hexpand
      · exact h read hmisread hlisted
      · exact hkept (listedIpv6_of_listed (isGroups_of_expandHost (expandHost_of_groups hgroups)) hlisted)

/-! ### Blocking by value -/

theorem lower_lower (s : List Char) : lower (lower s) = lower s := by
  rw [lower, List.map_map]
  refine List.map_congr_left fun c _ ↦ ?_
  show c.toLower.toLower = c.toLower
  obtain ⟨hlow, hhigh, hlower⟩ | ⟨-, hsame⟩ := toLower_cases c
  · obtain ⟨_, _, -⟩ | ⟨-, hsame⟩ := toLower_cases c.toLower
    · omega
    · exact hsame
  · rw [hsame, hsame]

/-- The texts that the runtime takes for an address are those that denote one. -/
theorem isIP_ne_zero_iff : isIP text ≠ 0 ↔ ∃ address, denotes text = some address := by
  unfold isIP denotes
  cases ipv4Segments text with
  | some segments => exact iff_of_true (Nat.succ_ne_zero 3) ⟨_, rfl⟩
  | none =>
    cases ipv6Value text with
    | some groups => exact iff_of_true (Nat.succ_ne_zero 5) ⟨_, rfl⟩
    | none => exact iff_of_false (fun h ↦ h rfl) nofun

theorem isIP_of_denotes_ipv6 (h : denotes text = some (.ipv6 n)) : isIP text = 6 := by
  unfold denotes at h
  unfold isIP
  cases hsegments : ipv4Segments text with
  | some segments =>
    rw [hsegments] at h
    cases h
  | none =>
    rw [hsegments] at h
    obtain ⟨groups, hgroups, -⟩ := Option.map_eq_some_iff.1 h
    rw [hgroups]
    rfl

/-- An IPv6 address is left to `isBlockedIpv6`, unless its zone looks like a local name. -/
theorem isBlockedWebFetchHostname_of_ipv6 (hnormal : normalizeHostname hostname = host)
    (h : denotes host = some (.ipv6 n))
    (hlocal : ¬ (host = "localhost".toList ∨ ".localhost".toList <:+ host)) :
    isBlockedWebFetchHostname hostname = isBlockedIpv6 host := by
  have hip := isIP_of_denotes_ipv6 h
  unfold isBlockedWebFetchHostname isBlockedWith
  dsimp only
  rw [hnormal, if_neg hlocal, hip, if_neg (fun h ↦ absurd h.2 (by decide)), if_pos rfl]

theorem zone?_eq_none (h : '%' ∉ host) : zone? host = none := by
  have hdrop : host.dropWhile (· ≠ '%') = [] :=
    List.dropWhile_eq_nil_iff.2 fun c hc ↦ decide_eq_true fun heq : c = '%' ↦ h (heq ▸ hc)
  rw [zone?, hdrop]

theorem misread_eq_none (h : '%' ∉ host) : misread host = none := by
  rw [misread, zone?_eq_none h]
  split
  · next hzone => cases hzone
  · rfl

end WebFetch
