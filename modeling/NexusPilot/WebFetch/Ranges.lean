import Mathlib.Data.Nat.Bitwise
import NexusPilot.WebFetch.Address

/-!
# Ranges of addresses

A range is said by an address and a number of bits in front: an address is in it when it has the same bits there, which
is that both give the same quotient. The masks of the code say the same, on the 32 bits of an IPv4 address
(**`isIpv4InCidr_iff`**) and group by group on an IPv6 address (**`groupsInCidr_iff`**).

The IPv6 ranges come down to the first four groups (`blockedGroups_iff`), of which most is said by the first one.
-/

namespace WebFetch

open Text

/-! ### Prefixes of bits -/

/-- Numbers of some bits agree in the first of them. -/
def samePrefix (bits prefixLength n base : ℕ) : Prop :=
  n / 2 ^ (bits - prefixLength) = base / 2 ^ (bits - prefixLength)

instance (bits prefixLength n base : ℕ) : Decidable (samePrefix bits prefixLength n base) :=
  inferInstanceAs (Decidable (_ = _))

variable {width s n base prefixLength group e d : ℕ} {groups bases : List ℕ} {range : List Char × ℕ}

/-- A mask keeps what is above its zeros. -/
theorem and_mask (hn : n < 2 ^ width) :
    n &&& ((2 ^ width - 1) <<< s &&& (2 ^ width - 1)) = n / 2 ^ s * 2 ^ s := by
  rw [← Nat.shiftRight_eq_div_pow, ← Nat.shiftLeft_eq]
  refine Nat.eq_of_testBit_eq fun i ↦ ?_
  rw [Nat.testBit_and, Nat.testBit_and, Nat.testBit_shiftLeft, Nat.testBit_shiftLeft, Nat.testBit_shiftRight,
    Nat.testBit_two_pow_sub_one, Nat.testBit_two_pow_sub_one]
  by_cases hi : i < width
  · by_cases hsi : s ≤ i
    · have hshift : i - s < width := by omega
      simp [hi, hsi, hshift]
    · simp [hsi]
  · rw [Nat.testBit_lt_two_pow (hn.trans_le (Nat.pow_le_pow_right (by decide) (not_lt.1 hi)))]
    by_cases hsi : s ≤ i
    · have hbit : n.testBit (s + (i - s)) = false := by
        rw [Nat.add_sub_cancel' hsi]
        exact Nat.testBit_lt_two_pow (hn.trans_le (Nat.pow_le_pow_right (by decide) (not_lt.1 hi)))
      simp [hbit]
    · simp [hsi]

/-- Numbers agree under a mask when they agree in the first bits. -/
theorem and_mask_eq_iff (hn : n < 2 ^ width) (hbase : base < 2 ^ width) :
    n &&& ((2 ^ width - 1) <<< s &&& (2 ^ width - 1)) = base &&& ((2 ^ width - 1) <<< s &&& (2 ^ width - 1)) ↔
      n / 2 ^ s = base / 2 ^ s := by
  rw [and_mask hn, and_mask hbase]
  exact Nat.mul_left_inj (Nat.two_pow_pos s).ne'

/-- **The mask of an IPv4 range.** -/
theorem isIpv4InCidr_iff {address : BitVec 32} {base : List Char} (hlow : 0 < prefixLength) :
    isIpv4InCidr address base prefixLength = true ↔
      samePrefix 32 prefixLength address.toNat (ipv4ToNumber base).toNat := by
  have hmask : (0xffffffff#32 <<< (32 - prefixLength)).toNat =
      (2 ^ 32 - 1) <<< (32 - prefixLength) &&& (2 ^ 32 - 1) := by
    rw [BitVec.toNat_shiftLeft, Nat.and_two_pow_sub_one_eq_mod]
    rfl
  rw [isIpv4InCidr, if_neg hlow.ne', beq_iff_eq, ← BitVec.toNat_inj, BitVec.toNat_and, BitVec.toNat_and, hmask]
  exact and_mask_eq_iff address.isLt (ipv4ToNumber base).isLt

/-! ### Groups -/

/-- The number of an address. -/
def addressValue : List ℕ → ℕ
  | [] => 0
  | group :: groups => group * 2 ^ (16 * groups.length) + addressValue groups

theorem addressValue_lt (h : ∀ group ∈ groups, group < 2 ^ 16) :
    addressValue groups < 2 ^ (16 * groups.length) := by
  induction groups with
  | nil => exact Nat.one_pos
  | cons group groups ih =>
    have hgroup : group + 1 ≤ 2 ^ 16 := h group List.mem_cons_self
    have hrest := ih fun other hother ↦ h other (List.mem_cons_of_mem _ hother)
    have hpow : 2 ^ (16 * (group :: groups).length) = 2 ^ 16 * 2 ^ (16 * groups.length) := by
      rw [← Nat.pow_add, List.length_cons]
      congr 1
      omega
    have hmul : (group + 1) * 2 ^ (16 * groups.length) ≤ 2 ^ 16 * 2 ^ (16 * groups.length) :=
      Nat.mul_le_mul_right _ hgroup
    rw [hpow, addressValue]
    rw [Nat.add_mul, Nat.one_mul] at hmul
    omega

theorem addressValue_cons_div {group : ℕ} {groups : List ℕ} (h : ∀ other ∈ groups, other < 2 ^ 16) (s : ℕ) :
    addressValue (group :: groups) / 2 ^ (16 * groups.length + s) = group / 2 ^ s := by
  have hpos : 0 < 2 ^ (16 * groups.length) := Nat.two_pow_pos _
  rw [Nat.pow_add, ← Nat.div_div_eq_div_mul, addressValue, Nat.mul_comm, Nat.mul_add_div hpos,
    Nat.div_eq_of_lt (addressValue_lt h), Nat.add_zero]

theorem addressValue_cons_div_of_le (he : e ≤ 16 * groups.length) :
    addressValue (group :: groups) / 2 ^ e =
      2 ^ (16 * groups.length - e) * group + addressValue groups / 2 ^ e := by
  have hpow : 2 ^ (16 * groups.length) = 2 ^ e * 2 ^ (16 * groups.length - e) := by
    rw [← Nat.pow_add, Nat.add_sub_cancel' he]
  rw [addressValue, hpow, Nat.mul_comm group, Nat.mul_assoc, Nat.mul_add_div (Nat.two_pow_pos _)]

/-- Two numbers with a quotient and a rest are equal when both are. -/
theorem mul_add_inj_of_lt {q q' r r' : ℕ} (hr : r < d) (hr' : r' < d) :
    d * q + r = d * q' + r' ↔ q = q' ∧ r = r' := by
  constructor
  · intro h
    have hpos : 0 < d := (Nat.zero_le _).trans_lt hr
    have hq := congrArg (· / d) h
    rw [Nat.mul_add_div hpos, Nat.mul_add_div hpos, Nat.div_eq_of_lt hr, Nat.div_eq_of_lt hr'] at hq
    obtain rfl : q = q' := hq
    exact ⟨rfl, Nat.add_left_cancel h⟩
  · rintro ⟨rfl, rfl⟩
    rfl

theorem addressValue_div_lt (h : ∀ group ∈ groups, group < 2 ^ 16) (he : e ≤ 16 * groups.length) :
    addressValue groups / 2 ^ e < 2 ^ (16 * groups.length - e) := by
  rw [Nat.div_lt_iff_lt_mul (Nat.two_pow_pos _), ← Nat.pow_add, Nat.sub_add_cancel he]
  exact addressValue_lt h

/-- The bits that are looked at in one group. -/
theorem and_groupMask_eq_iff (bits : ℕ) (hgroup : group < 2 ^ 16) (hbase : base < 2 ^ 16) :
    group &&& (0xffff <<< (16 - bits) &&& 0xffff) = base &&& (0xffff <<< (16 - bits) &&& 0xffff) ↔
      group / 2 ^ (16 - bits) = base / 2 ^ (16 - bits) :=
  and_mask_eq_iff hgroup hbase

theorem groupsInCidr_zero (address bases : List ℕ) : groupsInCidr 0 address bases = true := by
  fun_cases groupsInCidr 0 address bases with
  | case1 => rfl
  | case2 _ _ _ _ _ _ hbits => exact absurd (Nat.zero_min 16) hbits
  | case3 _ _ _ _ _ _ hbits => exact absurd (Nat.zero_min 16) hbits
  | case4 => rfl

/-- One group, where bits are left. -/
theorem groupsInCidr_cons (remaining : ℕ) (address bases : List ℕ) (hgroup : group < 2 ^ 16)
    (hbase : base < 2 ^ 16) :
    groupsInCidr remaining (group :: address) (base :: bases) = true ↔
      remaining = 0 ∨
        (group / 2 ^ (16 - min remaining 16) = base / 2 ^ (16 - min remaining 16) ∧
          groupsInCidr (remaining - 16) address bases = true) := by
  have hmask := and_groupMask_eq_iff (min remaining 16) hgroup hbase
  have hrest : remaining - min remaining 16 = remaining - 16 := by omega
  rw [groupsInCidr, ← hmask, hrest]
  split
  · next hbits => exact iff_of_true rfl (Or.inl (by omega))
  · next hbits =>
    have hpos : remaining ≠ 0 := by omega
    rw [or_iff_right hpos]
    split
    · next hne => exact iff_of_false Bool.false_ne_true fun h ↦ hne h.1
    · next heq => exact (and_iff_right (not_not.1 heq)).symm

/-- **The loop over the groups.** -/
theorem groupsInCidr_iff {address : List ℕ} (hlength : address.length = bases.length)
    (haddress : ∀ group ∈ address, group < 2 ^ 16) (hbases : ∀ group ∈ bases, group < 2 ^ 16)
    (hbits : prefixLength ≤ 16 * address.length) :
    groupsInCidr prefixLength address bases = true ↔
      samePrefix (16 * address.length) prefixLength (addressValue address) (addressValue bases) := by
  induction address generalizing prefixLength bases with
  | nil =>
    obtain rfl : bases = [] := List.length_eq_zero_iff.1 hlength.symm
    obtain rfl : prefixLength = 0 := Nat.le_zero.1 hbits
    exact iff_of_true rfl rfl
  | cons group address ih =>
    cases bases with
    | nil => cases hlength
    | cons base bases =>
      have hlength' : address.length = bases.length := Nat.succ.inj hlength
      have hgroup := haddress group List.mem_cons_self
      have hbase := hbases base List.mem_cons_self
      have haddress' : ∀ other ∈ address, other < 2 ^ 16 := fun other h ↦ haddress other (List.mem_cons_of_mem _ h)
      have hbases' : ∀ other ∈ bases, other < 2 ^ 16 := fun other h ↦ hbases other (List.mem_cons_of_mem _ h)
      have hloop := groupsInCidr_cons prefixLength address bases hgroup hbase
      cases prefixLength with
      | zero =>
        refine iff_of_true (groupsInCidr_zero _ _) ?_
        have hlt := addressValue_lt haddress
        have hlt' := addressValue_lt hbases
        rw [← hlength] at hlt'
        rw [samePrefix, Nat.sub_zero, Nat.div_eq_of_lt hlt, Nat.div_eq_of_lt hlt']
      | succ n =>
        rw [List.length_cons] at hbits
        rw [hloop, or_iff_right (Nat.succ_ne_zero n), samePrefix, List.length_cons]
        obtain hfew | hmany := Nat.lt_or_ge (n + 1) 16
        · -- the range ends inside of this group
          have he : 16 * (address.length + 1) - (n + 1) = 16 * address.length + (16 - (n + 1)) := by omega
          rw [Nat.min_eq_left hfew.le, Nat.sub_eq_zero_of_le hfew.le, he, addressValue_cons_div haddress', hlength',
            addressValue_cons_div hbases']
          exact and_iff_left (groupsInCidr_zero _ _)
        · have he : 16 * (address.length + 1) - (n + 1) = 16 * address.length - (n + 1 - 16) := by omega
          have hle : 16 * address.length - (n + 1 - 16) ≤ 16 * address.length := Nat.sub_le _ _
          have hle' : 16 * address.length - (n + 1 - 16) ≤ 16 * bases.length := by rw [← hlength']; exact hle
          have hrest := ih hlength' haddress' hbases' (show n + 1 - 16 ≤ 16 * address.length by omega)
          have hlt := addressValue_div_lt haddress' hle
          have hlt' := addressValue_div_lt hbases' hle'
          rw [Nat.min_eq_right hmany, hrest, he, addressValue_cons_div_of_le hle, addressValue_cons_div_of_le hle']
          rw [← hlength'] at hlt' ⊢
          rw [mul_add_inj_of_lt hlt hlt', Nat.sub_self, Nat.pow_zero, Nat.div_one, Nat.div_one]
          rfl

/-! ### The listed ranges -/

/-- What a text denotes. -/
inductive Address
  | ipv4 (n : ℕ)
  | ipv6 (n : ℕ)
  deriving DecidableEq

/-- The address that a text denotes. -/
def denotes (text : List Char) : Option Address :=
  match ipv4Segments text with
  | some (a, b, c, d) => some (.ipv4 (((a * 256 + b) * 256 + c) * 256 + d))
  | none => (ipv6Value text).map fun groups ↦ .ipv6 (addressValue groups)

/-- The number lies in a listed IPv4 range. -/
def ListedIpv4 (n : ℕ) : Prop :=
  ∃ range ∈ blockedIpv4Ranges, ∃ base, denotes range.1 = some (.ipv4 base) ∧ samePrefix 32 range.2 n base

/-- The number lies in a listed IPv6 range. -/
def ListedIpv6 (n : ℕ) : Prop :=
  ∃ range ∈ blockedIpv6Ranges, ∃ base, denotes range.1 = some (.ipv6 base) ∧ samePrefix 128 range.2 n base

/-- The address lies in a listed range; a mapped address is judged by the one that it embeds. -/
def Address.Listed : Address → Prop
  | .ipv4 n => ListedIpv4 n
  | .ipv6 n => if n / 2 ^ 32 = 0xffff then ListedIpv4 (n % 2 ^ 32) else ListedIpv6 n

/-- Eight groups. -/
structure IsGroups (groups : List ℕ) : Prop where
  length : groups.length = 8
  lt : ∀ group ∈ groups, group < 2 ^ 16

/-- The code reads the ranges as they are meant. -/
theorem expandIpv6_range (h : range ∈ blockedIpv6Ranges) :
    ∃ groups, expandIpv6 range.1 = some groups ∧ denotes range.1 = some (.ipv6 (addressValue groups)) ∧
      IsGroups groups ∧ range.2 ≤ 128 := by
  have hall : blockedIpv6Ranges.all fun range ↦
      (expandIpv6 range.1).any fun groups ↦ denotes range.1 = some (.ipv6 (addressValue groups)) ∧
        groups.length = 8 ∧ (∀ group ∈ groups, group < 2 ^ 16) ∧ range.2 ≤ 128 := by decide +kernel
  obtain ⟨groups, hgroups, hrange⟩ := (Option.any_eq_true _ _).1 (List.all_eq_true.1 hall range h)
  obtain ⟨hdenotes, hlength, hlt, hbits⟩ := of_decide_eq_true hrange
  exact ⟨groups, hgroups, hdenotes, ⟨hlength, hlt⟩, hbits⟩

theorem ipv4ToNumber_range (h : range ∈ blockedIpv4Ranges) :
    denotes range.1 = some (.ipv4 (ipv4ToNumber range.1).toNat) ∧ 0 < range.2 := by
  have hall : blockedIpv4Ranges.all fun range ↦
      denotes range.1 = some (.ipv4 (ipv4ToNumber range.1).toNat) ∧ 0 < range.2 := by
    decide +kernel
  exact of_decide_eq_true (List.all_eq_true.1 hall range h)

/-- **The IPv4 ranges of the code** are the listed ones. -/
theorem blockedIpv4_iff (address : BitVec 32) :
    (blockedIpv4Ranges.any fun range ↦ isIpv4InCidr address range.1 range.2) = true ↔ ListedIpv4 address.toNat := by
  rw [List.any_eq_true]
  refine exists_congr fun range ↦ and_congr_right fun hrange ↦ ?_
  obtain ⟨hdenotes, hlow⟩ := ipv4ToNumber_range hrange
  rw [isIpv4InCidr_iff hlow]
  constructor
  · intro h
    exact ⟨_, hdenotes, h⟩
  · rintro ⟨base, hbase, h⟩
    obtain rfl := Address.ipv4.inj (Option.some.inj (hdenotes.symm.trans hbase))
    exact h

/-- **The IPv6 ranges of the code** are the listed ones. -/
theorem blockedIpv6_iff (hgroups : IsGroups groups) :
    (blockedIpv6Ranges.any fun range ↦ isIpv6InCidr groups range.1 range.2) = true ↔
      ListedIpv6 (addressValue groups) := by
  rw [List.any_eq_true]
  refine exists_congr fun range ↦ and_congr_right fun hrange ↦ ?_
  obtain ⟨bases, hexpand, hdenotes, hbases, hbits⟩ := expandIpv6_range hrange
  have hiff := groupsInCidr_iff (hgroups.length.trans hbases.length.symm) hgroups.lt hbases.lt
    (show range.2 ≤ 16 * groups.length by rw [hgroups.length]; exact hbits)
  rw [hgroups.length] at hiff
  rw [isIpv6InCidr, hexpand]
  dsimp only
  rw [hiff]
  constructor
  · intro h
    exact ⟨_, hdenotes, h⟩
  · rintro ⟨base, hbase, h⟩
    obtain rfl := Address.ipv6.inj (Option.some.inj (hdenotes.symm.trans hbase))
    exact h

/-- What the first four groups of a listed address are. -/
def BlockedGroups (a b c d : ℕ) : Prop :=
  a < 0x100 ∨ (a = 0x100 ∧ b = 0 ∧ c = 0 ∧ d = 0) ∨ (a = 0x2001 ∧ (b < 0x200 ∨ b = 0xdb8)) ∨ a = 0x2002 ∨
    (0xfc00 ≤ a ∧ a < 0xfe00) ∨ (0xfe80 ≤ a ∧ a < 0xfec0) ∨ 0xff00 ≤ a

theorem isIpv6InCidr_eq {base : List Char} (h : expandIpv6 base = some bases) (groups : List ℕ)
    (prefixLength : ℕ) : isIpv6InCidr groups base prefixLength = groupsInCidr prefixLength groups bases := by
  rw [isIpv6InCidr, h]

/-- **The listed ranges**, group by group. -/
theorem listedIpv6_iff {a b c f g h : ℕ} (hgroups : IsGroups [a, b, c, d, e, f, g, h]) :
    ListedIpv6 (addressValue [a, b, c, d, e, f, g, h]) ↔ BlockedGroups a b c d := by
  have hlt (i : ℕ) (hi : i ∈ [a, b, c, d, e, f, g, h]) := hgroups.lt i hi
  simp only [List.mem_cons, List.not_mem_nil, or_false, forall_eq_or_imp, forall_eq] at hlt
  obtain ⟨ha, hb, hc, hd, he, hf, hg, hh⟩ := hlt
  rw [← blockedIpv6_iff hgroups, blockedIpv6Ranges]
  simp only [List.any_cons, List.any_nil, Bool.or_false, Bool.or_eq_true]
  rw [isIpv6InCidr_eq (show _ = some [0x64, 0xff9b, 0, 0, 0, 0, 0, 0] by decide +kernel),
    isIpv6InCidr_eq (show _ = some [0x64, 0xff9b, 1, 0, 0, 0, 0, 0] by decide +kernel),
    isIpv6InCidr_eq (show _ = some [0, 0, 0, 0, 0, 0, 0, 0] by decide +kernel),
    isIpv6InCidr_eq (show _ = some [0x100, 0, 0, 0, 0, 0, 0, 0] by decide +kernel),
    isIpv6InCidr_eq (show _ = some [0x2001, 0, 0, 0, 0, 0, 0, 0] by decide +kernel),
    isIpv6InCidr_eq (show _ = some [0x2001, 2, 0, 0, 0, 0, 0, 0] by decide +kernel),
    isIpv6InCidr_eq (show _ = some [0x2001, 0xdb8, 0, 0, 0, 0, 0, 0] by decide +kernel),
    isIpv6InCidr_eq (show _ = some [0x2002, 0, 0, 0, 0, 0, 0, 0] by decide +kernel),
    isIpv6InCidr_eq (show _ = some [0xfc00, 0, 0, 0, 0, 0, 0, 0] by decide +kernel),
    isIpv6InCidr_eq (show _ = some [0xfe80, 0, 0, 0, 0, 0, 0, 0] by decide +kernel),
    isIpv6InCidr_eq (show _ = some [0xff00, 0, 0, 0, 0, 0, 0, 0] by decide +kernel)]
  simp (disch := first | assumption | decide) only [groupsInCidr_cons]
  simp only [Nat.reduceSub, Nat.min_def, Nat.reduceLeDiff, ↓reduceIte, Nat.reducePow, Nat.reduceDiv, Nat.div_one,
    BlockedGroups, true_or, and_true, OfNat.ofNat_ne_zero, false_or]
  omega

end WebFetch
