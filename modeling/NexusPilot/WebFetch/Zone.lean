import NexusPilot.WebFetch.Spelling

/-!
# Zones

A zone is not left out before the pieces of an address are read. It does no harm while it has no colon, since only the
digits in front of a piece count. The pieces behind a colon of the zone count as groups of a compressed address, though,
and take the place of its zeros (`misread`). Otherwise a listed address stays in the listed ranges
(**`expandHost_zone`**): the first four groups are its own, or a zero more stands before some of them.
-/

namespace WebFetch

open Text Machine

/-! ### Zones -/

/-- A dotted end of a zone may be replaced, and nothing else. -/
theorem exists_embedIpv4_zone (zone : List Char) :
    ∃ zone', (∀ front, embedIpv4 (front ++ '%' :: zone) = front ++ '%' :: zone') ∧ (':' ∉ zone → zone' = zone) := by
  by_cases hzone : ':' ∈ zone
  · obtain ⟨init, last, hsplit⟩ := exists_split_eq_append [':'] zone
    have hinit : init ≠ [] := by
      rintro rfl
      have hwhole : last = zone := by
        rw [← intercalate_split (List.cons_ne_nil ':' []) zone, hsplit, List.nil_append, List.intercalate_singleton]
      refine @not_mem_of_mem_split _ _ _ zone zone ?_ hzone
      rw [hsplit, hwhole]
      exact List.mem_singleton_self zone
    obtain ⟨before, rfl, -⟩ := exists_before hsplit hinit
    have hlast : ':' ∉ last := by
      refine not_mem_of_mem_split (s := before ++ ':' :: last) ?_
      rw [hsplit]
      exact List.mem_append_right _ (List.mem_singleton_self last)
    have hembed (front : List Char) := @embedIpv4_append (front ++ '%' :: before) last
      (List.append_ne_nil_of_right_ne_nil _ (List.cons_ne_nil _ _)) hlast
    by_cases hdotted : isDotted last = true
    · refine ⟨before ++ ':' :: hexText ((ipv4ToNumber last >>> 16) &&& 0xffff#32).toNat ++
        ':' :: hexText (ipv4ToNumber last &&& 0xffff#32).toNat, fun front ↦ ?_, fun h ↦ absurd hzone h⟩
      have h := hembed front
      rw [if_pos hdotted] at h
      simpa only [List.append_assoc, List.cons_append] using h
    · refine ⟨before ++ ':' :: last, fun front ↦ ?_, fun h ↦ absurd hzone h⟩
      have h := hembed front
      rw [if_neg hdotted] at h
      simpa only [List.append_assoc, List.cons_append] using h
  · refine ⟨zone, fun front ↦ ?_, fun _ ↦ rfl⟩
    obtain ⟨init, last, hsplit⟩ := exists_split_eq_append [':'] front
    have hcolon : '%' ∉ [':'] := by decide
    have hbehind : split [':'] ('%' :: zone) = ['%' :: zone] :=
      split_singleton_of_not_mem (List.not_mem_cons_of_ne_of_not_mem (by decide) hzone)
    refine embedIpv4_of_not_dotted (split_append_cons (List.cons_ne_nil _ _) hcolon hsplit hbehind) ?_
    exact isDotted_eq_false_of_mem (List.mem_append_right _ List.mem_cons_self) (by decide) (by decide)

/-- The first part behind a zone, and those behind it. -/
theorem exists_split_zone (separator : List Char) (hne : separator ≠ []) (hzone : '%' ∉ separator) (zone : List Char) :
    ∃ first others, split separator zone = first :: others ∧
      ∀ front init last, split separator front = init ++ [last] →
        split separator (front ++ '%' :: zone) = init ++ (last ++ '%' :: first) :: others := by
  refine ⟨_, _, rfl, fun front init last hfront ↦ split_append_cons hne hzone hfront (split_cons fun hstands ↦ ?_)⟩
  cases separator with
  | nil => exact hne rfl
  | cons c separator =>
    obtain rfl := (List.cons_prefix_cons.1 hstands).1
    exact hzone List.mem_cons_self

/-- A segment with a zone behind it is read as the segment. -/
theorem parseInt_zone {segment zone : List Char} {group : ℕ} (h : hexGroup segment = some group) :
    parseInt 16 (segment ++ '%' :: zone) = some (group : ℤ) ∧ group < 2 ^ 16 := by
  refine parseInt_hexGroup h fun c hc ↦ ?_
  obtain rfl := Option.some.inj hc
  exact ⟨by decide, by decide, by decide⟩

/-- Nothing is read of a zone alone. -/
theorem parseInt_percent (zone : List Char) : parseInt 16 ('%' :: zone) = none := by
  have hspace : ('%' :: zone).dropWhile isScriptSpace = '%' :: zone := List.dropWhile_cons_of_neg (by decide)
  have htake : ('%' :: zone).takeWhile (isDigitOf 16) = [] := List.takeWhile_cons_of_neg (by decide)
  have hmark : ¬ ('%' :: zone).head? = some '0' := by
    intro h
    exact absurd (Option.some.inj h) (by decide)
  have hminus : ¬ ('%' :: zone).head? = some '-' := by
    intro h
    exact absurd (Option.some.inj h) (by decide)
  have hplus : ¬ ('%' :: zone).head? = some '+' := by
    intro h
    exact absurd (Option.some.inj h) (by decide)
  unfold parseInt
  simp only [hspace, hminus, hplus, hmark, htake, or_self, and_false, false_and, if_false, if_true]

variable {groups groups' : List ℕ} {address right zone : List Char}

/-- What is read is determined by the parts. -/
theorem Reads.unique {parts : List (List Char)} (h : Reads parts groups) (h' : Reads parts groups') :
    groups = groups' := by
  induction h generalizing groups' with
  | nil =>
    cases h'
    rfl
  | cons hread _ ih =>
    cases h' with
    | cons hread' hrest' =>
      have hgroup := Int.ofNat_inj.1 (Option.some.inj (hread.1.symm.trans hread'.1))
      rw [hgroup, ih hrest']

/-! ### The first groups -/

/-- Four groups say whether an address is listed. -/
theorem listedIpv6_of_first {a b c d : ℕ} {rest : List ℕ} (h : IsGroups (a :: b :: c :: d :: rest)) :
    ListedIpv6 (addressValue (a :: b :: c :: d :: rest)) ↔ BlockedGroups a b c d := by
  obtain ⟨e, f, g, i, rfl⟩ : ∃ e f g i, rest = [e, f, g, i] := by
    have hlength := h.length
    match rest, hlength with
    | [e, f, g, i], _ => exact ⟨e, f, g, i, rfl⟩
  exact listedIpv6_iff h

theorem listedIpv6_congr {front behind behind' : List ℕ} (hfront : 4 ≤ front.length) (h : IsGroups (front ++ behind))
    (h' : IsGroups (front ++ behind')) :
    ListedIpv6 (addressValue (front ++ behind)) ↔ ListedIpv6 (addressValue (front ++ behind')) := by
  match front, hfront with
  | a :: b :: c :: d :: rest, _ => exact (listedIpv6_of_first h).trans (listedIpv6_of_first h').symm

/-- A group of zero more keeps an address listed. -/
theorem listedIpv6_shift {l k behind behind' : List ℕ} (hlength : (l ++ 0 :: k).length = 6)
    (h : IsGroups (l ++ (0 :: k) ++ behind)) (h' : IsGroups (l ++ 0 :: (0 :: k) ++ behind'))
    (hlisted : ListedIpv6 (addressValue (l ++ (0 :: k) ++ behind))) :
    ListedIpv6 (addressValue (l ++ 0 :: (0 :: k) ++ behind')) := by
  match l, k, hlength with
  | [], [_, _, _, _, _], _ => exact (listedIpv6_of_first h').2 (Or.inl (by decide))
  | [a], [b, c, _, _], _ =>
    have hblocked := (listedIpv6_of_first h).1 hlisted
    refine (listedIpv6_of_first h').2 ?_
    unfold BlockedGroups at hblocked ⊢
    omega
  | [a, b], [c, _, _], _ =>
    have hblocked := (listedIpv6_of_first h).1 hlisted
    refine (listedIpv6_of_first h').2 ?_
    unfold BlockedGroups at hblocked ⊢
    omega
  | [a, b, c], [_, _], _ => exact (listedIpv6_of_first h').2 ((listedIpv6_of_first h).1 hlisted)
  | a :: b :: c :: d :: rest, _, _ => exact (listedIpv6_of_first h').2 ((listedIpv6_of_first h).1 hlisted)

/-! ### Addresses with a zone -/

/-- The groups that are read of a compressed address, where the pieces behind a colon of its zone count as groups. -/
def misread (host : List Char) : Option (List ℕ) :=
  match split [':', ':'] (addressPart host), zone? host with
  | [left, right], some zone =>
    if ':' ∈ zone then
      match split [':', ':'] (embedIpv4 (right ++ '%' :: zone)) with
      | [right] => readParts (pieces left) (pieces right) true
      | _ => none
    else none
  | _, _ => none

theorem pieces_append_percent (front behind : List Char) :
    pieces (front ++ '%' :: behind) = split [':'] (front ++ '%' :: behind) :=
  if_neg (List.append_ne_nil_of_right_ne_nil _ (List.cons_ne_nil _ _))

theorem isGroups_of_expandHost {host : List Char} (h : expandHost host = some groups) :
    IsGroups groups := by
  unfold expandHost at h
  split at h
  · exact isGroups_of_readParts h
  · exact isGroups_of_readParts h
  · cases h

theorem addressPart_append (h : '%' ∉ address) (zone : List Char) :
    addressPart (address ++ '%' :: zone) = address := by
  have haddress : ∀ c ∈ address, decide (c ≠ '%') = true := fun c hc ↦
    decide_eq_true fun heq : c = '%' ↦ h (heq ▸ hc)
  rw [addressPart, List.takeWhile_append_of_pos haddress, List.takeWhile_cons_of_neg (by decide), List.append_nil]

theorem zone?_append (h : '%' ∉ address) (zone : List Char) :
    zone? (address ++ '%' :: zone) = some zone := by
  have haddress : ∀ c ∈ address, decide (c ≠ '%') = true := fun c hc ↦
    decide_eq_true fun heq : c = '%' ↦ h (heq ▸ hc)
  rw [zone?, List.dropWhile_append_of_pos haddress, List.dropWhile_cons_of_neg (by decide)]

/-- The last part of a text has no separator. -/
theorem split_right {left : List Char} (h : split [':', ':'] address = [left, right]) :
    split [':', ':'] right = [right] := by
  refine split_of_not_infix (not_infix_of_mem_split (s := address) (List.cons_ne_nil _ _) ?_)
  rw [h]
  exact List.mem_cons_of_mem _ (List.mem_singleton_self right)

/-- The parts of a host with a zone. -/
theorem split_zone {address zone : List Char} {init : List (List Char)} {last : List Char}
    (haddress : split [':', ':'] address = init ++ [last]) :
    ∃ zone' first others,
      split [':', ':'] (embedIpv4 (address ++ '%' :: zone)) = init ++ (last ++ '%' :: first) :: others ∧
      (∀ right, split [':', ':'] right = [right] →
        split [':', ':'] (embedIpv4 (right ++ '%' :: zone)) = (right ++ '%' :: first) :: others) ∧
      split [':', ':'] zone' = first :: others ∧ (':' ∉ zone → zone' = zone) := by
  obtain ⟨zone', hembed, hsame⟩ := exists_embedIpv4_zone zone
  obtain ⟨first, others, hzone, hsplit⟩ := exists_split_zone [':', ':'] (List.cons_ne_nil _ _) (by decide) zone'
  refine ⟨zone', first, others, ?_, fun right hright ↦ ?_, hzone, hsame⟩
  · rw [hembed]
    exact hsplit _ _ _ haddress
  · rw [hembed]
    exact hsplit right [] right hright

/-- What a misreading gives is what is read. -/
theorem expandHost_of_misread (hpercent : '%' ∉ address) (h : misread (address ++ '%' :: zone) = some groups) :
    expandHost (address ++ '%' :: zone) = some groups := by
  rw [misread, addressPart_append hpercent, zone?_append hpercent] at h
  split at h
  · next left right zone' hsplit hzone =>
    obtain rfl := Option.some.inj hzone
    obtain ⟨zone', first, others, hhost, hright, -⟩ := @split_zone address zone [left] right hsplit
    split at h
    · rw [hright right (split_right hsplit)] at h
      split at h
      · next right' hright' =>
        obtain ⟨rfl, rfl⟩ := List.cons.inj hright'
        rw [expandHost, hhost]
        exact h
      · cases h
    · cases h
  · cases h

/-- Six groups or more are segments of their own. -/
theorem exists_segments (h : groupsOf (pieces address) = some groups) (hlength : groups.length = 8) :
    ∃ segments last front behind, split [':'] address = segments ++ [last] ∧ HexGroups segments front ∧
      4 ≤ front.length ∧ groups = front ++ behind := by
  have hne : address ≠ [] := by
    rintro rfl
    obtain rfl := Option.some.inj h
    cases hlength
  rw [pieces, if_neg hne] at h
  obtain hhex | ⟨segments, dotted, a, b, c, d, front, hparts, -, hfront, rfl⟩ := groupsOf_cases h
  · obtain ⟨segments, last, hparts⟩ := exists_split_eq_append [':'] address
    rw [hparts] at hhex
    obtain ⟨front, behind, rfl, hfront, hbehind⟩ := forall₂_append_cases hhex
    have hone := hbehind.length_eq
    rw [List.length_append] at hlength
    rw [List.length_singleton] at hone
    exact ⟨segments, last, front, behind, hparts, hfront, by omega, rfl⟩
  · rw [List.length_append] at hlength
    have htwo : [a * 256 + b, c * 256 + d].length = 2 := rfl
    exact ⟨segments, dotted, front, _, hparts, hfront, by omega, rfl⟩

/-- The groups behind `::`, where a zone without a colon stands behind them. -/
theorem reads_zone {r r' : List ℕ} (hcolon : ':' ∉ zone) (hr : groupsOf (pieces right) = some r)
    (hread : Reads (pieces (right ++ '%' :: zone)) r') :
    r' = r ∨ ∃ front high low group, r = front ++ [high, low] ∧ r' = front ++ [group] := by
  obtain ⟨first, others, hzone, hpieces⟩ := exists_split_zone [':'] (List.cons_ne_nil _ _) (by decide) zone
  rw [split_singleton_of_not_mem hcolon] at hzone
  obtain ⟨rfl, rfl⟩ := List.cons.inj hzone
  rw [pieces_append_percent] at hread
  by_cases hright : right = []
  · subst hright
    rw [hpieces [] [] [] rfl] at hread
    cases hread with
    | cons hpercent _ =>
      rw [List.nil_append, parseInt_percent] at hpercent
      cases hpercent.1
  · rw [pieces, if_neg hright] at hr
    obtain hhex | ⟨segments, dotted, a, b, c, d, front, hparts, -, hfront, rfl⟩ := groupsOf_cases hr
    · left
      obtain ⟨segments, last, hparts⟩ := exists_split_eq_append [':'] right
      rw [hparts] at hhex
      rw [hpieces _ _ _ hparts] at hread
      obtain ⟨front, behind, rfl, hfront, hbehind⟩ := forall₂_append_cases hhex
      cases hbehind with
      | cons hlast hnil =>
        cases hnil
        exact Reads.unique hread (List.rel_append (reads_of_hexGroups hfront) (.cons (parseInt_zone hlast) .nil))
    · right
      rw [hpieces _ _ _ hparts] at hread
      obtain ⟨front', behind, rfl, hfront', hbehind⟩ := forall₂_append_cases hread
      obtain rfl := Reads.unique (reads_of_hexGroups hfront) hfront'
      cases hbehind with
      | cons hlast hnil =>
        cases hnil
        exact ⟨_, _, _, _, rfl, rfl⟩

/-- **A zone keeps a listed address listed**, unless its pieces are misread. -/
theorem expandHost_zone (hpercent : '%' ∉ address) (hgroups : ipv6Groups address = some groups)
    (hread : expandHost (address ++ '%' :: zone) = some groups') :
    misread (address ++ '%' :: zone) = some groups' ∨
      (ListedIpv6 (addressValue groups) → ListedIpv6 (addressValue groups')) := by
  have hsound := isGroups_of_expandHost (expandHost_of_groups hgroups)
  have hsound' := isGroups_of_expandHost hread
  rw [misread, addressPart_append hpercent, zone?_append hpercent]
  unfold ipv6Groups at hgroups
  split at hgroups
  · next whole hsplit =>
    right
    obtain rfl : whole = address := by
      rw [← intercalate_split (List.cons_ne_nil ':' [':']) address, hsplit, List.intercalate_singleton]
    obtain ⟨hgroups, hlength⟩ := Option.filter_eq_some_iff.1 hgroups
    have hlength : groups.length = 8 := of_decide_eq_true hlength
    obtain ⟨segments, last, front, behind, hparts, hhex, hfront, rfl⟩ := exists_segments hgroups hlength
    obtain ⟨-, first, others, hhost, -⟩ := @split_zone whole zone [] whole hsplit
    obtain ⟨first', others', -, hpieces⟩ := exists_split_zone [':'] (List.cons_ne_nil _ _) (by decide) first
    have hstart : pieces (whole ++ '%' :: first) = segments ++ (last ++ '%' :: first') :: others' := by
      rw [pieces_append_percent]
      exact hpieces _ _ _ hparts
    -- the first groups are those of the address
    have hsame (tail : List (List Char)) (h : Reads (segments ++ tail) groups') :
        ListedIpv6 (addressValue (front ++ behind)) → ListedIpv6 (addressValue groups') := by
      obtain ⟨front', behind', rfl, hfront', -⟩ := forall₂_append_cases h
      obtain rfl := Reads.unique (reads_of_hexGroups hhex) hfront'
      exact (listedIpv6_congr hfront hsound hsound').1
    rw [expandHost, hhost] at hread
    rcases others with _ | ⟨right, _ | ⟨_, _⟩⟩
    · obtain ⟨-, -, hreads⟩ := readParts_eq_some_iff.1 hread
      rw [partsOf_false, hstart] at hreads
      exact hsame _ hreads
    · obtain ⟨-, -, hreads⟩ := readParts_eq_some_iff.1 hread
      rw [partsOf, if_pos rfl, hstart, List.append_assoc, List.append_assoc] at hreads
      exact hsame _ hreads
    · cases hread
  · next left right hsplit =>
    obtain ⟨l, hl, hgroups⟩ := Option.bind_eq_some_iff.1 hgroups
    obtain ⟨r, hr, hgroups⟩ := Option.bind_eq_some_iff.1 hgroups
    split at hgroups
    · next hcount =>
      obtain rfl := Option.some.inj hgroups
      obtain ⟨zone', first, others, hhost, hright, hzone', hsame⟩ := @split_zone address zone [left] right hsplit
      rw [expandHost, hhost] at hread
      rcases others with _ | ⟨_, _⟩
      · by_cases hcolon : ':' ∈ zone
        · left
          rw [hsplit]
          dsimp only
          rw [if_pos hcolon, hright right (split_right hsplit)]
          exact hread
        · right
          obtain rfl := hsame hcolon
          rw [split_double_of_not_mem hcolon] at hzone'
          obtain rfl := (List.cons.inj hzone').1
          obtain ⟨-, -, hreads⟩ := readParts_eq_some_iff.1 hread
          rw [partsOf, if_pos rfl] at hreads
          obtain ⟨front, r', rfl, hfront, hr'⟩ := forall₂_append_cases hreads
          have hleft : Reads (pieces left) l := reads_of_hexGroups (mapM_eq_some_iff.1 hl)
          obtain rfl := Reads.unique (List.rel_append hleft (reads_zeros _)) hfront
          have hlong := hsound.length
          have hlong' := hsound'.length
          simp only [List.length_append, List.length_replicate] at hlong hlong'
          obtain rfl | ⟨front, high, low, group, rfl, rfl⟩ := reads_zone hcolon hr hr'
          · have hzeros : 8 - ((pieces left).length + (pieces (right ++ '%' :: zone')).length) =
                8 - l.length - r'.length := by omega
            rw [hzeros]
            exact id
          · -- the dotted end counts as one group, so there is a zero more
            simp only [List.length_append, List.length_cons, List.length_nil] at hlong hlong' hcount
            obtain ⟨n, hn⟩ : ∃ n, 8 - l.length - (front ++ [high, low]).length = n + 1 := by
              rw [List.length_append]
              exact Nat.exists_eq_succ_of_ne_zero (by simp only [List.length_cons, List.length_nil]; omega)
            have hn' : 8 - ((pieces left).length + (pieces (right ++ '%' :: zone')).length) = n + 2 := by
              rw [List.length_append, List.length_cons, List.length_cons, List.length_nil] at hn
              omega
            rw [hn, List.replicate_succ] at hsound ⊢
            rw [hn', List.replicate_succ, List.replicate_succ] at hsound' ⊢
            have hsix : (l ++ 0 :: (List.replicate n 0 ++ front)).length = 6 := by
              rw [List.length_append, List.length_cons, List.length_append, List.length_replicate]
              rw [List.length_append, List.length_cons, List.length_cons, List.length_nil] at hn
              omega
            have hshift := @listedIpv6_shift l (List.replicate n 0 ++ front) [high, low] [group] hsix
            simp only [List.append_assoc, List.cons_append] at hshift hsound hsound' ⊢
            exact hshift hsound hsound'
      · cases hread
    · cases hgroups
  · cases hgroups

end WebFetch
