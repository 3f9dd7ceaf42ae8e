import NexusPilot.Text.CommaList
import NexusPilot.Text.Split
import NexusPilot.Text.Std

/-!
# The addresses that a fetch may not reach

`isBlockedWebFetchHostname` looks at the text of an address: it cuts it at `.` and `:`, reads the pieces as numbers and
compares them with the ranges of `blockedIpv4Ranges` and `blockedIpv6Ranges` under a mask. Which texts are addresses is
said by `isIP` of the runtime (`ipv4Segments`, `ipv6Groups`), which knows no brackets but lets a zone follow.

An IPv6 address is the list of its eight groups. What JavaScript reads of a piece is `parseInt`: the digits in front,
whatever comes behind.
-/

namespace WebFetch

open Text

/-! ### Numbers -/

/-- The value of a digit, up to hexadecimal ones. -/
def digitValue? (c : Char) : Option ℕ :=
  if c.isDigit then some (c.toNat - 48)
  else if 97 ≤ c.toNat ∧ c.toNat ≤ 102 then some (c.toNat - 87)
  else if 65 ≤ c.toNat ∧ c.toNat ≤ 70 then some (c.toNat - 55)
  else none

/-- A digit of the radix. -/
def isDigitOf (radix : ℕ) (c : Char) : Bool :=
  (digitValue? c).any (· < radix)

/-- The number that digits denote. -/
def digitsValue (radix : ℕ) (digits : List Char) : ℕ :=
  digits.foldl (fun n c ↦ radix * n + (digitValue? c).getD 0) 0

/-- `Number.parseInt`, for the radices 10 and 16; `NaN` is `none`. -/
def parseInt (radix : ℕ) (text : List Char) : Option ℤ :=
  let trimmed := text.dropWhile isScriptSpace
  let signed := trimmed.head? = some '-' ∨ trimmed.head? = some '+'
  let unsigned := if signed then trimmed.tail else trimmed
  let hexMark := radix = 16 ∧ unsigned.head? = some '0' ∧ (unsigned[1]? = some 'x' ∨ unsigned[1]? = some 'X')
  let digits := (if hexMark then unsigned.drop 2 else unsigned).takeWhile (isDigitOf radix)
  if digits = [] then none
  else if trimmed.head? = some '-' then some (-(digitsValue radix digits : ℤ))
  else some (digitsValue radix digits)

/-! ### The addresses of the runtime -/

/-- A number up to 255 without zeros in front. -/
def isV4Segment (s : List Char) : Bool :=
  s ≠ [] ∧ (∀ c ∈ s, isDigitOf 10 c = true) ∧ (s.length = 1 ∨ s.head? ≠ some '0') ∧ digitsValue 10 s ≤ 255

/-- The four numbers of an IPv4 address. -/
def ipv4Segments (s : List Char) : Option (ℕ × ℕ × ℕ × ℕ) :=
  match split ['.'] s with
  | [a, b, c, d] =>
    if isV4Segment a ∧ isV4Segment b ∧ isV4Segment c ∧ isV4Segment d then
      some (digitsValue 10 a, digitsValue 10 b, digitsValue 10 c, digitsValue 10 d)
    else none
  | _ => none

/-- One to four hexadecimal digits. -/
def isHexSegment (s : List Char) : Bool :=
  1 ≤ s.length ∧ s.length ≤ 4 ∧ ∀ c ∈ s, isDigitOf 16 c = true

/-- The pieces between colons. -/
def pieces (s : List Char) : List (List Char) :=
  if s = [] then [] else split [':'] s

def hexGroup (piece : List Char) : Option ℕ :=
  if isHexSegment piece then some (digitsValue 16 piece) else none

/-- The groups of some pieces, of which the last may be an IPv4 address, for two groups. -/
def groupsOf : List (List Char) → Option (List ℕ)
  | [] => some []
  | [piece] =>
    match ipv4Segments piece with
    | some (a, b, c, d) => some [a * 256 + b, c * 256 + d]
    | none => (hexGroup piece).map ([·])
  | piece :: others => (hexGroup piece).bind fun group ↦ (groupsOf others).map (group :: ·)

/-- The eight groups of an IPv6 address without a zone. `::` stands for one or more groups of zero. -/
def ipv6Groups (address : List Char) : Option (List ℕ) :=
  match split [':', ':'] address with
  | [whole] => (groupsOf (pieces whole)).filter (·.length = 8)
  | [left, right] =>
    ((pieces left).mapM hexGroup).bind fun l ↦
      (groupsOf (pieces right)).bind fun r ↦
        if l.length + r.length ≤ 7 then some (l ++ List.replicate (8 - l.length - r.length) 0 ++ r) else none
  | _ => none

/-- A zone: letters, digits, `-`, `.` and `:`. -/
def isZone (s : List Char) : Bool :=
  s ≠ [] ∧ ∀ c ∈ s, c.isAlphanum = true ∨ c = '-' ∨ c = '.' ∨ c = ':'

/-- What stands before the first `%`. -/
def addressPart (s : List Char) : List Char :=
  s.takeWhile (· ≠ '%')

/-- What stands behind it, if there is one. -/
def zone? (s : List Char) : Option (List Char) :=
  match s.dropWhile (· ≠ '%') with
  | [] => none
  | _ :: zone => some zone

/-- The groups of an IPv6 address that may have a zone. -/
def ipv6Value (s : List Char) : Option (List ℕ) :=
  if (zone? s).all isZone then ipv6Groups (addressPart s) else none

/-- `isIP` of the runtime. -/
def isIP (s : List Char) : ℕ :=
  if (ipv4Segments s).isSome then 4 else if (ipv6Value s).isSome then 6 else 0

/-! ### IPv4 -/

/-- `normalizeHostname`; host names are ASCII. -/
def normalizeHostname (hostname : List Char) : List Char :=
  let lower := hostname.map Char.toLower
  let opened := if lower.head? = some '[' then lower.tail else lower
  if opened.getLast? = some ']' then opened.dropLast else opened

/-- `ipv4ToNumber`. -/
def ipv4ToNumber (address : List Char) : BitVec 32 :=
  ((split ['.'] address).map (parseInt 10)).foldl
    (fun result part ↦ result <<< 8 ||| BitVec.ofInt 32 (part.getD 0)) 0

/-- `isIpv4InCidr`. -/
def isIpv4InCidr (address : BitVec 32) (base : List Char) (prefixLength : ℕ) : Bool :=
  let mask : BitVec 32 := if prefixLength = 0 then 0 else 0xffffffff#32 <<< (32 - prefixLength)
  address &&& mask == ipv4ToNumber base &&& mask

/-- The ranges of `isBlockedWebFetchHostname`. -/
def blockedIpv4Ranges : List (List Char × ℕ) :=
  [("0.0.0.0".toList, 8), ("10.0.0.0".toList, 8), ("100.64.0.0".toList, 10), ("127.0.0.0".toList, 8),
    ("169.254.0.0".toList, 16), ("172.16.0.0".toList, 12), ("192.0.0.0".toList, 24), ("192.0.2.0".toList, 24),
    ("192.88.99.0".toList, 24), ("192.168.0.0".toList, 16), ("198.18.0.0".toList, 15), ("198.51.100.0".toList, 24),
    ("203.0.113.0".toList, 24), ("224.0.0.0".toList, 4), ("240.0.0.0".toList, 4)]

/-! ### IPv6 -/

/-- The pattern `\d+\.\d+\.\d+\.\d+`. -/
def isDotted (s : List Char) : Bool :=
  (split ['.'] s).length = 4 ∧ ∀ part ∈ split ['.'] s, part ≠ [] ∧ ∀ c ∈ part, isDigitOf 10 c = true

/-- `toString(16)`. -/
def hexText (n : ℕ) : List Char :=
  Nat.toDigits 16 n

/-- The dotted end of an address as two groups, in `expandIpv6`. The text is one that `isIP` accepts, so there is no end
of a line in it. -/
def embedIpv4 (host : List Char) : List Char :=
  let parts := split [':'] host
  let before := List.intercalate [':'] parts.dropLast
  let last := parts.getLastD []
  if 2 ≤ parts.length ∧ before ≠ [] ∧ isDotted last then
    let ipv4 := ipv4ToNumber last
    before ++ ':' :: hexText ((ipv4 >>> 16) &&& 0xffff#32).toNat ++ ':' :: hexText (ipv4 &&& 0xffff#32).toNat
  else host

/-- The groups of the parts before and behind `::`, in `expandIpv6`. -/
def readParts (left right : List (List Char)) (compressed : Bool) : Option (List ℕ) :=
  let count := left.length + right.length
  if compressed ∧ 8 < count then none
  else
    let parts := if compressed then left ++ List.replicate (8 - count) ['0'] ++ right else left
    if parts.length ≠ 8 then none
    else
      ((parts.mapM (parseInt 16)).filter fun parsed ↦ parsed.all fun part ↦ 0 ≤ part ∧ part ≤ 0xffff).map
        (·.map Int.toNat)

/-- `expandIpv6`. -/
def expandIpv6 (hostname : List Char) : Option (List ℕ) :=
  match split [':', ':'] (embedIpv4 (normalizeHostname hostname)) with
  | [left] => readParts (pieces left) [] false
  | [left, right] => readParts (pieces left) (pieces right) true
  | _ => none

/-- The loop of `isIpv6InCidr`. -/
def groupsInCidr (remaining : ℕ) : List ℕ → List ℕ → Bool
  | group :: address, base :: bases =>
    let bits := min remaining 16
    let mask := 0xffff <<< (16 - bits) &&& 0xffff
    if bits = 0 then true
    else if group &&& mask ≠ base &&& mask then false
    else groupsInCidr (remaining - bits) address bases
  | _, _ => true

/-- `isIpv6InCidr`. -/
def isIpv6InCidr (address : List ℕ) (base : List Char) (prefixLength : ℕ) : Bool :=
  match expandIpv6 base with
  | none => false
  | some baseAddress => groupsInCidr prefixLength address baseAddress

/-- The ranges of `isBlockedIpv6`. -/
def blockedIpv6Ranges : List (List Char × ℕ) :=
  [("0064:ff9b:0000:0000:0000:0000:0000:0000".toList, 96), ("0064:ff9b:0001:0000:0000:0000:0000:0000".toList, 48),
    ("0000:0000:0000:0000:0000:0000:0000:0000".toList, 8), ("0100:0000:0000:0000:0000:0000:0000:0000".toList, 64),
    ("2001:0000:0000:0000:0000:0000:0000:0000".toList, 23), ("2001:0002:0000:0000:0000:0000:0000:0000".toList, 48),
    ("2001:0db8:0000:0000:0000:0000:0000:0000".toList, 32), ("2002:0000:0000:0000:0000:0000:0000:0000".toList, 16),
    ("fc00:0000:0000:0000:0000:0000:0000:0000".toList, 7), ("fe80:0000:0000:0000:0000:0000:0000:0000".toList, 10),
    ("ff00:0000:0000:0000:0000:0000:0000:0000".toList, 8)]

/-- `parseIpv4MappedIpv6`. -/
def parseIpv4MappedIpv6 (hostname : List Char) : Option (List Char) :=
  let start := "::ffff:".toList
  let behind := hostname.drop start.length
  if start <+: hostname ∧ isDotted behind then some behind
  else if start <+: hostname.map Char.toLower then
    match split [':'] behind with
    | [high, low] =>
      if isHexSegment high ∧ isHexSegment low then
        let high := digitsValue 16 high
        let low := digitsValue 16 low
        some (List.intercalate ['.']
          ([high / 256 % 256, high % 256, low / 256 % 256, low % 256].map (Nat.toDigits 10)))
      else none
    | _ => none
  else none

/-! ### Blocking -/

/-- `isBlockedWebFetchHostname`, where IPv6 addresses are judged by an argument. -/
def isBlockedWith (isBlockedIpv6 : List Char → Bool) (hostname : List Char) : Bool :=
  let host := normalizeHostname hostname
  if host = "localhost".toList ∨ ".localhost".toList <:+ host then true
  else if '.' ∉ host ∧ isIP host = 0 then true
  else if isIP host = 6 then isBlockedIpv6 host
  else if isIP host ≠ 4 then false
  else blockedIpv4Ranges.any fun range ↦ isIpv4InCidr (ipv4ToNumber host) range.1 range.2

/-- `isBlockedIpv6`. What is mapped is a dotted text, so the blocking of it does not come back here. -/
def isBlockedIpv6 (hostname : List Char) : Bool :=
  let host := normalizeHostname hostname
  match parseIpv4MappedIpv6 host with
  | some mappedIpv4 => isBlockedWith (fun _ ↦ false) mappedIpv4
  | none =>
    if host = "::".toList ∨ host = "::1".toList then true
    else
      match expandIpv6 host with
      | none => true
      | some normalized => blockedIpv6Ranges.any fun range ↦ isIpv6InCidr normalized range.1 range.2

/-- `isBlockedWebFetchHostname`. -/
def isBlockedWebFetchHostname (hostname : List Char) : Bool :=
  isBlockedWith isBlockedIpv6 hostname

/-- `isTunFakeIpAddress`. -/
def isTunFakeIpAddress (address : List Char) : Bool :=
  let host := normalizeHostname address
  if isIP host = 4 then isIpv4InCidr (ipv4ToNumber host) "198.18.0.0".toList 15
  else if isIP host ≠ 6 then false
  else
    match expandIpv6 host with
    | none => false
    | some expanded => isIpv6InCidr expanded "fdfe:dcba:9876:0000:0000:0000:0000:0000".toList 64

end WebFetch
