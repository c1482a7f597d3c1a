import WireguardMesh.Foundation.Text

/-! # IP addresses

`net/netip.Addr` with its parser and printer. The zero value is the invalid address;
an IPv6 address may carry a zone. The parsers are the loops of the package, with the
bytes or octets collected so far as arguments.
-/

namespace Net

open GoText

/-- `netip.Addr`. -/
inductive Addr
  | zero
  | v4 (bits : BitVec 32)
  | v6 (bits : BitVec 128) (zone : List Char)
deriving DecidableEq

namespace Addr

/-- `Addr.Is4`. -/
def is4 : Addr → Bool
  | .v4 _ => true
  | _ => false

/-- `Addr.Is6`. -/
def is6 : Addr → Bool
  | .v6 _ _ => true
  | _ => false

/-- `Addr.BitLen`. -/
def bitLen : Addr → Nat
  | .zero => 0
  | .v4 _ => 32
  | .v6 _ _ => 128

/-- The octet of an IPv4 address at a position, most significant first. -/
def octet (bits : BitVec 32) (i : Nat) : Nat :=
  bits.toNat / 256 ^ (3 - i) % 256

/-- `Addr.v6u16`: the 16-bit group of an IPv6 address at a position. -/
def group (bits : BitVec 128) (i : Nat) : Nat :=
  bits.toNat / 65536 ^ (7 - i) % 65536

/-- `Addr.Is4In6`: whether the address is in `::ffff:0:0/96`. -/
def is4In6 : Addr → Bool
  | .v6 bits _ => bits.toNat / 2 ^ 32 = 0xffff
  | _ => false

/-- `Addr.Unmap`: an IPv4-mapped IPv6 address as an IPv4 address. -/
def unmap : Addr → Addr
  | .v6 bits zone =>
    if (Addr.v6 bits zone).is4In6 then .v4 (bits.truncate 32) else .v6 bits zone
  | addr => addr

/-- `Addr.IsLoopback`. -/
def isLoopback (addr : Addr) : Bool :=
  match addr.unmap with
  | .zero => false
  | .v4 a => octet a 0 = 127
  | .v6 a _ => a = 1

/-- `Addr.IsMulticast`. -/
def isMulticast (addr : Addr) : Bool :=
  match addr.unmap with
  | .zero => false
  | .v4 a => octet a 0 / 16 = 14
  | .v6 a _ => group a 0 / 256 = 0xff

/-- `Addr.IsLinkLocalUnicast`. -/
def isLinkLocalUnicast (addr : Addr) : Bool :=
  match addr.unmap with
  | .zero => false
  | .v4 a => octet a 0 = 169 ∧ octet a 1 = 254
  | .v6 a _ => group a 0 / 64 = 0xfe80 / 64

/-- `Addr.IsPrivate`. -/
def isPrivate (addr : Addr) : Bool :=
  match addr.unmap with
  | .zero => false
  | .v4 a => octet a 0 = 10 ∨ (octet a 0 = 172 ∧ octet a 1 / 16 = 1) ∨
      (octet a 0 = 192 ∧ octet a 1 = 168)
  | .v6 a _ => group a 0 / 512 = 0xfc00 / 512

/-- `Addr.IsGlobalUnicast`: no unspecified, broadcast, loopback, multicast or link-local
address. -/
def isGlobalUnicast (addr : Addr) : Bool :=
  match addr.unmap with
  | .zero => false
  | ip => ip ≠ .v4 0 ∧ ip ≠ .v4 0xffffffff ∧ ip ≠ .v6 0 [] ∧ ¬ ip.isLoopback ∧ ¬ ip.isMulticast ∧
      ¬ ip.isLinkLocalUnicast

/-- The octets of an IPv4 address from the four values the parser collects. -/
def ofOctets (a b c d : Nat) : BitVec 32 :=
  BitVec.ofNat 32 (((a * 256 + b) * 256 + c) * 256 + d)

/-- The IPv6 address with the given big-endian bytes. -/
def ofBytes (bytes : List Nat) : BitVec 128 :=
  BitVec.ofNat 128 (bytes.foldl (fun value byte => value * 256 + byte) 0)

end Addr

/-! ## Parsing -/

/-- `netip.parseIPv4Fields`: the loop over a dotted quad, with the value and the number of digits
of the current octet and the octets already read. -/
def parseIPv4Fields : List Char → Nat → Nat → List Nat → Option (List Nat)
  | [], value, _, fields => if fields.length < 3 then none else some (fields ++ [value])
  | c :: s, value, digits, fields =>
    if c.isDigit then
      if digits = 1 ∧ value = 0 then none
      else
        let value := value * 10 + (c.toNat - '0'.toNat)
        if value > 255 then none else parseIPv4Fields s value (digits + 1) fields
    else if c = '.' then
      -- `.1.2.3`, `1.2.3.` and `1..2.3` have an octet without digits.
      if digits = 0 ∨ s = [] then none
      else if fields.length = 3 then none
      else parseIPv4Fields s 0 0 (fields ++ [value])
    else none

/-- `netip.parseIPv4`. -/
def parseIPv4 (s : List Char) : Option (BitVec 32) :=
  match parseIPv4Fields s 0 0 [] with
  | some [a, b, c, d] => some (Addr.ofOctets a b c d)
  | _ => none

def hexValue (c : Char) : Option Nat :=
  if '0' ≤ c ∧ c ≤ '9' then some (c.toNat - '0'.toNat)
  else if 'a' ≤ c ∧ c ≤ 'f' then some (c.toNat - 'a'.toNat + 10)
  else if 'A' ≤ c ∧ c ≤ 'F' then some (c.toNat - 'A'.toNat + 10)
  else none

/-- The inner loop of `netip.parseIPv6`: the hexadecimal digits of one group, with their number and
value and the text after them. -/
def parseHexGroup : List Char → Nat → Nat → Option (Nat × Nat × List Char)
  | [], off, acc => some (off, acc, [])
  | c :: s, off, acc =>
    match hexValue c with
    | none => some (off, acc, c :: s)
    | some digit =>
      if off > 3 then none
      else if acc * 16 + digit > 65535 then none
      else parseHexGroup s (off + 1) (acc * 16 + digit)

/-- The outer loop of `netip.parseIPv6`, with the bytes already read and the position of the
ellipsis. An iteration reads a group of two bytes, so there are at most eight; text left over after
the last one is trailing garbage. -/
def parseIPv6Groups : Nat → List Char → List Nat → Option Nat → Option (List Nat × Option Nat)
  | 0, s, ip, ellipsis => if s = [] then some (ip, ellipsis) else none
  | fuel + 1, s, ip, ellipsis =>
    match parseHexGroup s 0 0 with
    | none => none
    | some (off, acc, rest) =>
      if off = 0 then none
      else match rest with
      | [] => some (ip ++ [acc / 256, acc % 256], ellipsis)
      | '.' :: _ =>
        -- The group may start an IPv4 address embedded in the last four bytes.
        if ellipsis = none ∧ ip.length ≠ 12 then none
        else if ip.length + 4 > 16 then none
        else (parseIPv4Fields s 0 0 []).map fun fields => (ip ++ fields, ellipsis)
      | [':'] => none
      | ':' :: ':' :: rest =>
        if ellipsis.isSome then none
        else if rest = [] then
          some (ip ++ [acc / 256, acc % 256], some (ip.length + 2))
        else parseIPv6Groups fuel rest (ip ++ [acc / 256, acc % 256]) (some (ip.length + 2))
      | ':' :: rest => parseIPv6Groups fuel rest (ip ++ [acc / 256, acc % 256]) ellipsis
      | _ => none

/-- The final step of `netip.parseIPv6`: zeros in place of the ellipsis. -/
def expandEllipsis (ip : List Nat) : Option Nat → Option (List Nat)
  | none => if ip.length < 16 then none else some ip
  | some at' =>
    if ip.length < 16 then
      some (ip.take at' ++ List.replicate (16 - ip.length) 0 ++ ip.drop at')
    else none

/-- `netip.parseIPv6` on the text before the zone. -/
def parseIPv6Bytes (s : List Char) : Option (List Nat) :=
  match s with
  | [':', ':'] => some (List.replicate 16 0)
  | ':' :: ':' :: s =>
    (parseIPv6Groups 8 s [] (some 0)).bind fun parts => expandEllipsis parts.1 parts.2
  | s => (parseIPv6Groups 8 s [] none).bind fun parts => expandEllipsis parts.1 parts.2

/-- `netip.parseIPv6`. -/
def parseIPv6 (s : List Char) : Option Addr :=
  match splitFirst '%' s with
  | none => (parseIPv6Bytes s).map fun bytes => .v6 (Addr.ofBytes bytes) []
  | some (text, zone) =>
    if zone = [] then none
    else (parseIPv6Bytes text).map fun bytes => .v6 (Addr.ofBytes bytes) zone

/-- `netip.ParseAddr`: the first of `.`, `:` and `%` decides the version. -/
def parseAddr (s : List Char) : Option Addr :=
  match s.find? (fun c => c = '.' ∨ c = ':' ∨ c = '%') with
  | some '.' => (parseIPv4 s).map .v4
  | some ':' => parseIPv6 s
  | _ => none

/-! ## Printing -/

/-- Texts joined by a separator. -/
def joinWith (sep : Char) : List (List Char) → List Char
  | [] => []
  | [s] => s
  | s :: rest => s ++ sep :: joinWith sep rest

/-- `Addr.string4`. -/
def string4 (bits : BitVec 32) : List Char :=
  joinWith '.' [itoa (Addr.octet bits 0), itoa (Addr.octet bits 1), itoa (Addr.octet bits 2),
    itoa (Addr.octet bits 3)]

/-- One round of the search of `Addr.appendTo6` for zero groups: the run at a position replaces a
shorter one. -/
def longerRun (groups : List Nat) (best : Option (Nat × Nat)) (i : Nat) : Option (Nat × Nat) :=
  let length := ((groups.drop i).takeWhile (fun group => decide (group = 0))).length
  if 2 ≤ length ∧ best.elim 0 (fun run => run.2 - run.1) < length then some (i, i + length)
  else best

/-- The first of the longest runs of at least two zero groups, as start and end, that
`Addr.appendTo6` compresses. -/
def zeroRun (groups : List Nat) : Option (Nat × Nat) :=
  (List.range 8).foldl (longerRun groups) none

def addrGroups (bits : BitVec 128) : List Nat :=
  (List.range 8).map (Addr.group bits)

def groupsText (groups : List Nat) : List Char :=
  joinWith ':' (groups.map (Nat.toDigits 16))

/-- `Addr.appendTo6` without the zone. -/
def string6 (bits : BitVec 128) : List Char :=
  let groups := addrGroups bits
  match zeroRun groups with
  | none => groupsText groups
  | some (start, stop) =>
    groupsText (groups.take start) ++ ':' :: ':' :: groupsText (groups.drop stop)

def zoneSuffix (zone : List Char) : List Char :=
  if zone = [] then [] else '%' :: zone

/-- `Addr.String`. -/
def Addr.string : Addr → List Char
  | .zero => "invalid IP".toList
  | .v4 bits => string4 bits
  | .v6 bits zone =>
    if (Addr.v6 bits zone).is4In6 then
      "::ffff:".toList ++ (string4 (bits.truncate 32) ++ zoneSuffix zone)
    else string6 bits ++ zoneSuffix zone

theorem Addr.string_of_not_is4In6 {bits : BitVec 128} {zone : List Char}
    (plain : ¬ (Addr.v6 bits zone).is4In6 = true) :
    (Addr.v6 bits zone).string = string6 bits ++ zoneSuffix zone :=
  if_neg plain

end Net
