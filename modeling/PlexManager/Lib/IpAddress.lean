import PlexManager.Lib.TextCodec

/-!
# Internet addresses

Addresses of both versions, as far as `ipaddress` says of them where they are:
the networks that are set aside, and the addresses of version 4 that are written
into one of version 6.

## Main definitions

* `IPv4Address`, `IPv6Address`, `IpAddress`: Addresses.
* `Network`, `Network.contains`: A network by its prefix.
* `IPv4Address.isGlobal`, `IPv6Address.isGlobal`: Outside all that is set aside.
* `IPv6Address.ipv4Mapped`, `IPv6Address.sixtofour`, `IPv6Address.teredo`: What is
  written into an address.
* `ipAddress`: Addresses as they are written.
-/

namespace Ip

open TextCodec

abbrev IPv4Address := BitVec 32
abbrev IPv6Address := BitVec 128

inductive IpAddress where
  | v4 (address : IPv4Address)
  | v6 (address : IPv6Address)
  deriving DecidableEq, Repr

/-- A network: the addresses that agree with one in so many leading bits. -/
structure Network (w : Nat) where
  address : BitVec w
  prefixLength : Nat

def Network.contains {w : Nat} (network : Network w) (address : BitVec w) : Bool :=
  network.address >>> (w - network.prefixLength) = address >>> (w - network.prefixLength)

/-! ### Version 4 -/

namespace IPv4Address

def ofBytes (a b c d : BitVec 8) : IPv4Address := a ++ b ++ c ++ d

def privateNetworks : List (Network 32) :=
  [⟨ofBytes 0 0 0 0, 8⟩, ⟨ofBytes 10 0 0 0, 8⟩, ⟨ofBytes 127 0 0 0, 8⟩,
   ⟨ofBytes 169 254 0 0, 16⟩, ⟨ofBytes 172 16 0 0, 12⟩, ⟨ofBytes 192 0 0 0, 24⟩,
   ⟨ofBytes 192 0 0 170, 31⟩, ⟨ofBytes 192 0 2 0, 24⟩, ⟨ofBytes 192 168 0 0, 16⟩,
   ⟨ofBytes 198 18 0 0, 15⟩, ⟨ofBytes 198 51 100 0, 24⟩, ⟨ofBytes 203 0 113 0, 24⟩,
   ⟨ofBytes 240 0 0 0, 4⟩, ⟨ofBytes 255 255 255 255, 32⟩]

def privateNetworksExceptions : List (Network 32) :=
  [⟨ofBytes 192 0 0 9, 32⟩, ⟨ofBytes 192 0 0 10, 32⟩]

def publicNetwork : Network 32 := ⟨ofBytes 100 64 0 0, 10⟩

def multicastNetwork : Network 32 := ⟨ofBytes 224 0 0 0, 4⟩

variable (a : IPv4Address)

def isPrivate : Bool :=
  privateNetworks.any (·.contains a) && privateNetworksExceptions.all fun n => !n.contains a

def isGlobal : Bool := !publicNetwork.contains a && !isPrivate a

def isMulticast : Bool := multicastNetwork.contains a

end IPv4Address

/-! ### Version 6 -/

namespace IPv6Address

def privateNetworks : List (Network 128) :=
  [⟨0x00000000000000000000000000000001#128, 128⟩,
   ⟨0x00000000000000000000000000000000#128, 128⟩,
   ⟨0x00000000000000000000FFFF00000000#128, 96⟩,
   ⟨0x0064FF9B000100000000000000000000#128, 48⟩,
   ⟨0x01000000000000000000000000000000#128, 64⟩,
   ⟨0x20010000000000000000000000000000#128, 23⟩,
   ⟨0x20010DB8000000000000000000000000#128, 32⟩,
   ⟨0x20020000000000000000000000000000#128, 16⟩,
   ⟨0x3FFF0000000000000000000000000000#128, 20⟩,
   ⟨0xFC000000000000000000000000000000#128, 7⟩,
   ⟨0xFE800000000000000000000000000000#128, 10⟩]

def privateNetworksExceptions : List (Network 128) :=
  [⟨0x20010001000000000000000000000001#128, 128⟩,
   ⟨0x20010001000000000000000000000002#128, 128⟩,
   ⟨0x20010003000000000000000000000000#128, 32⟩,
   ⟨0x20010004011200000000000000000000#128, 48⟩,
   ⟨0x20010020000000000000000000000000#128, 28⟩,
   ⟨0x20010030000000000000000000000000#128, 28⟩]

def multicastNetwork : Network 128 := ⟨0xFF000000000000000000000000000000#128, 8⟩

variable (a : IPv6Address)

def ipv4Mapped : Option IPv4Address :=
  if a >>> 32 = 0xFFFF#128 then some (a.truncate 32) else none

def sixtofour : Option IPv4Address :=
  if a >>> 112 = 0x2002#128 then some ((a >>> 80).truncate 32) else none

/-- The server, and the client, which is written with its bits turned over. -/
def teredo : Option (IPv4Address × IPv4Address) :=
  if a >>> 96 = 0x20010000#128 then some ((a >>> 64).truncate 32, (~~~a).truncate 32) else none

def isGlobal (a : IPv6Address) : Bool :=
  match ipv4Mapped a with
  | some mapped => mapped.isGlobal
  | none => !(privateNetworks.any (·.contains a) &&
      privateNetworksExceptions.all fun n => !n.contains a)

def isMulticast (a : IPv6Address) : Bool :=
  match ipv4Mapped a with
  | some mapped => mapped.isMulticast
  | none => multicastNetwork.contains a

end IPv6Address

/-! ### As they are written -/

variable (s : Text)

/-- `_parse_octet`: at most three digits, and no zero in front. -/
def octet : Option (BitVec 8) :=
  if s.isEmpty || 3 < s.length || !s.all (fun c => '0' ≤ c && c ≤ '9') ||
      (s.head? = some '0' && s.length ≠ 1) then none
  else
    let n := s.foldl (fun n c => 10 * n + (c.toNat - '0'.toNat)) 0
    if 255 < n then none else some (BitVec.ofNat 8 n)

def ipv4Address : Option IPv4Address :=
  match (s.splitOn '.').mapM octet with
  | some [a, b, c, d] => some (IPv4Address.ofBytes a b c d)
  | _ => none

/-- `_parse_hextet`: at most four digits. -/
def hextet : Option (BitVec 16) :=
  if 4 < s.length || s.isEmpty then none
  else (s.mapM hexDigit).map fun digits => BitVec.ofNat 16 (digits.foldl (fun n d => 16 * n + d) 0)

/-- The parts between colons, where the last may be an address of version 4. -/
def hextets : Option (List (Option (BitVec 16))) :=
  let parts := s.splitOn ':'
  match parts.reverse with
  | last :: rest =>
      if last.contains '.' then do
        let v4 ← ipv4Address last
        let high ← rest.reverse.mapM part
        pure (high ++ [some (v4.extractLsb' 16 16), some (v4.extractLsb' 0 16)])
      else parts.mapM part
  | [] => none
where
  /-- An empty part may be where zeros were left out. -/
  part (s : Text) : Option (Option (BitVec 16)) :=
    if s.isEmpty then some none else (hextet s).map some

/-- Eight parts, or fewer with zeros for the one gap. A gap at an end shows as two
    empty parts. -/
def ipv6OfParts (parts : List (Option (BitVec 16))) : Option IPv6Address :=
  let gaps := (parts.drop 1).dropLast.count none
  if parts.length < 3 ∨ 9 < parts.length ∨ 1 < gaps then none
  else if gaps = 0 then
    if parts.length = 8 then (parts.mapM id).map join else none
  else
    let high := (parts.drop 1).takeWhile Option.isSome
    let low := parts.drop (high.length + 2)
    let high := ends (parts.take 1) high
    let low := (ends (low.reverse.take 1) (low.reverse.drop 1)).map List.reverse
    match high, low with
    | some high, some low =>
        if 8 ≤ high.length + low.length then none
        else
          let zeros := List.replicate (8 - (high.length + low.length)) (some 0#16)
          ((high ++ zeros ++ low).mapM id).map join
    | _, _ => none
where
  join (parts : List (BitVec 16)) : IPv6Address :=
    parts.foldl (fun n part => n <<< 16 ||| part.zeroExtend 128) 0
  /-- An empty part at an end stands beside the gap. -/
  ends (outer rest : List (Option (BitVec 16))) : Option (List (Option (BitVec 16))) :=
    if outer = [none] then if rest.isEmpty then some [] else none else some (outer ++ rest)

/-- `ip_address`, or `none` where it raises. A scope is passed over. -/
def ipAddress : Option IpAddress :=
  match ipv4Address s with
  | some a => some (.v4 a)
  | none =>
      let address := s.takeWhile (· ≠ '%')
      let scope := (s.drop address.length).tail
      if s.contains '%' && (scope.isEmpty || scope.contains '%') then none
      else ((hextets address).bind ipv6OfParts).map .v6

example : ipAddress "127.0.0.1".toList = some (.v4 (IPv4Address.ofBytes 127 0 0 1)) := by decide

end Ip
