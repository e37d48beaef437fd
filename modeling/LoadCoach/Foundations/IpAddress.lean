import LoadCoach.Foundations.Text

/-! # Internet addresses

The part of the module `ipaddress` the program uses: `ip_address` reads an address of either
version, a network says which addresses are in it, and `is_link_local` is one of its tables. -/

namespace Foundations

/-! ### Reading an address -/

/-- An address; that of version 6 may name a scope. -/
inductive IpAddress where
  | v4 (ip : BitVec 32)
  | v6 (ip : BitVec 128) (scopeId : Option String)
deriving DecidableEq

/-- The value of a digit, in a base up to 16. -/
def digit (base : ℕ) (c : Char) : Option ℕ :=
  let value :=
    if '0' ≤ c ∧ c ≤ '9' then some (c.toNat - '0'.toNat)
    else if 'a' ≤ c ∧ c ≤ 'f' then some (c.toNat - 'a'.toNat + 10)
    else if 'A' ≤ c ∧ c ≤ 'F' then some (c.toNat - 'A'.toNat + 10)
    else none
  value.filter (· < base)

/-- The value of some digits; there must be one at least. -/
def number (base : ℕ) (s : String) : Option ℕ :=
  if s = "" then none
  else (s.toList.mapM (digit base)).map (List.foldl (fun n d => base * n + d) 0)

/-- `_parse_octet`: up to three decimal digits without a leading zero. -/
def parseOctet (s : String) : Option ℕ :=
  if 3 < s.length ∨ (s ≠ "0" ∧ s.toList.head? = some '0') then none
  else (number 10 s).filter (· ≤ 255)

/-- `IPv4Address`: four octets. -/
def ipv4Address (s : String) : Option (BitVec 32) :=
  ((split '.' s).mapM parseOctet).bind fun octets =>
    if octets.length = 4 then
      some (BitVec.ofNat 32 (octets.foldl (fun n octet => 256 * n + octet) 0))
    else none

/-- `_parse_hextet`: up to four hexadecimal digits. -/
def parseHextet (s : String) : Option ℕ :=
  if 4 < s.length then none else number 16 s

/-- The parts of an address of version 6 as hextets: an address of version 4 at the end stands for
two of them, and an empty part is `none`. -/
def hextets (s : String) : Option (List (Option ℕ)) :=
  let parts := split ':' s
  let hextet := fun part => if part = "" then some none else (parseHextet part).map some
  if parts.length < 3 then none
  else
    match parts.getLast? with
    | some last =>
        if '.' ∈ last.toList then
          (parts.dropLast.mapM hextet).bind fun front =>
            (ipv4Address last).map fun ip =>
              front ++ [some (ip.toNat / 65536), some (ip.toNat % 65536)]
        else parts.mapM hextet
    | none => none

/-- The hextets on one side of a gap: the empty part at the outer end of the address is the other
half of a double colon, and then the only one of its side. -/
def side (parts : List (Option ℕ)) (outer : Option (Option ℕ)) : Option (List ℕ) :=
  if outer = some none then if parts.length = 1 then some [] else none
  else parts.mapM id

/-- `IPv6Address`, without its scope: eight hextets, or fewer around one gap. -/
def ipv6Ip (s : String) : Option (BitVec 128) :=
  (hextets s).bind fun parts =>
    let value := fun hextets : List ℕ =>
      BitVec.ofNat 128 (hextets.foldl (fun n hextet => 65536 * n + hextet) 0)
    let inner := (parts.drop 1).dropLast
    match (inner.filter fun part => part = none).length with
    | 0 => if parts.length = 8 then (parts.mapM id).map value else none
    | 1 =>
        let gap := 1 + inner.idxOf none
        let high := parts.take gap
        let low := parts.drop (gap + 1)
        (side high high.head?).bind fun high => (side low low.getLast?).bind fun low =>
          if parts.length ≤ 9 ∧ high.length + low.length < 8 then
            some (value (high ++ List.replicate (8 - (high.length + low.length)) 0 ++ low))
          else none
    | _ => none

/-- `ipaddress.ip_address`. -/
def ipAddress (s : String) : Option IpAddress :=
  if '/' ∈ s.toList then none
  else
    match ipv4Address s with
    | some ip => some (.v4 ip)
    | none =>
        let (address, scopeId) := partition '%' s
        if scopeId = some "" ∨ (scopeId.any fun scope => '%' ∈ scope.toList) then none
        else (ipv6Ip address).map fun ip => .v6 ip scopeId

/-! ### Networks -/

/-- A network: an address and the bits of it that count. -/
inductive IpNetwork where
  | v4 (networkAddress netmask : BitVec 32)
  | v6 (networkAddress netmask : BitVec 128)

/-- `address in network`. -/
def IpNetwork.contains : IpNetwork → IpAddress → Bool
  | .v4 networkAddress netmask, .v4 ip => ip &&& netmask == networkAddress
  | .v6 networkAddress netmask, .v6 ip _ => ip &&& netmask == networkAddress
  | _, _ => false

/-- The address of version 4 that one of version 6 stands for. -/
def ipv4Mapped (ip : BitVec 128) : Option (BitVec 32) :=
  if ip >>> 32 = 0xffff then some (ip.setWidth 32) else none

/-- `is_link_local`: `169.254.0.0/16` and `fe80::/10`. -/
def IpAddress.isLinkLocal : IpAddress → Bool
  | .v4 ip => linkLocal4 ip
  | .v6 ip _ =>
      match ipv4Mapped ip with
      | some ip => linkLocal4 ip
      | none => ip >>> 118 == 0x3fa
where
  linkLocal4 (ip : BitVec 32) : Bool := ip >>> 16 == 0xa9fe

end Foundations
