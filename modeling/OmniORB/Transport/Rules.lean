import OmniORB.Context.Properties
import OmniORB.Library.BitPrefix
import OmniORB.Transport.NumericHosts

/-!
# Transport rules

`transportRules.cc`. An IPv4 address is the number that its octets spell, so that `htonl` does
nothing here; `&` and `==` see no difference. Where the source shifts by the width of the word,
reads a host that is not there or does not come back from a loop, a function here gives `none`.
-/

namespace OmniORB

open Library

/-! ### The system -/

/-- The addresses that numeric hosts stand for. -/
structure Numeric where
  inetAddr : List UInt8 → BitVec 32
  /-- The `sin6_addr` that `getAddrInfo` finds for an IPv6 address. -/
  sin6Addr : List UInt8 → Option (Vector (BitVec 8) 16)

/-- What names resolve to, and the addresses of this host's interfaces. -/
structure Hosts where
  /-- `getAddrInfo`, as strings; none at all where it gives a null pointer. -/
  getAddrInfo : List UInt8 → List (List UInt8)
  /-- `getInterfaceAddress("giop:tcp")` -/
  interfaces : Option (List (List UInt8))

/-! ### Rules -/

/-- `transportRules::Rule` and its classes. -/
inductive Rule where
  | matchAll (addressMask : List UInt8)
  | localHost (addressMask : List UInt8)
  | ipv4 (addressMask : List UInt8) (network netmask : BitVec 32)
  | ipv6 (addressMask : List UInt8) (network : Vector (BitVec 8) 16) (bits : ℕ)
  deriving DecidableEq

def Rule.addressMask : Rule → List UInt8
  | .matchAll m => m
  | .localHost m => m
  | .ipv4 m _ _ => m
  | .ipv6 m _ _ => m

structure RuleActionPair where
  rule : Rule
  action : List (List UInt8)
  deriving DecidableEq

/-- What is left of an endpoint behind its second colon. -/
def afterTransport (endpoint : List UInt8) : Option (List UInt8) :=
  let p := endpoint.dropWhile (· ≠ 0x3a)
  let q := (p.drop 1).dropWhile (· ≠ 0x3a)
  if p = [] ∨ q = [] then none else some (q.drop 1)

section Match

variable (num : Numeric) (hosts : Hosts)

/-- The address that a host is taken for, if any. -/
def hostAddress (host : List UInt8) : Option (List UInt8) :=
  if isip4addr host then some host
  else if isip6addr host then
    if foldCase (host.take 7) = ascii "::ffff:" ∧ isip4addr (host.drop 7) then some (host.drop 7)
    else some host
  else (hosts.getAddrInfo host).head?

/-- `extractHost`. It reads the host that `extractHostPort` gives without a look at whether there is
one. -/
def extractHost (endpoint : List UInt8) : Option (Option (List UInt8)) :=
  match afterTransport endpoint with
  | some p => (extractHostPort p).map fun a => hostAddress hosts a.host.octets
  | none => some none

/-- The endpoint is one of the local transport. -/
def isUnix (endpoint : List UInt8) : Bool := startsWith (ascii "giop:unix:") endpoint

/-- `builtinLocalHostRule::match` -/
def matchLocalHost (endpoint : List UInt8) : Option Bool :=
  if isUnix endpoint then some true
  else (extractHost hosts endpoint).map fun host =>
    match host, hosts.interfaces with
    | some host, some ifaddrs => ifaddrs.contains host
    | _, _ => false

/-- `builtinIPv4Rule::matchAddr` -/
def matchAddr4 (network netmask : BitVec 32) (ipv4 : List UInt8) : Bool :=
  isip4addr ipv4 && network = num.inetAddr ipv4 &&& netmask

/-- `builtinIPv4Rule::match` -/
def matchIPv4 (network netmask : BitVec 32) (endpoint : List UInt8) : Option Bool :=
  if isUnix endpoint then
    match hosts.interfaces with
    | some ifaddrs => some (ifaddrs.any (matchAddr4 num network netmask))
    | none => some false
  else (extractHost hosts endpoint).map fun ipv4 =>
    match ipv4 with
    | some ipv4 => matchAddr4 num network netmask ipv4
    | none => false

/-- The loop over the octets in `builtinIPv6Rule::matchAddr`, and the comparison after it. -/
def sameBits : List (BitVec 8) → List (BitVec 8) → ℕ → Bool
  | n :: network, b :: bytes, bits =>
    if 7 < bits then n = b && sameBits network bytes (bits - 8)
    else
      let mask := 0xff#8 <<< (8 - bits)
      bits = 0 || n &&& mask = b &&& mask
  | _, _, _ => true

/-- `builtinIPv6Rule::matchAddr` -/
def matchAddr6 (network : Vector (BitVec 8) 16) (bits : ℕ) (ipv6 : List UInt8) : Bool :=
  isip6addr ipv6 &&
    match num.sin6Addr ipv6 with
    | some bytes => sameBits network.toList bytes.toList bits
    | none => false

/-- The loop of `builtinIPv6Rule::match` over the interfaces, for some steps: it does not advance
`i`. -/
def interfaceLoop6 (network : Vector (BitVec 8) 16) (bits : ℕ) :
    ℕ → List (List UInt8) → Option Bool
  | 0, _ => none
  | _ + 1, [] => some false
  | steps + 1, i :: ifaddrs =>
    if matchAddr6 num network bits i then some true
    else interfaceLoop6 network bits steps (i :: ifaddrs)

/-- `builtinIPv6Rule::match` -/
def matchIPv6 (steps : ℕ) (network : Vector (BitVec 8) 16) (bits : ℕ) (endpoint : List UInt8) :
    Option Bool :=
  if isUnix endpoint then
    match hosts.interfaces with
    | some ifaddrs => interfaceLoop6 num network bits steps ifaddrs
    | none => some false
  else (extractHost hosts endpoint).map fun ipv6 =>
    match ipv6 with
    | some ipv6 => matchAddr6 num network bits ipv6
    | none => false

/-- `Rule::match`, with so many steps for its loop. -/
def Rule.matchEndpoint (steps : ℕ) (endpoint : List UInt8) : Rule → Option Bool
  | .matchAll _ => some true
  | .localHost _ => matchLocalHost hosts endpoint
  | .ipv4 _ network netmask => matchIPv4 num hosts network netmask endpoint
  | .ipv6 _ network bits => matchIPv6 num hosts steps network bits endpoint

/-- The rule's `match` comes back, with this result. -/
def Rule.Returns (r : Rule) (endpoint : List UInt8) (b : Bool) : Prop :=
  ∃ steps, r.matchEndpoint num hosts steps endpoint = some b

/-- The loop of `transportRules::match`, from the rule of this priority on: the actions and the
priority of the rule that matches. -/
def matchRules (steps : ℕ) (endpoint : List UInt8) :
    List RuleActionPair → ℕ → Option (Option (List (List UInt8) × ℕ))
  | [], _ => some none
  | ra :: rules, priority =>
    match ra.rule.matchEndpoint num hosts steps endpoint with
    | none => none
    | some true => some (some (ra.action, priority))
    | some false => matchRules steps endpoint rules (priority + 1)

end Match

/-! ### Address masks -/

section Create

variable (num : Numeric)

/-- The text in front of the slash. -/
def beforeSlash (address : List UInt8) : List UInt8 := address.takeWhile (· ≠ 0x2f)

/-- The text behind the slash, if there is one. -/
def afterSlash (address : List UInt8) : Option (List UInt8) :=
  let mask := address.dropWhile (· ≠ 0x2f)
  if mask = [] then none else some (mask.drop 1)

/-- `0xffffffffU << (32 - prefix)`, which has no meaning for a shift by 32. -/
def shiftedMask (bits : ℕ) : Option (BitVec 32) :=
  if 32 - bits < 32 then some (BitVec.allOnes 32 <<< (32 - bits)) else none

/-- `parseIPv4AddressMask`: the network and the mask, or that it is no such mask. -/
def parseIPv4AddressMask (address : List UInt8) : Option (Option (BitVec 32 × BitVec 32)) :=
  let cp := beforeSlash address
  let mask := (afterSlash address).getD (ascii "255.255.255.255")
  if isip4addr cp then
    if isip4addr mask then some (some (num.inetAddr cp, num.inetAddr mask))
    else
      let bits := ulong (strtoulBase 10 mask).1
      if (strtoulBase 10 mask).2 ≠ [] ∨ 32 < bits then some none
      else (shiftedMask bits).map fun netmask => some (num.inetAddr cp, netmask)
  else some none

/-- The prefix of an IPv6 address mask. -/
def parsePrefix6 : Option (List UInt8) → Option ℕ
  | some mask =>
    let bits := ulong (strtoulBase 10 mask).1
    if mask = [] ∨ (strtoulBase 10 mask).2 ≠ [] ∨ 128 < bits then none else some bits
  | none => some 128

/-- `parseIPv6AddressMask` -/
def parseIPv6AddressMask (address : List UInt8) : Option (Vector (BitVec 8) 16 × ℕ) :=
  (parsePrefix6 (afterSlash address)).bind fun bits =>
    if isip6addr (beforeSlash address) then
      (num.sin6Addr (beforeSlash address)).map fun network => (network, bits)
    else none

/-- The rule that an address mask gives without a look at names, if any. -/
def directRule (addressMask : List UInt8) : Option (Option Rule) :=
  if addressMask = ascii "*" then some (some (.matchAll addressMask))
  else if addressMask = ascii "localhost" then some (some (.localHost addressMask))
  else
    (parseIPv4AddressMask num addressMask).map fun parsed =>
      match parsed with
      | some (network, netmask) => some (.ipv4 addressMask network netmask)
      | none =>
        (parseIPv6AddressMask num addressMask).map fun parsed =>
          .ipv6 addressMask parsed.1 parsed.2

variable (hosts : Hosts)

/-- `builtinRuleType::createRules`, where names may resolve to names so many times: whether a rule
was added, and the list. -/
def createRules : ℕ → List UInt8 → List (List UInt8) → List RuleActionPair →
    Option (Bool × List RuleActionPair)
  | 0, _, _, _ => none
  | depth + 1, addressMask, actions, tr =>
    (directRule num addressMask).bind fun direct =>
      match direct with
      | some rule => some (true, tr ++ [⟨rule, actions⟩])
      | none =>
        (hosts.getAddrInfo addressMask).foldlM
          (fun (added : Bool × List RuleActionPair) addr =>
            (createRules depth addr actions added.2).map fun r => (r.1 || added.1, r.2))
          (false, tr)

/-! ### Rule strings -/

/-- The parts of a rule string. -/
structure RuleString where
  resetList : Bool
  addressMask : List UInt8
  actions : List (List UInt8)
  deriving DecidableEq

/-- The octets up to the next white space. -/
def word (q : List UInt8) : List UInt8 := q.takeWhile fun c => !isSpace c

/-- The loop over the actions that a comma follows, and the last action. Every step leaves less of
the text. -/
def parseActions : ℕ → List UInt8 → List (List UInt8) → Option (List (List UInt8))
  | 0, _, _ => none
  | steps + 1, q, actions =>
    if 0x2c ∈ q ∧ peek q ≠ 0x2c then
      parseActions steps (((q.dropWhile (· ≠ 0x2c)).drop 1).dropWhile isSpace)
        (actions ++ [word (q.takeWhile (· ≠ 0x2c))])
    else if peek q = 0x2c then none
    else if q = [] then some actions
    else some (actions ++ [word q])

/-- `parseAndAddRuleString` up to where it changes the list. -/
def splitRuleString (rs : List UInt8) : Option RuleString :=
  let q := rs.dropWhile isSpace
  let p := q.dropWhile fun c => !isSpace c
  let resetList := peek (word q) = 0x5e
  let addressMask := if resetList then (word q).drop 1 else word q
  let actions := (p.drop 1).dropWhile isSpace
  if p = [] then none
  else if resetList ∧ addressMask = [] then none
  else (parseActions (actions.length + 1) actions []).map (RuleString.mk resetList addressMask)

/-- `parseAndAddRuleString` -/
def parseAndAddRuleString (depth : ℕ) (tr : List RuleActionPair) (rs : List UInt8) :
    Option (Bool × List RuleActionPair) :=
  match splitRuleString rs with
  | none => some (false, tr)
  | some q =>
    createRules num hosts depth q.addressMask q.actions (if q.resetList then [] else tr)

/-- `dumpRuleString` -/
def dumpRuleString (ra : RuleActionPair) : List UInt8 :=
  ra.rule.addressMask ++ [0x20] ++ List.intercalate [0x2c] ra.action

end Create

end OmniORB
