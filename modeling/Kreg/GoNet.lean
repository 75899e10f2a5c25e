import Kreg.AddressBlock
import Kreg.GoText
import Mathlib.Algebra.Group.Nat.Defs

namespace Kreg
open AddressBlock
set_option autoImplicit true

/-- A `net.IP` as `To4` sees it: IPv4, also when written IPv4-mapped, or plain IPv6. -/
inductive IP where
  | v4 (addr : BitVec 32)
  | v6 (addr : BitVec 128)
deriving DecidableEq

inductive IPNet where
  | v4 (block : Block 32)
  | v6 (block : Block 128)
deriving DecidableEq

/-- `IPNet.Contains`: never across address families. -/
def IPNet.contains : IPNet → IP → Bool
  | .v4 B, .v4 x => B.contains x
  | .v6 B, .v6 x => B.contains x
  | _, _ => false

def IPNet.ones : IPNet → Nat
  | .v4 B => B.ones
  | .v6 B => B.ones

def IPNet.addr : IPNet → IP
  | .v4 B => .v4 B.addr
  | .v6 B => .v6 B.addr

def parseIPv4Fields : List Char → Nat → Nat → List Nat → Option (List Nat)
  | [], val, _, fields => if fields.length < 3 then none else some (fields ++ [val])
  | c :: s, val, digLen, fields =>
    if c.isDigit then
      if digLen = 1 ∧ val = 0 then none
      else
        let val := val * 10 + digitValue c
        if 255 < val then none else parseIPv4Fields s val (digLen + 1) fields
    else if c = '.' then
      if digLen = 0 ∨ s = [] then none
      else if fields.length = 3 then none
      else parseIPv4Fields s 0 0 (fields ++ [val])
    else none

def joinFields (width : Nat) (fields : List Nat) : Nat :=
  fields.foldl (fun n f => n * 2 ^ width + f) 0

def hexValue (c : Char) : Option Nat :=
  if c.isDigit then some (digitValue c)
  else if 'a' ≤ c ∧ c ≤ 'f' then some (c.toNat - 'a'.toNat + 10)
  else if 'A' ≤ c ∧ c ≤ 'F' then some (c.toNat - 'A'.toNat + 10)
  else none

/-- Reads one hex group; fails past four digits. Returns its value, its length and the rest. -/
def scanHex : List Char → Nat → Nat → Option (Nat × Nat × List Char)
  | [], acc, off => some (acc, off, [])
  | c :: s, acc, off =>
    match hexValue c with
    | none => some (acc, off, c :: s)
    | some d => if 3 < off then none else scanHex s (acc * 16 + d) (off + 1)

/-- The group loop of `parseIPv6`, with the room left in the address as its measure. -/
def parseIPv6Groups : Nat → List Char → List Nat → Option Nat →
    Option (List Nat × Option Nat × List Char)
  | 0, s, groups, ellipsis => some (groups, ellipsis, s)
  | room + 1, s, groups, ellipsis =>
    match scanHex s 0 0 with
    | none => none
    | some (acc, off, rest) =>
      if off = 0 then none
      else
        match rest with
        | [] => some (groups ++ [acc], ellipsis, [])
        | '.' :: _ =>
          if ellipsis = none ∧ groups.length ≠ 6 then none
          else if 8 < groups.length + 2 then none
          else
            match parseIPv4Fields s 0 0 [] with
            | some [a, b, c, d] => some (groups ++ [a * 256 + b, c * 256 + d], ellipsis, [])
            | _ => none
        | [':'] => none
        | ':' :: ':' :: rest =>
          if ellipsis.isSome then none
          else
            let groups := groups ++ [acc]
            if rest = [] then some (groups, some groups.length, [])
            else parseIPv6Groups room rest groups (some groups.length)
        | ':' :: rest => parseIPv6Groups room rest (groups ++ [acc]) ellipsis
        | _ => none

/-- Expands the `::` of a short address; a full address may not have one. -/
def expandGroups (groups : List Nat) : Option Nat → Option (List Nat)
  | none => if groups.length < 8 then none else some groups
  | some e =>
    if groups.length < 8 then
      some (groups.take e ++ List.replicate (8 - groups.length) 0 ++ groups.drop e)
    else none

def parseIPv6 (s : List Char) : Option (BitVec 128) :=
  let parsed :=
    match s with
    | [':', ':'] => some ([], some 0, [])
    | ':' :: ':' :: rest => parseIPv6Groups 8 rest [] (some 0)
    | _ => parseIPv6Groups 8 s [] none
  match parsed with
  | some (groups, ellipsis, []) =>
    (expandGroups groups ellipsis).map fun g => BitVec.ofNat 128 (joinFields 16 g)
  | _ => none

/-- `netip.ParseAddr` without a zone: the first separator decides the family. -/
def parseAddr (s : List Char) : Option (BitVec 32 ⊕ BitVec 128) :=
  match s.find? fun c => c == '.' || c == ':' || c == '%' with
  | some '.' => (parseIPv4Fields s 0 0 []).map fun f => .inl (BitVec.ofNat 32 (joinFields 8 f))
  | some ':' => if '%' ∈ s then none else (parseIPv6 s).map .inr
  | _ => none

/-- `dtoi` on a whole mask. -/
def parseMask (s : List Char) (bitLen : Nat) : Option Nat :=
  if s ≠ [] ∧ s.all Char.isDigit then
    let n := s.foldl (fun n c => n * 10 + digitValue c) 0
    if n ≤ bitLen then some n else none
  else none

def maskedBlock (a : BitVec w) (n : Nat) (h : n ≤ w) : Block w :=
  ⟨a &&& mask w n, n, h⟩

structure CIDR where
  ip : IP
  net : IPNet
deriving DecidableEq

def isMapped (a : BitVec 128) : Bool :=
  a >>> 32 == BitVec.ofNat 128 0xffff

/-- The network of an IPv6 literal; an IPv4-mapped one keeps being IPv4 while its mask
covers the mapping prefix. -/
def CIDR.ofV6 (a : BitVec 128) (n : Nat) (h : n ≤ 128) : CIDR where
  ip := if isMapped a then .v4 (a.truncate 32) else .v6 a
  net :=
    if isMapped a ∧ 96 ≤ n then .v4 (maskedBlock (a.truncate 32) (n - 96) (by omega))
    else .v6 (maskedBlock a n h)

def parseCIDRChars (s : List Char) : Option CIDR :=
  match cut '/' s with
  | none => none
  | some (addr, mask) =>
    match parseAddr addr with
    | none => none
    | some (.inl a) =>
      match parseMask mask 32 with
      | none => none
      | some n => if h : n ≤ 32 then some ⟨.v4 a, .v4 (maskedBlock a n h)⟩ else none
    | some (.inr a) =>
      match parseMask mask 128 with
      | none => none
      | some n => if h : n ≤ 128 then some (CIDR.ofV6 a n h) else none

/-- `net.ParseCIDR`. -/
def parseCIDR (s : String) : Except String CIDR :=
  match parseCIDRChars s.toList with
  | none => .error ("invalid CIDR address: " ++ s)
  | some c => .ok c

def splitFields (width count n : Nat) : List Nat :=
  (List.range count).map fun i => n / 2 ^ (width * (count - 1 - i)) % 2 ^ width

/-- The first of the longest runs of two or more zero groups: where it starts, how long it is. -/
def longestZeros (groups : List Nat) : Option (Nat × Nat) :=
  (List.range groups.length).foldl (fun best i =>
    let run := ((groups.drop i).takeWhile (· == 0)).length
    if 2 ≤ run ∧ (best.map Prod.snd).getD 0 < run then some (i, run) else best) none

def fmtGroups (groups : List Nat) : String :=
  ":".intercalate (groups.map fun g => String.ofList (Nat.toDigits 16 g))

def IP.string : IP → String
  | .v4 a => ".".intercalate ((splitFields 8 4 a.toNat).map toString)
  | .v6 a =>
    let groups := splitFields 16 8 a.toNat
    match longestZeros groups with
    | none => fmtGroups groups
    | some (start, run) =>
      fmtGroups (groups.take start) ++ "::" ++ fmtGroups (groups.drop (start + run))

example : (parseCIDR "2001:db8:0:0:1:0:0:1/64").map (fun c => c.ip.string) =
    .ok "2001:db8::1:0:0:1" := by decide +kernel

def IPNet.Covers (N M : IPNet) : Prop :=
  ∀ x, M.contains x = true → N.contains x = true

theorem IPNet.covers_iff (N M : IPNet) :
    N.Covers M ↔ N.contains M.addr = true ∧ N.ones ≤ M.ones := by
  cases M with
  | v4 B =>
    cases N with
    | v4 C =>
      refine Iff.trans ⟨fun h x hx => h (.v4 x) hx, fun h x hx => ?_⟩ (B.subset_iff C)
      cases x with
      | v4 x => exact h x hx
      | v6 x => cases hx
    | v6 C =>
      refine ⟨fun h => ?_, fun h => Bool.noConfusion h.1⟩
      exact Bool.noConfusion (h (.v4 B.addr) B.contains_self)
  | v6 B =>
    cases N with
    | v4 C =>
      refine ⟨fun h => ?_, fun h => Bool.noConfusion h.1⟩
      exact Bool.noConfusion (h (.v6 B.addr) B.contains_self)
    | v6 C =>
      refine Iff.trans ⟨fun h x hx => h (.v6 x) hx, fun h x hx => ?_⟩ (B.subset_iff C)
      cases x with
      | v4 x => cases hx
      | v6 x => exact h x hx

end Kreg
