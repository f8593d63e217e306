namespace BeaconApi.Net

/-- A socket address. An address of version 6 has a scope, which is zero unless it is written. -/
inductive SocketAddress
  | v4 (octets : Vector UInt8 4) (port : UInt16)
  | v6 (groups : Vector UInt16 8) (scope : UInt32) (port : UInt16)
deriving DecidableEq

/-- A reader takes something from the beginning of a text and gives the rest. -/
abbrev Reader (α : Type) := List Char → Option (α × List Char)

/-- Take one given character. -/
def readChar (expected : Char) (cs : List Char) : Option (List Char) :=
  match cs with
  | c :: rest => if c = expected then some rest else none
  | [] => none

/-- The value of a digit of a base up to sixteen. Digits beyond nine may be of either case. -/
def digitOf? (base : Nat) (c : Char) : Option Nat :=
  let value? :=
    if '0' ≤ c ∧ c ≤ '9' then some (c.toNat - '0'.toNat)
    else if 'a' ≤ c ∧ c ≤ 'f' then some (c.toNat - 'a'.toNat + 10)
    else if 'A' ≤ c ∧ c ≤ 'F' then some (c.toNat - 'A'.toNat + 10)
    else none
  value?.filter (· < base)

/-- The digits at the beginning of a text. -/
def readDigits (base : Nat) : List Char → List Nat × List Char
  | [] => ([], [])
  | c :: rest =>
    match digitOf? base c with
    | none => ([], c :: rest)
    | some digit =>
      let (digits, rest) := readDigits base rest
      (digit :: digits, rest)

/-- Read a number below a bound, with at most as many digits as given. -/
def readNumber (base bound : Nat) (maxDigits : Option Nat) : Reader Nat := fun cs =>
  let (digits, rest) := readDigits base cs
  let value := digits.foldl (fun value digit => value * base + digit) 0
  if digits.isEmpty ∨ bound ≤ value ∨ maxDigits.any (· < digits.length) then none
  else some (value, rest)

/-- Read an octet. It has no leading zeros. -/
def readOctet : Reader UInt8 := fun cs =>
  match cs with
  | '0' :: c :: _ => if (digitOf? 10 c).isSome then none else some (0, cs.drop 1)
  | _ => (readNumber 10 256 (some 3) cs).map fun (value, rest) => (UInt8.ofNat value, rest)

/-- Read the four octets of an address of version 4. -/
def readOctets : Reader (Vector UInt8 4) := fun cs => do
  let (a, cs) ← readOctet cs
  let (b, cs) ← readOctet (← readChar '.' cs)
  let (c, cs) ← readOctet (← readChar '.' cs)
  let (d, cs) ← readOctet (← readChar '.' cs)
  return (#v[a, b, c, d], cs)

/-- Two octets as one group. -/
def groupOf (high low : UInt8) : UInt16 := UInt16.ofNat (high.toNat * 256 + low.toNat)

/-- Groups that were read, and whether the last two of them were written as octets. -/
structure Groups where
  groups : List UInt16
  octets : Bool

/-- Read as many groups as there are, up to a limit. Where two groups are left to read, four octets
can stand for them and are the end. -/
def readGroups : (limit : Nat) → (first : Bool) → List Char → Groups × List Char
  | 0, _, cs => (⟨[], false⟩, cs)
  | limit + 1, first, cs =>
    let start := if first then some cs else readChar ':' cs
    match if limit = 0 then none else start.bind readOctets with
    | some (v, rest) => (⟨[groupOf v[0] v[1], groupOf v[2] v[3]], true⟩, rest)
    | none =>
      match start.bind (readNumber 16 65536 (some 4)) with
      | none => (⟨[], false⟩, cs)
      | some (group, rest) =>
        let (more, rest) := readGroups limit false rest
        (⟨UInt16.ofNat group :: more.groups, more.octets⟩, rest)

/-- Eight groups from those before a run of zeros and those behind it. -/
def fillGroups (head tail : List UInt16) : Vector UInt16 8 :=
  let groups := head ++ List.replicate (8 - (head.length + tail.length)) 0 ++ tail
  Vector.ofFn fun i => groups.getD i.val 0

/-- Read the groups of an address of version 6. Two colons stand for at least one group of zero, and
no octets may stand before them. -/
def readAddress6 : Reader (Vector UInt16 8) := fun cs =>
  let (head, cs) := readGroups 8 true cs
  if head.groups.length = 8 then some (fillGroups head.groups [], cs)
  else if head.octets then none
  else do
    let cs ← readChar ':' (← readChar ':' cs)
    let (tail, cs) := readGroups (7 - head.groups.length) true cs
    return (fillGroups head.groups tail.groups, cs)

/-- Read a port behind its colon. -/
def readPort : Reader UInt16 := fun cs => do
  let (port, cs) ← readNumber 10 65536 none (← readChar ':' cs)
  return (UInt16.ofNat port, cs)

/-- Read a scope behind its percent sign, if there is one. -/
def readScope (cs : List Char) : UInt32 × List Char :=
  match (readChar '%' cs).bind (readNumber 10 UInt32.size none) with
  | some (scope, rest) => (UInt32.ofNat scope, rest)
  | none => (0, cs)

/-- Read a socket address of version 4. -/
def readSocket4 : Reader SocketAddress := fun cs => do
  let (octets, cs) ← readOctets cs
  let (port, cs) ← readPort cs
  return (.v4 octets port, cs)

/-- Read a socket address of version 6. -/
def readSocket6 : Reader SocketAddress := fun cs => do
  let (groups, cs) ← readAddress6 (← readChar '[' cs)
  let (scope, cs) := readScope cs
  let (port, cs) ← readPort (← readChar ']' cs)
  return (.v6 groups scope port, cs)

namespace SocketAddress

/-- Read a socket address that takes up the whole text. -/
def ofString? (s : String) : Option SocketAddress :=
  match (readSocket4 s.toList).orElse fun _ => readSocket6 s.toList with
  | some (address, []) => some address
  | _ => none

/-- The port of a socket address. -/
def port : SocketAddress → UInt16
  | .v4 _ p | .v6 _ _ p => p

end SocketAddress

/-- A run of zero groups. -/
structure Run where
  start : Nat
  length : Nat

/-- The longest run of zeros among groups of which the first has the given position, the first of
equally long runs. `current` is the run that is under way, and `best` the longest before. -/
def longestRun (position : Nat) (current best : Run) : List UInt16 → Run
  | [] => best
  | group :: groups =>
    if group = 0 then
      let current : Run :=
        if current.length = 0 then ⟨position, 1⟩
        else { current with length := current.length + 1 }
      let best := if best.length < current.length then current else best
      longestRun (position + 1) current best groups
    else longestRun (position + 1) ⟨0, 0⟩ best groups

/-- Groups in hexadecimal with colons between them. -/
def writeGroups (groups : List UInt16) : String :=
  ":".intercalate (groups.map fun group => String.ofList (Nat.toDigits 16 group.toNat))

/-- Octets in decimal with points between them. -/
def writeOctets (octets : List UInt8) : String :=
  ".".intercalate (octets.map fun octet => toString octet.toNat)

/-- The text of the groups of an address of version 6. What stands for an address of version 4 ends
in octets; elsewhere the longest run of more than one zero is left out. -/
def writeAddress6 (groups : List UInt16) : String :=
  match groups with
  | [0, 0, 0, 0, 0, 0xffff, high, low] =>
    "::ffff:" ++ writeOctets [(high >>> 8).toUInt8, high.toUInt8, (low >>> 8).toUInt8, low.toUInt8]
  | _ =>
    let run := longestRun 0 ⟨0, 0⟩ ⟨0, 0⟩ groups
    if 1 < run.length then
      writeGroups (groups.take run.start) ++ "::"
        ++ writeGroups (groups.drop (run.start + run.length))
    else writeGroups groups

/-- The text of a socket address. A scope of zero is not written. -/
def SocketAddress.display : SocketAddress → String
  | .v4 octets port => writeOctets octets.toList ++ ":" ++ toString port.toNat
  | .v6 groups scope port =>
    "[" ++ writeAddress6 groups.toList ++ (if scope = 0 then "" else "%" ++ toString scope.toNat)
      ++ "]:" ++ toString port.toNat

end BeaconApi.Net
