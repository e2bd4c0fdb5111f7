import ContractWorks.Text.Hex

namespace ContractWorks

/-- An address names a host by four octets or by eight groups, and a port of the host. -/
inductive Address where
  | short (octets : List UInt8) (port : UInt16)
  | long (groups : List UInt16) (zone : UInt32) (port : UInt16)
  deriving DecidableEq, Repr

namespace Address

/-- A scan reads the start of a row of characters. -/
abbrev Scan (α : Type) := List Char → Option (α × List Char)

/-- This function gives the value of a digit in a base. -/
def digitValue (base : Nat) (character : Char) : Option Nat :=
  match Text.Hex.value? character.toNat with
  | some value => if value < base then some value else none
  | none => none

/-- This function reads digits as a number up to a bound. At most `width` digits may stand together, and a
zero may lead others only if that is allowed. -/
def scanNumber (base bound : Nat) (width : Option Nat) (zeroMayLead : Bool) : Scan Nat :=
  fun characters =>
    let digits := (characters.takeWhile fun character => (digitValue base character).isSome).filterMap
      (digitValue base)
    let value := digits.foldl (fun value digit => value * base + digit) 0
    let tooWide := match width with
      | some width => width < digits.length
      | none => false
    let leads := digits.head? = some 0 && 1 < digits.length
    if digits.isEmpty || tooWide || (leads && !zeroMayLead) || bound < value then none
    else some (value, characters.drop digits.length)

/-- This function passes one given character. -/
def scanMark (mark : Char) : Scan Unit
  | [] => none
  | character :: rest => if character = mark then some ((), rest) else none

/-- This function reads four octets with points between them. -/
def scanOctets : Scan (List UInt8) := fun characters => do
  let (first, rest) ← scanNumber 10 255 (some 3) false characters
  let ((), rest) ← scanMark '.' rest
  let (second, rest) ← scanNumber 10 255 (some 3) false rest
  let ((), rest) ← scanMark '.' rest
  let (third, rest) ← scanNumber 10 255 (some 3) false rest
  let ((), rest) ← scanMark '.' rest
  let (fourth, rest) ← scanNumber 10 255 (some 3) false rest
  return ([first, second, third, fourth].map UInt8.ofNat, rest)

/-- This function passes a colon, except before the first group. -/
def scanColon (first : Bool) : Scan Unit := fun characters =>
  if first then some ((), characters) else scanMark ':' characters

/-- This function joins two octets to a group. -/
def pair (high low : UInt8) : UInt16 :=
  UInt16.ofNat (high.toNat * 256 + low.toNat)

/-- This function reads up to `limit` groups. Four octets may stand for the last two groups, which is told
by the second result. -/
def scanGroups : Nat → Bool → List Char → List UInt16 × Bool × List Char
  | 0, _, characters => ([], false, characters)
  | limit + 1, first, characters =>
    let embedded := do
      if limit = 0 then none
      else
        let ((), rest) ← scanColon first characters
        scanOctets rest
    match embedded with
    | some ([one, two, three, four], rest) => ([pair one two, pair three four], true, rest)
    | _ =>
      let group := do
        let ((), rest) ← scanColon first characters
        scanNumber 16 65535 (some 4) true rest
      match group with
      | none => ([], false, characters)
      | some (value, rest) =>
        let (groups, hasOctets, left) := scanGroups limit false rest
        (UInt16.ofNat value :: groups, hasOctets, left)

/-- This function reads eight groups, of which a double colon may stand for one or more that are zero. -/
def scanLong : Scan (List UInt16) := fun characters =>
  let (head, hasOctets, rest) := scanGroups 8 true characters
  if head.length = 8 then some (head, rest)
  else if hasOctets then none
  else do
    let ((), rest) ← scanMark ':' rest
    let ((), rest) ← scanMark ':' rest
    let (tail, _, rest) := scanGroups (7 - head.length) true rest
    return (head ++ List.replicate (8 - head.length - tail.length) 0 ++ tail, rest)

/-- This function reads a port after a colon. -/
def scanPort : Scan UInt16 := fun characters => do
  let ((), rest) ← scanMark ':' characters
  let (port, rest) ← scanNumber 10 65535 none true rest
  return (UInt16.ofNat port, rest)

/-- This function reads the zone of a host. -/
def scanZone : Scan UInt32 := fun characters =>
  match characters with
  | '%' :: rest => do
    let (zone, rest) ← scanNumber 10 4294967295 none true rest
    return (UInt32.ofNat zone, rest)
  | _ => some (0, characters)

/-- This function reads an address. -/
def read (text : String) : Option Address :=
  let characters := text.toList
  let short := do
    let (octets, rest) ← scanOctets characters
    let (port, rest) ← scanPort rest
    if rest.isEmpty then some (Address.short octets port) else none
  let long := do
    let ((), rest) ← scanMark '[' characters
    let (groups, rest) ← scanLong rest
    let (zone, rest) ← scanZone rest
    let ((), rest) ← scanMark ']' rest
    let (port, rest) ← scanPort rest
    if rest.isEmpty then some (Address.long groups zone port) else none
  short.or long

/-- This test holds of the addresses that every host has: those of the host itself, and those that stand for
any address. -/
def isLocal : Address → Bool
  | .short octets _ => octets = [0, 0, 0, 0] || octets.head? = some 127
  | .long groups _ _ => groups.dropLast.all (· = 0) && (groups.getLast? = some 0 || groups.getLast? = some 1)

/-- This function writes octets with points between them. -/
def octetsText (octets : List UInt8) : String :=
  ".".intercalate (octets.map fun octet => toString octet.toNat)

/-- This function writes groups with colons between them. -/
def groupsText (groups : List UInt16) : String :=
  ":".intercalate (groups.map fun group => String.ofList (Nat.toDigits 16 group.toNat))

/-- This function counts the zeros at the start. -/
def leadingZeros (groups : List UInt16) : Nat :=
  (groups.takeWhile (· = 0)).length

/-- This function finds the first longest run of zeros: where it starts and how long it is. -/
def longestZeros (groups : List UInt16) : Nat × Nat :=
  (List.range groups.length).foldl
    (fun best start =>
      let length := leadingZeros (groups.drop start)
      if best.2 < length then (start, length) else best)
    (0, 0)

/-- This function writes eight groups, with a double colon for the longest run of zeros. -/
def longText (groups : List UInt16) : String :=
  match groups with
  | [0, 0, 0, 0, 0, 65535, high, low] =>
    "::ffff:" ++ octetsText ([high.toNat / 256, high.toNat % 256, low.toNat / 256, low.toNat % 256].map
      UInt8.ofNat)
  | groups =>
    let (start, length) := longestZeros groups
    if length ≤ 1 then groupsText groups
    else groupsText (groups.take start) ++ "::" ++ groupsText (groups.drop (start + length))

/-- This function writes an address. -/
def text : Address → String
  | .short octets port => octetsText octets ++ ":" ++ toString port.toNat
  | .long groups zone port =>
    let zoneText := if zone = 0 then "" else "%" ++ toString zone.toNat
    "[" ++ longText groups ++ zoneText ++ "]:" ++ toString port.toNat

end Address

end ContractWorks
