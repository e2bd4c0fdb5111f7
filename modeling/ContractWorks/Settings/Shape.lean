import ContractWorks.Service.Config
import ContractWorks.Settings.Tree

namespace ContractWorks

/-- A shape says what a setting has to be; a setting of another kind is converted if that makes sense. -/
inductive Shape where
  | text
  | truth
  | whole (bits : Nat)
  deriving DecidableEq, Repr

namespace SettingTree

/-- This function writes a setting as text. -/
def toText? : SettingTree → Option String
  | .text value => some value
  | .truth value => some (if value then "true" else "false")
  | .whole value => some (toString value)
  | .quantity value => some value.text
  | _ => none

/-- This function reads a word that stands for a truth value. -/
def truthOfWord (word : String) : Option Bool :=
  if ["true", "on", "yes"].contains word.toLower then some true
  else if ["false", "off", "no"].contains word.toLower then some false
  else none

/-- This function reads a setting as a truth value. -/
def toTruth? : SettingTree → Option Bool
  | .truth value => some value
  | .whole value => some (value ≠ 0)
  | .quantity value => some !value.isZero
  | .text word =>
    if word = "1" then some true else if word = "0" then some false else truthOfWord word
  | _ => none

/-- This bound is the largest number of 64 bits. -/
def maxWhole : Nat := 0xffffffffffffffff

/-- This function reads a text of digits as a number of 64 bits. -/
def wholeOfText (written : String) : Option Nat :=
  let digits :=
    match written.toList with
    | '+' :: digits => digits
    | digits => digits
  if digits.isEmpty || !digits.all Char.isDigit then none
  else
    let value := digits.foldl (fun value digit => value * 10 + (digit.toNat - 48)) 0
    if value ≤ maxWhole then some value else none

/-- This function reads a setting as a number of 64 bits. -/
def toWhole? : SettingTree → Option Nat
  | .whole value => if 0 ≤ value ∧ value ≤ maxWhole then some value.toNat else none
  | .truth value => some (if value then 1 else 0)
  | .quantity value => some (value.toNatUpTo maxWhole)
  | .text word =>
    match truthOfWord word with
    | some value => some (if value then 1 else 0)
    | none => wholeOfText word
  | _ => none

/-- This function converts a setting to a shape. What cannot be converted leaves a fault, and so does a number
that is too wide. -/
def toShape : Shape → SettingTree → Draft
  | .text, tree => (tree.toText?.map Draft.text).getD .fault
  | .truth, tree => (tree.toTruth?.map Draft.bool).getD .fault
  | .whole bits, tree =>
    match tree.toWhole? with
    | some value => if value < Nat.pow 2 bits then .number (.whole value) else .fault
    | none => .fault

/-- This function takes a setting as it is. -/
def asIs : SettingTree → Draft
  | .unset => .null
  | .truth value => .bool value
  | .whole value => .number (.whole value)
  | .quantity (.finite value) => .number (.real value)
  | .quantity _ => .fault
  | .text value => .text value
  | .list _ => .fault
  | .group _ => .fault

/-- This function converts the settings of a group by their names; others are left out. Settings in a list stand
for the names in order. -/
def toShapes (shapes : List (String × Shape)) : SettingTree → Draft
  | .group members =>
    .object (shapes.filterMap fun shape =>
      (Table.get? shape.1 members).map fun tree => (some shape.1, tree.toShape shape.2))
  | .list items =>
    .object ((shapes.zip items).map fun entry => (some entry.1.1, entry.2.toShape entry.1.2))
  | _ => .fault

/-- This function takes the settings of the storage as they are. -/
def storageDraft : SettingTree → Draft
  | .group members => .object (members.map fun member => (some member.1, member.2.asIs))
  | .list items => .array (items.map asIs)
  | _ => .fault

/-- This function lists the settings of every section but the storage. -/
def sections : List (String × List (String × Shape)) :=
  [("server", [("listen_addr", .text), ("enable_cors", .truth), ("max_body_size", .whole 64)]),
   ("queue", [("workers", .whole 64), ("channel_capacity", .whole 64), ("max_source_bytes", .whole 64),
     ("start_retry_ms", .whole 64)]),
   ("workspace", [("root", .text), ("prefix", .text)]),
   ("toolchain", [("solc_path", .text), ("cargo_path", .text), ("timeout_secs", .whole 64),
     ("default_optimizer_runs", .whole 32), ("wasm_target", .text), ("soroban_sdk_version", .text)]),
   ("logging", [("level", .text), ("json", .truth)])]

/-- This function converts all sections. -/
def toSections (root : SettingTree) : Draft :=
  let known := sections.filterMap fun entry =>
    (Table.get? entry.1 root.members).map fun tree => (some entry.1, tree.toShapes entry.2)
  let storage := ((Table.get? "storage" root.members).map fun tree =>
    (some "storage", tree.storageDraft)).toList
  .object (known ++ storage)

/-- This function reads the settings of the service from a tree. -/
def toConfig (temporary : String) (root : SettingTree) : Except DecodeError ServiceConfig :=
  ServiceConfig.decode temporary root.toSections

end SettingTree

end ContractWorks
