import ContractWorks.Settings.Yaml.Scalar

namespace ContractWorks.Yaml

/-- This test asks whether a colon ends a key before the given text. -/
def endsKey (inBrackets : Bool) : List Char → Bool
  | [] => true
  | first :: _ => isGap first || (inBrackets && isBracket first)

/-- This function reads a text without quotes as far as it goes between brackets. -/
def takePlain : List Char → List Char × List Char
  | [] => ([], [])
  | character :: rest =>
    if isBracket character || (character = ':' && endsKey true rest) then ([], character :: rest)
    else
      let (text, rest) := takePlain rest
      (character :: text, rest)

/-- This function reads a key between braces, and tells whether a value follows it. -/
def readFlowKey (characters : List Char) : Option (String × Bool × List Char) := do
  let (key, rest) ←
    match readQuoted characters with
    | some (text, rest) => some (String.ofList text, rest)
    | none =>
      let (word, rest) := takePlain characters
      if startsPlain characters then (keyOfPlain (trimGap word)).map fun key => (key, rest) else none
  match dropGap rest with
  | ':' :: rest => some (key, true, rest)
  | rest => some (key, false, rest)

/-- This test asks whether an item of a collection ends here. -/
def atItemEnd : List Char → Bool
  | ',' :: _ => true
  | '}' :: _ => true
  | _ => false

/-- This function adds a member to a group that has none of its name. -/
def addMember (members : Table String SettingTree) (name : String) (value : SettingTree) :
    Option (Table String SettingTree) :=
  if (Table.get? name members).isSome then none else some (members ++ [(name, value)])

mutual

/-- This function reads a value between brackets and gives what follows it. -/
def readFlow : Nat → List Char → Option (SettingTree × List Char)
  | 0, _ => none
  | fuel + 1, characters =>
    match dropGap characters with
    | '[' :: rest => (readFlowItems fuel rest).map fun (items, rest) => (.list items, rest)
    | '{' :: rest => (readFlowPairs fuel [] rest).map fun (members, rest) => (.group members, rest)
    | start =>
      match readQuoted start with
      | some (text, rest) => some (.text (.ofList text), rest)
      | none =>
        let (word, rest) := takePlain start
        if startsPlain start then (ofPlain (trimGap word)).map fun tree => (tree, rest) else none

/-- This function reads the items of a list up to its closing bracket. -/
def readFlowItems : Nat → List Char → Option (List SettingTree × List Char)
  | 0, _ => none
  | fuel + 1, characters =>
    match dropGap characters with
    | ']' :: rest => some ([], rest)
    | start => do
      let (item, rest) ← readFlow fuel start
      match dropGap rest with
      | ',' :: rest =>
        let (items, rest) ← readFlowItems fuel rest
        some (item :: items, rest)
      | ']' :: rest => some ([item], rest)
      | _ => none

/-- This function reads keys and values up to a closing brace. A key without a value is unset. -/
def readFlowPairs : Nat → Table String SettingTree → List Char →
    Option (Table String SettingTree × List Char)
  | 0, _, _ => none
  | fuel + 1, members, characters =>
    match dropGap characters with
    | '}' :: rest => some (members, rest)
    | start => do
      let (key, hasValue, rest) ← readFlowKey start
      let (value, rest) ←
        if hasValue && !atItemEnd (dropGap rest) then readFlow fuel rest else some (.unset, rest)
      let members ← addMember members key value
      match dropGap rest with
      | ',' :: rest => readFlowPairs fuel members rest
      | '}' :: rest => some (members, rest)
      | _ => none

end

/-- This function reads a text that is one value. -/
def readWholeFlow (characters : List Char) : Option SettingTree :=
  match readFlow (2 * characters.length + 2) characters with
  | some (tree, rest) => if (dropGap rest).isEmpty then some tree else none
  | none => none

end ContractWorks.Yaml
