namespace ContractWorks.Settings

/-- This function passes the rest of a remark between slashes and stars; `previous` is the character before the
rest, if it can still begin a mark. If remarks nest, `depth` counts those that are open within the first. -/
def dropRemark (nests : Bool) (depth : Nat) (previous : Option Char) : List Char → Option (List Char)
  | [] => none
  | character :: rest =>
    if previous = some '*' ∧ character = '/' then
      if depth = 0 then some rest else dropRemark nests (depth - 1) none rest
    else if nests ∧ previous = some '/' ∧ character = '*' then dropRemark nests (depth + 1) none rest
    else dropRemark nests depth (some character) rest

/-- This function passes blanks and remarks, which go to the end of a line after two slashes. -/
def dropRemarks (isBlank : Char → Bool) (nests : Bool) : Nat → List Char → Option (List Char)
  | 0, characters => some characters
  | fuel + 1, characters =>
    match characters.dropWhile isBlank with
    | '/' :: '/' :: rest => dropRemarks isBlank nests fuel (rest.dropWhile (· ≠ '\n'))
    | '/' :: '*' :: rest => (dropRemark nests 0 none rest).bind (dropRemarks isBlank nests fuel)
    | rest => some rest

end ContractWorks.Settings
