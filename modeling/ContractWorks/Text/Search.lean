namespace ContractWorks.Text

/-- This test looks for one run of characters inside another. -/
def occursIn (needle : List Char) : List Char → Bool
  | [] => needle.isEmpty
  | character :: rest => needle.isPrefixOf (character :: rest) || occursIn needle rest

/-- The test finds exactly the runs inside. -/
theorem occursIn_iff {needle characters : List Char} :
    occursIn needle characters = true ↔ needle <:+: characters := by
  induction characters with
  | nil => simp [occursIn]
  | cons character rest inductionHypothesis =>
    simp [occursIn, inductionHypothesis, List.infix_cons_iff]

/-- This test looks for a text inside another. -/
def contains (text needle : String) : Bool :=
  occursIn needle.toList text.toList

/-- This test looks for a text at the start of another. -/
def startsWith (text start : String) : Bool :=
  start.toList.isPrefixOf text.toList

end ContractWorks.Text
