import ContractWorks.Digest.Blake3
import ContractWorks.Source.Gate
import ContractWorks.Source.Solidity
import ContractWorks.Source.Soroban

namespace ContractWorks

/-- A generated source is a contract that was written from blocks; it has no name when there was nothing to
write. -/
structure GeneratedSource where
  language : Language
  text : String
  contractName : String
  deriving DecidableEq, Repr

namespace GeneratedSource

/-- A placeholder stands for a contract that cannot be written. -/
def isPlaceholder (source : GeneratedSource) : Bool :=
  source.contractName = ""

/-- This function gives the digest of the text. -/
def sourceHash (source : GeneratedSource) : String :=
  Digest.ofText source.text

/-- This decoder reads a generated source. -/
def decode : Decoder GeneratedSource := fun draft => do
  let (language, text, contractName, ()) ← Row.decode
    (.field (.required "targetLanguage" Language.decode) <|
      .field (.required "text" Decode.text) <|
      .field (.required "contractName" Decode.text) .done)
    "GeneratedSource" draft
  return ⟨language, text, contractName⟩

/-- This function encodes a generated source. -/
def encode (source : GeneratedSource) : Json :=
  .record [("targetLanguage", some source.language.encode), ("text", some (.text source.text)),
    ("contractName", some (.text source.contractName))]

end GeneratedSource

namespace Source

/-- This function gives the lines of a contract in a language. -/
def lines : Language → Plan → List Line
  | .solidity => Solidity.lines
  | .soroban => Soroban.lines

/-- This function writes a plan in a language. -/
def emit (language : Language) (plan : Plan) : String :=
  print (lines language plan)

/-- This text stands for an empty block list. -/
def emptyPlaceholder : String :=
  "// Add blocks to the canvas to start building your contract.\n"

/-- This text stands for a block list without an enabled base. -/
def noBasePlaceholder : String :=
  "// Add a base block (Token or NFT) to generate contract code.\n"

/-- This function writes a block list as a contract. -/
def generate (blocks : List Block) (language : Language) : GeneratedSource :=
  if blocks.isEmpty then ⟨language, emptyPlaceholder, ""⟩
  else
    match Plan.ofBlocks blocks with
    | none => ⟨language, noBasePlaceholder, ""⟩
    | some plan => ⟨language, emit language plan, plan.contractName⟩

end Source

end ContractWorks
