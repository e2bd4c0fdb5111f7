import ContractWorks.Json.Decode

namespace ContractWorks

/-- A language is what a contract is written in. -/
inductive Language where
  | solidity
  | soroban
  deriving DecidableEq, Repr

/-- A job kind says for which family of chains a job compiles. -/
inductive JobKind where
  | evm
  | stellar
  deriving DecidableEq, Repr

namespace Language

/-- This function gives the name of a language. -/
def name : Language → String
  | .solidity => "solidity"
  | .soroban => "rust-soroban"

/-- This function gives the kind of job that compiles a language. -/
def jobKind : Language → JobKind
  | .solidity => .evm
  | .soroban => .stellar

/-- This decoder reads a language by any of its names. -/
def decode : Decoder Language :=
  Decode.oneOf [(["solidity"], .solidity), (["rust", "rust-soroban", "soroban"], .soroban)]

/-- This function encodes a language. -/
def encode (language : Language) : Json :=
  .text language.name

end Language

namespace JobKind

/-- This function gives the name of a kind. -/
def name : JobKind → String
  | .evm => "compile-evm"
  | .stellar => "compile-stellar"

/-- This function gives the language that a kind compiles. -/
def language : JobKind → Language
  | .evm => .solidity
  | .stellar => .soroban

/-- This decoder reads a kind by any of its names. -/
def decode : Decoder JobKind :=
  Decode.oneOf [(["compile-evm", "evm"], .evm), (["compile-stellar", "stellar"], .stellar)]

/-- This function encodes a kind. -/
def encode (kind : JobKind) : Json :=
  .text kind.name

end JobKind

end ContractWorks
