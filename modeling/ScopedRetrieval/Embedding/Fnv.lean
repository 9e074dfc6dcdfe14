/-
The FNV-1a hash with 64 bits: for each byte an exclusive or and then a product modulo `2^64`.
-/

namespace ScopedRetrieval.Fnv

/-- The state before the first byte. -/
def offsetBasis : UInt64 := 0xcbf29ce484222325

/-- The factor of each step. -/
def prime : UInt64 := 0x100000001b3

/-- Takes in one byte. -/
def step (hash : UInt64) (byte : UInt8) : UInt64 := (hash ^^^ byte.toUInt64) * prime

/-- Takes in bytes, starting from any state. -/
def hashFrom (seed : UInt64) (bytes : List UInt8) : UInt64 := bytes.foldl step seed

def hash (bytes : List UInt8) : UInt64 := hashFrom offsetBasis bytes

/-- No bytes leave the state as it is, and one letter gives the published value. -/
example : hash [] = offsetBasis ∧ hash [0x61] = 0xaf63dc4c8601ec8c := by decide

end ScopedRetrieval.Fnv
