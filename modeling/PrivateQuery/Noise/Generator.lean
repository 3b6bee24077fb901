/-!
# Generators

A generator is a sequence of 64-bit words and the number of words already drawn from it. The words
themselves are given: nothing here says where they come from.
-/
namespace PrivateQuery

structure Generator where
  word : (index : Nat) → UInt64
  drawn : Nat

namespace Generator

/-- The next word. -/
def next (g : Generator) : UInt64 × Generator := (g.word g.drawn, { g with drawn := g.drawn + 1 })

/-- The bits of a word, mixed. -/
def mix (z : UInt64) : UInt64 :=
  let z := (z ^^^ (z >>> 30)) * 0xBF58476D1CE4E5B9
  let z := (z ^^^ (z >>> 27)) * 0x94D049BB133111EB
  z ^^^ (z >>> 31)

/-- The generator that mixes the multiples of an odd constant, from a seed on. -/
def ofSeed (seed : UInt64) : Generator where
  word index := mix (seed + (index + 1).toUInt64 * 0x9E3779B97F4A7C15)
  drawn := 0

/-- The generator that gives some words first. -/
def prepend (words : List UInt64) (g : Generator) : Generator where
  word index :=
    if h : index < words.length then words[index] else g.word (g.drawn + index - words.length)
  drawn := 0

end Generator

end PrivateQuery
