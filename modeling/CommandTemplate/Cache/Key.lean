import CommandTemplate.Cache.Basic

/-!
# The key of a source

The key is the SipHash-1-3 value, with a zero secret, of the UTF-8 bytes of the source followed by
the byte `0xFF`, which no UTF-8 text contains.  SipHash keeps four 64-bit words; each eight bytes
of input, read as a little-endian word, are mixed in with one round, and three more rounds finish.
The last word holds the bytes left over, and the total number of bytes in its top byte.
-/

namespace CommandTemplate

/-- The four words that SipHash works on. -/
structure SipState where
  v0 : UInt64
  v1 : UInt64
  v2 : UInt64
  v3 : UInt64
deriving DecidableEq, Repr

namespace SipState

/-- A word with its bits moved round to the left. -/
def rotate (word amount : UInt64) : UInt64 :=
  (word <<< amount) ||| (word >>> (64 - amount))

/-- The state before any input, for a zero secret. -/
def initial : SipState :=
  ⟨0x736f6d6570736575, 0x646f72616e646f6d, 0x6c7967656e657261, 0x7465646279746573⟩

/-- One round of mixing. -/
def round (state : SipState) : SipState :=
  let v0 := state.v0 + state.v1
  let v1 := rotate state.v1 13 ^^^ v0
  let v0 := rotate v0 32
  let v2 := state.v2 + state.v3
  let v3 := rotate state.v3 16 ^^^ v2
  let v0 := v0 + v3
  let v3 := rotate v3 21 ^^^ v0
  let v2 := v2 + v1
  let v1 := rotate v1 17 ^^^ v2
  let v2 := rotate v2 32
  ⟨v0, v1, v2, v3⟩

def absorb (state : SipState) (word : UInt64) : SipState :=
  let mixed := round { state with v3 := state.v3 ^^^ word }
  { mixed with v0 := mixed.v0 ^^^ word }

/-- The hash value of a state that has taken all its input. -/
def finish (state : SipState) : UInt64 :=
  let mixed := round (round (round { state with v2 := state.v2 ^^^ 0xff }))
  mixed.v0 ^^^ mixed.v1 ^^^ mixed.v2 ^^^ mixed.v3

end SipState

/-- The word whose bytes, from the lowest on, are the given ones. -/
def littleEndian (bytes : List UInt8) : UInt64 :=
  bytes.foldr (fun byte word => (word <<< 8) ||| byte.toUInt64) 0

/-- Mixes in the bytes of an input of the given length in words of eight, and then the last word. -/
def absorbBytes (length : Nat) (state : SipState) : List UInt8 → SipState
  | b0 :: b1 :: b2 :: b3 :: b4 :: b5 :: b6 :: b7 :: rest =>
    absorbBytes length (state.absorb (littleEndian [b0, b1, b2, b3, b4, b5, b6, b7])) rest
  | bytes => state.absorb (littleEndian bytes ||| (UInt64.ofNat length <<< 56))

/-- The SipHash-1-3 value of some bytes, for a zero secret. -/
def sipHash (bytes : List UInt8) : UInt64 :=
  (absorbBytes bytes.length .initial bytes).finish

def defaultKey : SourceKey := fun source =>
  sipHash (source.bytes ++ [0xff])

end CommandTemplate
