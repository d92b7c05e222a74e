import Vortice.Foundation.BigEndian
import Vortice.Foundation.Blocks

/-!
# The secure hash algorithm

SHA-1 as RFC3174 defines it: the padding of a message, the words of a block, the
functions and constants of the eighty rounds, and the words that come out.
-/

namespace Vortice.Foundation.Sha1

/-- Five words, which is what the algorithm keeps. -/
structure Words where
  a : UInt32
  b : UInt32
  c : UInt32
  d : UInt32
  e : UInt32
  deriving DecidableEq

def initial : Words := ⟨0x67452301, 0xefcdab89, 0x98badcfe, 0x10325476, 0xc3d2e1f0⟩

def word (octets : Octets) : UInt32 := UInt32.ofNat (ofBigEndian octets)

/-- The circular left shift of a word. -/
def shift (n word : UInt32) : UInt32 := word <<< n ||| word >>> (32 - n)

/-- The function of round `t`. -/
def f (t : Nat) (b c d : UInt32) : UInt32 :=
  if t < 20 then b &&& c ||| ~~~b &&& d
  else if t < 40 then b ^^^ c ^^^ d
  else if t < 60 then b &&& c ||| b &&& d ||| c &&& d
  else b ^^^ c ^^^ d

/-- The constant of round `t`. -/
def k (t : Nat) : UInt32 :=
  if t < 20 then 0x5a827999
  else if t < 40 then 0x6ed9eba1
  else if t < 60 then 0x8f1bbcdc
  else 0xca62c1d6

/-- The word of round `t`: the sixteen of the block, and then four of those before. -/
def w (block : Octets) (t : Nat) : UInt32 :=
  if t < 16 then word ((block.drop (4 * t)).take 4)
  else shift 1 (w block (t - 3) ^^^ w block (t - 8) ^^^ w block (t - 14) ^^^ w block (t - 16))

def round (block : Octets) (t : Nat) (words : Words) : Words :=
  let temp := shift 5 words.a + f t words.b words.c words.d + words.e + w block t + k t
  ⟨temp, words.a, shift 30 words.b, words.c, words.d⟩

/-- The words after the first rounds. -/
def rounds (block : Octets) : Nat → Words → Words
  | 0, words => words
  | t + 1, words => round block t (rounds block t words)

def process (words : Words) (block : Octets) : Words :=
  let mixed := rounds block 80 words
  ⟨words.a + mixed.a, words.b + mixed.b, words.c + mixed.c, words.d + mixed.d,
    words.e + mixed.e⟩

/-- An octet that begins with a one, as few zeros as will do, and the length in bits. -/
def pad (message : Octets) : Octets :=
  message ++ 0x80 :: List.replicate (padding 64 (by decide) (message.length + 9)) 0 ++
    bigEndian 8 (8 * message.length)

def Words.octets (words : Words) : Octets :=
  [words.a, words.b, words.c, words.d, words.e].flatMap fun word => bigEndian 4 word.toNat

def digest (message : Octets) : Octets :=
  ((chunksExact 64 (pad message)).foldl process initial).octets

theorem w_of_lt {block : Octets} {t : Nat} (h : t < 16) :
    w block t = word ((block.drop (4 * t)).take 4) := by
  rw [w, if_pos h]

theorem w_of_le {block : Octets} {t : Nat} (h : 16 ≤ t) :
    w block t = shift 1 (w block (t - 3) ^^^ w block (t - 8) ^^^ w block (t - 14) ^^^
      w block (t - 16)) := by
  rw [w, if_neg (Nat.not_lt.mpr h)]

end Vortice.Foundation.Sha1
