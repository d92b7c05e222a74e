import Vortice.Proto.Frame

/-!
# Sequence numbers and the sliding window

Sequence numbers count octets modulo 2^32.  A `Window` is what one end has
acknowledged and how much more it takes, for either direction of a channel.
-/

namespace Vortice.Proto

abbrev SeqNo := UInt32

namespace SeqNo

def advance (seqno : SeqNo) (octets : UInt32) : SeqNo := seqno + octets

def distanceFrom (seqno base : SeqNo) : UInt32 := seqno - base

end SeqNo

/-- What RFC 3081 lets a peer assume before any `SEQ` frame. -/
def initialWindowSize : UInt32 := 4096

@[simp] theorem toNat_initialWindowSize : initialWindowSize.toNat = 4096 := rfl

structure Window where
  base : SeqNo
  size : UInt32
  deriving DecidableEq

namespace Window

def limit (window : Window) : SeqNo := SeqNo.advance window.base window.size

def accepts (window : Window) (seqno : SeqNo) (len : UInt32) : Bool :=
  (SeqNo.distanceFrom seqno window.base).toNat + len.toNat ≤ window.size.toNat

def remaining (window : Window) (next : SeqNo) : UInt32 :=
  if SeqNo.distanceFrom next window.base ≤ window.size then
    window.size - SeqNo.distanceFrom next window.base
  else 0

def updated (_ : Window) (ackno : SeqNo) (size : UInt32) : Window := ⟨ackno, size⟩

def consumed (window : Window) (octets : UInt32) : Window :=
  ⟨SeqNo.advance window.base octets, window.size⟩

def resized (window : Window) (size : UInt32) : Window := ⟨window.base, size⟩

def toSeqFrame (window : Window) (channel : UInt32) : Except Error SeqFrame :=
  SeqFrame.new channel window.base window.size

end Window

end Vortice.Proto
