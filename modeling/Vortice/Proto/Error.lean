import Vortice.Foundation.Octets

/-!
# Errors of the sans-IO core

`Error` lists the conditions a peer or a caller can cause.  `Fault` is what a
computation of the model can end in besides a value: one of these errors, a
panic, or a loop that ran out of the fuel the model gave it.
-/

namespace Vortice.Proto

inductive Error where
  | unknownFrameType
  | headerTooLong (limit : Nat)
  | bareNewlineInHeader
  | malformedHeader (reason : String)
  | invalidDigit (field : String)
  | missingField (field : String)
  | valueOutOfRange (field : String) (max : UInt32)
  | invalidContinuation (found : UInt8)
  | frameTooLarge (size limit : UInt32)
  | missingTrailer
  | notUtf8
  | xml (reason : String)
  | unexpectedElement
  | notBeepXml
  | notAGreeting (reason : String)
  | outsideWindow (seqno len limit : UInt32)
  | unexpectedSeqNo (found expected : UInt32)
  | msgNoInUse (msgno : UInt32)
  | msgNoExhausted
  | unknownMsgNo (msgno : UInt32)
  | interleavedFragment
  | channelStalled
  | channelNumber (reason : String)
  | noSuchChannel (channel : UInt32)
  deriving DecidableEq, Repr

inductive Fault where
  | error (error : Error)
  | panic
  | exhausted
  deriving DecidableEq, Repr

end Vortice.Proto
