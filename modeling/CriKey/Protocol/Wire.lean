import CriKey.Base.Word

/-! The errors and the limits of the framed protocol boundary. -/
namespace CriKey.Protocol

inductive ProtocolError where
  | frameTooLarge (length : Nat)
  | decodeBudgetExceeded (requested remaining : Nat)
  | malformed (text : String)
  | closed
  | io (text : String)
  | timeout
deriving Repr, DecidableEq

/-- Maximum heap budget charged while decoding one message tree. -/
def decodeAllocationBudget : Nat := 8 * 1024 * 1024

/-- Largest payload that may be put on the wire in one frame. -/
def maxFrameBytes : Nat := decodeAllocationBudget

end CriKey.Protocol
