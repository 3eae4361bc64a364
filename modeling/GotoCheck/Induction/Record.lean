import GotoCheck.Induction.Checker

/-! Records in which workers report: eight bytes, the tag of the sender and a bound, each as a
32-bit number with the low byte first. -/
namespace GotoCheck.Induction

/-- Who sends a record. -/
inductive Sender
  | worker (strategy : Strategy)
  | parent
deriving DecidableEq

namespace Sender

def tag : Sender → UInt32
  | worker .baseCase => 0
  | worker .forwardCondition => 1
  | worker .inductiveStep => 2
  | parent => 3

def ofTag? : UInt32 → Option Sender
  | 0 => some (worker .baseCase)
  | 1 => some (worker .forwardCondition)
  | 2 => some (worker .inductiveStep)
  | 3 => some parent
  | _ => none

end Sender

structure Record where
  sender : Sender
  /-- The bound of a conclusive answer; zero if there is none. -/
  bound : UInt32
deriving DecidableEq

inductive RecordError
  | unrecognizedWorker (tag : UInt32)
deriving DecidableEq

def RecordError.message : RecordError → String
  | unrecognizedWorker tag =>
    "message from unrecognized k-induction worker (tag " ++ tag.toNat.repr ++ ")"

namespace Record

/-- Byte number `i` of a word, the lowest first. -/
def byte (w : UInt32) (i : Nat) : UInt8 := UInt8.ofNat (w.toNat / Nat.pow 256 i)

/-- The word of four bytes. -/
def word (a b c d : UInt8) : UInt32 :=
  UInt32.ofNat (a.toNat + 256 * (b.toNat + 256 * (c.toNat + 256 * d.toNat)))

def toBytes (r : Record) : Vector UInt8 8 := #v[
  byte r.sender.tag 0, byte r.sender.tag 1, byte r.sender.tag 2, byte r.sender.tag 3,
  byte r.bound 0, byte r.bound 1, byte r.bound 2, byte r.bound 3]

def ofBytes (b : Vector UInt8 8) : Except RecordError Record :=
  let tag := word b[0] b[1] b[2] b[3]
  match Sender.ofTag? tag with
  | some sender => .ok ⟨sender, word b[4] b[5] b[6] b[7]⟩
  | none => .error (.unrecognizedWorker tag)

end Record
end GotoCheck.Induction
