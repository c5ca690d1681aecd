import CratonHsm.PrefixFreeCode

/-!
# Terms, commands and log entries

The data carried by the replicated log of `raft.rs`: election terms, the commands
of a log entry, and the deterministic byte form of a command that every
AppendEntries MAC covers (`canonicalBytes`).  Terms and log indices are `u64` in the
source and natural numbers here.  `Term::checked_next` keeps its overflow check; indices near
`2 ^ 64`, where the replies and requests of a leader saturate and `last_index() + 1` overflows,
are left out.
-/

namespace CratonHsm
open PrefixFreeCode

/-- `u64::MAX`. -/
def u64Max : Nat := 2 ^ 64 - 1

/-- `Term::checked_next`: the next term, or `none` on `u64` overflow. -/
def Term.checkedNext (t : Nat) : Option Nat := if t < u64Max then some (t + 1) else none

/-- The role a node plays in the cluster. -/
inductive RaftState where
  | follower
  | candidate
  | leader
  deriving DecidableEq, Repr

/-- Action to take on cluster membership. -/
inductive MembershipAction where
  | addNode
  | removeNode
  | addLearner
  | promoteLearner
  deriving DecidableEq, Repr

/-- A command carried by a log entry. -/
inductive RaftCommand where
  | keySync (keyId : String) (data : Bytes)
  | configChange (nodeId : String) (action : MembershipAction)
  | noop
  deriving DecidableEq

/-- A single entry of the log. -/
structure LogEntry where
  term : Nat
  /-- The position of the entry in the log, from 1. -/
  index : Nat
  command : RaftCommand
  deriving DecidableEq

/-- `String::as_bytes`. -/
def asBytes (s : String) : Bytes := s.toByteArray.data.toList

theorem asBytes_injective {s t : String} (h : asBytes s = asBytes t) : s = t := by
  have hd : s.toByteArray.data = t.toByteArray.data := Array.toList_inj.mp h
  exact String.toByteArray_inj.mp (ByteArray.ext hd)

/-- `push_lp` and `push_lp_to_mac`: a `u32` big-endian length, then the bytes.  The
length is cast with `as u32`, so it is written modulo `2^32`. -/
def pushLp (x : Bytes) : Bytes := lengthPrefixed 4 x

namespace MembershipAction

/-- The tag byte of a `ConfigChange` command. -/
def commandTag : MembershipAction → UInt8
  | addNode => 0x02
  | removeNode => 0x03
  | addLearner => 0x04
  | promoteLearner => 0x05

end MembershipAction

namespace RaftCommand

/-- `RaftCommand::canonical_bytes`. -/
def canonicalBytes : RaftCommand → Bytes
  | noop => [0x00]
  | keySync keyId data => 0x01 :: (pushLp (asBytes keyId) ++ pushLp data)
  | configChange nodeId action => action.commandTag :: pushLp (asBytes nodeId)

/-- `canonical_byte_len`: the length of the canonical encoding, without
materializing any bytes. -/
def canonicalByteLen : RaftCommand → Nat
  | noop => 1
  | keySync keyId data => 1 + 4 + (asBytes keyId).length + 4 + data.length
  | configChange nodeId _ => 1 + 4 + (asBytes nodeId).length

/-- `matches!(command, RaftCommand::ConfigChange { .. })`. -/
def isConfigChange : RaftCommand → Bool
  | configChange _ _ => true
  | _ => false

end RaftCommand

end CratonHsm
