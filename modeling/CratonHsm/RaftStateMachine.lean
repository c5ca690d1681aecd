import CratonHsm.RaftMessages

/-!
# The replicated state machine

`ClusterStateMachine` of `state_machine.rs`: a voter set and a key table, driven by
committed entries in strict index order.  Snapshots travel as JSON written by
`serde_json`, which enters as the class `SnapshotCodec`.
-/

namespace CratonHsm
open Std PrefixFreeCode

/-- Snapshot of the state machine. -/
structure StateMachineSnapshot where
  lastApplied : Nat := 0
  voters : List String := []
  keys : ExtTreeMap String Bytes := ∅

/-- Result of applying a single committed entry. -/
inductive ApplyOutcome where
  | noop
  | keyInstalled (keyId : String) (bytes : Nat)
  | nodeAdded (nodeId : String)
  | nodeRemoved (nodeId : String)
  deriving DecidableEq

/-- The entry was applied out of order. -/
inductive ApplyError where
  | outOfOrder (expected got : Nat)
  deriving DecidableEq

/-- The replicated state: voters and keys. -/
structure ClusterStateMachine where
  lastApplied : Nat := 0
  voterSet : ExtTreeSet String := ∅
  keys : ExtTreeMap String Bytes := ∅

namespace ClusterStateMachine

/-- An empty state machine with the given initial voters. -/
def new (initialVoters : List String) : ClusterStateMachine where
  voterSet := ExtTreeSet.ofList initialVoters

/-- Current voter set, sorted. -/
def voters (sm : ClusterStateMachine) : List String := sm.voterSet.toList

/-- Apply a single committed entry; only the next index is accepted. -/
def apply (sm : ClusterStateMachine) (entry : LogEntry) :
    Except ApplyError (ApplyOutcome × ClusterStateMachine) :=
  let expected := sm.lastApplied + 1
  if entry.index ≠ expected then .error (.outOfOrder expected entry.index)
  else
    match entry.command with
    | .noop => .ok (.noop, { sm with lastApplied := entry.index })
    | .keySync keyId data =>
      .ok (.keyInstalled keyId data.length,
        { sm with keys := sm.keys.insert keyId data, lastApplied := entry.index })
    | .configChange nodeId .removeNode =>
      .ok (.nodeRemoved nodeId,
        { sm with voterSet := sm.voterSet.erase nodeId, lastApplied := entry.index })
    | .configChange nodeId _ =>
      .ok (.nodeAdded nodeId,
        { sm with voterSet := sm.voterSet.insert nodeId, lastApplied := entry.index })

/-- Capture a snapshot of the current state. -/
def snapshot (sm : ClusterStateMachine) : StateMachineSnapshot where
  lastApplied := sm.lastApplied
  voters := sm.voters
  keys := sm.keys

/-- Replace the state from a snapshot. -/
def restoreFromSnapshot (snap : StateMachineSnapshot) : ClusterStateMachine where
  lastApplied := snap.lastApplied
  voterSet := ExtTreeSet.ofList snap.voters
  keys := snap.keys

end ClusterStateMachine

/-- `serde_json::to_vec` and `serde_json::from_slice` on state-machine snapshots. -/
class SnapshotCodec where
  toVec : StateMachineSnapshot → Option Bytes
  fromSlice : Bytes → Option StateMachineSnapshot

/-! ## The JSON form of a snapshot -/

/-- A number in decimal. -/
def jsonNat (n : Nat) : Bytes := (Nat.toDigits 10 n).map (fun c => .ofNat c.toNat)

/-- A string without characters that need an escape. -/
def jsonString (s : String) : Bytes := 0x22 :: (asBytes s ++ [0x22])

/-- Items between their separators. -/
def jsonItems (items : List Bytes) : Bytes := (items.intersperse [0x2c]).flatten

/-- A snapshot as `serde_json` writes it. -/
def jsonSnapshot (s : StateMachineSnapshot) : Bytes :=
  let key (k : String × Bytes) : Bytes :=
    jsonString k.1 ++ asBytes ":[" ++ jsonItems (k.2.map fun b => jsonNat b.toNat) ++ asBytes "]"
  asBytes "\x7b\"last_applied\":" ++ jsonNat s.lastApplied ++
    asBytes ",\"voters\":[" ++ jsonItems (s.voters.map jsonString) ++
    asBytes "],\"keys\":\x7b" ++ jsonItems (s.keys.toList.map key) ++ asBytes "\x7d\x7d"

/-- `serde_json` on documents among the given snapshots; anything else is read as
malformed. -/
@[reducible]
def jsonCodec (known : List StateMachineSnapshot) : SnapshotCodec where
  toVec s := some (jsonSnapshot s)
  fromSlice bytes := known.find? (fun s => jsonSnapshot s = bytes)

/-- The codec of runs that read no snapshot. -/
@[reducible]
def noSnapshotCodec : SnapshotCodec := jsonCodec []

end CratonHsm
