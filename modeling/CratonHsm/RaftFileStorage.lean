import CratonHsm.LineFile
import CratonHsm.RaftStateMachine
import CratonHsm.RaftStorage

/-!
# The log files of `FileStorage`

The log of a `FileStorage` is a JSON-Lines file with a sidecar index: for each entry 24
bytes with its index, its term and the byte offset of its line.  This module models the
operations on the two files as the source performs them on bytes.  `serde_json` is a pair of
functions between entries and lines; invalid UTF-8 is a line it does not read.  Opening the
index may fail in `append_log`, which then writes the log alone; other I/O errors are left
out.
-/

namespace CratonHsm
open PrefixFreeCode LineFile

/-- `serde_json::to_string` and `serde_json::from_str` on log entries. -/
class LogLineCodec where
  toLine : LogEntry → Bytes
  fromLine : Bytes → Option LogEntry

/-- `MAX_LOG_ENTRY_BYTES`. -/
def maxLogEntryBytes : Nat := 16 * 1024 * 1024

/-- `LOG_INDEX_RECORD_LEN`. -/
abbrev logIndexRecordLen : Nat := 24

/-- The contents of `log.jsonl` and `log.jsonl.idx`, if the files exist. -/
structure FileStorage where
  log : Option Bytes := none
  idx : Option Bytes := none
  deriving DecidableEq

/-- The index record of an entry whose line starts at `offset`. -/
def indexRecord (e : LogEntry) (offset : Nat) : Bytes := le8 e.index ++ le8 e.term ++ le8 offset

/-- The offset in the last record of an index. -/
def lastRecordOffset (idx : Bytes) : Nat :=
  ofLe8 ((idx.drop (idx.length - logIndexRecordLen + 16)).take 8)

/-- `File::set_len`: cut, or extended with zeros. -/
def setLen (bytes : Bytes) (n : Nat) : Bytes := bytes.take n ++ List.replicate (n - bytes.length) 0

def entryTooLong (len : Nat) : StorageError :=
  .codec ("log entry exceeds MAX_LOG_ENTRY_BYTES (" ++ toString len ++ " > " ++
    toString maxLogEntryBytes ++ ")")

namespace FileStorage
variable [LogLineCodec]

/-- The loop over the lines that `load_log` and the slow truncation share. -/
def parseEntries : List Bytes → Except StorageError (List LogEntry)
  | [] => .ok []
  | line :: rest =>
    if line = [] then parseEntries rest
    else if maxLogEntryBytes < line.length then .error (entryTooLong line.length)
    else
      match LogLineCodec.fromLine line with
      | none => .error (.codec "invalid log entry")
      | some e =>
        match parseEntries rest with
        | .error err => .error err
        | .ok es => .ok (e :: es)

/-- The entries of the log file. -/
def loadLog (s : FileStorage) : Except StorageError (List LogEntry) :=
  match s.log with
  | none => .ok []
  | some content => parseEntries (lines content)

/-- The loop of `append_log`: the log and the index records, and whether an entry was too
long.  What was written before such an entry stays. -/
def writeEntries : List LogEntry → Bytes → Bytes → Except StorageError Unit × Bytes × Bytes
  | [], log, records => (.ok (), log, records)
  | e :: es, log, records =>
    let line := LogLineCodec.toLine e
    if maxLogEntryBytes < line.length then (.error (entryTooLong line.length), log, records)
    else writeEntries es (log ++ (line ++ [10])) (records ++ indexRecord e log.length)

/-- `append_log`; `indexOpens` says whether the index file can be opened. -/
def appendLog (s : FileStorage) (indexOpens : Bool) (entries : List LogEntry) :
    Except StorageError Unit × FileStorage :=
  if entries = [] then (.ok (), s)
  else
    let idx := if indexOpens then some (s.idx.getD []) else s.idx
    match writeEntries entries (s.log.getD []) [] with
    | (.error e, log, _) => (.error e, { log := some log, idx := idx })
    | (.ok (), log, records) =>
      (.ok (), { log := some log, idx := if indexOpens then idx.map (· ++ records) else idx })

/-- The log file of these entries. -/
def renderLog (entries : List LogEntry) : Bytes := joinLines (entries.map LogLineCodec.toLine)

/-- The index of entries whose lines start at `offset`. -/
def renderIndex : Nat → List LogEntry → Bytes
  | _, [] => []
  | offset, e :: es =>
    indexRecord e offset ++ renderIndex (offset + (LogLineCodec.toLine e).length + 1) es

/-- The walk over the records: log and index cut at the first index above `after`. -/
def firstRecordAfter (after : Nat) : Nat → Nat → Bytes → Option (Nat × Nat)
  | 0, _, _ => none
  | n + 1, i, bytes =>
    if after < ofLe8 (bytes.take 8) then
      some (ofLe8 ((bytes.drop 16).take 8), i * logIndexRecordLen)
    else firstRecordAfter after n (i + 1) (bytes.drop logIndexRecordLen)

/-- `lookup_truncate_offsets`. -/
def lookupTruncateOffsets (log : Bytes) (idx : Option Bytes) (after : Nat) : Option (Nat × Nat) :=
  match idx with
  | none => none
  | some bytes =>
    if bytes = [] ∨ bytes.length % logIndexRecordLen ≠ 0 then none
    else if log.length ≤ lastRecordOffset bytes then none
    else
      some ((firstRecordAfter after (bytes.length / logIndexRecordLen) 0 bytes).getD
        (log.length, bytes.length))

/-- `truncate_log_after`: through the index, or by rewriting both files. -/
def truncateLogAfter (s : FileStorage) (after : Nat) : Except StorageError Unit × FileStorage :=
  match s.log with
  | none => (.ok (), s)
  | some content =>
    match lookupTruncateOffsets content s.idx after with
    | some (logCut, idxCut) =>
      (.ok (), { log := some (setLen content logCut), idx := s.idx.map (setLen · idxCut) })
    | none =>
      match parseEntries (lines content) with
      | .error e => (.error e, s)
      | .ok all =>
        let kept := all.filter (fun e => e.index ≤ after)
        (.ok (), { log := some (renderLog kept), idx := some (renderIndex 0 kept) })

/-- The scan that rebuilds the index: the records of the lines from `offset` on. -/
def scanRecords : Nat → List Bytes → Except StorageError Bytes
  | _, [] => .ok []
  | offset, line :: rest =>
    if line = [] then scanRecords (offset + 1) rest
    else if maxLogEntryBytes < line.length then .error (entryTooLong line.length)
    else
      match LogLineCodec.fromLine line with
      | none => .error (.codec "invalid log entry")
      | some e =>
        match scanRecords (offset + line.length + 1) rest with
        | .error err => .error err
        | .ok records => .ok (indexRecord e offset ++ records)

/-- The index passes the check of `reconcile_log_index`: whole records, the last of them
inside the log, and as many as the log has lines. -/
def indexCoversLog (content : Bytes) (idx : Option Bytes) : Bool :=
  match idx with
  | none => false
  | some bytes =>
    bytes ≠ [] && bytes.length % logIndexRecordLen = 0 &&
      lastRecordOffset bytes < content.length &&
      bytes.length / logIndexRecordLen = ((lines content).filter (· ≠ [])).length

/-- `FileStorage::open`, with `reconcile_log_index`. -/
def openStorage (s : FileStorage) : Except StorageError FileStorage :=
  match s.log with
  | none => .ok s
  | some content =>
    if indexCoversLog content s.idx then .ok s
    else
      match scanRecords 0 (lines content) with
      | .error e => .error e
      | .ok records => .ok { s with idx := some records }

end FileStorage

/-! ## The JSON form of an entry -/

/-- The line of an entry that carries no command. -/
def jsonNoopEntry (e : LogEntry) : Bytes :=
  asBytes "\x7b\"term\":" ++ jsonNat e.term ++ asBytes ",\"index\":" ++ jsonNat e.index ++
    asBytes ",\"command\":\"Noop\"\x7d"

/-- `serde_json` on the given entries without a command; any other line is read as
malformed. -/
@[reducible]
def jsonLineCodec (known : List LogEntry) : LogLineCodec where
  toLine := jsonNoopEntry
  fromLine line := known.find? (fun e => jsonNoopEntry e = line)

/-- The entry of term 1 at an index. -/
def sampleEntry (index : Nat) : LogEntry := ⟨1, index, .noop⟩

end CratonHsm
