import CratonHsm.RaftMessages

/-!
# MAC inputs determine the message

A MAC only authenticates the byte string it was computed over.  This module shows
that the string fixes the message: two requests, approvals or replies with equal MAC
inputs are of one kind, written under the same generation of reply tags, and agree in
every field but the MAC itself and the time of a proposal, which an approval does not cover.

The argument has two halves.  The domain tags, one or two bytes wide, are themselves
a prefix-free code of the message kind (`MacKind.prefixFree_tag`), so equal inputs
have equal kinds and equal bodies.  Each body is a concatenation of prefix-free fields
and is taken apart field by field; the entries of an AppendEntries fill the rest of
the input, so the list of entries is determined even though its count and the command
lengths are only written modulo `2^32`.
-/

namespace CratonHsm
open PrefixFreeCode List

/-! ## Kinds and their tags -/

/-- The kinds of authenticated message; replies exist under two generations of
tags. -/
inductive MacKind where
  | requestVote
  | preVote
  | appendEntries
  | configChangeApproval
  | requestVoteReply (legacy : Bool)
  | preVoteReply (legacy : Bool)
  | appendEntriesReply (legacy : Bool)
  | installSnapshotReply (legacy : Bool)
  deriving DecidableEq

namespace MacKind

/-- The bytes a MAC input of this kind starts with. -/
def tag : MacKind → Bytes
  | requestVote => [domainRequestVote]
  | preVote => [domainPreVote]
  | appendEntries => [domainAppendEntries]
  | configChangeApproval => [domainConfigChangeApproval]
  | requestVoteReply legacy => replyTag legacy domainReplyRequestVote 0x01
  | preVoteReply legacy => replyTag legacy domainReplyPreVote 0x05
  | appendEntriesReply legacy => replyTag legacy domainReplyAppendEntries 0x02
  | installSnapshotReply legacy => replyTag legacy domainReplyInstallSnapshot 0x03

/-- Reads the kind back off the front of a MAC input. -/
def ofInput : Bytes → Option MacKind
  | 0x01 :: _ => some requestVote
  | 0x02 :: _ => some appendEntries
  | 0x04 :: _ => some configChangeApproval
  | 0x05 :: _ => some preVote
  | 0x06 :: 0x01 :: _ => some (requestVoteReply true)
  | 0x06 :: 0x02 :: _ => some (appendEntriesReply true)
  | 0x06 :: 0x03 :: _ => some (installSnapshotReply true)
  | 0x06 :: 0x05 :: _ => some (preVoteReply true)
  | 0x10 :: _ => some (requestVoteReply false)
  | 0x11 :: _ => some (appendEntriesReply false)
  | 0x12 :: _ => some (installSnapshotReply false)
  | 0x13 :: _ => some (preVoteReply false)
  | _ => none

theorem ofInput_tag (k : MacKind) (r : Bytes) : ofInput (k.tag ++ r) = some k := by
  cases k with
  | requestVote | preVote | appendEntries | configChangeApproval => rfl
  | requestVoteReply legacy | preVoteReply legacy | appendEntriesReply legacy
  | installSnapshotReply legacy => cases legacy <;> rfl

/-- **The domain tags separate the kinds**, although some are one byte wide and some
two. -/
theorem prefixFree_tag : PrefixFree (fun _ => True) tag := by
  intro a b r s _ _ h
  have hk : some a = some b := by rw [← ofInput_tag a r, h, ofInput_tag]
  cases hk
  exact ⟨rfl, append_cancel_left h⟩

end MacKind

/-! ## Field codes -/

theorem prefixFree_u64 : PrefixFree (fun n => n < 2 ^ 64) u64Bytes := by
  have h := prefixFree_bigEndian 8
  rwa [show (256 : Nat) ^ 8 = 2 ^ 64 from by decide] at h

/-- A variable-length field shorter than `2^32` bytes. -/
def Short (x : Bytes) : Prop := x.length < 2 ^ 32

theorem prefixFree_pushLp : PrefixFree Short pushLp := by
  have h := prefixFree_lengthPrefixed 4
  rwa [show (256 : Nat) ^ 4 = 2 ^ 32 from by decide] at h

theorem prefixFree_string : PrefixFree (fun s => Short (asBytes s)) (fun s => pushLp (asBytes s)) :=
  prefixFree_pushLp.comap asBytes (fun _ h => h) (fun _ _ _ _ h => asBytes_injective h)

theorem prefixFree_bool : PrefixFree (fun _ => True) boolByte :=
  PrefixFree.byte (by decide)

/-! ## Commands and entries -/

/-- The variable-length fields of a command are short. -/
def RaftCommand.InRange : RaftCommand → Prop
  | noop => True
  | keySync keyId data => Short (asBytes keyId) ∧ Short data
  | configChange nodeId _ => Short (asBytes nodeId)

theorem MembershipAction.commandTag_injective {a b : MembershipAction}
    (h : a.commandTag = b.commandTag) : a = b := by
  revert h
  cases a <;> cases b <;> decide

/-- Only a `ConfigChange` starts with one of its action tags. -/
theorem MembershipAction.commandTag_ne (a : MembershipAction) :
    a.commandTag ≠ 0x00 ∧ a.commandTag ≠ 0x01 := by
  cases a <;> decide

/-- **The canonical command bytes are prefix-free**: the tag byte selects the variant,
and the variant says which length-prefixed fields follow. -/
theorem RaftCommand.prefixFree_canonicalBytes :
    PrefixFree RaftCommand.InRange RaftCommand.canonicalBytes := by
  intro a b r s ha hb h
  cases a with
  | noop =>
    cases b with
    | noop => exact ⟨rfl, (List.cons.inj h).2⟩
    | keySync _ _ => cases (List.cons.inj h).1
    | configChange _ act => exact absurd (List.cons.inj h).1.symm act.commandTag_ne.1
  | keySync keyId data =>
    cases b with
    | noop => cases (List.cons.inj h).1
    | keySync keyId' data' =>
      obtain ⟨hp, hrest⟩ := prefixFree_string.append prefixFree_pushLp
        (keyId, data) (keyId', data') r s ha hb (List.cons.inj h).2
      cases hp
      exact ⟨rfl, hrest⟩
    | configChange _ act => exact absurd (List.cons.inj h).1.symm act.commandTag_ne.2
  | configChange nodeId act =>
    cases b with
    | noop => exact absurd (List.cons.inj h).1 act.commandTag_ne.1
    | keySync _ _ => exact absurd (List.cons.inj h).1 act.commandTag_ne.2
    | configChange nodeId' act' =>
      obtain ⟨htag, hbody⟩ := List.cons.inj h
      obtain ⟨rfl, hrest⟩ := prefixFree_string _ _ _ _ ha hb hbody
      exact ⟨by rw [MembershipAction.commandTag_injective htag], hrest⟩

/-- The fields of an entry are in the range of their types. -/
def LogEntry.InRange (e : LogEntry) : Prop := e.index < 2 ^ 64 ∧ e.term < 2 ^ 64 ∧ e.command.InRange

theorem LogEntry.prefixFree_macInput : PrefixFree LogEntry.InRange LogEntry.macInput := by
  rintro ⟨t, i, c⟩ ⟨t', i', c'⟩ r s ⟨hi, ht, hc⟩ ⟨hi', ht', hc'⟩ h
  simp only [LogEntry.macInput, append_assoc] at h
  obtain ⟨hindex, h₁⟩ := prefixFree_u64 _ _ _ _ hi hi' h
  obtain ⟨hterm, h₂⟩ := prefixFree_u64 _ _ _ _ ht ht' h₁
  -- the length prefix may be truncated; the command behind it is self-delimiting
  have h₃ := (append_inj h₂ (by rw [bigEndian_length, bigEndian_length])).2
  obtain ⟨hcommand, hrest⟩ := RaftCommand.prefixFree_canonicalBytes _ _ _ _ hc hc' h₃
  exact ⟨LogEntry.mk.injEq .. ▸ ⟨hterm, hindex, hcommand⟩, hrest⟩

theorem LogEntry.macInput_ne_nil (e : LogEntry) : e.macInput ≠ [] := by
  intro h
  have := congrArg List.length h
  simp [LogEntry.macInput, u64Bytes] at this

/-! ## Messages -/

/-- An authenticated message.  An approval comes with the proposal it approves, a reply with the
generation of its tag. -/
inductive MacMessage where
  | requestVote (args : RequestVoteArgs)
  | preVote (args : PreVoteArgs)
  | appendEntries (args : AppendEntriesArgs)
  | configChangeApproval (approval : ConfigChangeApproval) (proposal : ConfigChangeProposal)
  | requestVoteReply (legacy : Bool) (reply : RequestVoteReply)
  | preVoteReply (legacy : Bool) (reply : PreVoteReply)
  | appendEntriesReply (legacy : Bool) (reply : AppendEntriesReply)
  | installSnapshotReply (legacy : Bool) (reply : InstallSnapshotReply)
  deriving DecidableEq

namespace MacMessage

/-- The HMAC input of a message. -/
def macInput : MacMessage → Bytes
  | requestVote args => args.macInput
  | preVote args => args.macInput
  | appendEntries args => args.macInput
  | configChangeApproval approval proposal => approval.macInput proposal.nodeId proposal.action
  | requestVoteReply legacy reply => reply.macInput legacy
  | preVoteReply legacy reply => reply.macInput legacy
  | appendEntriesReply legacy reply => reply.macInput legacy
  | installSnapshotReply legacy reply => reply.macInput legacy

/-- Which message a MAC is computed for. -/
def kind : MacMessage → MacKind
  | requestVote _ => .requestVote
  | preVote _ => .preVote
  | appendEntries _ => .appendEntries
  | configChangeApproval _ _ => .configChangeApproval
  | requestVoteReply legacy _ => .requestVoteReply legacy
  | preVoteReply legacy _ => .preVoteReply legacy
  | appendEntriesReply legacy _ => .appendEntriesReply legacy
  | installSnapshotReply legacy _ => .installSnapshotReply legacy

/-- The message without its MAC: two messages agree on every field except `hmac` when
these are equal. -/
def withoutHmac : MacMessage → MacMessage
  | requestVote args => .requestVote { args with hmac := none }
  | preVote args => .preVote { args with hmac := none }
  | appendEntries args => .appendEntries { args with hmac := none }
  | configChangeApproval approval proposal =>
    .configChangeApproval { approval with hmac := Vector.replicate 32 0 } proposal
  | requestVoteReply legacy reply => .requestVoteReply legacy { reply with hmac := none }
  | preVoteReply legacy reply => .preVoteReply legacy { reply with hmac := none }
  | appendEntriesReply legacy reply => .appendEntriesReply legacy { reply with hmac := none }
  | installSnapshotReply legacy reply => .installSnapshotReply legacy { reply with hmac := none }

/-- The message without its MAC and without the time of a proposal. -/
def covered (m : MacMessage) : MacMessage :=
  match m.withoutHmac with
  | configChangeApproval approval proposal =>
    .configChangeApproval approval { proposal with timestampMs := 0 }
  | m => m

/-- Integer fields are `u64`s, every variable-length field is shorter than `2^32` bytes, and an
approval comes with the proposal that it names. -/
def InRange : MacMessage → Prop
  | requestVote a => a.term < 2 ^ 64 ∧ Short (asBytes a.candidateId) ∧
      a.lastLogIndex < 2 ^ 64 ∧ a.lastLogTerm < 2 ^ 64 ∧ a.timestampMs < 2 ^ 64
  | preVote a => a.term < 2 ^ 64 ∧ Short (asBytes a.candidateId) ∧
      a.lastLogIndex < 2 ^ 64 ∧ a.lastLogTerm < 2 ^ 64 ∧ a.timestampMs < 2 ^ 64
  | appendEntries a => a.term < 2 ^ 64 ∧ Short (asBytes a.leaderId) ∧
      a.prevLogIndex < 2 ^ 64 ∧ a.prevLogTerm < 2 ^ 64 ∧ a.leaderCommit < 2 ^ 64 ∧
      a.timestampMs < 2 ^ 64 ∧ ∀ e ∈ a.entries, e.InRange
  | configChangeApproval a p => p.proposalId = a.proposalId ∧ Short (asBytes a.proposalId) ∧
      Short (asBytes p.nodeId) ∧ Short (asBytes a.approverId) ∧ a.timestampMs < 2 ^ 64
  | requestVoteReply _ r => r.term < 2 ^ 64 ∧ r.timestampMs < 2 ^ 64
  | preVoteReply _ r => r.term < 2 ^ 64 ∧ r.timestampMs < 2 ^ 64
  | appendEntriesReply _ r => r.term < 2 ^ 64 ∧ r.timestampMs < 2 ^ 64
  | installSnapshotReply _ r => r.term < 2 ^ 64 ∧ r.timestampMs < 2 ^ 64

/-- Every MAC input is the tag of its kind, then a body. -/
theorem macInput_eq_tag (m : MacMessage) : ∃ body, m.macInput = m.kind.tag ++ body := by
  cases m <;> exact ⟨_, rfl⟩

/-- Equal inputs come from messages of one kind. -/
theorem kind_eq_of_macInput {m m' : MacMessage} (h : m.macInput = m'.macInput) :
    m.kind = m'.kind := by
  obtain ⟨b, hb⟩ := m.macInput_eq_tag
  obtain ⟨b', hb'⟩ := m'.macInput_eq_tag
  rw [hb, hb'] at h
  exact (MacKind.prefixFree_tag _ _ _ _ trivial trivial h).1

end MacMessage

/-! ## Bodies -/

/-- The body of a vote request determines its fields. -/
theorem voteInput_inj {t i lt ts t' i' lt' ts' : Nat} {c c' : String} (tag : UInt8)
    (hr : t < 2 ^ 64 ∧ Short (asBytes c) ∧ i < 2 ^ 64 ∧ lt < 2 ^ 64 ∧ ts < 2 ^ 64)
    (hr' : t' < 2 ^ 64 ∧ Short (asBytes c') ∧ i' < 2 ^ 64 ∧ lt' < 2 ^ 64 ∧ ts' < 2 ^ 64)
    (h : voteInput tag t c i lt ts = voteInput tag t' c' i' lt' ts') :
    t = t' ∧ c = c' ∧ i = i' ∧ lt = lt' ∧ ts = ts' := by
  obtain ⟨ht, hc, hi, hlt, hts⟩ := hr
  obtain ⟨ht', hc', hi', hlt', hts'⟩ := hr'
  obtain ⟨hterm, h₁⟩ := prefixFree_u64 _ _ _ _ ht ht' (List.cons.inj h).2
  obtain ⟨hcand, h₂⟩ := prefixFree_string _ _ _ _ hc hc' h₁
  obtain ⟨hindex, h₃⟩ := prefixFree_u64 _ _ _ _ hi hi' h₂
  obtain ⟨hlast, h₄⟩ := prefixFree_u64 _ _ _ _ hlt hlt' h₃
  exact ⟨hterm, hcand, hindex, hlast, prefixFree_u64.injective hts hts' h₄⟩

/-- The body of a reply with a verdict determines its fields. -/
theorem verdictInput_inj {t ts t' ts' : Nat} {v v' : Bool} (tag : Bytes)
    (hr : t < 2 ^ 64 ∧ ts < 2 ^ 64) (hr' : t' < 2 ^ 64 ∧ ts' < 2 ^ 64)
    (h : verdictInput tag t v ts = verdictInput tag t' v' ts') : t = t' ∧ v = v' ∧ ts = ts' := by
  obtain ⟨hterm, h₁⟩ := prefixFree_u64 _ _ _ _ hr.1 hr'.1 (append_cancel_left h)
  obtain ⟨hverdict, h₂⟩ := prefixFree_bool _ _ _ _ trivial trivial h₁
  exact ⟨hterm, hverdict, prefixFree_u64.injective hr.2 hr'.2 h₂⟩

/-- The body of an AppendEntries determines its fields, entries included. -/
theorem AppendEntriesArgs.macInput_inj {a a' : AppendEntriesArgs}
    (hr : (MacMessage.appendEntries a).InRange) (hr' : (MacMessage.appendEntries a').InRange)
    (h : a.macInput = a'.macInput) : { a with hmac := none } = { a' with hmac := none } := by
  obtain ⟨ht, hl, hpi, hpt, hc, hts, hes⟩ := hr
  obtain ⟨ht', hl', hpi', hpt', hc', hts', hes'⟩ := hr'
  obtain ⟨hterm, h₁⟩ := prefixFree_u64 _ _ _ _ ht ht' (List.cons.inj h).2
  obtain ⟨hleader, h₂⟩ := prefixFree_string _ _ _ _ hl hl' h₁
  obtain ⟨hprev, h₃⟩ := prefixFree_u64 _ _ _ _ hpi hpi' h₂
  obtain ⟨hprevTerm, h₄⟩ := prefixFree_u64 _ _ _ _ hpt hpt' h₃
  obtain ⟨hcommit, h₅⟩ := prefixFree_u64 _ _ _ _ hc hc' h₄
  obtain ⟨htime, h₆⟩ := prefixFree_u64 _ _ _ _ hts hts' h₅
  have h₇ := (append_inj h₆ (by rw [bigEndian_length, bigEndian_length])).2
  have hentries : a.entries = a'.entries := LogEntry.prefixFree_macInput.flatMap_injective
    (fun e _ => e.macInput_ne_nil) _ _ hes hes' h₇
  rw [hterm, hleader, hprev, hprevTerm, hcommit, htime, hentries]

theorem MembershipAction.approvalTag_injective {a b : MembershipAction}
    (h : a.approvalTag = b.approvalTag) : a = b := by
  revert h
  cases a <;> cases b <;> decide

/-- The body of an approval determines the approval and the proposal's node and
action. -/
theorem ConfigChangeApproval.macInput_inj {a a' : ConfigChangeApproval}
    {p p' : ConfigChangeProposal} (hr : (MacMessage.configChangeApproval a p).InRange)
    (hr' : (MacMessage.configChangeApproval a' p').InRange)
    (h : a.macInput p.nodeId p.action = a'.macInput p'.nodeId p'.action) :
    a.proposalId = a'.proposalId ∧ a.approverId = a'.approverId ∧
      a.timestampMs = a'.timestampMs ∧ p.nodeId = p'.nodeId ∧ p.action = p'.action := by
  obtain ⟨-, hp, hn, hv, hts⟩ := hr
  obtain ⟨-, hp', hn', hv', hts'⟩ := hr'
  obtain ⟨hpid, h₁⟩ := prefixFree_string _ _ _ _ hp hp' (List.cons.inj h).2
  obtain ⟨hnode, h₂⟩ := prefixFree_string _ _ _ _ hn hn' h₁
  obtain ⟨htag, h₃⟩ := List.cons.inj h₂
  obtain ⟨hvoter, h₄⟩ := prefixFree_string _ _ _ _ hv hv' h₃
  exact ⟨hpid, hvoter, prefixFree_u64.injective hts hts' h₄, hnode,
    MembershipAction.approvalTag_injective htag⟩

/-! ## The main result -/

theorem MacMessage.covered_of_macInput {m m' : MacMessage} (hr : m.InRange) (hr' : m'.InRange)
    (h : m.macInput = m'.macInput) : m.kind = m'.kind ∧ m.covered = m'.covered := by
  have hkind := kind_eq_of_macInput h
  refine ⟨hkind, ?_⟩
  -- one goal for each kind is left
  cases m <;> cases m' <;> cases hkind
  case requestVote.requestVote | preVote.preVote =>
    obtain ⟨h1, h2, h3, h4, h5⟩ := voteInput_inj _ hr hr' h
    simp only [covered, withoutHmac, h1, h2, h3, h4, h5]
  case appendEntries.appendEntries =>
    exact congrArg MacMessage.appendEntries (AppendEntriesArgs.macInput_inj hr hr' h)
  case configChangeApproval.configChangeApproval =>
    obtain ⟨h1, h2, h3, h4, h5⟩ := ConfigChangeApproval.macInput_inj hr hr' h
    simp only [covered, withoutHmac, hr.1, hr'.1, h1, h2, h3, h4, h5]
  case installSnapshotReply.installSnapshotReply =>
    obtain ⟨h1, htime⟩ := prefixFree_u64 _ _ _ _ hr.1 hr'.1 (append_cancel_left h)
    have h2 := prefixFree_u64.injective hr.2 hr'.2 htime
    simp only [covered, withoutHmac, h1, h2]
  all_goals
    obtain ⟨h1, h2, h3⟩ := verdictInput_inj _ hr hr' h
    simp only [covered, withoutHmac, h1, h2, h3]

/-- **Canonical MAC inputs are injective and domain-separated**: inputs are equal exactly if the
messages are of the same kind and tag generation and agree on every field except the MAC and the
time of a proposal. -/
theorem MacMessage.macInput_eq_macInput_iff (m m' : MacMessage) (hr : m.InRange)
    (hr' : m'.InRange) :
    m.macInput = m'.macInput ↔ m.kind = m'.kind ∧ m.covered = m'.covered := by
  have hcovered : ∀ m : MacMessage, m.covered.macInput = m.macInput := by
    intro m
    cases m <;> rfl
  refine ⟨covered_of_macInput hr hr', fun h => ?_⟩
  rw [← hcovered m, h.2, hcovered]

/-- An AppendEntries with one entry, before its MAC is filled in. -/
def sampleAppend : AppendEntriesArgs where
  term := 3
  leaderId := "n1"
  prevLogIndex := 4
  prevLogTerm := 2
  entries := [⟨3, 5, .keySync "k" [7, 9]⟩]
  leaderCommit := 4
  timestampMs := 1000
  hmac := none

theorem sampleAppend_inRange : (MacMessage.appendEntries sampleAppend).InRange := by
  refine ⟨by decide, by unfold Short; decide, by decide, by decide, by decide, by decide, ?_⟩
  intro e he
  rw [show e = ⟨3, 5, .keySync "k" [7, 9]⟩ from mem_singleton.mp he]
  exact ⟨by decide, by decide, by unfold Short; decide, by unfold Short; decide⟩

/-- The same request with another command has another input. -/
theorem MacMessage.macInput_eq_macInput_iff_sample :
    (MacMessage.appendEntries sampleAppend).macInput ≠
      (MacMessage.appendEntries { sampleAppend with entries := [] }).macInput := by
  intro h
  have hr' : (MacMessage.appendEntries { sampleAppend with entries := [] }).InRange :=
    ⟨by decide, by unfold Short; decide, by decide, by decide, by decide, by decide,
      fun _ he => by cases he⟩
  exact absurd ((macInput_eq_macInput_iff _ _ sampleAppend_inRange hr').mp h).2 (by decide)

/-- An approval of a proposal is one of a later proposal that is otherwise the same. -/
theorem MacMessage.proposal_time_not_covered : ∃ m m' : MacMessage, m.InRange ∧ m'.InRange ∧
    m.macInput = m'.macInput ∧ m.withoutHmac ≠ m'.withoutHmac :=
  ⟨.configChangeApproval ⟨"p1", "n2", 1000, Vector.replicate 32 0⟩ ⟨"p1", "n4", .addNode, 900⟩,
    .configChangeApproval ⟨"p1", "n2", 1000, Vector.replicate 32 0⟩ ⟨"p1", "n4", .addNode, 901⟩,
    by simp only [InRange, Short]; decide, by simp only [InRange, Short]; decide, rfl, by decide⟩

end CratonHsm
