import CratonHsm.RaftCompaction
import CratonHsm.RaftSafety
import CratonHsm.RaftVoteRate
import CratonHsm.RaftReplay
import CratonHsm.RaftFileCrash
import CratonHsm.RaftDurability
import CratonHsm.RaftInFlight
import CratonHsm.RaftApplied
import CratonHsm.KmipOwnership
import CratonHsm.KmipDenied
import CratonHsm.KmipTtlvRoundTrip
import CratonHsm.KmipReplay
import CratonHsm.KmipAuth
import CratonHsm.KmipMessages
import CratonHsm.LdapEscaping
import CratonHsm.TenantRaces
import CratonHsm.MfaApproval
import CratonHsm.DualControl
import CratonHsm.ModuleFsm
import CratonHsm.GcmJournalCrash
import CratonHsm.UserIds
import CratonHsm.GcmAlone
import CratonHsm.ApprovedModeHash
import CratonHsm.EcdsaDer
import CratonHsm.BinarySign
import CratonHsm.VaultRuns
import CratonHsm.SessionPool
import CratonHsm.SessionPrincipal
import CratonHsm.OpensslGcm
import CratonHsm.RaftFollower
import CratonHsm.RaftChunks
