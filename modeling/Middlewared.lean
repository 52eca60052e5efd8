import Middlewared.RoleAuthorization
import Middlewared.PrivilegeStig
import Middlewared.JobsQueueExclusion
import Middlewared.JobRunTermination
import Middlewared.CallWithAuditOnce
import Middlewared.CrudQueryAgreement
import Middlewared.DatastoreWriteAtomic
import Middlewared.LoginExAttempts
import Middlewared.ApiVersionIdentity
import Middlewared.ApiVersionFit
import Middlewared.DumpParamsSecrets
import Middlewared.RateLimit
import Middlewared.AlertPolicy
import Middlewared.AlertPersistence
import Middlewared.TokenSingleUse
import Middlewared.CredentialExpiry
import Middlewared.SessionLifetime
import Middlewared.OnetimePasswordUse
import Middlewared.RpcResponses
import Middlewared.EventSourceConsistency
import Middlewared.SnapshotRemovalDate
import Middlewared.DatasetKeySync
import Middlewared.NetworkCommit
import Middlewared.ReplicationJobs
import Middlewared.ReplicationBindings
import Middlewared.NfsExports
import Middlewared.KmipSyncKeys
import Middlewared.PassdbAgreement
import Middlewared.SmbAfpAgreement
import Middlewared.SmbOverride
import Middlewared.SmbServiceAgreement
import Middlewared.GroupmapAgreement
import Middlewared.ShareSecAgreement
import Middlewared.FailoverReplication
import Middlewared.IdmapRanges
import Middlewared.FailoverJobs
import Middlewared.VrrpEvents
import Middlewared.CaIssuing
import Middlewared.InterfaceDangling
import Middlewared.Nfs4Inheritance
import Middlewared.AclTemplate
import Middlewared.FilterAttributes
import Middlewared.FilterPathKeys
import Middlewared.HookBlocking
import Middlewared.JobHandoff
import Middlewared.JobProgress
import Middlewared.PosixAclGrant
import Middlewared.PosixAclText
import Middlewared.CaRevocationFinal
import Middlewared.RemoteRebootKept
import Middlewared.DatasetExclusion
import Middlewared.InterfaceAliases
import Middlewared.IscsiActiveTargets
import Middlewared.IscsiExtentFiles
import Middlewared.JobsDequeHistory
import Middlewared.Krb5ConfRoundTrip
import Middlewared.LocalSid
import Middlewared.PortService
import Middlewared.SmbAuxText
import Middlewared.SmbShareRollback
import Middlewared.AppVersions
import Middlewared.EncryptionKeyFile
import Middlewared.SmartSchedule
import Middlewared.AppQuestions
import Middlewared.CronWindow
import Middlewared.MountTree
import Middlewared.ReplicationKeys
import Middlewared.SchemaDumpPrivate
import Middlewared.SmbAcl
import Middlewared.TargetGroups
import Middlewared.TwofactorFlags
import Middlewared.UnlockPartition
import Middlewared.UserCreation
