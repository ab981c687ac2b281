import SmirkBackend.Lib.Run
import SmirkBackend.Lib.Table
import SmirkBackend.Lib.Machine
import SmirkBackend.Lib.Json
import SmirkBackend.Lib.Binary64
import SmirkBackend.Lib.Referential
import SmirkBackend.Lib.Utxo
import SmirkBackend.Lib.Program
import SmirkBackend.Lib.Locking
import SmirkBackend.Lib.Rely
import SmirkBackend.Lib.Grants
import SmirkBackend.Lib.JsonText
import SmirkBackend.Lib.JsonOrder
import SmirkBackend.Lib.Journal
import SmirkBackend.Basic
import SmirkBackend.Tips.Row
import SmirkBackend.Tips.Store
import SmirkBackend.Tips.Lifecycle
import SmirkBackend.Tips.Edits
import SmirkBackend.Chain.Electrum
import SmirkBackend.Chain.Amounts
import SmirkBackend.Chain.Lws
import SmirkBackend.Chain.Grin
import SmirkBackend.Tips.SweepReconciler
import SmirkBackend.Tips.DepthGate
import SmirkBackend.Tips.ProbeFailure
import SmirkBackend.Tips.Attribution
import SmirkBackend.Schema
import SmirkBackend.Admin.Audit
import SmirkBackend.Erasure.Execute
import SmirkBackend.Tips.Confirmation
import SmirkBackend.Tips.FundingSoundness
import SmirkBackend.Tips.FundingFailure
import SmirkBackend.Auth.Nip98
import SmirkBackend.Auth.Nostr
import SmirkBackend.Auth.Users
import SmirkBackend.Auth.Extension
import SmirkBackend.Auth.Gates
import SmirkBackend.Auth.TokenConservation
import SmirkBackend.Auth.Frames
import SmirkBackend.Auth.Effects
import SmirkBackend.Auth.Takeover
import SmirkBackend.Auth.PreHijack
import SmirkBackend.Admin.Login
import SmirkBackend.Admin.Mac
import SmirkBackend.Admin.Keys
import SmirkBackend.Admin.Setup
import SmirkBackend.Admin.Tampering
import SmirkBackend.Admin.AuditChain
import SmirkBackend.Erasure.Requests
import SmirkBackend.Auth.SignedActions
import SmirkBackend.Auth.Website
import SmirkBackend.Auth.Sessions
import SmirkBackend.Auth.Statements
import SmirkBackend.Admin.ConfigPut
import SmirkBackend.Admin.AuditRuns
import SmirkBackend.Auth.Rotation
import SmirkBackend.Auth.Revocation
import SmirkBackend.Auth.Pow
import SmirkBackend.Auth.GateCompleteness
import SmirkBackend.Auth.PrimaryKeys
import SmirkBackend.Auth.Anchor
import SmirkBackend.Auth.ProvenKeys
import SmirkBackend.Tips.World
import SmirkBackend.Tips.GrinSettlement
import SmirkBackend.Tips.Claimable
import SmirkBackend.Tips.Replicas
import SmirkBackend.Tips.FundingDepth
import SmirkBackend.Tips.AddressAttribution
import SmirkBackend.Chain.LwsImport
import SmirkBackend.Chain.LwsStranding
import SmirkBackend.Chain.GrinSecure
import SmirkBackend.Premium.Invoices
import SmirkBackend.Premium.Activation
import SmirkBackend.Erasure.Sweep
import SmirkBackend.Erasure.Lifecycle
import SmirkBackend.Admin.Calls
import SmirkBackend.Admin.KeyFloor
import SmirkBackend.Admin.SettingsLoad
import SmirkBackend.Admin.Guard
import SmirkBackend.Auth.KeyIdentity
import SmirkBackend.Admin.ConcurrentEdits
import SmirkBackend.Wallet.GrinRelay
import SmirkBackend.Wallet.RelayLifecycle
import SmirkBackend.Auth.KeyTypes
import SmirkBackend.Auth.Usernames
import SmirkBackend.Auth.ClientIp
import SmirkBackend.Premium.PostingRights
import SmirkBackend.Wallet.VerifyOutage
import SmirkBackend.Chain.FallbackPrivacy
import SmirkBackend.Auth.RestoreGovernors
import SmirkBackend.Auth.FailedLogins
import SmirkBackend.Auth.ImportOnce
import SmirkBackend.Chain.Subaddresses
import SmirkBackend.Tips.ExactAmounts
import SmirkBackend.Auth.SignedMessages
import SmirkBackend.Wallet.RestorePricing
import SmirkBackend.Admin.SettingsMac
import SmirkBackend.Relay.LazyAdmission
import SmirkBackend.Auth.PowSingleUse
import SmirkBackend.Auth.InvoiceBinding
import SmirkBackend.Chain.AddressGrammar
import SmirkBackend.Wallet.VerifySoundness
import SmirkBackend.Tips.Starvation
import SmirkBackend.Tips.WinnerSelection
import SmirkBackend.Premium.Finality
import SmirkBackend.Auth.RestoreKeys
import SmirkBackend.Wallet.VerifySpelling
import SmirkBackend.Auth.ReturningUsers
import SmirkBackend.Tips.GracePeriod
import SmirkBackend.Wallet.BatchCounting
import SmirkBackend.Admin.MigrationLaw
import SmirkBackend.Wallet.OneRelay
import SmirkBackend.Lib.MapRows
import SmirkBackend.Tips.Creation
import SmirkBackend.Tips.Respelling
import SmirkBackend.Tips.VoucherSpelling
import SmirkBackend.Lib.Noninterference
import SmirkBackend.Lib.Restrict
import SmirkBackend.Tips.Api
import SmirkBackend.Tips.Unnoticed
import SmirkBackend.Lib.SessionLock
import SmirkBackend.Tips.AdvisoryLock
import SmirkBackend.Lib.RemoteGate
import SmirkBackend.Wallet.ScanGate
import SmirkBackend.Lib.Batch
import SmirkBackend.Erasure.Retention
import SmirkBackend.Lib.Decode
import SmirkBackend.Chain.LwsWire
import SmirkBackend.Wallet.LwsPassthrough
import SmirkBackend.Admin.Boot
import SmirkBackend.Admin.Capabilities
import SmirkBackend.Admin.Advertised
