import RootPermit.Foundation.Outcome
import RootPermit.Foundation.Bytes
import RootPermit.Foundation.MachineInt
import RootPermit.Foundation.Cursor
import RootPermit.Foundation.Shortlex
import RootPermit.Foundation.Cryptography
import RootPermit.Foundation.Sha256
import RootPermit.Foundation.Sha256Schedule
import RootPermit.Foundation.Base64Url
import RootPermit.Foundation.Table
import RootPermit.Foundation.Run
import RootPermit.Foundation.Segment
import RootPermit.Foundation.IndexedGraph
import RootPermit.Foundation.Utf8
import RootPermit.Protocol.Cbor
import RootPermit.Protocol.CborProfile
import RootPermit.Protocol.CborNormal
import RootPermit.Protocol.Digest
import RootPermit.Protocol.Schema
import RootPermit.Protocol.SchemaFields
import RootPermit.Protocol.SchemaRoundTrip
import RootPermit.Protocol.MessageTypes
import RootPermit.Protocol.Separation
import RootPermit.Protocol.Cose
import RootPermit.Rpc.Message
import RootPermit.Rpc.Frame
import RootPermit.WebAuthn.Submission
import RootPermit.Relay.Spool
import RootPermit.Relay.Snapshot
import RootPermit.Relay.FileSpool
import RootPermit.Broker.Intake
import RootPermit.Broker.Lifecycle
import RootPermit.Broker.Database
import RootPermit.Broker.Statements
import RootPermit.Broker.Store
import RootPermit.Broker.Decision
import RootPermit.Broker.Calls
import RootPermit.Broker.Dossier
import RootPermit.Foundation.LinkedLog
import RootPermit.Broker.Effects
import RootPermit.Broker.CallEffects
import RootPermit.Broker.EventChain
import RootPermit.Broker.Soundness
import RootPermit.Broker.Authenticity
import RootPermit.Broker.Acceptance
import RootPermit.Broker.Generation
import RootPermit.Broker.Supersession
import RootPermit.Broker.ActiveSlot
import RootPermit.Broker.Race
import RootPermit.Broker.Edges
import RootPermit.Broker.Recovery
import RootPermit.Broker.Reboot
import RootPermit.Broker.Record
import RootPermit.Broker.Authority
import RootPermit.Broker.Context
import RootPermit.Broker.Idempotency
import RootPermit.Hosted.Projection
import RootPermit.Hosted.FrozenProjection
import RootPermit.Hosted.Consumers
import RootPermit.Hosted.Uuid
import RootPermit.Hosted.Outbox
import RootPermit.Hosted.OutboxLeases
import RootPermit.Hosted.OutboxWorkers
import RootPermit.Hosted.OutboxProtocol
import RootPermit.Hosted.Resync
import RootPermit.Hosted.Updates
import RootPermit.Hosted.Pairings
import RootPermit.Hosted.Turns
import RootPermit.Hosted.Tenancy
import RootPermit.Hosted.Activation
import RootPermit.Hosted.Runtime
import RootPermit.Hosted.Quiet
import RootPermit.Hosted.Forwarding
import RootPermit.Helper.Cbor
import RootPermit.Helper.Utf8
import RootPermit.Helper.Utf8Span
import RootPermit.Helper.CborAgreement
import RootPermit.Helper.PlanManifest
import RootPermit.Helper.ManifestFormats
import RootPermit.Helper.ActionGraph
import RootPermit.Helper.ManifestFaithful
import RootPermit.Helper.Sha256
import RootPermit.Hosted.Delivery
import RootPermit.Hosted.ProjectionHistory
import RootPermit.Hosted.ResyncHistory
import RootPermit.Protocol.CborSize
import RootPermit.Protocol.SignedRequest
import RootPermit.Broker.Progress
import RootPermit.Broker.WallClock
import RootPermit.Cli.Arguments
import RootPermit.Broker.PackageGrammar
import RootPermit.Broker.Commitment
import RootPermit.Broker.Agreement
import RootPermit.Broker.RecordErrors
import RootPermit.Broker.Corruption
import RootPermit.Broker.PublicIds
import RootPermit.Foundation.Text
import RootPermit.Foundation.Double
import RootPermit.Foundation.Date
import RootPermit.Foundation.Markup
import RootPermit.Web.VerifiedEnvelope
import RootPermit.Web.ApprovalPage
import RootPermit.Web.RenderHtml
import RootPermit.Web.Ceremony
import RootPermit.Relay.Admission
import RootPermit.Foundation.Confinement
import RootPermit.Foundation.FirstWrite
import RootPermit.Relay.Rounds
import RootPermit.Rpc.Socket
import RootPermit.Broker.Histories
import RootPermit.Broker.Refinement
import RootPermit.Hosted.CrossSite
import RootPermit.Hosted.Changes
import RootPermit.Hosted.Mailboxes
import RootPermit.Hosted.CredentialLimit
import RootPermit.Foundation.Noninterference
import RootPermit.Hosted.TenantView
import RootPermit.Hosted.RequestRepository
import RootPermit.Hosted.TenantIsolation
import RootPermit.Helper.Startup
import RootPermit.Helper.ImmutableObject
import RootPermit.Foundation.HighWater
import RootPermit.Broker.SignCounts
import RootPermit.Broker.Policy
import RootPermit.Broker.KeyFile
import RootPermit.Hosted.Logins
import RootPermit.Hosted.RequestReads
