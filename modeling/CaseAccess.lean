import CaseAccess.Administration.Basic
import CaseAccess.Administration.Grants
import CaseAccess.Administration.Validation
import CaseAccess.Administration.View
import CaseAccess.ApiError
import CaseAccess.Application
import CaseAccess.Application.Document
import CaseAccess.Calendar.Date
import CaseAccess.Calendar.DateText
import CaseAccess.Calendar.Instant
import CaseAccess.Calendar.InstantText
import CaseAccess.Calendar.Period
import CaseAccess.Case.Access
import CaseAccess.Case.Archive
import CaseAccess.Case.Denial
import CaseAccess.Case.Document
import CaseAccess.Case.Guard
import CaseAccess.Case.Lifecycle
import CaseAccess.Case.Record
import CaseAccess.Case.Writing
import CaseAccess.Catalog.Document
import CaseAccess.Catalog.Lookup
import CaseAccess.Catalog.Resolution
import CaseAccess.Catalog.Service
import CaseAccess.Catalog.TypeDefinition
import CaseAccess.CommandLine.Arguments
import CaseAccess.CommandLine.Command
import CaseAccess.CommandLine.Run
import CaseAccess.Component
import CaseAccess.Confidentiality
import CaseAccess.Config.Error
import CaseAccess.Config.Expansion
import CaseAccess.Config.Sections
import CaseAccess.Config.Server
import CaseAccess.Database.Basic
import CaseAccess.Database.Columns
import CaseAccess.Database.Command
import CaseAccess.Database.Row
import CaseAccess.Http.Applications
import CaseAccess.Http.Message
import CaseAccess.Http.Server
import CaseAccess.Integer64
import CaseAccess.Json.Basic
import CaseAccess.Json.Parser
import CaseAccess.Json.Printer
import CaseAccess.Json.Record
import CaseAccess.LocalBases
import CaseAccess.Main
import CaseAccess.Named
import CaseAccess.Notification
import CaseAccess.Operation
import CaseAccess.Permission.Caller
import CaseAccess.Permission.Changes
import CaseAccess.Permission.Decision
import CaseAccess.Permission.GrantCache
import CaseAccess.Permission.Request
import CaseAccess.Permission.Snapshot
import CaseAccess.Proofs.AddedGrant
import CaseAccess.Proofs.AddressBelow
import CaseAccess.Proofs.AddressItem
import CaseAccess.Proofs.AdministrationChange
import CaseAccess.Proofs.AdministrationFrame
import CaseAccess.Proofs.ArchiveDate
import CaseAccess.Proofs.ArchivePlan
import CaseAccess.Proofs.ArchiveSource
import CaseAccess.Proofs.Atomicity
import CaseAccess.Proofs.AttachmentChecks
import CaseAccess.Proofs.AuthorityText
import CaseAccess.Proofs.BlockedDecision
import CaseAccess.Proofs.BypassScopes
import CaseAccess.Proofs.ByteOrder
import CaseAccess.Proofs.ByteText
import CaseAccess.Proofs.CacheCoherence
import CaseAccess.Proofs.CacheTransparency
import CaseAccess.Proofs.CalendarArithmetic
import CaseAccess.Proofs.CalendarText
import CaseAccess.Proofs.CanonicalReference
import CaseAccess.Proofs.CaseAuthority
import CaseAccess.Proofs.CaseChange
import CaseAccess.Proofs.CaseHistory
import CaseAccess.Proofs.CaseLinks
import CaseAccess.Proofs.CaseLookup
import CaseAccess.Proofs.CaseTypes
import CaseAccess.Proofs.CatalogExpansion
import CaseAccess.Proofs.ChangeCollection
import CaseAccess.Proofs.ClosedCase
import CaseAccess.Proofs.DatabaseStore
import CaseAccess.Proofs.DateNotation
import CaseAccess.Proofs.DayNumber
import CaseAccess.Proofs.DecidingStatus
import CaseAccess.Proofs.DocumentDefinition
import CaseAccess.Proofs.Effect
import CaseAccess.Proofs.Entitlement
import CaseAccess.Proofs.Exclusivity
import CaseAccess.Proofs.HiddenCase
import CaseAccess.Proofs.History
import CaseAccess.Proofs.HostText
import CaseAccess.Proofs.InstantOrder
import CaseAccess.Proofs.InstantReading
import CaseAccess.Proofs.JsonText
import CaseAccess.Proofs.KeptPeriods
import CaseAccess.Proofs.Lookup
import CaseAccess.Proofs.NearestService
import CaseAccess.Proofs.NoServerFault
import CaseAccess.Proofs.NormalAddress
import CaseAccess.Proofs.PathSegments
import CaseAccess.Proofs.PayloadValidation
import CaseAccess.Proofs.PeriodNotation
import CaseAccess.Proofs.PermissionNotice
import CaseAccess.Proofs.PlanRows
import CaseAccess.Proofs.PropertyDate
import CaseAccess.Proofs.RecordColumns
import CaseAccess.Proofs.RecordDocuments
import CaseAccess.Proofs.RecordReading
import CaseAccess.Proofs.ReferenceReading
import CaseAccess.Proofs.RemoteCatalog
import CaseAccess.Proofs.ResolutionHistory
import CaseAccess.Proofs.ResourceAccess
import CaseAccess.Proofs.RestoredGrant
import CaseAccess.Proofs.Revision
import CaseAccess.Proofs.RowTables
import CaseAccess.Proofs.Rows
import CaseAccess.Proofs.Run
import CaseAccess.Proofs.ServiceBounds
import CaseAccess.Proofs.StableSort
import CaseAccess.Proofs.StatusPlan
import CaseAccess.Proofs.StatusReading
import CaseAccess.Proofs.StatusRules
import CaseAccess.Proofs.StatusVerdict
import CaseAccess.Proofs.StorageReturns
import CaseAccess.Proofs.StoreIntegrity
import CaseAccess.Proofs.StoredGrants
import CaseAccess.Proofs.SubCaseClosure
import CaseAccess.Proofs.TokenRoundTrip
import CaseAccess.Proofs.TokenSoundness
import CaseAccess.Proofs.Verdict
import CaseAccess.Proofs.ViewEntitlement
import CaseAccess.Proofs.ViewReading
import CaseAccess.Proofs.WholeWriting
import CaseAccess.Proofs.WiderAccess
import CaseAccess.Proofs.WrittenBack
import CaseAccess.ScopeSet
import CaseAccess.Site
import CaseAccess.Sorted.Map
import CaseAccess.Sorted.Set
import CaseAccess.Store.Applications
import CaseAccess.Store.Basic
import CaseAccess.Store.Cases
import CaseAccess.Store.Grants
import CaseAccess.Store.Table
import CaseAccess.Text.Alphanumeric
import CaseAccess.Text.Blank
import CaseAccess.Text.Decimal
import CaseAccess.Text.Utf8
import CaseAccess.Token.Base64Url
import CaseAccess.Token.Basic
import CaseAccess.Token.Segment
import CaseAccess.Token.Sha256
import CaseAccess.Token.Signing
import CaseAccess.Token.Verification
import CaseAccess.Toml.Parser
import CaseAccess.Toml.Quoted
import CaseAccess.Toml.Scalar
import CaseAccess.Toml.Table
import CaseAccess.TypeRef
import CaseAccess.Url.Basic
import CaseAccess.Url.Host
import CaseAccess.Url.Label
import CaseAccess.Url.Parser
import CaseAccess.Url.Percent
