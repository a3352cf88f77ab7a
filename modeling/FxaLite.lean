import FxaLite.Lib.Table
import FxaLite.Lib.Machine
import FxaLite.Lib.PyText
import FxaLite.Lib.Fallible
import FxaLite.Lib.Url
import FxaLite.Lib.Base64
import FxaLite.Lib.Utf8
import FxaLite.Lib.Budget
import FxaLite.Lib.Double
import FxaLite.Lib.Rounding
import FxaLite.Lib.PyFloat
import FxaLite.Lib.Keyset
import FxaLite.Lib.OffsetPaging
import FxaLite.Lib.Script
import FxaLite.Lib.SingleUse
import FxaLite.Lib.BlockStream
import FxaLite.Lib.SelfDelimiting
import FxaLite.Crypto.Hkdf
import FxaLite.Crypto.Expansion
import FxaLite.Lib.Hex
import FxaLite.Crypto.Tokens
import FxaLite.Lib.Points
import FxaLite.Lib.JsonText
import FxaLite.Crypto.Base64Url
import FxaLite.Crypto.Jwt
import FxaLite.Crypto.ConcatKdf
import FxaLite.Crypto.Jwe
import FxaLite.Crypto.Sealing
import FxaLite.Crypto.Signing
import FxaLite.Lib.Claims
import FxaLite.Crypto.ScopedKeys
import FxaLite.Middleware.BodyLimit
import FxaLite.Middleware.Tracing
import FxaLite.Tokenserver.Tokenlib
import FxaLite.Tokenserver.Users
import FxaLite.Tokenserver.KeysChangedAt
import FxaLite.Tokenserver.Rows
import FxaLite.Tokenserver.Races
import FxaLite.Tokenserver.Crashes
import FxaLite.SyncStorage.Errors
import FxaLite.SyncStorage.Schema
import FxaLite.SyncStorage.Store
import FxaLite.SyncStorage.Models
import FxaLite.SyncStorage.Handlers
import FxaLite.SyncStorage.Writes
import FxaLite.SyncStorage.Effects
import FxaLite.SyncStorage.Pagination
import FxaLite.SyncStorage.RowCounts
import FxaLite.SyncStorage.Records
import FxaLite.SyncStorage.Collections
import FxaLite.SyncStorage.Batches
import FxaLite.SyncStorage.BatchIds
import FxaLite.SyncStorage.Resources
import FxaLite.SyncStorage.DeltaSync
import FxaLite.SyncStorage.LostUpdates
import FxaLite.SyncStorage.NotModified
import FxaLite.SyncStorage.LazyExpiry
import FxaLite.SyncStorage.BatchUpload
import FxaLite.SyncStorage.StablePages
import FxaLite.SyncStorage.Representation
import FxaLite.SyncStorage.Bodies
import FxaLite.SyncStorage.Wire
import FxaLite.SyncStorage.Names
import FxaLite.SyncStorage.Admission
import FxaLite.SyncStorage.Deferred
import FxaLite.SyncStorage.IdLists
import FxaLite.SyncStorage.Hawk
import FxaLite.SyncStorage.Normalized
import FxaLite.SyncStorage.Credentials
import FxaLite.SyncStorage.Handshake
import FxaLite.SyncStorage.Refusals
import FxaLite.SyncStorage.Authentication
import FxaLite.SyncStorage.Exemption
import FxaLite.SyncStorage.SignedTarget
import FxaLite.Accounts.Database
import FxaLite.Accounts.KeyFetch
import FxaLite.Accounts.Throttle
import FxaLite.Accounts.SlidingWindow
import FxaLite.Accounts.Guesses
import FxaLite.Accounts.KeyHierarchy
import FxaLite.OAuth.Scopes
import FxaLite.OAuth.ScopeSet
import FxaLite.OAuth.Clients
import FxaLite.OAuth.Grants
import FxaLite.OAuth.Routes
import FxaLite.OAuth.Redemption
import FxaLite.OAuth.Escalation
import FxaLite.OAuth.CodeBinding
import FxaLite.Lib.Noninterference
import FxaLite.SyncStorage.Views
import FxaLite.SyncStorage.Reads
import FxaLite.SyncStorage.Shadows
import FxaLite.SyncStorage.Isolation
import FxaLite.Lib.Renaming
import FxaLite.SyncStorage.Wipes
import FxaLite.Lib.Dict
import FxaLite.OAuth.NormalForm
import FxaLite.OAuth.ScopeGrammar
import FxaLite.OAuth.ScopeDicts
import FxaLite.OAuth.AccessTokens
import FxaLite.Tokenserver.Bearer
import FxaLite.Lib.Interference
import FxaLite.Tokenserver.Reliance
import FxaLite.Tokenserver.KeyIds
import FxaLite.Accounts.AuthHeaders
import FxaLite.Content.Derivations
import FxaLite.Content.KeyFetch
import FxaLite.OAuth.ScopedKeyData
import FxaLite.Content.SealedKeys
import FxaLite.SyncStorage.Timestamps
import FxaLite.Accounts.AttachedClients
import FxaLite.Middleware.Redaction
import FxaLite.Devices.Tables
import FxaLite.Devices.UserAgents
import FxaLite.Devices.Routes
import FxaLite.Devices.Attached
import FxaLite.Devices.Requests
import FxaLite.Devices.Links
import FxaLite.Devices.Lifetimes
import FxaLite.Devices.Isolation
import FxaLite.Devices.AuthTimes
import FxaLite.Profile.Routes
import FxaLite.Tokenserver.Endpoint
import FxaLite.SyncStorage.Holders
