import VcsGateway.Async.System
import VcsGateway.Async.History
import VcsGateway.Async.Account
import VcsGateway.Async.Solo
import VcsGateway.Values
import VcsGateway.Platform
import VcsGateway.Signature
import VcsGateway.Payload
import VcsGateway.Tables
import VcsGateway.Database
import VcsGateway.World
import VcsGateway.Sql
import VcsGateway.Service
import VcsGateway.Publisher
import VcsGateway.Gateway
import VcsGateway.Transactions
import VcsGateway.Moves
import VcsGateway.Storage
import VcsGateway.Footprint
import VcsGateway.Trail
import VcsGateway.Acceptance
import VcsGateway.Calls
import VcsGateway.Idempotency
import VcsGateway.TenantCache
import VcsGateway.Lifecycle
import VcsGateway.Delivery
import VcsGateway.Batches
import VcsGateway.Outbox
import VcsGateway.Keys
import VcsGateway.Outcomes
import VcsGateway.Responses
import VcsGateway.Failures
import VcsGateway.Alone
import VcsGateway.Columns
import VcsGateway.Durability
import VcsGateway.Containment
import VcsGateway.Channels
import VcsGateway.Async.Instants
import VcsGateway.Freshness
import VcsGateway.Origins
import VcsGateway.Authentication
import VcsGateway.Endpoints
import VcsGateway.Consumer
import VcsGateway.Lookups
import VcsGateway.Supersession
import VcsGateway.Async.Monitor
import VcsGateway.Versions
import VcsGateway.Async.Narrated
import VcsGateway.Journey
import VcsGateway.Ownership
import VcsGateway.Agreement
import VcsGateway.Async.Alike
import VcsGateway.Async.Separation
import VcsGateway.Secrecy
import VcsGateway.Isolation
import VcsGateway.Ledger
import VcsGateway.Transparency
import VcsGateway.Async.Linear
import VcsGateway.Registry
import VcsGateway.Attempts
import VcsGateway.Drain
import VcsGateway.Connections
import VcsGateway.Recovery
