import ResourceServer.Hook.Description
import ResourceServer.Http.Application
import ResourceServer.Json.Writer
import ResourceServer.Memory
import ResourceServer.Operations
import ResourceServer.Samples.Library
import ResourceServer.Schema.Description
import ResourceServer.Settings.File
import ResourceServer.Sql.Connection
import ResourceServer.Proofs.Action
import ResourceServer.Proofs.Batch.Conduct
import ResourceServer.Proofs.Memory.Transaction
import ResourceServer.Proofs.Batch.Schedule
import ResourceServer.Proofs.Batch.Recording
import ResourceServer.Proofs.Memory.Reading
import ResourceServer.Proofs.Batch.Transaction
import ResourceServer.Proofs.Batch.Atomicity
import ResourceServer.Proofs.Batch.Pipeline
import ResourceServer.Proofs.Memory.Change
import ResourceServer.Proofs.Memory.Selection
import ResourceServer.Proofs.Confinement
import ResourceServer.Proofs.Numeric.Rank
import ResourceServer.Proofs.Value.Order
import ResourceServer.Proofs.Memory.Sorting
import ResourceServer.Proofs.Memory.Narrowing
import ResourceServer.Proofs.Memory.Related
import ResourceServer.Proofs.Store.Steps
import ResourceServer.Proofs.Store.Loading
import ResourceServer.Proofs.Store.EagerLoading
import ResourceServer.Proofs.Guard
import ResourceServer.Proofs.Sql.Outcome
import ResourceServer.Proofs.Sql.Typing
import ResourceServer.Proofs.Sql.Pattern
import ResourceServer.Proofs.Sql.Agreement
import ResourceServer.Proofs.Sql.Correspondence
import ResourceServer.Proofs.Sql.Ordering
import ResourceServer.Proofs.Sql.Selecting
import ResourceServer.Proofs.Sql.Reading
import ResourceServer.Proofs.Visibility.Runs
import ResourceServer.Proofs.Visibility.Sorting
import ResourceServer.Proofs.Visibility.Rows
import ResourceServer.Proofs.Visibility.Loading
import ResourceServer.Proofs.Visibility.Requests
import ResourceServer.Proofs.Visibility.Answers
import ResourceServer.Proofs.Store.Calls
import ResourceServer.Proofs.Memory.Versions
import ResourceServer.Proofs.Memory.Keys
import ResourceServer.Proofs.Memory.Integrity
import ResourceServer.Proofs.Memory.History
import ResourceServer.Proofs.Filter.Words
import ResourceServer.Proofs.Filter.Grammar
import ResourceServer.Proofs.Filter.Algebra
import ResourceServer.Proofs.Filter.Coverage
import ResourceServer.Proofs.Resolution.Specification
import ResourceServer.Proofs.Resolution.Requests
import ResourceServer.Proofs.Resolution.Loading
import ResourceServer.Proofs.Resolution.Memory
import ResourceServer.Proofs.Resolution.Database
import ResourceServer.Proofs.Resolution.Answers
import ResourceServer.Proofs.Query.Merging
import ResourceServer.Proofs.Query.Relations
import ResourceServer.Proofs.Batch.Silent
import ResourceServer.Proofs.Batch.Single
import ResourceServer.Proofs.Carrying.Loading
import ResourceServer.Proofs.Carrying.Answers
import ResourceServer.Proofs.Numeric.Quotient
import ResourceServer.Proofs.Store.Parts
import ResourceServer.Proofs.Store.Pages
import ResourceServer.Proofs.AllOrNothing
import ResourceServer.Proofs.Numeric.Numeral
import ResourceServer.Proofs.Query.Faults
import ResourceServer.Proofs.Keys.Denotation
import ResourceServer.Proofs.Keys.Confinement
import ResourceServer.Proofs.Value.Calendar
import ResourceServer.Proofs.Sql.Forms
import ResourceServer.Proofs.Sql.Rows
import ResourceServer.Proofs.Sql.Uniqueness
import ResourceServer.Proofs.Sql.Writing
import ResourceServer.Proofs.Sql.Asking
import ResourceServer.Proofs.Sql.Lockstep
import ResourceServer.Proofs.Sql.Performing
import ResourceServer.Proofs.Sql.Histories
import ResourceServer.Proofs.Catalog.History
import ResourceServer.Proofs.Query.Listing
import ResourceServer.Proofs.Viewing
import ResourceServer.Proofs.Http.Query
import ResourceServer.Proofs.Following
import ResourceServer.Proofs.Storing
import ResourceServer.Proofs.Indexing
import ResourceServer.Proofs.Belonging
import ResourceServer.Proofs.Memory.Revision
import ResourceServer.Proofs.Batch.Granted
import ResourceServer.Proofs.Batch.Reaching
import ResourceServer.Proofs.Keys.Plans
import ResourceServer.Proofs.Batch.Revising
import ResourceServer.Proofs.Batch.Proceeding
import ResourceServer.Proofs.Trashing
import ResourceServer.Proofs.Updating
import ResourceServer.Proofs.Appending
import ResourceServer.Proofs.Answering
import ResourceServer.Proofs.Identity
import ResourceServer.Proofs.Memory.Arrangement
import ResourceServer.Proofs.Projecting
import ResourceServer.Proofs.Counting
import ResourceServer.Proofs.Sql.Matching
import ResourceServer.Proofs.Memory.Scopes
import ResourceServer.Proofs.Store.Scopes
import ResourceServer.Proofs.Query.Sorting
import ResourceServer.Proofs.Batch.Chains
import ResourceServer.Proofs.Resolution.Validation
