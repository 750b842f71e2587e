import Biztrip.Lib.Apart
import Biztrip.Lib.Decimal
import Biztrip.Lib.Draws
import Biztrip.Lib.Form
import Biztrip.Lib.Guard
import Biztrip.Lib.Numerals
import Biztrip.Lib.Overlap
import Biztrip.Lib.Paged
import Biztrip.Lib.Patch
import Biztrip.Lib.Percent
import Biztrip.Lib.Query
import Biztrip.Lib.Quota
import Biztrip.Lib.Reference
import Biztrip.Lib.Refine
import Biztrip.Lib.Regex
import Biztrip.Lib.RowWrite
import Biztrip.Lib.Run
import Biztrip.Lib.Separated
import Biztrip.Lib.Table
import Biztrip.Lib.Trail
import Biztrip.Lib.Url
import Biztrip.Lib.Version
import Biztrip.Lib.View
import Biztrip.Lib.Worklist
import Biztrip.Model.Basic
import Biztrip.Model.Rows
import Biztrip.Model.Schemas
import Biztrip.Model.Writes
import Biztrip.Rules.Account
import Biztrip.Rules.Expense
import Biztrip.Rules.Trip
import Biztrip.Service.Admin.Cards
import Biztrip.Service.Admin.Centers
import Biztrip.Service.Admin.Codes
import Biztrip.Service.Admin.Common
import Biztrip.Service.Admin.Departments
import Biztrip.Service.Admin.UserReads
import Biztrip.Service.Admin.Users
import Biztrip.Service.ApiKeys
import Biztrip.Service.Auth
import Biztrip.Service.Cards
import Biztrip.Service.Centers
import Biztrip.Service.Codes
import Biztrip.Service.ExpenseReads
import Biztrip.Service.Expenses
import Biztrip.Service.Faults
import Biztrip.Service.History
import Biztrip.Service.Matching
import Biztrip.Service.Notifications
import Biztrip.Service.Numbering
import Biztrip.Service.Pages
import Biztrip.Service.Signup
import Biztrip.Service.TripReads
import Biztrip.Service.Trips
import Biztrip.System
import Biztrip.Frame
import Biztrip.Desk.Approvers
import Biztrip.Desk.AuditTrail
import Biztrip.Desk.Authority
import Biztrip.Desk.Chronicle
import Biztrip.Desk.Companions
import Biztrip.Desk.Coupling
import Biztrip.Desk.Decisions
import Biztrip.Desk.Deed
import Biztrip.Desk.Deletions
import Biztrip.Desk.Effect
import Biztrip.Desk.Lineage
import Biztrip.Desk.Locked
import Biztrip.Desk.Numbers
import Biztrip.Desk.Reimbursement
import Biztrip.Desk.Rows
import Biztrip.Desk.Totals
import Biztrip.Accounts.Admins
import Biztrip.Accounts.Applications
import Biztrip.Accounts.Deed
import Biztrip.Accounts.KeyCap
import Biztrip.Accounts.Keys
import Biztrip.Accounts.Managers
import Biztrip.Accounts.Placement
import Biztrip.Edits.Change
import Biztrip.Edits.InTime
import Biztrip.Edits.Lost
import Biztrip.Edits.Overlap
import Biztrip.Edits.Response
import Biztrip.Edits.Serial
import Biztrip.Edits.Steps
import Biztrip.Masters.Centers
import Biztrip.Masters.Codes
import Biztrip.Masters.Deed
import Biztrip.Masters.Departments
import Biztrip.Masters.Validation
import Biztrip.Reads.Calls
import Biztrip.Reads.Candidates
import Biztrip.Reads.Days
import Biztrip.Reads.Hidden
import Biztrip.Reads.Linked
import Biztrip.Reads.Noninterference
import Biztrip.Reads.Offers
import Biztrip.Reads.Paging
import Biztrip.Patches.Accepted
import Biztrip.Patches.Outcome
import Biztrip.Http.App
import Biztrip.Http.Deps
import Biztrip.Http.Escalation
import Biztrip.Http.Lockout
import Biztrip.Http.OpenApi
import Biztrip.Http.Routes
import Biztrip.Http.Scopes
import Biztrip.Http.Startup
import Biztrip.Http.Widening
import Biztrip.Seed.Blocks
import Biztrip.Seed.Data
import Biztrip.Seed.Growth
import Biztrip.Seed.Partial
import Biztrip.Config.Identifier
import Biztrip.Web.Login
import Biztrip.Web.Pages
import Biztrip.Web.Query
import Biztrip.Web.Redirect
import Biztrip.Web.Session
import Biztrip.Process.Acceptance
import Biztrip.Process.Apart
import Biztrip.Process.Course
import Biztrip.Process.Progress
import Biztrip.Process.Simulation
import Biztrip.References
