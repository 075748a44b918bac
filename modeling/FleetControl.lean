import FleetControl.Text.Case
import FleetControl.Text.Percent
import FleetControl.Text.Numeral
import FleetControl.Json.Value
import FleetControl.Json.Reader
import FleetControl.Json.Format
import FleetControl.Json.Printer
import FleetControl.Clock
import FleetControl.Refusal
import FleetControl.Access.Permissions
import FleetControl.Node.Basic
import FleetControl.Node.Listing
import FleetControl.Node.Observation
import FleetControl.Query.Basic
import FleetControl.Query.Carve
import FleetControl.Query.Name
import FleetControl.Query.Target
import FleetControl.Store.Basic
import FleetControl.Store.Call
import FleetControl.Program
import FleetControl.Store.Outage
import FleetControl.Fleet.Accounts
import FleetControl.Fleet.Delivery
import FleetControl.Endpoint
import FleetControl.Settings.Basic
import FleetControl.Settings.Variables
import FleetControl.Fleet.Operation
import FleetControl.Wire.Formats
import FleetControl.Wire.Rows
import FleetControl.Http.Body
import FleetControl.Http.MediaType
import FleetControl.Http.Request
import FleetControl.Http.Response
import FleetControl.Http.Service
import FleetControl.Proofs.Identity
import FleetControl.Proofs.Programs
import FleetControl.Proofs.Runs
import FleetControl.Proofs.Delivery
import FleetControl.Proofs.Launches
import FleetControl.Proofs.Results
import FleetControl.Proofs.Tally
import FleetControl.Proofs.Atomicity
import FleetControl.Proofs.NodeActions
import FleetControl.Proofs.Reach
import FleetControl.Proofs.Journal
import FleetControl.Proofs.Digests
import FleetControl.Proofs.Histories
import FleetControl.Proofs.Sifting
import FleetControl.Proofs.Lifecycle
import FleetControl.Proofs.Mediation
import FleetControl.Proofs.Races
import FleetControl.Proofs.Denials
import FleetControl.Proofs.Removals
import FleetControl.Proofs.Numbering
import FleetControl.Proofs.Readings
import FleetControl.Proofs.Gate
import FleetControl.Proofs.Blame
import FleetControl.Proofs.Statuses
import FleetControl.Proofs.Neighbours
import FleetControl.Proofs.Grants
import FleetControl.Proofs.Enrollments
import FleetControl.Proofs.EnrollmentRaces
import FleetControl.Proofs.Contacts
import FleetControl.Proofs.Batches
import FleetControl.Proofs.Lookups
import FleetControl.Proofs.Statistics
import FleetControl.Proofs.Cutoffs
import FleetControl.Proofs.ReturnedRows
import FleetControl.Proofs.Carves
import FleetControl.Proofs.StoredTargets
import FleetControl.Proofs.Variables
import FleetControl.Proofs.Environments
import FleetControl.Proofs.Bootstrap
import FleetControl.Proofs.Revisions
import FleetControl.Proofs.Forms
