import SigningGateway.Api.Body
import SigningGateway.Api.Gateway
import SigningGateway.Api.Http
import SigningGateway.Api.MediaType
import SigningGateway.Api.Route
import SigningGateway.Auth.Authenticator
import SigningGateway.Auth.Certificate
import SigningGateway.Auth.Challenge
import SigningGateway.Auth.Cleaning
import SigningGateway.Auth.Disk
import SigningGateway.Auth.Issuer
import SigningGateway.Auth.Message
import SigningGateway.Auth.Metadata
import SigningGateway.Auth.Registration
import SigningGateway.Auth.Store
import SigningGateway.Auth.Verifier
import SigningGateway.Bytes
import SigningGateway.Ed25519.Field
import SigningGateway.Ed25519.Point
import SigningGateway.Ed25519.Signature
import SigningGateway.Entropy
import SigningGateway.Error
import SigningGateway.Hash.Sha2
import SigningGateway.Hex
import SigningGateway.Json.Basic
import SigningGateway.Json.Decode
import SigningGateway.Json.Reader
import SigningGateway.Json.Writer
import SigningGateway.Launch.Launcher
import SigningGateway.Launch.PortPool
import SigningGateway.Launch.Process
import SigningGateway.Launch.Rehearsal
import SigningGateway.Launch.Script
import SigningGateway.Main
import SigningGateway.NodeId
import SigningGateway.Operation.Basic
import SigningGateway.Operation.Plan
import SigningGateway.Operation.Sockets
import SigningGateway.Proofs.Auth.Accepting
import SigningGateway.Proofs.Auth.Calls
import SigningGateway.Proofs.Auth.Certificates
import SigningGateway.Proofs.Auth.Checking
import SigningGateway.Proofs.Auth.Current
import SigningGateway.Proofs.Auth.Failing
import SigningGateway.Proofs.Auth.Issuing
import SigningGateway.Proofs.Auth.Keeping
import SigningGateway.Proofs.Auth.Messages
import SigningGateway.Proofs.Auth.Record
import SigningGateway.Proofs.Auth.Replay
import SigningGateway.Proofs.Auth.Run
import SigningGateway.Proofs.Auth.Snapshot
import SigningGateway.Proofs.Auth.Waiting
import SigningGateway.Proofs.Gate.Callers
import SigningGateway.Proofs.Gate.Entitled
import SigningGateway.Proofs.Gate.Server
import SigningGateway.Proofs.Json.Reading
import SigningGateway.Proofs.Json.Records
import SigningGateway.Proofs.Json.RoundTrip
import SigningGateway.Proofs.Launch.Arithmetic
import SigningGateway.Proofs.Launch.Leases
import SigningGateway.Proofs.Launch.Ports
import SigningGateway.Proofs.NodeNames
import SigningGateway.Proofs.Relay.Answers
import SigningGateway.Proofs.Relay.Attached
import SigningGateway.Proofs.Relay.Consistent
import SigningGateway.Proofs.Relay.Deadlines
import SigningGateway.Proofs.Relay.Delivery
import SigningGateway.Proofs.Relay.Ending
import SigningGateway.Proofs.Relay.Entering
import SigningGateway.Proofs.Relay.Fate
import SigningGateway.Proofs.Relay.FrameText
import SigningGateway.Proofs.Relay.Grants
import SigningGateway.Proofs.Relay.Handing
import SigningGateway.Proofs.Relay.Invariant
import SigningGateway.Proofs.Relay.Numbers
import SigningGateway.Proofs.Relay.Origin
import SigningGateway.Proofs.Relay.Pending
import SigningGateway.Proofs.Relay.Registering
import SigningGateway.Proofs.Relay.Reuse
import SigningGateway.Proofs.Relay.Rounds
import SigningGateway.Proofs.Relay.Run
import SigningGateway.Proofs.Relay.Steps
import SigningGateway.Proofs.Relay.Streams
import SigningGateway.Proofs.Relay.Unresolved
import SigningGateway.Proofs.Scheduler.Calls
import SigningGateway.Proofs.Scheduler.Counting
import SigningGateway.Proofs.Scheduler.Endings
import SigningGateway.Proofs.Scheduler.History
import SigningGateway.Proofs.Scheduler.Lookups
import SigningGateway.Proofs.Scheduler.OneLaunch
import SigningGateway.Proofs.Scheduler.Returns
import SigningGateway.Proofs.Scheduler.Run
import SigningGateway.Proofs.Scheduler.Sharing
import SigningGateway.Proofs.Scheduler.Single
import SigningGateway.Proofs.Scheduler.Steps
import SigningGateway.Proofs.Scheduler.Updates
import SigningGateway.Proofs.Scheduler.Waking
import SigningGateway.Proofs.Settings.Limits
import SigningGateway.Proofs.Socket.Frames
import SigningGateway.Proofs.Socket.Run
import SigningGateway.Proofs.Socket.Tasks
import SigningGateway.Proofs.Text.Digits
import SigningGateway.Proofs.Text.Hexadecimal
import SigningGateway.Proofs.Text.Integers
import SigningGateway.Proofs.Time.Dates
import SigningGateway.Proofs.Time.Writing
import SigningGateway.Proofs.Totals
import SigningGateway.Relay.Basic
import SigningGateway.Relay.Capability
import SigningGateway.Relay.Frame
import SigningGateway.Relay.Pending
import SigningGateway.Relay.Sweeping
import SigningGateway.Scheduler.Assignment
import SigningGateway.Scheduler.Basic
import SigningGateway.Scheduler.Registry
import SigningGateway.Settings.Address
import SigningGateway.Settings.Arguments
import SigningGateway.Settings.Basic
import SigningGateway.Settings.Report
import SigningGateway.Socket.Node
import SigningGateway.Socket.Signer
import SigningGateway.Table
import SigningGateway.Text.Blank
import SigningGateway.Text.CharLiteral
import SigningGateway.Text.Integer
import SigningGateway.Text.Utf8
import SigningGateway.Time.Calendar
import SigningGateway.Time.Clock
import SigningGateway.Time.Duration
import SigningGateway.Time.Moment
import SigningGateway.Time.Ticker
import SigningGateway.Uuid
