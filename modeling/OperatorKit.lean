import OperatorKit.Arguments.Grammar
import OperatorKit.Arguments.Help
import OperatorKit.Arguments.Parser
import OperatorKit.Command.Banner
import OperatorKit.Command.Ending
import OperatorKit.Command.KeyIssueOptions
import OperatorKit.Command.KeyIssueProgram
import OperatorKit.Command.LoadTestOptions
import OperatorKit.Command.LoadTestProgram
import OperatorKit.Decimal.Binary
import OperatorKit.Decimal.FloatReader
import OperatorKit.Decimal.Layout
import OperatorKit.Decimal.Natural
import OperatorKit.Decimal.Shortest
import OperatorKit.Disk.Path
import OperatorKit.Disk.Refusal
import OperatorKit.Disk.Tree
import OperatorKit.Fault
import OperatorKit.Http.Exchange
import OperatorKit.Http.Host
import OperatorKit.Http.Message
import OperatorKit.Http.Percent
import OperatorKit.Http.Response
import OperatorKit.Http.Script
import OperatorKit.Http.Url
import OperatorKit.Json.Number
import OperatorKit.Json.Problem
import OperatorKit.Json.Quoted
import OperatorKit.Json.Reader
import OperatorKit.Json.Value
import OperatorKit.Key.Action
import OperatorKit.Key.Audit
import OperatorKit.Key.Base64
import OperatorKit.Key.Der
import OperatorKit.Key.Integer
import OperatorKit.Key.Issue
import OperatorKit.Key.Jwk
import OperatorKit.Key.Jwk.Reader
import OperatorKit.Key.Modular
import OperatorKit.Key.Prime
import OperatorKit.Key.PrivateKeyInfo
import OperatorKit.Key.Problem
import OperatorKit.Key.Rsa
import OperatorKit.Live.Disk
import OperatorKit.Live.Random
import OperatorKit.Live.Run
import OperatorKit.Live.Server
import OperatorKit.Load.Due
import OperatorKit.Load.Pause
import OperatorKit.Load.Picker
import OperatorKit.Load.Plan
import OperatorKit.Load.Rehearsal
import OperatorKit.Load.Report
import OperatorKit.Load.Request
import OperatorKit.Load.Run
import OperatorKit.Load.RunTime
import OperatorKit.Load.Scenario
import OperatorKit.Load.Tally
import OperatorKit.Load.Weights
import OperatorKit.Log
import OperatorKit.Main
import OperatorKit.Power
import OperatorKit.Proofs.Decimal.Natural
import OperatorKit.Proofs.Disk.Fresh
import OperatorKit.Proofs.Disk.Join
import OperatorKit.Proofs.Disk.Path
import OperatorKit.Proofs.Disk.Tree
import OperatorKit.Proofs.Disk.Walk
import OperatorKit.Proofs.Http.Exchange
import OperatorKit.Proofs.Json.Number
import OperatorKit.Proofs.Json.Quoted
import OperatorKit.Proofs.Json.RoundTrip
import OperatorKit.Proofs.Json.Skipping
import OperatorKit.Proofs.Json.Spelling
import OperatorKit.Proofs.Key.Agreement
import OperatorKit.Proofs.Key.Base64
import OperatorKit.Proofs.Key.Call
import OperatorKit.Proofs.Key.Consistency
import OperatorKit.Proofs.Key.Contest
import OperatorKit.Proofs.Key.Created
import OperatorKit.Proofs.Key.Der
import OperatorKit.Proofs.Key.Folder
import OperatorKit.Proofs.Key.Integer
import OperatorKit.Proofs.Key.Issue
import OperatorKit.Proofs.Key.JwkText
import OperatorKit.Proofs.Key.MemberOrder
import OperatorKit.Proofs.Key.Modular
import OperatorKit.Proofs.Key.NumberText
import OperatorKit.Proofs.Key.PrivateKeyInfo
import OperatorKit.Proofs.Key.PublicPart
import OperatorKit.Proofs.Key.Refused
import OperatorKit.Proofs.Load.Accounting
import OperatorKit.Proofs.Load.Average
import OperatorKit.Proofs.Load.Balance
import OperatorKit.Proofs.Load.Body
import OperatorKit.Proofs.Load.Coherence
import OperatorKit.Proofs.Load.FailureLog
import OperatorKit.Proofs.Load.Ledger
import OperatorKit.Proofs.Load.Lifecycle
import OperatorKit.Proofs.Load.Mix
import OperatorKit.Proofs.Load.Overrides
import OperatorKit.Proofs.Load.Parts
import OperatorKit.Proofs.Load.Pause
import OperatorKit.Proofs.Load.Plan
import OperatorKit.Proofs.Load.Proportion
import OperatorKit.Proofs.Load.Readiness
import OperatorKit.Proofs.Load.Recovery
import OperatorKit.Proofs.Load.ReportText
import OperatorKit.Proofs.Load.Reporting
import OperatorKit.Proofs.Load.Requests
import OperatorKit.Proofs.Load.Reweighting
import OperatorKit.Proofs.Load.Rotation
import OperatorKit.Proofs.Load.RunTime
import OperatorKit.Proofs.Load.RunTimeProblem
import OperatorKit.Proofs.Load.Sharing
import OperatorKit.Proofs.Load.Step
import OperatorKit.Proofs.Load.Summary
import OperatorKit.Proofs.Load.Tally
import OperatorKit.Proofs.Load.Uniform
import OperatorKit.Proofs.Load.Weights
import OperatorKit.Proofs.Random.Draw
import OperatorKit.Proofs.Random.Retry
import OperatorKit.Proofs.Random.Rows
import OperatorKit.Proofs.Sorted
import OperatorKit.Proofs.Text.ByteOrder
import OperatorKit.Proofs.Text.Split
import OperatorKit.Proofs.Text.Trailing
import OperatorKit.Proofs.Text.Words
import OperatorKit.Random.Draw
import OperatorKit.Random.Keystream
import OperatorKit.Sorted
import OperatorKit.Span
import OperatorKit.Span.Rounded
import OperatorKit.Text.Blank
import OperatorKit.Text.Bytes
import OperatorKit.Text.Folding
import OperatorKit.Text.Likeness
import OperatorKit.Text.Quoted
import OperatorKit.Text.Split
import OperatorKit.Text.Unprintable
