import LiveScene.Compiler.Compilation
import LiveScene.Diagnostics.Trace
import LiveScene.Json.Printer
import LiveScene.Live.Tables
import LiveScene.Main
import LiveScene.Sandbox.Schedule
import LiveScene.Scene.Building
import LiveScene.Scene.Render
import LiveScene.Proofs.Live.Notices
import LiveScene.Proofs.Live.Answers
import LiveScene.Proofs.Live.Steps
import LiveScene.Proofs.Live.Fencing
import LiveScene.Proofs.Live.Outcome
import LiveScene.Proofs.Sandbox.Events
import LiveScene.Proofs.Sandbox.Leases
import LiveScene.Proofs.Sandbox.Accounts
import LiveScene.Proofs.Sandbox.Peak
import LiveScene.Proofs.Sandbox.Shutdown
import LiveScene.Proofs.Text.Search
import LiveScene.Proofs.Text.Lines
import LiveScene.Proofs.Diagnostics.Frames
import LiveScene.Proofs.Diagnostics.Placement
import LiveScene.Proofs.Live.Order
import LiveScene.Proofs.Live.Changes
import LiveScene.Proofs.Live.Reports
import LiveScene.Proofs.Live.LastSuccess
import LiveScene.Proofs.Live.Services
import LiveScene.Proofs.Command.Watching
import LiveScene.Proofs.Command.Agreement
import LiveScene.Proofs.Sandbox.Traces
import LiveScene.Proofs.Compiler.Code
import LiveScene.Proofs.Compiler.Imports
import LiveScene.Proofs.Compiler.Modules
import LiveScene.Proofs.Script.References
import LiveScene.Proofs.Script.Values
import LiveScene.Proofs.Script.Alike
import LiveScene.Proofs.Script.Worlds
import LiveScene.Proofs.Script.Parsing
import LiveScene.Proofs.Compiler.Acceptance
import LiveScene.Proofs.Live.History
import LiveScene.Proofs.Live.Forms
import LiveScene.Proofs.Scene.Wire
import LiveScene.Proofs.Sandbox.Terms
import LiveScene.Proofs.Sandbox.Exporting
import LiveScene.Proofs.Compiler.Arguments
import LiveScene.Proofs.Compiler.Refusals
import LiveScene.Proofs.Compiler.Findings
import LiveScene.Proofs.Live.Bodies
import LiveScene.Proofs.Live.Loading
import LiveScene.Proofs.Compiler.Zones
import LiveScene.Proofs.Compiler.Scanning
