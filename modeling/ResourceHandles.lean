import ResourceHandles.Address
import ResourceHandles.Bytes
import ResourceHandles.CallMode
import ResourceHandles.CloseSignal
import ResourceHandles.CommandLine.Arguments
import ResourceHandles.CommandLine.Scan
import ResourceHandles.CommandLine.Walkthrough
import ResourceHandles.Configuration
import ResourceHandles.Files.Changes
import ResourceHandles.Files.Fault
import ResourceHandles.Files.OpenFile
import ResourceHandles.Files.Path
import ResourceHandles.Files.Tree
import ResourceHandles.Handle
import ResourceHandles.HandleTable
import ResourceHandles.Json
import ResourceHandles.Machine.Basic
import ResourceHandles.Machine.Call
import ResourceHandles.Machine.Perform
import ResourceHandles.Machine.Steps
import ResourceHandles.Main
import ResourceHandles.Manifest.Bundled
import ResourceHandles.Manifest.BundledFlags
import ResourceHandles.Manifest.BundledOperations
import ResourceHandles.Manifest.Directive
import ResourceHandles.Manifest.Extraction
import ResourceHandles.Manifest.Reading
import ResourceHandles.Manifest.Rendering
import ResourceHandles.Manifest.Resolution
import ResourceHandles.Manifest.Shape
import ResourceHandles.Manifest.TypeExpr
import ResourceHandles.Network.Basic
import ResourceHandles.Network.Host
import ResourceHandles.Network.Operations
import ResourceHandles.OpenFlag
import ResourceHandles.Proofs.Address.Grammar
import ResourceHandles.Proofs.Address.RoundTrip
import ResourceHandles.Proofs.CommandLine.Formats
import ResourceHandles.Proofs.Configuration.Atomic
import ResourceHandles.Proofs.Configuration.Rendering
import ResourceHandles.Proofs.Configuration.RoundTrip
import ResourceHandles.Proofs.Configuration.Saving
import ResourceHandles.Proofs.Files.Contents
import ResourceHandles.Proofs.Files.Kept
import ResourceHandles.Proofs.Files.OpenFiles
import ResourceHandles.Proofs.Files.Replacing
import ResourceHandles.Proofs.Files.Separate
import ResourceHandles.Proofs.Files.TemporaryPath
import ResourceHandles.Proofs.Files.Transfers
import ResourceHandles.Proofs.Files.Walks
import ResourceHandles.Proofs.Json.RoundTrip
import ResourceHandles.Proofs.Machine.Accepting
import ResourceHandles.Proofs.Machine.Alone
import ResourceHandles.Proofs.Machine.Amounts
import ResourceHandles.Proofs.Machine.Answers
import ResourceHandles.Proofs.Machine.Bare
import ResourceHandles.Proofs.Machine.Belongings
import ResourceHandles.Proofs.Machine.Bindings
import ResourceHandles.Proofs.Machine.ByteStream
import ResourceHandles.Proofs.Machine.Commuting
import ResourceHandles.Proofs.Machine.Completing
import ResourceHandles.Proofs.Machine.Delivery
import ResourceHandles.Proofs.Machine.Draining
import ResourceHandles.Proofs.Machine.Emptying
import ResourceHandles.Proofs.Machine.FileContents
import ResourceHandles.Proofs.Machine.FileOwners
import ResourceHandles.Proofs.Machine.FilesKept
import ResourceHandles.Proofs.Machine.Flow
import ResourceHandles.Proofs.Machine.Footprints
import ResourceHandles.Proofs.Machine.Ledger
import ResourceHandles.Proofs.Machine.LifeCycle
import ResourceHandles.Proofs.Machine.Links
import ResourceHandles.Proofs.Machine.Meetings
import ResourceHandles.Proofs.Machine.Mirroring
import ResourceHandles.Proofs.Machine.Modeless
import ResourceHandles.Proofs.Machine.Pairs
import ResourceHandles.Proofs.Machine.Parcels
import ResourceHandles.Proofs.Machine.Parties
import ResourceHandles.Proofs.Machine.Performing
import ResourceHandles.Proofs.Machine.Reading
import ResourceHandles.Proofs.Machine.Renewal
import ResourceHandles.Proofs.Machine.Run
import ResourceHandles.Proofs.Machine.Severing
import ResourceHandles.Proofs.Machine.Shut
import ResourceHandles.Proofs.Machine.Sound
import ResourceHandles.Proofs.Machine.Tables
import ResourceHandles.Proofs.Machine.Tickets
import ResourceHandles.Proofs.Machine.Traffic
import ResourceHandles.Proofs.Machine.Transitions
import ResourceHandles.Proofs.Machine.Waiting
import ResourceHandles.Proofs.Machine.WindingUp
import ResourceHandles.Proofs.Machine.WriteThenRead
import ResourceHandles.Proofs.Machine.Writes
import ResourceHandles.Proofs.Manifest.AnnotatedSource
import ResourceHandles.Proofs.Manifest.CanonicalText
import ResourceHandles.Proofs.Manifest.DirectiveGrammar
import ResourceHandles.Proofs.Manifest.LineByLine
import ResourceHandles.Proofs.Manifest.Pairing
import ResourceHandles.Proofs.Manifest.Reextraction
import ResourceHandles.Proofs.Manifest.Refusals
import ResourceHandles.Proofs.Manifest.ShapeText
import ResourceHandles.Proofs.Manifest.TypeSpelling
import ResourceHandles.Proofs.Manifest.TypeText
import ResourceHandles.Proofs.Network.AnyOrder
import ResourceHandles.Proofs.Network.Backlogs
import ResourceHandles.Proofs.Network.Closing
import ResourceHandles.Proofs.Network.Ends
import ResourceHandles.Proofs.Network.Grafts
import ResourceHandles.Proofs.Network.Listening
import ResourceHandles.Proofs.Network.Modeless
import ResourceHandles.Proofs.Session.Beside
import ResourceHandles.Proofs.Session.ClosingTime
import ResourceHandles.Proofs.Session.Commuting
import ResourceHandles.Proofs.Session.Company
import ResourceHandles.Proofs.Session.Conversation
import ResourceHandles.Proofs.Session.Dialogue
import ResourceHandles.Proofs.Session.Elsewhere
import ResourceHandles.Proofs.Session.FailedCalls
import ResourceHandles.Proofs.Session.FileHandles
import ResourceHandles.Proofs.Session.FileRoundTrip
import ResourceHandles.Proofs.Session.Hosting
import ResourceHandles.Proofs.Session.Idle
import ResourceHandles.Proofs.Session.Keeping
import ResourceHandles.Proofs.Session.LeftOpen
import ResourceHandles.Proofs.Session.Mirroring
import ResourceHandles.Proofs.Session.Modes
import ResourceHandles.Proofs.Session.Orderly
import ResourceHandles.Proofs.Session.Owners
import ResourceHandles.Proofs.Session.Places
import ResourceHandles.Proofs.Session.Playing
import ResourceHandles.Proofs.Session.Quiet
import ResourceHandles.Proofs.Session.Renewing
import ResourceHandles.Proofs.Session.Schedules
import ResourceHandles.Proofs.Session.Served
import ResourceHandles.Proofs.Session.Serving
import ResourceHandles.Proofs.Session.Trees
import ResourceHandles.Proofs.Session.Turns
import ResourceHandles.Proofs.Signal.WakeUps
import ResourceHandles.Proofs.Table.Basic
import ResourceHandles.Proofs.Table.Refinement
import ResourceHandles.Proofs.Text.Lines
import ResourceHandles.Proofs.Text.Numeral
import ResourceHandles.Proofs.Text.Pieces
import ResourceHandles.Proofs.Text.Tokens
import ResourceHandles.Proofs.Toml.Line
import ResourceHandles.Proofs.Toml.Quoted
import ResourceHandles.Proofs.Transfer.Reading
import ResourceHandles.Proofs.Transfer.Writing
import ResourceHandles.Session.Exchange
import ResourceHandles.Session.Findings
import ResourceHandles.Session.Outcome
import ResourceHandles.Session.Script
import ResourceHandles.Session.Step
import ResourceHandles.Session.Task
import ResourceHandles.Store
import ResourceHandles.Text.Blank
import ResourceHandles.Text.Digit
import ResourceHandles.Text.Hex
import ResourceHandles.Text.Line
import ResourceHandles.Text.Split
import ResourceHandles.Text.Token
import ResourceHandles.Toml.Document
import ResourceHandles.Toml.Quoted
import ResourceHandles.Toml.Scalar
import ResourceHandles.Toml.Table
import ResourceHandles.Transfer
import ResourceHandles.Wire
