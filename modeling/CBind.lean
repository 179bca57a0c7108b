import CBind.BindReport
import CBind.CommandLine.Run
import CBind.Digest.Crc
import CBind.Digest.KeyStream
import CBind.Main
import CBind.Sample.Compiler
import CBind.Session
import CBind.Proofs.Build.Freshness
import CBind.Proofs.Build.Memo
import CBind.Proofs.Build.Store
import CBind.Proofs.Source.Completeness
import CBind.Proofs.Source.Omissions
import CBind.Proofs.Source.Recovery
import CBind.Proofs.Source.WellFormed
import CBind.Proofs.Source.LineEnds
import CBind.Proofs.Source.Regions
import CBind.Proofs.Source.Blanking
import CBind.Proofs.Source.Naming
import CBind.Proofs.Call.Marshalling
import CBind.Proofs.Call.Widths
import CBind.Proofs.Call.Widening
import CBind.Proofs.Call.PoolSteps
import CBind.Proofs.Call.Resolution
import CBind.Proofs.Call.Shutdown
import CBind.Proofs.Call.Progress
import CBind.Proofs.Call.Schedule
import CBind.Proofs.Call.Following
import CBind.Proofs.Call.Waiting
import CBind.Proofs.Call.Policies
import CBind.Proofs.Library.References
import CBind.Proofs.Library.Lifetime
import CBind.Proofs.Library.Reporting
import CBind.Proofs.Testing.Discovery
import CBind.Proofs.Testing.Verdicts
import CBind.Proofs.Build.Framing
import CBind.Proofs.Source.Accounting
import CBind.Build.SideBySide
import CBind.Proofs.Build.Temporaries
import CBind.Proofs.Source.Bodies
import CBind.Proofs.Build.SideBySide
import CBind.Proofs.Build.Alone
import CBind.Proofs.Build.Failures
import CBind.Proofs.Source.Attachment
import CBind.Proofs.Source.DirectiveSets
import CBind.Proofs.Type.Meaning
import CBind.Proofs.Source.Attributes
import CBind.Proofs.Source.ArrayParameters
import CBind.Proofs.Library.Refusals
import CBind.Proofs.Testing.Outcomes
import CBind.Proofs.Bench.Measuring
import CBind.Proofs.Testing.Skipping
import CBind.Proofs.Files.Contents
import CBind.Proofs.Testing.Collecting
import CBind.Testing.Pipe
import CBind.Proofs.Testing.Isolated
import CBind.Proofs.CommandLine.Arrangement
import CBind.Proofs.Call.ArgumentTexts
import CBind.Proofs.Memory.Views
import CBind.Proofs.Digest.Remainder
import CBind.Proofs.Source.ClosedHeaders
import CBind.Proofs.Config.Workers
import CBind.Proofs.Source.Mishaps
