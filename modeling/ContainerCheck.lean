import ContainerCheck.Check.Bench
import ContainerCheck.Check.Harness
import ContainerCheck.Check.HostPath
import ContainerCheck.Check.Lifecycle
import ContainerCheck.Check.Scenario
import ContainerCheck.Check.StopProtocol
import ContainerCheck.CommandLine.Arguments
import ContainerCheck.CommandLine.Command
import ContainerCheck.CommandLine.Usage
import ContainerCheck.Config
import ContainerCheck.Cri.Client
import ContainerCheck.Cri.Container
import ContainerCheck.Cri.Memory
import ContainerCheck.Cri.Request
import ContainerCheck.Error
import ContainerCheck.Host.Fault
import ContainerCheck.Host.Files
import ContainerCheck.Host.Path
import ContainerCheck.Host.Tree
import ContainerCheck.Json.Fault
import ContainerCheck.Json.Numeral
import ContainerCheck.Json.Reader
import ContainerCheck.Json.Shape
import ContainerCheck.Json.Skip
import ContainerCheck.Json.Token
import ContainerCheck.Json.Value
import ContainerCheck.Log.File
import ContainerCheck.Log.Line
import ContainerCheck.Log.Record
import ContainerCheck.Log.Stream
import ContainerCheck.Main
import ContainerCheck.Number.Double
import ContainerCheck.Number.Shortest
import ContainerCheck.Poll
import ContainerCheck.Proofs.Accounts
import ContainerCheck.Proofs.AppendedLogs
import ContainerCheck.Proofs.BenchCalls
import ContainerCheck.Proofs.BenchLogs
import ContainerCheck.Proofs.Budgets
import ContainerCheck.Proofs.Calls
import ContainerCheck.Proofs.Cleanup
import ContainerCheck.Proofs.Conduct
import ContainerCheck.Proofs.ConfigFiles
import ContainerCheck.Proofs.Contracts
import ContainerCheck.Proofs.Deeds
import ContainerCheck.Proofs.DefaultLog
import ContainerCheck.Proofs.Directories
import ContainerCheck.Proofs.Encodings
import ContainerCheck.Proofs.Endings
import ContainerCheck.Proofs.FailStop
import ContainerCheck.Proofs.FirstFault
import ContainerCheck.Proofs.GrowingFiles
import ContainerCheck.Proofs.GrowingLogs
import ContainerCheck.Proofs.GuardedPaths
import ContainerCheck.Proofs.HealthyLogs
import ContainerCheck.Proofs.HealthyRuns
import ContainerCheck.Proofs.HealthyScenarios
import ContainerCheck.Proofs.Holding
import ContainerCheck.Proofs.HomeEntries
import ContainerCheck.Proofs.HostPaths
import ContainerCheck.Proofs.LineKinds
import ContainerCheck.Proofs.LineTexts
import ContainerCheck.Proofs.LogAccounts
import ContainerCheck.Proofs.LogDirectories
import ContainerCheck.Proofs.LogSandbox
import ContainerCheck.Proofs.LossyOutput
import ContainerCheck.Proofs.MemoryLogs
import ContainerCheck.Proofs.MemoryRuntime
import ContainerCheck.Proofs.MessageLines
import ContainerCheck.Proofs.MountedPaths
import ContainerCheck.Proofs.ObjectLines
import ContainerCheck.Proofs.OperationAccounts
import ContainerCheck.Proofs.Operations
import ContainerCheck.Proofs.OverlaidObjects
import ContainerCheck.Proofs.OwnedEntries
import ContainerCheck.Proofs.Pacing
import ContainerCheck.Proofs.Paths
import ContainerCheck.Proofs.Polling
import ContainerCheck.Proofs.PrintedRecords
import ContainerCheck.Proofs.Provisioning
import ContainerCheck.Proofs.ReadObjects
import ContainerCheck.Proofs.ReadRows
import ContainerCheck.Proofs.ReadStrings
import ContainerCheck.Proofs.Renaming
import ContainerCheck.Proofs.Respect
import ContainerCheck.Proofs.Results
import ContainerCheck.Proofs.Rotation
import ContainerCheck.Proofs.RunBudgets
import ContainerCheck.Proofs.SandboxCalls
import ContainerCheck.Proofs.ScenarioAccounts
import ContainerCheck.Proofs.ScenarioConduct
import ContainerCheck.Proofs.ScratchDirectories
import ContainerCheck.Proofs.ScratchFiles
import ContainerCheck.Proofs.Shelves
import ContainerCheck.Proofs.Signs
import ContainerCheck.Proofs.SkippedValues
import ContainerCheck.Proofs.SoundTrees
import ContainerCheck.Proofs.StampForm
import ContainerCheck.Proofs.StillFile
import ContainerCheck.Proofs.StopProtocol
import ContainerCheck.Proofs.TableRows
import ContainerCheck.Proofs.TaggedFile
import ContainerCheck.Proofs.TaggedLines
import ContainerCheck.Proofs.Teardown
import ContainerCheck.Proofs.TimeLimits
import ContainerCheck.Proofs.Timestamp
import ContainerCheck.Proofs.Utf8
import ContainerCheck.Proofs.Verdicts
import ContainerCheck.Proofs.WatchedFile
import ContainerCheck.Session
import ContainerCheck.Text.Blank
import ContainerCheck.Text.Combining
import ContainerCheck.Text.Digits
import ContainerCheck.Text.Quoted
import ContainerCheck.Text.Unprintable
import ContainerCheck.Text.Utf8
import ContainerCheck.Time.Date
import ContainerCheck.Time.Duration
import ContainerCheck.Time.Instant
import ContainerCheck.Time.Lenient
import ContainerCheck.Time.Scan
import ContainerCheck.Time.Strict
import ContainerCheck.World
