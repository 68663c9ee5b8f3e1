import ClassHost.Archive.Checksum
import ClassHost.Archive.Directory
import ClassHost.Archive.Entry
import ClassHost.Archive.ExtraField
import ClassHost.Archive.Inflate
import ClassHost.Archive.LittleEndian
import ClassHost.Archive.Zip
import ClassHost.Buffer
import ClassHost.Bytes
import ClassHost.ClassFile.Basic
import ClassHost.ClassFile.Parser
import ClassHost.ClassPath
import ClassHost.ClassPath.FilePath
import ClassHost.ClassPath.FileTree
import ClassHost.ClassTable
import ClassHost.Command.Arguments
import ClassHost.Command.Help
import ClassHost.Command.Report
import ClassHost.ConstantPool
import ClassHost.Decimal.Shortest
import ClassHost.Descriptor.Basic
import ClassHost.Descriptor.Parser
import ClassHost.Fault
import ClassHost.LoadPlan
import ClassHost.Loader
import ClassHost.Machine.Boot
import ClassHost.Machine.Initialization
import ClassHost.Machine.Invocation
import ClassHost.Machine.Program
import ClassHost.Machine.Request
import ClassHost.Machine.Run
import ClassHost.Machine.State
import ClassHost.Machine.Supervisor
import ClassHost.Main
import ClassHost.Object.Heap
import ClassHost.Object.StringPool
import ClassHost.Object.Value
import ClassHost.Override
import ClassHost.Text.Combining
import ClassHost.Text.LogLines
import ClassHost.Text.ModifiedUtf8
import ClassHost.Text.Quoted
import ClassHost.Text.Units
import ClassHost.Text.Unprintable
import ClassHost.Text.Utf8
import ClassHost.Threads
import ClassHost.WellKnown
import ClassHost.Proofs.Effect
import ClassHost.Proofs.Heap
import ClassHost.Proofs.ClassTable
import ClassHost.Proofs.Text.Units
import ClassHost.Proofs.Text.Hash
import ClassHost.Proofs.Text.ModifiedUtf8
import ClassHost.Proofs.Text.Groups
import ClassHost.Proofs.Text.CanonicalForm
import ClassHost.Proofs.ClassPath.DirectorySearch
import ClassHost.Proofs.Descriptor.FieldTypes
import ClassHost.Proofs.Descriptor.MethodTypes
import ClassHost.Proofs.Descriptor.MemberKeys
import ClassHost.Proofs.ClassFile.Extent
import ClassHost.Proofs.ClassFile.Layout
import ClassHost.Proofs.ClassFile.RoundTrip
import ClassHost.Proofs.ClassFile.FileParts
import ClassHost.Proofs.ClassFile.PoolReferences
import ClassHost.Proofs.ClassFile.PoolSlots
import ClassHost.Proofs.ClassFile.PoolIndex
import ClassHost.Proofs.ClassFile.MethodHandles
import ClassHost.Proofs.Buffer
import ClassHost.Proofs.Loader.Plans
import ClassHost.Proofs.Loader.Construction
import ClassHost.Proofs.Loader.Searches
import ClassHost.Proofs.Loader.Derivation
import ClassHost.Proofs.Loader.Results
import ClassHost.Proofs.Loader.History
import ClassHost.Proofs.Loader.ArrayNames
import ClassHost.Proofs.Loader.Failure
import ClassHost.Proofs.Loader.TableInvariant
import ClassHost.Proofs.Loader.Independence
import ClassHost.Proofs.Loader.SuperChain
import ClassHost.Proofs.Loader.Provenance
import ClassHost.Proofs.Loader.Caching
import ClassHost.Proofs.Loader.PlanLevels
import ClassHost.Proofs.Loader.ArrayChains
import ClassHost.Proofs.Loader.Marked
import ClassHost.Proofs.Loader.PlannedTypes
import ClassHost.Proofs.Machine.Execution
import ClassHost.Proofs.Machine.Fuel
import ClassHost.Proofs.Machine.Moments
import ClassHost.Proofs.Machine.Frame
import ClassHost.Proofs.Machine.Access
import ClassHost.Proofs.Machine.ObjectSteps
import ClassHost.Proofs.Machine.Asks
import ClassHost.Proofs.Machine.Trace
import ClassHost.Proofs.Machine.CallStack
import ClassHost.Proofs.Machine.Registry
import ClassHost.Proofs.Machine.Journal
import ClassHost.Proofs.Machine.Initialization
import ClassHost.Proofs.Machine.Invocation
import ClassHost.Proofs.Machine.InitializationSteps
import ClassHost.Proofs.Machine.TableSteps
import ClassHost.Proofs.Machine.Watching
import ClassHost.Proofs.Machine.Attempts
import ClassHost.Proofs.Machine.Evolution
import ClassHost.Proofs.Machine.SuperFirst
import ClassHost.Proofs.Machine.AloofEngine
import ClassHost.Proofs.Machine.HandsOffEngine
import ClassHost.Proofs.Machine.InitializationEnds
import ClassHost.Proofs.Machine.Unwinding
import ClassHost.Proofs.Machine.Settling
import ClassHost.Proofs.Machine.CanonicalStrings
import ClassHost.Proofs.Boot.Facts
import ClassHost.Proofs.Boot.Steps
import ClassHost.Proofs.Boot.Parts
import ClassHost.Proofs.Boot.Started
import ClassHost.Proofs.Boot.Conduct
import ClassHost.Proofs.Boot.Requirements
import ClassHost.Proofs.Boot.Keeping
import ClassHost.Proofs.Boot.Overriding
import ClassHost.Proofs.Boot.Raising
import ClassHost.Proofs.Boot.StringArrays
import ClassHost.Proofs.Boot.Once
import ClassHost.Proofs.Boot.Completion
import ClassHost.Proofs.Boot.Permanence
import ClassHost.Proofs.Boot.FirstFailure
import ClassHost.Proofs.Boot.Failure
import ClassHost.Proofs.Boot.Stages
import ClassHost.Proofs.Boot.MainThread
import ClassHost.Proofs.Command.Lines
import ClassHost.Proofs.Command.ArrayLines
import ClassHost.Proofs.Threads.Crew
import ClassHost.Proofs.Threads.Schedules
import ClassHost.Proofs.Threads.Supervision
import ClassHost.Proofs.Threads.Interleavings
