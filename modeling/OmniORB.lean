import OmniORB.Any.Contents
import OmniORB.Any.Representation
import OmniORB.Any.Runs
import OmniORB.Any.SmallOrb
import OmniORB.Any.Values
import OmniORB.BiDir.Callbacks
import OmniORB.BiDir.Ropes
import OmniORB.Cdr.Encapsulation
import OmniORB.Cdr.MemoryContents
import OmniORB.Cdr.MemoryRuns
import OmniORB.Cdr.MemoryStream
import OmniORB.Cdr.SkipInput
import OmniORB.Cdr.Stream
import OmniORB.Cdr.TrackerRuns
import OmniORB.Cdr.ValueChunks
import OmniORB.Cdr.ValueTrackers
import OmniORB.Cdr.Words
import OmniORB.CodeSets.Agreement
import OmniORB.CodeSets.EightBit
import OmniORB.CodeSets.FastPaths
import OmniORB.CodeSets.Negotiation
import OmniORB.CodeSets.SixteenBit
import OmniORB.CodeSets.Utf16
import OmniORB.CodeSets.Utf8
import OmniORB.CodeSets.Utf8Accepted
import OmniORB.CodeSets.Utf8Character
import OmniORB.CodeSets.Utf8RoundTrip
import OmniORB.CodeSets.Utf8Validation
import OmniORB.CodeSets.WidePaths
import OmniORB.Context.Agreement
import OmniORB.Context.Chains
import OmniORB.Context.Deletion
import OmniORB.Context.Matching
import OmniORB.Context.Properties
import OmniORB.Context.Runs
import OmniORB.Fixed.Arithmetic
import OmniORB.Fixed.Canonical
import OmniORB.Fixed.Division
import OmniORB.Fixed.Integers
import OmniORB.Fixed.Marshalling
import OmniORB.Fixed.Numbers
import OmniORB.Fixed.Operations
import OmniORB.Fixed.Order
import OmniORB.Fixed.Programs
import OmniORB.Fixed.Quotient
import OmniORB.Fixed.Rounding
import OmniORB.Fixed.Strings
import OmniORB.Fixed.TextRoundTrip
import OmniORB.Fixed.Texts
import OmniORB.Fixed.Updates
import OmniORB.Giop.BodyReading
import OmniORB.Giop.Call
import OmniORB.Giop.Delivery
import OmniORB.Giop.Fragments
import OmniORB.Giop.Framing
import OmniORB.Giop.Input12
import OmniORB.Giop.InputOverrun
import OmniORB.Giop.LockRuns
import OmniORB.Giop.Locks
import OmniORB.Giop.MessageSizes
import OmniORB.Giop.Offsets
import OmniORB.Giop.Output12
import OmniORB.Giop.OutputOffsets
import OmniORB.Giop.Reassembly
import OmniORB.Giop.Receive
import OmniORB.Giop.Receiver
import OmniORB.Giop.Runs
import OmniORB.Giop.Strand
import OmniORB.Giop.Written
import OmniORB.Http.KeyRuns
import OmniORB.Http.KeysKept
import OmniORB.Http.SessionKeys
import OmniORB.Idl.Arithmetic
import OmniORB.Idl.Evaluation
import OmniORB.Idl.Exactness
import OmniORB.Idl.Expressions
import OmniORB.Idl.FixedPoint
import OmniORB.Idl.Inheritance
import OmniORB.Idl.InheritanceRuns
import OmniORB.Idl.InheritanceSteps
import OmniORB.Idl.Operators
import OmniORB.Idl.RepoIdNesting
import OmniORB.Idl.RepoIdRuns
import OmniORB.Idl.RepoIdVersions
import OmniORB.Idl.RepoIds
import OmniORB.Idl.UnionChecks
import OmniORB.Idl.UnionLabels
import OmniORB.Idl.Valuetypes
import OmniORB.InitRefs.Resolution
import OmniORB.InitRefs.ResolutionRuns
import OmniORB.InitRefs.ServiceLists
import OmniORB.Invoker.Accounts
import OmniORB.Invoker.Pools
import OmniORB.Invoker.Steps
import OmniORB.Invoker.Tasks
import OmniORB.Ior.Addresses
import OmniORB.Ior.Components
import OmniORB.Ior.Contents
import OmniORB.Ior.Decoding
import OmniORB.Ior.Endpoints
import OmniORB.Ior.Published
import OmniORB.Ior.References
import OmniORB.Library.Align
import OmniORB.Library.Ancestry
import OmniORB.Library.BackPointers
import OmniORB.Library.BinarySearch
import OmniORB.Library.BitPrefix
import OmniORB.Library.Bits
import OmniORB.Library.Blocks
import OmniORB.Library.ByteOrder
import OmniORB.Library.ChainTable
import OmniORB.Library.Comparison
import OmniORB.Library.Conditions
import OmniORB.Library.Decimal
import OmniORB.Library.DoublyLinked
import OmniORB.Library.Firsts
import OmniORB.Library.Halving
import OmniORB.Library.LinearSearch
import OmniORB.Library.LongDivision
import OmniORB.Library.Nearest
import OmniORB.Library.Passes
import OmniORB.Library.Pieces
import OmniORB.Library.Pointwise
import OmniORB.Library.Scan
import OmniORB.Library.ShellSort
import OmniORB.Library.Slots
import OmniORB.Library.Threads
import OmniORB.Library.Transitions
import OmniORB.Library.Triple
import OmniORB.Library.Unicode
import OmniORB.Library.Walk
import OmniORB.Library.Words
import OmniORB.Naming.Bindings
import OmniORB.Naming.Compound
import OmniORB.Naming.Contexts
import OmniORB.Naming.Histories
import OmniORB.Naming.ReadersWriters
import OmniORB.Naming.ReadersWritersRuns
import OmniORB.Naming.Records
import OmniORB.Naming.Replay
import OmniORB.Naming.Restart
import OmniORB.ObjRef.Invocations
import OmniORB.ObjRef.Invoke
import OmniORB.Poa.Activators
import OmniORB.Poa.Buckets
import OmniORB.Poa.Children
import OmniORB.Poa.Entries
import OmniORB.Poa.EntryLife
import OmniORB.Poa.EntryRuns
import OmniORB.Poa.Following
import OmniORB.Poa.Keys
import OmniORB.Poa.LifeCycle
import OmniORB.Poa.Managers
import OmniORB.Poa.RequestCounts
import OmniORB.Poa.RequestRuns
import OmniORB.Poa.Requests
import OmniORB.Poa.Routing
import OmniORB.Poa.Trees
import OmniORB.Rope.Accounts
import OmniORB.Rope.AddressOrder
import OmniORB.Rope.Addresses
import OmniORB.Rope.Allocation
import OmniORB.Rope.Clients
import OmniORB.Rope.FailOver
import OmniORB.Rope.FailOverRuns
import OmniORB.Rope.FailOverUses
import OmniORB.Rope.Scavenging
import OmniORB.Rope.Steps
import OmniORB.Rope.Strands
import OmniORB.Rope.Waiting
import OmniORB.Sockets.Collection
import OmniORB.Sockets.PollList
import OmniORB.Sockets.Watching
import OmniORB.Transport.Matching
import OmniORB.Transport.NumericHosts
import OmniORB.Transport.RuleStrings
import OmniORB.Transport.Rules
import OmniORB.TypeCodes.Equality
import OmniORB.TypeCodes.Equivalence
import OmniORB.TypeCodes.Graphs
import OmniORB.TypeCodes.UnionDefaults
import OmniORB.TypeCodes.Unions
import OmniORB.Uri.Addresses
import OmniORB.Uri.Corbaname
import OmniORB.Uri.CorbanameRoundTrip
import OmniORB.Uri.HostPort
import OmniORB.Uri.NameRoundTrip
import OmniORB.Uri.Names
import OmniORB.Uri.Numbers
import OmniORB.Uri.Urls
import OmniORB.Uri.Validators
import OmniORB.Ziop.Agreement
import OmniORB.Ziop.Compression
import OmniORB.Ziop.Decompression
import OmniORB.Ziop.DecompressionSafety
import OmniORB.Ziop.Negotiation
