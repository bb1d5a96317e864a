import OsLabs.Machine.Run
import OsLabs.Machine.Simulation
import OsLabs.Machine.Tally
import OsLabs.Machine.Program
import OsLabs.Machine.Threads
import OsLabs.Machine.Owner
import OsLabs.Machine.Handover
import OsLabs.Machine.Winding
import OsLabs.Machine.Population
import OsLabs.Ipc.Semaphore
import OsLabs.Ipc.Channel
import OsLabs.Ipc.Register
import OsLabs.Ipc.TicketQueue
import OsLabs.Ipc.Event
import OsLabs.Ipc.LockFile
import OsLabs.Ipc.Descriptors
import OsLabs.Ipc.Children
import OsLabs.Ipc.Pipe
import OsLabs.Rpc.Xdr
import OsLabs.Rpc.Layout
import OsLabs.Rpc.RoundTrip
import OsLabs.Rpc.Clnt
import OsLabs.Rpc.Exchange
import OsLabs.Rpc.Order
import OsLabs.Lab01.Fifth
import OsLabs.Lab01.FifthFraming
import OsLabs.Lab01.ForkTree
import OsLabs.Lab03.Alphabet
import OsLabs.Lab03.Storage
import OsLabs.Lab03.Ledger
import OsLabs.Lab03.ProdCons
import OsLabs.Lab03.ProdConsInvariant
import OsLabs.Lab03.ProdConsBuffer
import OsLabs.Lab03.ProdConsExit
import OsLabs.Lab03.ProdConsMain
import OsLabs.Lab03.ProdConsMainInvariant
import OsLabs.Lab03.ProdConsMainRemoval
import OsLabs.Lab03.ProdConsMac
import OsLabs.Lab03.ProdConsMacInvariant
import OsLabs.Lab03.ProdConsMacTokens
import OsLabs.Lab03.ProdConsMacBuffer
import OsLabs.Lab03.ProdConsMacMain
import OsLabs.Lab03.SameTraces
import OsLabs.Lab03.BufferWinding
import OsLabs.Lab03.WriterReader
import OsLabs.Lab03.WriterReaderInvariant
import OsLabs.Lab03.WriterReaderExclusion
import OsLabs.Lab03.WriterReaderQueue
import OsLabs.Lab03.WriterReaderInterrupts
import OsLabs.Lab03.WriterReaderKills
import OsLabs.Lab03.WriterReaderWinding
import OsLabs.Lab03.WriterReaderEntry
import OsLabs.Lab03.ProcessTree
import OsLabs.Lab03.ProcessTreeRuns
import OsLabs.Lab03.ProcessTreeRest
import OsLabs.Lab03.WholePrograms
import OsLabs.Lab04.WriterReader
import OsLabs.Lab04.Effect
import OsLabs.Lab04.Solo
import OsLabs.Lab04.Exclusion
import OsLabs.Lab04.Shutdown
import OsLabs.Lab04.Letters
import OsLabs.Lab04.ActiveWaits
import OsLabs.Bakery.Server
import OsLabs.Bakery.Effect
import OsLabs.Bakery.Invariant
import OsLabs.Bakery.Refinement
import OsLabs.Bakery.Solo
import OsLabs.Bakery.Trace
import OsLabs.Bakery.Order
import OsLabs.Bakery.Progress
import OsLabs.Bakery.Completion
import OsLabs.Bakery.Waiting
import OsLabs.Bakery.Repeat
import OsLabs.Bakery.Reply
import OsLabs.Bakery.Service
import OsLabs.Bakery.Range
import OsLabs.Bakery.Status
import OsLabs.Bakery.Overflow
import OsLabs.Bakery.Xdr
import OsLabs.Bakery.Client
import OsLabs.Bakery.Answers
import OsLabs.Bakery.Tickets
import OsLabs.Calculator.Server
import OsLabs.Calculator.Client
import OsLabs.Calculator.Answers
import OsLabs.Calculator.Exchange
import OsLabs.Calculator.Replies
import OsLabs.Calculator.Refinement
import OsLabs.RpcCalc.Server
import OsLabs.RpcCalc.Effect
import OsLabs.RpcCalc.Handover
import OsLabs.RpcCalc.Client
import OsLabs.RpcCalc.Answers
import OsLabs.RpcPc.Server
import OsLabs.RpcPc.Closedown
import OsLabs.Daemon.Start
import OsLabs.Daemon.Single
import OsLabs.Daemon.PidFile
import OsLabs.Daemon.Daemonize
import OsLabs.Daemon.Signals
import OsLabs.Daemon.SignalLog
