import Cimple.Protocol
import Cimple.Process
import Cimple.Messages
import Cimple.EventLoop
import Cimple.TcpServer
import Cimple.History
import Cimple.Upgrade
import Cimple.Worker
import Cimple.Dispatch
import Cimple.Commands
import Cimple.Results
import Cimple.Creation
import Cimple.WorkerFds
import Cimple.Lifetime
import Cimple.Frames
import Cimple.Listing
import Cimple.Rounds
import Cimple.Turns
import Cimple.Validation
import Cimple.Startup
import Cimple.CiRuns
import Cimple.Reading
import Cimple.Release
import Cimple.Strings
import Cimple.CommandTable
import Cimple.Progress
import Cimple.Fairness
import Cimple.Restarts
import Cimple.Statements
import Cimple.Client
import Cimple.Lifecycle
import Cimple.WorkerLifecycle
