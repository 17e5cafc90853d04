import NexusFix.StoreVariant
import NexusFix.AsyncMutexWord
import NexusFix.AsyncEventWord
import NexusFix.SessionMachine
import NexusFix.SessionSend
import NexusFix.SessionSendOrder
import NexusFix.SessionReceive
import NexusFix.SessionLifecycle
import NexusFix.SequenceRecovery
import NexusFix.SessionRecovery
import NexusFix.TransportSend
import NexusFix.Combinators
import NexusFix.ScopedLock
import NexusFix.WinsockInit
import NexusFix.WinsockTransport
import NexusFix.SessionTransport
