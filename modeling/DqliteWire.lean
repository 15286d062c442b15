import DqliteWire.Discard
import DqliteWire.Responses
import DqliteWire.Reassembly
import DqliteWire.Failures
import DqliteWire.Acceptance
import DqliteWire.Counted
import DqliteWire.Exchange
import DqliteWire.Tolerance
import DqliteWire.Storage
import DqliteWire.Readers
import DqliteWire.Primitives
import DqliteWire.Delimited
import DqliteWire.SignalSafety
import DqliteWire.Reader
import DqliteWire.Schedules
import DqliteWire.Opening
import DqliteWire.Link
import DqliteWire.Compaction
import DqliteWire.Conversation
import DqliteWire.Contract
import DqliteWire.ServerText
import DqliteWire.Relay
import DqliteWire.Dialects
import DqliteWire.Footprint
