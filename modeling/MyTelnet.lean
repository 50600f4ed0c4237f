import MyTelnet.Base.OnesComplement
import MyTelnet.Wire.CaptureBounds
import MyTelnet.Stack.RoundTrip
import MyTelnet.Stack.Handshake
import MyTelnet.Stack.Stream
import MyTelnet.Stack.Isolation
import MyTelnet.Stack.TwoStacks
import MyTelnet.Http.HeaderLines
import MyTelnet.Http.Chunking
import MyTelnet.Stack.FailedSends
import MyTelnet.Stack.Callbacks
import MyTelnet.Stack.Ledger
import MyTelnet.Stack.Handoff
import MyTelnet.Stack.Closing
import MyTelnet.Stack.Consumption
import MyTelnet.Stack.EmittedChecksums
import MyTelnet.Stack.LengthAgreement
import MyTelnet.Stack.Draining
import MyTelnet.Wire.ChecksumAgreement
import MyTelnet.Wire.ChecksumLaws
import MyTelnet.Wire.ErrorDetection
import MyTelnet.Wire.HandingOn
import MyTelnet.Wire.HeaderVerification
import MyTelnet.Wire.LayerOverlap
import MyTelnet.Wire.Padding
import MyTelnet.Http.Heads
import MyTelnet.Http.Numerals
import MyTelnet.Http.Stability
import MyTelnet.Http.Safety
import MyTelnet.Http.Download
import MyTelnet.Http.Spelling
import MyTelnet.Stack.Corruption
import MyTelnet.Stack.Resets
import MyTelnet.Http.Timing
import MyTelnet.Stack.CaptureLoop
import MyTelnet.Stack.LifetimeRuns
import MyTelnet.Stack.StateGraph
import MyTelnet.Stack.Echoes
import MyTelnet.Stack.Filtering
import MyTelnet.Http.Requests
import MyTelnet.Http.Delivery
import MyTelnet.Program.Main
import MyTelnet.Program.Processes
import MyTelnet.Program.Cleanup
import MyTelnet.Program.Outcomes
import MyTelnet.Program.EndToEnd
import MyTelnet.Program.Termination
