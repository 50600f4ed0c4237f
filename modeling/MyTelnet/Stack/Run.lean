/- module: MyTelnet/Stack/Run
   scope: model
   digest: The operations of one stack as actions, each atomic under the mutex, and their runs. -/

import MyTelnet.Base.Runs
import MyTelnet.Stack.Operations
import MyTelnet.Stack.Receive

set_option autoImplicit false
set_option relaxedAutoImplicit false

namespace MyTelnet.Stack.Run

open MyTelnet.Base.ByteOrder MyTelnet.Base.Runs MyTelnet.Wire.Layers
open MyTelnet.Stack.State MyTelnet.Stack.Operations MyTelnet.Stack.Receive

/-- One step of the user thread or of the capture thread, with the answers of the outside
world that it meets. The locals of `wait_for_connection` are the caller's and arbitrary here. -/
inductive Action where
  | connect (remoteIp : UInt32) (remotePort localPort : UInt16) (iss : UInt32)
      (filterSet : Bool) (sent : Int)
  | waitForConnectionPass (w : WaitLocals) (now later sent : Int)
  | sendData (data : Bytes) (sent : Int)
  | waitForData
  | closeConnection (sent : Int)
  | processPacket (packet : Packet) (sent : Nat → Int)

def step (s : TcpStack) : Action → TcpStack
  | .connect remoteIp remotePort localPort iss filterSet sent =>
    (connect s remoteIp remotePort localPort iss filterSet sent).1
  | .waitForConnectionPass w now later sent => (waitForConnectionPass s w now later sent).1
  | .sendData data sent => (sendData s data sent).1
  | .waitForData => (waitForData s).1
  | .closeConnection sent => (closeConnection s sent).1
  | .processPacket packet sent => processPacket s packet sent

abbrev runStack (s : TcpStack) (acts : List Action) : TcpStack := run step s acts

theorem runStack_snoc (s : TcpStack) (acts : List Action) (a : Action) :
    runStack s (acts ++ [a]) = step (runStack s acts) a :=
  run_snoc step s acts a

/-- The actions of a run during which no new connection is opened. -/
def Action.keepsConnection : Action → Bool
  | .connect .. => false
  | _ => true

end MyTelnet.Stack.Run
