/-
The writer of a `RemoteSessionClient`: `homie-engine/src/remote/client.rs`.

Interactive callers share a `WriterState` behind a mutex, and every method below is one
critical section of it.  `connect` opens its SSH channel and says `Hello` on it before it
takes the lock, so nothing of a `connect` that fails is seen.

The pipe to SSH is outside: each write is given what the pipe does with it.  `write_all`
either puts all bytes on the pipe, or some of them and then fails; flushing a pipe does
nothing.  A channel keeps what has been put on it, so that what was sent can be compared
with what the callers were told.
-/
import Homie.Engine.RemotePump
import Homie.Lib.Trace

namespace Homie.Remote

/-- `MAX_QUEUED_INPUT`. -/
def maxQueuedInput : Nat := 1024 * 1024

/-! ### Channels -/

/-- What the pipe does with one `write_all`. -/
inductive PipeAnswer where
  | takes
  /-- It took this many of the bytes, but not all. -/
  | fails (taken : Nat) (error : IoError)
deriving DecidableEq

/-- One message handed to a channel. -/
structure Put where
  message : RemoteMessage
  /-- What the pipe took of its frame. -/
  bytes : List UInt8
  /-- It took all. -/
  whole : Bool

/-- `ChildStdin`, with everything handed to it, oldest first. -/
abbrev Channel := List Put

/-- The payload of an input frame that is wholly on the channel. -/
def Put.input (put : Put) : List UInt8 :=
  match put.message with
  | .terminal frame => if put.whole && frame.frameType == .input then frame.payload else []
  | _ => []

/-- The input bytes on a channel. -/
def inputOf (channel : Channel) : List UInt8 := channel.flatMap Put.input

def putOn (channel : Channel) (message : RemoteMessage) (encoded : List UInt8) :
    PipeAnswer → IoResult × Channel
  | .takes => (.ok (), channel ++ [⟨message, encoded, true⟩])
  | .fails taken error =>
    (.error error, channel ++ [⟨message, encoded.take (min taken (encoded.length - 1)), false⟩])

/-! ### The writer -/

structure WriterState where
  input : Option Channel
  generation : UInt64
  controllerEpoch : Option UInt64
  queuedInput : List UInt8
  queuedResize : Option (UInt16 × UInt16)

/-- A writer, and the channels it has let go of, oldest first. -/
structure RemoteWriter where
  writer : WriterState
  closed : List Channel

namespace RemoteWriter

variable (json : ControlJson) (debug : String → String)

def new : RemoteWriter := ⟨⟨none, 0, none, [], none⟩, []⟩

/-- The channels, oldest first. -/
def channels (client : RemoteWriter) : List Channel := client.closed ++ client.writer.input.toList

/-- The input bytes on the sequence of channels. -/
def delivered (client : RemoteWriter) : List UInt8 := client.channels.flatMap inputOf

def writeMessage (client : RemoteWriter) (message : RemoteMessage) (answer : PipeAnswer) :
    IoResult × RemoteWriter :=
  match RemoteCodec.encodeInto json message [] with
  | (.error e, _) => (.error ⟨.other, codecErrorText debug e⟩, client)
  | (.ok (), encoded) =>
    match client.writer.input with
    | none => (.error ⟨.notConnected, "SSH channel is closed"⟩, client)
    | some channel =>
      let (result, channel) := putOn channel message encoded answer
      (result, { client with writer := { client.writer with input := some channel } })

def queueInput (client : RemoteWriter) (bytes : List UInt8) : IoResult × RemoteWriter :=
  if client.writer.queuedInput.length + bytes.length > maxQueuedInput then
    (.error ⟨.wouldBlock, "remote reconnect input queue is full"⟩, client)
  else
    (.ok (), { client with
      writer := { client.writer with queuedInput := client.writer.queuedInput ++ bytes } })

def requireGeneration (client : RemoteWriter) (generation : UInt64) : IoResult :=
  if client.writer.generation ≠ generation ∨ client.writer.input.isNone then
    .error ⟨.notConnected, "SSH channel was superseded"⟩
  else .ok ()

/-- The writer lets go of its channel. -/
def terminateCurrent (client : RemoteWriter) : RemoteWriter :=
  { writer := { client.writer with input := none }
    closed := client.closed ++ client.writer.input.toList }

def setEpoch (client : RemoteWriter) (epoch : Option UInt64) : RemoteWriter :=
  { client with writer := { client.writer with controllerEpoch := epoch } }

/-- What the callers see of a channel that broke under a write. -/
def lost (client : RemoteWriter) : RemoteWriter := client.terminateCurrent.setEpoch none

/-! ### The methods -/

/-- `attached` is what `manager.attach` and the random source answered. -/
def connect (client : RemoteWriter) (hello : Hello) (attached : IoResult) (answer : PipeAnswer) :
    IoResult × RemoteWriter :=
  match attached with
  | .error e => (.error e, client)
  | .ok () =>
    match RemoteCodec.encodeInto json (.hello hello) [] with
    | (.error e, _) => (.error ⟨.other, codecErrorText debug e⟩, client)
    | (.ok (), encoded) =>
      match putOn [] (.hello hello) encoded answer with
      | (.error e, _) => (.error e, client)
      | (.ok (), channel) =>
        let terminated := client.terminateCurrent
        (.ok (), { terminated with
          writer := { terminated.writer with
            generation := saturatingSucc terminated.writer.generation
            controllerEpoch := none
            input := some channel } })

def acceptHello (client : RemoteWriter) (generation epoch : UInt64) : IoResult × RemoteWriter :=
  match client.requireGeneration generation with
  | .error e => (.error e, client)
  | .ok () => (.ok (), client.setEpoch (some epoch))

/-- The first half of `grant_control` after its checks: a size that waited goes out. -/
def flushResize (client : RemoteWriter) (answer : PipeAnswer) : IoResult × RemoteWriter :=
  match client.writer.queuedResize with
  | none => (.ok (), client)
  | some (cols, rows) =>
    { client with writer := { client.writer with queuedResize := none } }.writeMessage json debug
      (.terminal (Frame.resize cols rows)) answer

/-- The second half: the queue is taken before the write can fail. -/
def flushInput (client : RemoteWriter) (answer : PipeAnswer) : IoResult × RemoteWriter :=
  if client.writer.queuedInput.isEmpty then (.ok (), client)
  else
    { client with writer := { client.writer with queuedInput := [] } }.writeMessage json debug
      (.terminal (Frame.input client.writer.queuedInput)) answer

def grantControl (client : RemoteWriter) (generation epoch : UInt64)
    (resizeAnswer inputAnswer : PipeAnswer) : IoResult × RemoteWriter :=
  match client.requireGeneration generation with
  | .error e => (.error e, client)
  | .ok () =>
    if client.writer.controllerEpoch ≠ some epoch then
      (.error ⟨.permissionDenied, "remote controller epoch does not match HelloAck"⟩, client)
    else
      match client.flushResize json debug resizeAnswer with
      | (.error e, client) => (.error e, client)
      | (.ok (), client) => client.flushInput json debug inputAnswer

/-- No channel, or no epoch on it: interactive callers queue. -/
def reconnecting (client : RemoteWriter) : Bool :=
  client.writer.controllerEpoch.isNone || client.writer.input.isNone

def write (client : RemoteWriter) (bytes : List UInt8) (answer : PipeAnswer) :
    IoResult × RemoteWriter :=
  if bytes.isEmpty then (.ok (), client)
  else if client.reconnecting then client.queueInput bytes
  else
    match client.writeMessage json debug (.terminal (Frame.input bytes)) answer with
    | (.ok (), client) => (.ok (), client)
    | (.error _, client) =>
      match client.queueInput bytes with
      | (.error e, client) => (.error e, client)
      | (.ok (), client) => (.ok (), client.lost)

def queueResize (client : RemoteWriter) (cols rows : UInt16) : RemoteWriter :=
  { client with writer := { client.writer with queuedResize := some (cols, rows) } }

def resize (client : RemoteWriter) (cols rows : UInt16) (answer : PipeAnswer) :
    IoResult × RemoteWriter :=
  match validateTerminalDimensions cols rows with
  | .error e => (.error ⟨.invalidInput, codecErrorText debug e⟩, client)
  | .ok () =>
    if client.reconnecting then (.ok (), client.queueResize cols rows)
    else
      match client.writeMessage json debug (.terminal (Frame.resize cols rows)) answer with
      | (.ok (), client) => (.ok (), client)
      | (.error _, client) => (.ok (), (client.queueResize cols rows).lost)

def notConnected : IoError := ⟨.notConnected, "remote controller is reconnecting"⟩

def signal (client : RemoteWriter) (signal : Int32) (answer : PipeAnswer) :
    IoResult × RemoteWriter :=
  match client.writer.controllerEpoch with
  | none => (.error notConnected, client)
  | some epoch => client.writeMessage json debug (.signal ⟨epoch, signal⟩) answer

/-- The critical section of `read_scrollback_cells`. -/
def requestScrollback (client : RemoteWriter) (request : ScrollbackRequest) (answer : PipeAnswer) :
    IoResult × RemoteWriter :=
  if client.writer.controllerEpoch.isNone then (.error notConnected, client)
  else client.writeMessage json debug (.scrollbackRequest request) answer

def disconnect (client : RemoteWriter) (generation : UInt64) : RemoteWriter :=
  if client.writer.generation = generation then client.lost else client

def close (client : RemoteWriter) : RemoteWriter := client.lost

/-! ### Runs -/

/-- A call of one of the threads that share the client, with what the world answers it. -/
inductive WriterCall where
  | connect (hello : Hello) (attached : IoResult) (answer : PipeAnswer)
  | acceptHello (generation epoch : UInt64)
  | grantControl (generation epoch : UInt64) (resizeAnswer inputAnswer : PipeAnswer)
  | write (bytes : List UInt8) (answer : PipeAnswer)
  | resize (cols rows : UInt16) (answer : PipeAnswer)
  | signal (signal : Int32) (answer : PipeAnswer)
  | requestScrollback (request : ScrollbackRequest) (answer : PipeAnswer)
  | disconnect (generation : UInt64)
  | close

/-- What a call returns, and the client it leaves. -/
def call (client : RemoteWriter) : WriterCall → IoResult × RemoteWriter
  | .connect hello attached answer => client.connect json debug hello attached answer
  | .acceptHello generation epoch => client.acceptHello generation epoch
  | .grantControl generation epoch resizeAnswer inputAnswer =>
    client.grantControl json debug generation epoch resizeAnswer inputAnswer
  | .write bytes answer => client.write json debug bytes answer
  | .resize cols rows answer => client.resize json debug cols rows answer
  | .signal signal answer => client.signal json debug signal answer
  | .requestScrollback request answer => client.requestScrollback json debug request answer
  | .disconnect generation => (.ok (), client.disconnect generation)
  | .close => (.ok (), client.close)

def step (client : RemoteWriter) (event : WriterCall) : RemoteWriter × IoResult :=
  (client.call json debug event).swap

/-- The bytes a call took responsibility for: those of a `write` that returned `Ok`. -/
def acceptedBy (s : Trace.Step RemoteWriter WriterCall IoResult) : List UInt8 :=
  match s.event, s.outcome with
  | .write bytes _, .ok () => bytes
  | _, _ => []

/-- The bytes of all accepted writes, in the order they were accepted. -/
def accepted (history : List (Trace.Step RemoteWriter WriterCall IoResult)) : List UInt8 :=
  history.flatMap acceptedBy

end RemoteWriter
end Homie.Remote
