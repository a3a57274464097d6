import Custody.Client.Status
import Custody.Client.Target.Reference
import Custody.Session.Purpose
import Custody.Subscription
import Custody.Wait
/-!
# The client of a broker behind sockets

A subscription is a socket of its own, opened at the channel's path. Its messages are the payloads
of text frames, and of binary frames that are UTF-8, up to the first frame that ends the stream: a
close frame or a failure of the socket. Other frames are passed over.
-/

namespace Custody.Client

/-- What a client receives on a socket. -/
inductive Frame
  | text (payload : String)
  | binary (payload : Bytes)
  | ping
  | pong
  | close
  /-- The socket has failed. -/
  | failure
  deriving DecidableEq, Repr

namespace Frame

/-- The frame ends the stream. -/
def endsStream : Frame → Bool
  | close | failure => true
  | _ => false

/-- The message in a frame. -/
def message? : Frame → Option String
  | text payload => some payload
  | binary payload => String.fromUTF8? (ByteArray.mk payload.toArray)
  | _ => none

/-- What a frame is for one who waits on the subscription. -/
def event? (frame : Frame) : Option StreamEvent :=
  if frame.endsStream then some .ended else frame.message?.map .message

/-- The messages of frames in order. -/
def messages (frames : List Frame) : List String :=
  (frames.takeWhile fun frame => !frame.endsStream).filterMap message?

end Frame

/-- A client that opens sockets at a service. -/
structure SocketBroker where
  /-- The address of the service, without slashes at its end. -/
  url : String
  deriving DecidableEq, Repr

/-- A peer that answers every handshake alike: it refuses with a status, or sends frames. -/
structure FrameSender where
  host : String
  refusal : Option Nat
  frames : List Frame
  deriving DecidableEq, Repr

namespace SocketBroker

/-- The address of a socket for the address of a page: the schemes of pages become those of
sockets, and every other text stays as it is. -/
def socketUrl (url : String) : String :=
  let chars := url.toList
  if "http://".toList.isPrefixOf chars then "ws://" ++ String.ofList (chars.drop 7)
  else if "https://".toList.isPrefixOf chars then "wss://" ++ String.ofList (chars.drop 8)
  else url

/-- The client of the service at an address. -/
def ofUrl (url : String) : SocketBroker :=
  ⟨socketUrl (trimSlashes url)⟩

/-- The address of a channel's socket. -/
def endpoint (client : SocketBroker) (key : ChannelKey) : String :=
  client.url ++ "/v1/subscribe/" ++ key.name

/-- What a handshake for a channel is sent to. -/
def target (client : SocketBroker) (key : ChannelKey) : Except Target.ReferenceFault Target :=
  Target.ofReference (client.endpoint key)

/-- The error of an address that is unfit. -/
def unfit (fault : Target.ReferenceFault) : Error :=
  .broker fault.message

/-- The error of a peer that cannot be reached. -/
def unreachable : Error :=
  .broker "the broker cannot be reached"

/-- The error of a handshake that is answered with a status other than that of a new socket. -/
def refused (status : Nat) : Error :=
  .broker ("HTTP error: " ++ Status.text status)

/-- Subscribes to a channel, in a world with one peer: the subscription, and the path that the peer
has been asked for. -/
def subscribe (client : SocketBroker) (peer : FrameSender) (key : ChannelKey) :
    Except Error Subscription × Option String :=
  match client.target key with
  | .error fault => (.error (unfit fault), none)
  | .ok target =>
    if target.host ≠ peer.host then (.error unreachable, none)
    else
      match peer.refusal with
      | some status => (.error (refused status), some target.path)
      | none => (.ok (.ofMessages key.name (Frame.messages peer.frames) true), some target.path)

end SocketBroker

end Custody.Client
