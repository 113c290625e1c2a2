import EncryptedInference.Client.Basic
import EncryptedInference.Host.Visit
/-!
# Links

A link joins a client to a server: what one side says reaches the other as the bytes of a frame. The
server's own work goes on between the messages of the client. When a frame cannot be written or
read, the visit at the server is over and the client finds the connection closed.
-/

namespace EncryptedInference

/-- A server with the visit that a client makes there, as long as it lasts. -/
structure Link where
  server : Server
  visit : Option Visit

namespace Link

/-- A client has just come to the server. -/
def initial : Link := ⟨.initial, some .initial⟩

/-- The visit is over, and its jobs are gone. -/
def hangUp (l : Link) : Link :=
  ⟨match l.visit with
    | some v => v.leave l.server
    | none => l.server, none⟩

/-- The message in the first frame of a stream of bytes. -/
def receive {α : Type} (ofJson? : Json → Option α) (bytes : List UInt8) : Except FrameError α :=
  match Frame.split bytes with
  | .closed => .error .closed
  | .tooLarge length => .error (.tooLarge length Frame.maxBody)
  | .bodyEnded received length => .error (.bodyEnded received length)
  | .frame body _ => Frame.decodeBody ofJson? body

/-- The server takes the bytes of a message and gives the bytes of its reply. -/
def answer (host : Host) (l : Link) (bytes : List UInt8) : Option (List UInt8) × Link :=
  match l.visit, receive ClientMessage.ofJson? bytes with
  | some v, .ok m => match v.handle host l.server m with
    | (some (reply, v), s) => match Frame.encode reply.body with
      | .ok bytes => (some bytes, ⟨s, some v⟩)
      | .error _ => (none, ⟨v.leave s, none⟩)
    | (none, s) => (none, ⟨v.leave s, none⟩)
  | _, _ => (none, l.hangUp)

/-- The client gives a message to the server and reads the reply. -/
def call (host : Host) (meanwhile : Visit.Meanwhile) (l : Link) (m : ClientMessage) :
    Except ConnectionError ServerMessage × Link :=
  match Frame.encode m.body with
  | .error e => (.error (.ofFrameError e), l)
  | .ok bytes => match answer host { l with server := meanwhile l.server } bytes with
    | (none, l) => (.error .closed, l)
    | (some bytes, l) => ((receive ServerMessage.ofJson? bytes).mapError .ofFrameError, l)

/-- The client gives a message to the server and does not wait. -/
def notify (host : Host) (meanwhile : Visit.Meanwhile) (l : Link) (m : ClientMessage) :
    Except ConnectionError Unit × Link :=
  match Frame.encode m.body with
  | .error e => (.error (.ofFrameError e), l)
  | .ok bytes => (.ok (), (answer host { l with server := meanwhile l.server } bytes).2)

end Link

end EncryptedInference
