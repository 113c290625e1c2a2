import EncryptedInference.Host.Server
import EncryptedInference.Exchange.Frame
/-!
# Visits

A visit is one connection to a server as the server sees it. It remembers which of the accepted
requests have not been collected, and when it ends, for whatever reason, their jobs are dropped.
-/

namespace EncryptedInference

/-- The requests that were accepted on a connection and whose results were not handed out. -/
structure Visit where
  owned : List String
  deriving DecidableEq

namespace Visit

/-- A visit that has just begun. -/
def initial : Visit := ⟨[]⟩

/-- What a reply means for the requests of a visit. -/
def noted (v : Visit) : ServerMessage → Visit
  | .accepted id => ⟨id :: v.owned.filter (· ≠ id)⟩
  | .result r => ⟨v.owned.filter (· ≠ r.requestId)⟩
  | _ => v

/-- The server answers a message of a visit. Without an answer, the visit is over. -/
def handle (host : Host) (v : Visit) (s : Server) (m : ClientMessage) :
    Option (ServerMessage × Visit) × Server :=
  match s.handle host m with
  | (some reply, s) => (some (reply, v.noted reply), s)
  | (none, s) => (none, s)

/-- The visit ends. -/
def leave (v : Visit) (s : Server) : Server := s.evict v.owned

/-- A step of the server's own between the messages of a visit. -/
abbrev Meanwhile := Server → Server

/-- A visit on which all bytes have arrived: the replies, the visit and the server when the bytes
end, or `none` in place of the visit when it is over before that. -/
def follow (host : Host) (meanwhile : Meanwhile) :
    List (Except FrameError ClientMessage) → Visit → Server →
    List ServerMessage × Option Visit × Server
  | [], v, s => ([], some v, s)
  | .error _ :: _, v, s => ([], none, v.leave s)
  | .ok m :: rest, v, s => match v.handle host s m with
    | (none, s) => ([], none, v.leave s)
    | (some (reply, v), s) =>
      let (replies, v, s) := follow host meanwhile rest v (meanwhile s)
      (reply :: replies, v, s)

/-- Reads a stream of bytes to its end, or to the goodbye or the bad frame that ends the visit. -/
def followBytes (host : Host) (meanwhile : Meanwhile) (bytes : List UInt8) (v : Visit)
    (s : Server) : List ServerMessage × Server :=
  let (replies, v, s) := follow host meanwhile (Frame.readAll ClientMessage.ofJson? bytes) v s
  (replies, match v with
    | some v => v.leave s
    | none => s)

end Visit

end EncryptedInference
