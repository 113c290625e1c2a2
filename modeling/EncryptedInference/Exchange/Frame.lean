import EncryptedInference.Exchange.Message
import EncryptedInference.Files
/-!
# Frames

On a connection a message is a frame: eight bytes with the length of its body, lowest byte first,
and the body. `Frame.split` cuts the first frame off a stream of bytes; `Frame.readAll` reads
messages until the stream ends or cannot be followed any further. A body that is no message does not
end the stream, for the next frame begins right behind it.
-/

namespace EncryptedInference

/-- Why no message can be read. -/
inductive FrameError
  | closed
  | tooLarge (length limit : Nat)
  | bodyEnded (received length : Nat)
  | notMessage
  deriving DecidableEq

namespace FrameError

def message : FrameError → String
  | closed => "peer closed the connection"
  | tooLarge length limit =>
    "frame of " ++ toString length ++ " bytes exceeds limit of " ++ toString limit ++ " bytes"
  | bodyEnded received length =>
    "I/O error: frame body ended after " ++ toString received ++ " of " ++ toString length ++
      " bytes"
  | notMessage => "invalid frame body"

end FrameError

namespace Frame

/-- The longest body, in bytes. -/
def maxBody : Nat := 0x40000000

/-- How many bytes give the length. -/
def headerLength : Nat := 8

/-- The lowest `count` bytes of a number, lowest first. -/
def littleEndian : Nat → Nat → List UInt8
  | 0, _ => []
  | count + 1, n => UInt8.ofNat n :: littleEndian count (n / 256)

/-- The number that bytes write, lowest first. -/
def ofLittleEndian : List UInt8 → Nat
  | [] => 0
  | b :: rest => b.toNat + 256 * ofLittleEndian rest

/-- The frame of a body. -/
def encode (body : List UInt8) : Except FrameError (List UInt8) :=
  if maxBody < body.length then .error (.tooLarge body.length maxBody)
  else .ok (littleEndian headerLength body.length ++ body)

/-- The first frame of a stream. -/
inductive Split
  /-- The stream ends before a header is complete. -/
  | closed
  | tooLarge (length : Nat)
  | bodyEnded (received length : Nat)
  | frame (body rest : List UInt8)

/-- Cuts the first frame off a stream. -/
def split (bytes : List UInt8) : Split :=
  let header := bytes.take headerLength
  if header.length < headerLength then .closed
  else
    let length := ofLittleEndian header
    let stream := bytes.drop headerLength
    let body := stream.take length
    if maxBody < length then .tooLarge length
    else if body.length < length then .bodyEnded body.length length
    else .frame body (stream.drop length)

theorem length_rest_lt {bytes body rest : List UInt8} (h : split bytes = .frame body rest) :
    rest.length < bytes.length := by
  simp only [split] at h
  split at h
  · cases h
  · rename_i hlen
    split at h
    · cases h
    · split at h
      · cases h
      · injection h with _ hrest
        subst hrest
        simp only [headerLength, List.length_take, List.length_drop] at hlen ⊢
        omega

/-- The message of a body, if it is one. -/
def decodeBody {α : Type} (ofJson? : Json → Option α) (body : List UInt8) : Except FrameError α :=
  match ((textOfBytes? body).bind Json.parse?).bind ofJson? with
  | some m => .ok m
  | none => .error .notMessage

/-- What reading the frames of a stream gives: messages and bodies that are none, and at last the
error that ends it. -/
def readAll {α : Type} (ofJson? : Json → Option α) (bytes : List UInt8) :
    List (Except FrameError α) :=
  match _h : split bytes with
  | .closed => [.error .closed]
  | .tooLarge length => [.error (.tooLarge length maxBody)]
  | .bodyEnded received length => [.error (.bodyEnded received length)]
  | .frame body rest => decodeBody ofJson? body :: readAll ofJson? rest
  termination_by bytes.length
  decreasing_by exact length_rest_lt _h

end Frame

namespace ClientMessage

/-- The body of the frame of a message. -/
def body (m : ClientMessage) : List UInt8 := bytesOfText m.toJson.compress

end ClientMessage

namespace ServerMessage

/-- The body of the frame of a message. -/
def body (m : ServerMessage) : List UInt8 := bytesOfText m.toJson.compress

end ServerMessage

end EncryptedInference
