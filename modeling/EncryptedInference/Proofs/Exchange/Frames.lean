import EncryptedInference.Host.Link
import EncryptedInference.Proofs.Exchange.Messages

/-!
# Frames are read back

The first frame of a stream is the one that was put in front of it (`Frame.split_append`).  The
frame of a message is received as that message when it travels (`receive_of_travels`), and otherwise
as a message of its kind or not at all (`kind_of_receive`).
-/

namespace EncryptedInference

theorem textOfBytes?_bytesOfText (s : String) : textOfBytes? (bytesOfText s) = some s := by
  show String.fromUTF8? s.toByteArray = some s
  rw [String.fromUTF8?, dif_pos s.isValidUTF8]
  rfl

namespace Frame

/-! ## Headers -/

theorem length_littleEndian (count n : Nat) : (littleEndian count n).length = count := by
  induction count generalizing n with
  | zero => rfl
  | succ count ih => rw [littleEndian, List.length_cons, ih]

theorem ofLittleEndian_littleEndian {count n : Nat} (h : n < 256 ^ count) :
    ofLittleEndian (littleEndian count n) = n := by
  induction count generalizing n with
  | zero =>
    rw [Nat.pow_zero] at h
    rw [littleEndian, ofLittleEndian]
    omega
  | succ count ih =>
    rw [Nat.pow_succ] at h
    rw [littleEndian, ofLittleEndian, ih (Nat.div_lt_of_lt_mul (by omega)), UInt8.toNat_ofNat']
    omega

/-! ## Bodies -/

/-- The first frame of a stream, as its header announces it. -/
theorem split_header {header : List UInt8} (h : header.length = headerLength)
    (stream : List UInt8) : split (header ++ stream) =
      if maxBody < ofLittleEndian header then .tooLarge (ofLittleEndian header)
      else if stream.length < ofLittleEndian header then
        .bodyEnded stream.length (ofLittleEndian header)
      else .frame (stream.take (ofLittleEndian header)) (stream.drop (ofLittleEndian header)) := by
  simp only [split, List.take_left' h, List.drop_left' h, h, Nat.lt_irrefl, if_false,
    List.length_take]
  split_ifs with hlarge hshort hstream hstream
  · rfl
  · rw [Nat.min_eq_right (by omega)]
  · omega
  · omega
  · rfl

/-- A body that its header announces is cut off the stream that goes on behind it. -/
theorem split_append {header body : List UInt8} (hheader : header.length = headerLength)
    (hlength : ofLittleEndian header = body.length) (hlimit : body.length ≤ maxBody)
    (rest : List UInt8) : split (header ++ body ++ rest) = .frame body rest := by
  rw [List.append_assoc, split_header hheader, hlength, if_neg (Nat.not_lt.2 hlimit),
    if_neg (by simp), List.take_left, List.drop_left]

/-- What a frame is made of. -/
theorem encode_eq_ok {body frame : List UInt8} : encode body = .ok frame ↔
    body.length ≤ maxBody ∧ frame = littleEndian headerLength body.length ++ body := by
  unfold encode
  split_ifs with hlimit
  · simp only [false_iff, not_and]
    intro hle
    exact absurd hlimit (Nat.not_lt.2 hle)
  · simp only [Except.ok.injEq, Nat.not_lt.1 hlimit, true_and]
    exact eq_comm

/-- A frame has a header that announces its body. -/
theorem exists_header_of_encode {body frame : List UInt8} (h : encode body = .ok frame) :
    ∃ header, frame = header ++ body ∧ header.length = headerLength ∧
      ofLittleEndian header = body.length ∧ body.length ≤ maxBody := by
  obtain ⟨hlimit, rfl⟩ := encode_eq_ok.1 h
  refine ⟨_, rfl, length_littleEndian _ _, ?_, hlimit⟩
  exact ofLittleEndian_littleEndian (Nat.lt_of_le_of_lt hlimit (by decide))

theorem split_of_encode {body bytes : List UInt8} (h : encode body = .ok bytes) :
    split bytes = .frame body [] := by
  obtain ⟨header, rfl, hheader, hlength, hlimit⟩ := exists_header_of_encode h
  simpa using split_append hheader hlength hlimit []

/-- The body of a document that is written properly is decoded to what the document is read as. -/
theorem decodeBody_compress {α : Type} (ofJson? : Json → Option α) {j : Json} (h : j.IsWritten) :
    decodeBody ofJson? (bytesOfText j.compress) =
      (ofJson? j).elim (.error .notMessage) .ok := by
  simp only [decodeBody, textOfBytes?_bytesOfText, Option.bind, Json.parse?_compress h]
  cases ofJson? j <;> rfl

end Frame

/-- The frame of a document that is written properly is received as what the document is read as. -/
theorem Link.receive_of_encode {α : Type} (ofJson? : Json → Option α) {j : Json} (hj : j.IsWritten)
    {bytes : List UInt8} (h : Frame.encode (bytesOfText j.compress) = .ok bytes) :
    receive ofJson? bytes = (ofJson? j).elim (.error .notMessage) .ok := by
  rw [receive, Frame.split_of_encode h]
  exact Frame.decodeBody_compress ofJson? hj

/-- What is received, the document is read as. -/
theorem Link.ofJson?_of_receive {α : Type} {ofJson? : Json → Option α} {j : Json}
    (hj : j.IsWritten) {bytes : List UInt8}
    (h : Frame.encode (bytesOfText j.compress) = .ok bytes) {m : α}
    (hm : receive ofJson? bytes = .ok m) : ofJson? j = some m := by
  rw [receive_of_encode ofJson? hj h] at hm
  cases hread : ofJson? j with
  | none =>
    rw [hread] at hm
    cases hm
  | some read =>
    rw [hread] at hm
    cases hm
    rfl

namespace ClientMessage

/-- The frame of a message that travels is received as that message. -/
theorem receive_of_travels {m : ClientMessage} (hm : m.Travels) {bytes : List UInt8}
    (h : Frame.encode m.body = .ok bytes) : Link.receive ofJson? bytes = .ok m.received := by
  rw [Link.receive_of_encode ofJson? m.isWritten_toJson h, ofJson?_toJson hm]
  rfl

/-- The frame of a message is received as a message of its kind, if at all. -/
theorem kind_of_receive {m m' : ClientMessage} {bytes : List UInt8}
    (h : Frame.encode m.body = .ok bytes) (hm : Link.receive ofJson? bytes = .ok m') :
    m'.kind = m.kind :=
  kind_of_ofJson?_toJson (Link.ofJson?_of_receive m.isWritten_toJson h hm)

end ClientMessage

namespace ServerMessage

/-- The frame of a message that travels is received as that message. -/
theorem receive_of_travels {m : ServerMessage} (hm : m.Travels) {bytes : List UInt8}
    (h : Frame.encode m.body = .ok bytes) : Link.receive ofJson? bytes = .ok m := by
  rw [Link.receive_of_encode ofJson? m.isWritten_toJson h, ofJson?_toJson hm]
  rfl

/-- The frame of a message is received as a message of its kind, if at all. -/
theorem kind_of_receive {m m' : ServerMessage} {bytes : List UInt8}
    (h : Frame.encode m.body = .ok bytes) (hm : Link.receive ofJson? bytes = .ok m') :
    m'.kind = m.kind :=
  kind_of_ofJson?_toJson (Link.ofJson?_of_receive m.isWritten_toJson h hm)

end ServerMessage

/-! ## Calls -/

/-- A message that travels is handled by the server as it is received, and a reply that travels
comes back. -/
theorem Link.call_of_travels {host : Host} {meanwhile : Visit.Meanwhile} {l : Link}
    {m : ClientMessage} {v : Visit} {reply : ServerMessage} {s : Server}
    (hvisit : l.visit = some v) (hm : m.Travels) (hbody : m.body.length ≤ Frame.maxBody)
    (hhandle : (meanwhile l.server).handle host m.received = (some reply, s))
    (hreply : reply.Travels) (hanswer : reply.body.length ≤ Frame.maxBody) :
    call host meanwhile l m = (.ok reply, ⟨s, some (v.noted reply)⟩) := by
  have hencode : ∀ body : List UInt8, body.length ≤ Frame.maxBody →
      ∃ bytes, Frame.encode body = .ok bytes := fun body h =>
    ⟨_, if_neg (Nat.not_lt.2 h)⟩
  obtain ⟨bytes, hbytes⟩ := hencode _ hbody
  obtain ⟨answered, hanswered⟩ := hencode _ hanswer
  simp only [call, hbytes, answer, hvisit, ClientMessage.receive_of_travels hm hbytes, Visit.handle,
    hhandle, hanswered, ServerMessage.receive_of_travels hreply hanswered, Except.mapError]

end EncryptedInference
