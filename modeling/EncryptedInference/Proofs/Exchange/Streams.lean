import EncryptedInference.Proofs.Exchange.Frames
import Mathlib.Data.List.Forall2

/-!
# Whole streams

Frames that follow one another are read as the messages they were made of, wherever the stream is
cut off (`Frame.readsAs_of_framed`).  A stream of any bytes is read up to its end or to the first
frame that cannot be followed (`Frame.exists_readAll_eq`), and a body that is no message costs the
reader nothing but that body (`Frame.readAll_append`).
-/

namespace EncryptedInference

namespace Frame

theorem split_of_short {bytes : List UInt8} (h : bytes.length < headerLength) :
    split bytes = .closed := by
  have hheader : (bytes.take headerLength).length < headerLength := by
    rw [List.length_take]
    omega
  rw [split]
  exact if_pos hheader

/-- A frame that is cut off a stream is a header and as many bytes as it announces. -/
theorem exists_header_of_split {bytes body rest : List UInt8} (h : split bytes = .frame body rest) :
    ∃ header, bytes = header ++ body ++ rest ∧ header.length = headerLength ∧
      ofLittleEndian header = body.length ∧ body.length ≤ maxBody := by
  have hlong : headerLength ≤ bytes.length := by
    by_contra hshort
    rw [split_of_short (Nat.not_le.1 hshort)] at h
    cases h
  have hheader : (bytes.take headerLength).length = headerLength := by
    rw [List.length_take]
    omega
  rw [← List.take_append_drop headerLength bytes, split_header hheader] at h
  split_ifs at h with hlarge hshort
  injection h with hbody hrest
  have hlength : body.length = ofLittleEndian (bytes.take headerLength) := by
    rw [← hbody, List.length_take]
    omega
  refine ⟨bytes.take headerLength, ?_, hheader, hlength.symm, by omega⟩
  rw [← hbody, ← hrest, List.append_assoc, List.take_append_drop, List.take_append_drop]

section

variable {α : Type} (ofJson? : Json → Option α)

/-! ## One frame -/

theorem readAll_eq (bytes : List UInt8) :
    readAll ofJson? bytes = match split bytes with
      | .closed => [.error .closed]
      | .tooLarge length => [.error (.tooLarge length maxBody)]
      | .bodyEnded received length => [.error (.bodyEnded received length)]
      | .frame body rest => decodeBody ofJson? body :: readAll ofJson? rest := by
  rw [readAll]
  split <;> rename_i h <;> rw [h]

theorem readAll_tooLarge {header : List UInt8} (hheader : header.length = headerLength)
    (hlarge : maxBody < ofLittleEndian header) (stream : List UInt8) :
    readAll ofJson? (header ++ stream) = [.error (.tooLarge (ofLittleEndian header) maxBody)] := by
  rw [readAll_eq, split_header hheader, if_pos hlarge]

/-- A body that is there is read, and reading goes on right behind it. -/
theorem readAll_append {header body : List UInt8} (hheader : header.length = headerLength)
    (hlength : ofLittleEndian header = body.length) (hlimit : body.length ≤ maxBody)
    (rest : List UInt8) :
    readAll ofJson? (header ++ body ++ rest) = decodeBody ofJson? body :: readAll ofJson? rest := by
  rw [readAll_eq, split_append hheader hlength hlimit]

theorem decodeBody_eq_error {body : List UInt8} {e : FrameError}
    (h : decodeBody ofJson? body = .error e) : e = .notMessage := by
  unfold decodeBody at h
  split at h
  · cases h
  · exact (Except.error.inj h).symm

/-- How reading ends when so many bytes of a frame have come, and no more do. -/
def cutShort (arrived length : Nat) : FrameError :=
  if arrived < headerLength then .closed else .bodyEnded (arrived - headerLength) length

theorem readAll_take_frame {body frame : List UInt8} (h : encode body = .ok frame) {arrived : Nat}
    (harrived : arrived < frame.length) :
    readAll ofJson? (frame.take arrived) = [.error (cutShort arrived body.length)] := by
  obtain ⟨header, rfl, hheader, hlength, hlimit⟩ := exists_header_of_encode h
  rw [List.length_append, hheader] at harrived
  rw [readAll_eq, cutShort]
  by_cases hshort : arrived < headerLength
  · rw [split_of_short (by rw [List.length_take]; omega), if_pos hshort]
  · have htake : (header ++ body).take arrived = header ++ body.take (arrived - headerLength) := by
      rw [List.take_append, List.take_of_length_le (by omega), hheader]
    have hcame : (body.take (arrived - headerLength)).length = arrived - headerLength := by
      rw [List.length_take]
      omega
    rw [if_neg hshort, htake, split_header hheader, hlength, hcame, if_neg (Nat.not_lt.2 hlimit),
      if_pos (by omega)]

/-! ## Streams of frames -/

/-- Each message is put into its frame. -/
def Framed (body : α → List UInt8) (ms : List α) (frames : List (List UInt8)) : Prop :=
  List.Forall₂ (fun m frame => encode (body m) = .ok frame) ms frames

/-- Reading the first `p` bytes of the frames of messages tells something of each message whose
frame lies within these bytes, in order, and then how the stream has ended: between two frames, or
within the next one. -/
def ReadsAs (body : α → List UInt8) (ms : List α) (frames : List (List UInt8)) (p : Nat)
    (told : α → Except FrameError α) : Prop :=
  ∃ whole ≤ ms.length, (∀ j < ms.length, (frames.take (j + 1)).flatten.length ≤ p ↔ j < whole) ∧
    readAll ofJson? (frames.flatten.take p) = (ms.take whole).map told ++
      [.error (match ms[whole]? with
        | none => .closed
        | some next => cutShort (p - (frames.take whole).flatten.length) (body next).length)]

variable {ofJson?} {body : α → List UInt8} {ms : List α} {frames : List (List UInt8)} {p : Nat}

theorem ReadsAs.congr {told told' : α → Except FrameError α}
    (h : ReadsAs ofJson? body ms frames p told) (htold : ∀ m ∈ ms, told m = told' m) :
    ReadsAs ofJson? body ms frames p told' := by
  obtain ⟨whole, hle, hcount, hread⟩ := h
  refine ⟨whole, hle, hcount, ?_⟩
  rw [hread, List.map_congr_left fun m hm => htold m (List.mem_of_mem_take hm)]

/-- Induction on the messages: the cut is in the first frame, or behind it in the others. -/
theorem readsAs_of_framed (h : Framed body ms frames) (hp : p ≤ frames.flatten.length) :
    ReadsAs ofJson? body ms frames p fun m => decodeBody ofJson? (body m) := by
  unfold Framed at h
  induction h generalizing p with
  | nil =>
    refine ⟨0, Nat.le_refl 0, ?_, ?_⟩
    · intro j hj
      cases hj
    · rw [List.flatten_nil, List.take_nil, readAll_eq, split_of_short (by decide)]
      rfl
  | @cons m frame ms frames hm _ ih =>
    by_cases hwhole : frame.length ≤ p
    · rw [List.flatten_cons, List.length_append] at hp
      obtain ⟨whole, hle, hcount, hread⟩ := @ih (p - frame.length) (by omega)
      refine ⟨whole + 1, Nat.succ_le_succ hle, ?_, ?_⟩
      · rintro (_ | j) hj
        · simpa using hwhole
        · have hj := hcount j (Nat.lt_of_succ_lt_succ hj)
          rw [List.take_succ_cons, List.flatten_cons, List.length_append, Nat.succ_lt_succ_iff,
            ← hj]
          omega
      · have hstream : (frame :: frames).flatten.take p =
            frame ++ frames.flatten.take (p - frame.length) := by
          rw [List.flatten_cons, List.take_append, List.take_of_length_le hwhole]
        have hgone : p - ((frame :: frames).take (whole + 1)).flatten.length =
            p - frame.length - (frames.take whole).flatten.length := by
          rw [List.take_succ_cons, List.flatten_cons, List.length_append, Nat.sub_sub]
        obtain ⟨header, hframe, hheader, hlength, hlimit⟩ := exists_header_of_encode hm
        have hfirst : readAll ofJson? (frame ++ frames.flatten.take (p - frame.length)) =
            decodeBody ofJson? (body m) ::
              readAll ofJson? (frames.flatten.take (p - frame.length)) := by
          rw [hframe, readAll_append ofJson? hheader hlength hlimit]
        rw [hstream, hgone, hfirst, hread]
        rfl
    · refine ⟨0, Nat.zero_le _, ?_, ?_⟩
      · intro j _
        rw [List.take_succ_cons, List.flatten_cons, List.length_append]
        omega
      · have hstream : (frame :: frames).flatten.take p = frame.take p := by
          rw [List.flatten_cons, List.take_append_of_le_length (by omega)]
        rw [hstream, readAll_take_frame ofJson? hm (by omega)]
        rfl

end

/-! ## Streams of any bytes -/

/-- Reading ends, after no more messages than there is room for headers; only bodies that are no
messages are passed over. -/
theorem exists_readAll_eq {α : Type} (ofJson? : Json → Option α) (bytes : List UInt8) :
    ∃ items e, readAll ofJson? bytes = items ++ [.error e] ∧ e ≠ .notMessage ∧
      (∀ e', .error e' ∈ items → e' = .notMessage) ∧
      headerLength * items.length ≤ bytes.length := by
  fun_induction readAll ofJson? bytes with
  | case1 bytes h => exact ⟨[], .closed, by simp⟩
  | case2 bytes length h => exact ⟨[], .tooLarge length maxBody, by simp⟩
  | case3 bytes received length h => exact ⟨[], .bodyEnded received length, by simp⟩
  | case4 bytes body rest h ih =>
    obtain ⟨items, e, heq, hend, hitems, hcount⟩ := ih
    obtain ⟨header, rfl, hheader, -, -⟩ := exists_header_of_split h
    refine ⟨decodeBody ofJson? body :: items, e, by rw [heq]; rfl, hend, ?_, ?_⟩
    · intro e' he
      rcases List.mem_cons.1 he with he | he
      · exact decodeBody_eq_error ofJson? he.symm
      · exact hitems e' he
    · rw [List.length_append, List.length_append, List.length_cons, hheader, Nat.mul_succ]
      omega

end Frame

/-! ## Messages -/

/-- The body of a message that travels is decoded to that message. -/
theorem ClientMessage.decodeBody_body {m : ClientMessage} (hm : m.Travels) :
    Frame.decodeBody ofJson? m.body = .ok m.received := by
  rw [body, Frame.decodeBody_compress ofJson? m.isWritten_toJson, ofJson?_toJson hm]
  rfl

/-- What a message leaves behind is not in its body. -/
theorem ClientMessage.body_received (m : ClientMessage) : m.received.body = m.body := by
  cases m <;> rfl

/-- The body of a message that travels is decoded to that message. -/
theorem ServerMessage.decodeBody_body {m : ServerMessage} (hm : m.Travels) :
    Frame.decodeBody ofJson? m.body = .ok m := by
  rw [body, Frame.decodeBody_compress ofJson? m.isWritten_toJson, ofJson?_toJson hm]
  rfl

/-- The frames of messages, cut off at any byte, are read as the messages that came whole, and then
as a closed stream or a body of which so many bytes came.  In a stream of any bytes, a header over
the limit ends reading whatever comes after it; a body that is no message is passed over with its
header, and no more; and reading comes to an end.  A frame that is written has a header within the
limit of the reader. -/
theorem Frame.readAll_streams :
    (∀ (ms : List ClientMessage) (frames : List (List UInt8)) (p : Nat),
      Framed ClientMessage.body ms frames → p ≤ frames.flatten.length →
      ReadsAs ClientMessage.ofJson? ClientMessage.body ms frames p
          (fun m => decodeBody ClientMessage.ofJson? m.body) ∧
        ((∀ m ∈ ms, m.Travels) → ReadsAs ClientMessage.ofJson? ClientMessage.body ms frames p
          fun m => .ok m.received) ∧
        ∀ m ∈ ms, m.received.body = m.body) ∧
    (∀ (ms : List ServerMessage) (frames : List (List UInt8)) (p : Nat),
      Framed ServerMessage.body ms frames → p ≤ frames.flatten.length →
      ReadsAs ServerMessage.ofJson? ServerMessage.body ms frames p
          (fun m => decodeBody ServerMessage.ofJson? m.body) ∧
        ((∀ m ∈ ms, m.Travels) → ReadsAs ServerMessage.ofJson? ServerMessage.body ms frames p
          fun m => .ok m)) ∧
    (∀ (α : Type) (ofJson? : Json → Option α),
      (∀ header stream : List UInt8, header.length = headerLength →
        maxBody < ofLittleEndian header → readAll ofJson? (header ++ stream) =
          [.error (.tooLarge (ofLittleEndian header) maxBody)]) ∧
      (∀ header body rest : List UInt8, header.length = headerLength →
        ofLittleEndian header = body.length → body.length ≤ maxBody →
        ((textOfBytes? body).bind Json.parse?).bind ofJson? = none →
        readAll ofJson? (header ++ body ++ rest) = .error .notMessage :: readAll ofJson? rest) ∧
      ∀ bytes : List UInt8, ∃ (items : List (Except FrameError α)) (e : FrameError),
        readAll ofJson? bytes = items ++ [.error e] ∧ e ≠ .notMessage ∧
        (∀ e', .error e' ∈ items → e' = .notMessage) ∧
        headerLength * items.length ≤ bytes.length) ∧
    ∀ body frame : List UInt8, encode body = .ok frame →
      ∃ header, frame = header ++ body ∧ header.length = headerLength ∧
        ofLittleEndian header = body.length ∧ body.length ≤ maxBody := by
  refine ⟨?_, ?_, ?_, fun body frame => exists_header_of_encode⟩
  · intro ms frames p hframes hp
    have hread : ReadsAs ClientMessage.ofJson? ClientMessage.body ms frames p fun m =>
        decodeBody ClientMessage.ofJson? m.body := readsAs_of_framed hframes hp
    refine ⟨hread, ?_, fun m _ => m.body_received⟩
    intro htravels
    exact hread.congr fun m hm => ClientMessage.decodeBody_body (htravels m hm)
  · intro ms frames p hframes hp
    have hread : ReadsAs ServerMessage.ofJson? ServerMessage.body ms frames p fun m =>
        decodeBody ServerMessage.ofJson? m.body := readsAs_of_framed hframes hp
    refine ⟨hread, ?_⟩
    intro htravels
    exact hread.congr fun m hm => ServerMessage.decodeBody_body (htravels m hm)
  · intro α ofJson?
    refine ⟨?_, ?_, exists_readAll_eq ofJson?⟩
    · intro header stream hheader hlarge
      exact readAll_tooLarge ofJson? hheader hlarge stream
    · intro header body rest hheader hlength hlimit hnone
      rw [readAll_append ofJson? hheader hlength hlimit, decodeBody, hnone]

/-- Of two frames the first comes whole, and of the second the header with five bytes. -/
theorem Frame.readAll_cut_status :
    readAll ClientMessage.ofJson? (([greeting, .status "I"].map fun m =>
        littleEndian headerLength m.body.length ++ m.body).flatten.take 58) =
      [.ok greeting, .error (.bodyEnded 5 34)] := by
  have hgreeting : greeting.body.length = 37 := by decide +kernel
  have hstatus : (ClientMessage.status "I").body.length = 34 := by decide +kernel
  have hframes : Framed ClientMessage.body [greeting, .status "I"] ([greeting, .status "I"].map
      fun m => littleEndian headerLength m.body.length ++ m.body) :=
    .cons (encode_eq_ok.2 ⟨by rw [hgreeting]; decide, rfl⟩)
      (.cons (encode_eq_ok.2 ⟨by rw [hstatus]; decide, rfl⟩) .nil)
  have htravels : ∀ m ∈ [greeting, .status "I"], m.Travels := by
    have hversion : greeting.Travels := (by decide : protocolVersion < 0x100000000)
    simpa using ⟨hversion, trivial⟩
  have hcut : 58 ≤ ([greeting, .status "I"].map fun m =>
      littleEndian headerLength m.body.length ++ m.body).flatten.length := by
    simp [length_littleEndian, hgreeting, hstatus, headerLength]
  obtain ⟨whole, -, hcount, hread⟩ := (readAll_streams.1 _ _ 58 hframes hcut).2.1 htravels
  have hwhole : whole = 1 := by
    have hone := hcount 0 (by decide)
    have htwo := hcount 1 (by decide)
    simp [length_littleEndian, hgreeting, hstatus, headerLength] at hone htwo
    omega
  have hreceived : greeting.received = greeting := rfl
  rw [hread, hwhole]
  simp [length_littleEndian, hgreeting, hstatus, hreceived, cutShort, headerLength]

end EncryptedInference
