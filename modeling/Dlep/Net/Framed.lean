-- SUMMARY: Stream framing: MessageCodec over a buffer, the session's frame reader, and the whole-stream parser they agree with.
import Dlep.Core.Codec.RoundTrip
import Dlep.Lib.Framing

/-!
# Stream framing

`MessageCodec` cuts messages off a growing buffer; `read_frame` calls it until it has
a message, an error or the end of the stream, and the session task calls `read_frame`
until that end. A decode error does not stop the task, so the frames behind a
malformed one are still read.

The transport is the list of chunks its reads return. `read_buf` returns zero bytes
only at the end of the stream, which an empty chunk and the end of the list both model.
-/

namespace Dlep

variable {frames : List (List UInt8)} {read : Option (Except CodecError Message)}

open Framing

/-! ## The codec -/

def MESSAGE_HEADER_LEN : ℕ := 4

/-- The size of the frame a buffer starts with, read off its header. -/
def frameLen (src : List UInt8) : ℕ := MESSAGE_HEADER_LEN + Bytes.toNat ((src.drop 2).take 2)

/-- `MessageCodec::decode`: the result, and what it leaves in the buffer. -/
def MessageCodec.decode (src : List UInt8) : Except CodecError (Option Message) × List UInt8 :=
  if src.length < MESSAGE_HEADER_LEN then (.ok none, src)
  else if src.length < frameLen src then (.ok none, src)
  else ((Message.decode (src.take (frameLen src))).map some, src.drop (frameLen src))

/-- `MessageCodec::encode`: append the message to the buffer, or leave it alone. -/
def MessageCodec.encode (item : Message) (dst : List UInt8) : Except CodecError Unit × List UInt8 :=
  match item.encode with
  | .error e => (.error e, dst)
  | .ok bytes => (.ok (), dst ++ bytes)

/-- The encodings of several messages, one after another in one buffer. -/
def MessageCodec.encodeAll : List Message → List UInt8 → Except CodecError Unit × List UInt8
  | [], dst => (.ok (), dst)
  | item :: items, dst =>
    match MessageCodec.encode item dst with
    | (.error e, dst) => (.error e, dst)
    | (.ok (), dst) => MessageCodec.encodeAll items dst

/-! ## The reader -/

inductive FrameRead where
  | message (msg : Message)
  | eof
  deriving DecidableEq

/-- `read_frame`, with the chunks it has not read and the buffer it leaves. -/
def readFrame : List (List UInt8) → List UInt8 →
    Except CodecError FrameRead × List (List UInt8) × List UInt8
  | [], buf =>
    match MessageCodec.decode buf with
    | (.error e, buf) => (.error e, [], buf)
    | (.ok (some msg), buf) => (.ok (.message msg), [], buf)
    | (.ok none, buf) => (.ok .eof, [], buf)
  | chunk :: chunks, buf =>
    match MessageCodec.decode buf with
    | (.error e, buf) => (.error e, chunk :: chunks, buf)
    | (.ok (some msg), buf) => (.ok (.message msg), chunk :: chunks, buf)
    | (.ok none, buf) =>
      if chunk.isEmpty then (.ok .eof, chunks, buf) else readFrame chunks (buf ++ chunk)

/-! ## The framer -/

/-- A buffer that holds the whole of its first frame. -/
def HoldsFrame (src : List UInt8) : Prop :=
  MESSAGE_HEADER_LEN ≤ src.length ∧ frameLen src ≤ src.length

instance (src : List UInt8) : Decidable (HoldsFrame src) := inferInstanceAs (Decidable (_ ∧ _))

theorem frameLen_append {src : List UInt8} (h : MESSAGE_HEADER_LEN ≤ src.length)
    (more : List UInt8) : frameLen (src ++ more) = frameLen src := by
  unfold MESSAGE_HEADER_LEN at h
  have hlen : 2 ≤ (src.drop 2).length := by
    rw [List.length_drop]
    omega
  unfold frameLen
  rw [List.drop_append_of_le_length (by omega), List.take_append_of_le_length hlen]

theorem HoldsFrame.append {src : List UInt8} (h : HoldsFrame src) (more : List UInt8) :
    HoldsFrame (src ++ more) := by
  refine ⟨?_, ?_⟩
  · rw [List.length_append]
    exact Nat.le_add_right_of_le h.1
  · rw [frameLen_append h.1, List.length_append]
    exact Nat.le_add_right_of_le h.2

/-- Cut by the declared length, decode what was cut. -/
def messageFramer : Framer UInt8 (Except CodecError Message) where
  next src :=
    if HoldsFrame src then
      some (Message.decode (src.take (frameLen src)), src.drop (frameLen src))
    else none
  shrinks := by
    intro buf r rest h
    split at h
    · rename_i hholds
      cases h
      have hheader : 4 ≤ frameLen buf := Nat.le_add_right _ _
      have hlen := hholds.2
      rw [List.length_drop]
      omega
    · cases h
  stable := by
    intro buf r rest more h
    split at h
    · rename_i hholds
      cases h
      rw [if_pos (hholds.append more), frameLen_append hholds.1,
        List.take_append_of_le_length hholds.2, List.drop_append_of_le_length hholds.2]
    · cases h

theorem messageFramer_next (src : List UInt8) :
    messageFramer.next src =
      if HoldsFrame src then
        some (Message.decode (src.take (frameLen src)), src.drop (frameLen src))
      else none := rfl

/-- `MessageCodec::decode` asks the framer, and reports an incomplete frame as no message. -/
theorem MessageCodec.decode_eq (src : List UInt8) :
    MessageCodec.decode src =
      match messageFramer.next src with
      | none => (.ok none, src)
      | some (result, rest) => (result.map some, rest) := by
  unfold MessageCodec.decode
  rw [messageFramer_next]
  by_cases hheader : src.length < MESSAGE_HEADER_LEN
  · rw [if_pos hheader, if_neg fun h => absurd h.1 (Nat.not_le.mpr hheader)]
  · rw [if_neg hheader]
    by_cases hbody : src.length < frameLen src
    · rw [if_pos hbody, if_neg fun h => absurd h.2 (Nat.not_le.mpr hbody)]
    · rw [if_neg hbody, if_pos ⟨Nat.not_lt.mp hheader, Nat.not_lt.mp hbody⟩]

/-- How the session task sees one call of the framer's reader. -/
def FrameRead.ofResult : Option (Except CodecError Message) → Except CodecError FrameRead
  | none => .ok .eof
  | some result => result.map .message

/-- `read_frame` is the buffering reader of the framer. -/
theorem readFrame_eq (chunks : List (List UInt8)) (buf : List UInt8) :
    readFrame chunks buf =
      (FrameRead.ofResult (readNext messageFramer chunks buf).1, (readNext messageFramer chunks buf).2) := by
  induction chunks generalizing buf with
  | nil =>
    unfold readFrame readNext
    rw [MessageCodec.decode_eq]
    cases messageFramer.next buf with
    | none => rfl
    | some cut =>
      obtain ⟨result, rest⟩ := cut
      cases result <;> rfl
  | cons chunk chunks ih =>
    unfold readFrame readNext
    rw [MessageCodec.decode_eq]
    cases messageFramer.next buf with
    | none =>
      dsimp only
      split
      · rfl
      · exact ih (buf ++ chunk)
    | some cut =>
      obtain ⟨result, rest⟩ := cut
      cases result <;> rfl

theorem FrameRead.ofResult_eq_map {result : Except CodecError Message}
    (h : FrameRead.ofResult read = result.map .message) : read = some result := by
  cases read with
  | none => cases result <;> cases h
  | some read =>
    cases read <;> cases result <;> cases h <;> rfl

theorem FrameRead.ofResult_eq_eof (h : FrameRead.ofResult read = .ok .eof) : read = none := by
  cases read with
  | none => rfl
  | some read => cases read <;> cases h

section

variable {chunks chunks' : List (List UInt8)} {buf buf' : List UInt8}

/-- A message or an error comes from the first frame of what lies ahead. -/
theorem next_of_readFrame (result : Except CodecError Message)
    (h : readFrame chunks buf = (result.map .message, chunks', buf')) :
    messageFramer.next (ahead chunks buf) = some (result, ahead chunks' buf') ∧
      ∀ c ∈ chunks', c ∈ chunks := by
  rw [readFrame_eq] at h
  obtain ⟨hresult, hrest⟩ := Prod.mk.inj h
  have hread : readNext messageFramer chunks buf = (some result, chunks', buf') :=
    Prod.ext (FrameRead.ofResult_eq_map hresult) hrest
  exact ⟨next_ahead_of_readNext hread, mem_of_readNext hread⟩

/-- At the end of the stream the buffer holds all that lay ahead. -/
theorem next_of_readFrame_eof (hchunks : ∀ c ∈ chunks, c ≠ [])
    (h : readFrame chunks buf = (.ok .eof, chunks', buf')) :
    buf' = ahead chunks buf ∧ messageFramer.next (ahead chunks buf) = none := by
  rw [readFrame_eq] at h
  obtain ⟨hresult, hrest⟩ := Prod.mk.inj h
  have hread : readNext messageFramer chunks buf = (none, chunks', buf') :=
    Prod.ext (FrameRead.ofResult_eq_eof hresult) hrest
  exact next_none_of_readNext hchunks hread

theorem ahead_lt_of_readFrame (result : Except CodecError Message)
    (h : readFrame chunks buf = (result.map .message, chunks', buf')) :
    (ahead chunks' buf').length < (ahead chunks buf).length :=
  messageFramer.shrinks _ _ _ (next_of_readFrame result h).1

end

/-! ## Streams -/

/-- What the session task's loop sees of a connection: the results of its calls of
`read_frame` up to the end of the stream, and the buffer at that end. -/
def readStream (chunks : List (List UInt8)) (buf : List UInt8) :
    List (Except CodecError Message) × List UInt8 :=
  match _hread : readFrame chunks buf with
  | (.ok .eof, _, buf') => ([], buf')
  | (.ok (.message msg), chunks', buf') =>
    (.ok msg :: (readStream chunks' buf').1, (readStream chunks' buf').2)
  | (.error e, chunks', buf') =>
    (.error e :: (readStream chunks' buf').1, (readStream chunks' buf').2)
termination_by (ahead chunks buf).length
decreasing_by
  all_goals first
    | exact ahead_lt_of_readFrame (.ok _) _hread
    | exact ahead_lt_of_readFrame (.error _) _hread

/-- Parse a stream that is all there: decode its front, skip the declared length. -/
def parseStream (stream : List UInt8) : List (Except CodecError Message) × List UInt8 :=
  if _h : HoldsFrame stream then
    (Message.decode stream :: (parseStream (stream.drop (frameLen stream))).1,
      (parseStream (stream.drop (frameLen stream))).2)
  else ([], stream)
termination_by stream.length
decreasing_by all_goals exact messageFramer.shrinks _ _ _ (if_pos _h)

/-- The declared length bounds what `Message::decode` reads. -/
theorem Message.decode_take_frameLen {src : List UInt8} (h : HoldsFrame src) :
    Message.decode (src.take (frameLen src)) = Message.decode src := by
  have hlen : (src.take (frameLen src)).length = frameLen src := List.length_take_of_le h.2
  obtain ⟨declared, hdeclared⟩ : ∃ n, Bytes.toNat ((src.drop 2).take 2) = n := ⟨_, rfl⟩
  have hframe : frameLen src = 4 + declared := congrArg (4 + ·) hdeclared
  have hbody : declared ≤ (src.drop 4).length := by
    have hholds := h.2
    rw [List.length_drop]
    omega
  have hheader : 4 ≤ src.length := h.1
  rw [hframe] at hlen ⊢
  have htype : (src.take (4 + declared)).take 2 = src.take 2 := by
    rw [List.take_take, Nat.min_eq_left (by omega)]
  have hdecl : ((src.take (4 + declared)).drop 2).take 2 = (src.drop 2).take 2 := by
    rw [List.drop_take, List.take_take, Nat.min_eq_left (by omega)]
  have hrest : (src.take (4 + declared)).drop 4 = (src.drop 4).take declared := by
    rw [List.drop_take, Nat.add_sub_cancel_left]
  simp only [Message.decode, htype, hdecl, hrest, hdeclared]
  rw [ensureLen_of_le (by omega), ensureLen_of_le hheader, List.length_take_of_le hbody,
    if_neg (lt_irrefl _), if_neg (Nat.not_lt.mpr hbody), List.take_take, Nat.min_self]

theorem parseStream_eq (stream : List UInt8) : parseStream stream = parse messageFramer stream := by
  fun_induction parseStream stream with
  | case1 stream h ih =>
    have hnext : messageFramer.next stream =
        some (Message.decode stream, stream.drop (frameLen stream)) := by
      rw [messageFramer_next, if_pos h, Message.decode_take_frameLen h]
    rw [parse_of_some hnext, ih]
  | case2 stream h => rw [parse_of_none (if_neg h)]

/-- The session task sees the frames of the stream, wherever it was cut into chunks. -/
theorem readStream_eq {chunks : List (List UInt8)} (hchunks : ∀ c ∈ chunks, c ≠ [])
    (buf : List UInt8) : readStream chunks buf = parseStream (ahead chunks buf) := by
  rw [parseStream_eq]
  fun_induction readStream chunks buf with
  | case1 chunks buf chunks' buf' hread =>
    obtain ⟨rfl, hnext⟩ := next_of_readFrame_eof hchunks hread
    rw [parse_of_none hnext]
  | case2 chunks buf msg chunks' buf' hread ih =>
    obtain ⟨hnext, hmem⟩ := next_of_readFrame (.ok msg) hread
    rw [parse_of_some hnext, ih fun c hc => hchunks c (hmem c hc)]
  | case3 chunks buf e chunks' buf' hread ih =>
    obtain ⟨hnext, hmem⟩ := next_of_readFrame (.error e) hread
    rw [parse_of_some hnext, ih fun c hc => hchunks c (hmem c hc)]

/-! ## Frames -/

/-- A buffer that is one frame and nothing else. -/
def IsFrame (frame : List UInt8) : Prop :=
  MESSAGE_HEADER_LEN ≤ frame.length ∧ frame.length = frameLen frame

theorem IsFrame.next {frame : List UInt8} (h : IsFrame frame) :
    messageFramer.next frame = some (Message.decode frame, []) := by
  have hholds : HoldsFrame frame := ⟨h.1, h.2.ge⟩
  rw [messageFramer_next, if_pos hholds, Message.decode_take_frameLen hholds, ← h.2,
    List.drop_length]

theorem isFrame_of_encode {m : Message} {bytes : List UInt8} (h : m.encode = .ok bytes) :
    IsFrame bytes := by
  obtain ⟨-, hfits, rfl⟩ := Message.encode_eq h
  have hlen : Bytes.toNat (Bytes.ofNat 2 (itemsLen m.dataItems)) = itemsLen m.dataItems :=
    Bytes.toNat_ofNat (Nat.lt_succ_of_le hfits)
  unfold IsFrame frameLen MESSAGE_HEADER_LEN
  rw [Bytes.drop_ofNat_append, Bytes.take_ofNat_append, hlen]
  simp only [List.length_append, Bytes.length_ofNat, length_flatMap_tlv]
  omega

/-- Messages that encode are written one after another. -/
theorem MessageCodec.encodeAll_eq {ms : List Message} (h : ms.map Message.encode = frames.map .ok)
    (dst : List UInt8) : MessageCodec.encodeAll ms dst = (.ok (), dst ++ frames.flatten) := by
  induction ms generalizing frames dst with
  | nil =>
    obtain rfl : frames = [] := List.map_eq_nil_iff.mp h.symm
    rw [List.flatten_nil, List.append_nil]
    rfl
  | cons m ms ih =>
    obtain ⟨frame, frames, rfl, hm, hms⟩ := List.map_eq_cons_iff.mp h.symm
    unfold MessageCodec.encodeAll MessageCodec.encode
    rw [← hm]
    dsimp only
    rw [ih hms.symm, List.flatten_cons, List.append_assoc]

theorem isFrame_of_map_encode {ms : List Message} (h : ms.map Message.encode = frames.map .ok) :
    ∀ frame ∈ frames, IsFrame frame := by
  intro frame hframe
  have hmem : Except.ok frame ∈ ms.map Message.encode := h ▸ List.mem_map_of_mem hframe
  obtain ⟨m, -, hencode⟩ := List.mem_map.mp hmem
  exact isFrame_of_encode hencode

theorem parseStream_frames (h : ∀ frame ∈ frames, IsFrame frame) :
    parseStream frames.flatten = (frames.map Message.decode, []) := by
  rw [parseStream_eq]
  exact parse_flatten (fun frame hframe => (h frame hframe).next) rfl

theorem map_decode_of_encode {ms : List Message} (htyped : ∀ m ∈ ms, ∀ i ∈ m.dataItems, i.Typed)
    (h : ms.map Message.encode = frames.map .ok) :
    frames.map Message.decode = ms.map fun m => .ok m.norm := by
  induction ms generalizing frames with
  | nil =>
    obtain rfl : frames = [] := List.map_eq_nil_iff.mp h.symm
    rfl
  | cons m ms ih =>
    obtain ⟨frame, frames, rfl, hm, hms⟩ := List.map_eq_cons_iff.mp h.symm
    rw [List.map_cons, List.map_cons, ih (fun m hm => htyped m (List.mem_cons_of_mem _ hm)) hms.symm,
      Message.decode_encode (htyped m List.mem_cons_self) hm.symm]

/-- The session task reads a stream as its whole would be parsed, whatever chunks it
comes in; a frame that does not decode costs its own bytes and no more, so that what
stands around it is read as if it were absent; and messages written by the codec are
read back in order, to the last byte. -/
theorem stream_framing :
    (∀ chunks : List (List UInt8), (∀ c ∈ chunks, c ≠ []) →
      readStream chunks [] = parseStream chunks.flatten) ∧
    (∀ (before frame rest : List UInt8) (e : CodecError), (parseStream before).2 = [] →
      IsFrame frame → Message.decode frame = .error e →
      MessageCodec.decode (frame ++ rest) = (.error e, rest) ∧
      parseStream (before ++ rest) =
        ((parseStream before).1 ++ (parseStream rest).1, (parseStream rest).2) ∧
      parseStream (before ++ (frame ++ rest)) =
        ((parseStream before).1 ++ .error e :: (parseStream rest).1, (parseStream rest).2)) ∧
    (∀ (ms : List Message) (frames : List (List UInt8)), ms.map Message.encode = frames.map .ok →
      MessageCodec.encodeAll ms [] = (.ok (), frames.flatten) ∧
      parseStream frames.flatten = (frames.map Message.decode, []) ∧
      ((∀ m ∈ ms, ∀ i ∈ m.dataItems, i.Typed) →
        frames.map Message.decode = ms.map fun m => .ok m.norm)) := by
  refine ⟨?_, ?_, ?_⟩
  · intro chunks hchunks
    exact readStream_eq hchunks []
  · intro before frame rest e hbefore hframe herror
    have hnext : messageFramer.next frame = some (.error e, []) := herror ▸ hframe.next
    simp only [parseStream_eq] at hbefore ⊢
    refine ⟨?_, ?_, ?_⟩
    · rw [MessageCodec.decode_eq, messageFramer.stable _ _ _ rest hnext]
      rfl
    · rw [parse_append, hbefore, List.nil_append]
    · rw [parse_append, hbefore, List.nil_append, parse_frame hnext]
  · intro ms frames h
    refine ⟨MessageCodec.encodeAll_eq h [], ?_, ?_⟩
    · exact parseStream_frames (isFrame_of_map_encode h)
    · exact fun htyped => map_decode_of_encode htyped h

/-- A Heartbeat written by the codec, a frame whose one data item is cut short, and the
Heartbeat again, in chunks that cut through a header and through a body. -/
theorem stream_framing_heartbeats :
    MessageCodec.encodeAll [⟨.heartbeat, []⟩] [] = (.ok (), [0, 16, 0, 0]) ∧
    MessageCodec.decode [0, 16, 0, 2, 0, 1, 0, 16, 0, 0] = (.error (.truncated 4 2), [0, 16, 0, 0]) ∧
    readStream [[0, 16, 0], [0, 0, 16, 0, 2, 0], [1, 0, 16, 0, 0]] [] =
      ([.ok ⟨.heartbeat, []⟩, .error (.truncated 4 2), .ok ⟨.heartbeat, []⟩], []) := by
  have hheartbeat : parseStream [0, 16, 0, 0] = ([.ok ⟨.heartbeat, []⟩], []) := by decide +kernel
  have hcut : Message.decode [0, 16, 0, 2, 0, 1] = .error (.truncated 4 2) := by decide +kernel
  obtain ⟨hdecode, -, hparse⟩ := stream_framing.2.1 [0, 16, 0, 0] [0, 16, 0, 2, 0, 1] [0, 16, 0, 0]
    (.truncated 4 2) (congrArg Prod.snd hheartbeat) ⟨by decide, by decide⟩ hcut
  refine ⟨(stream_framing.2.2 [⟨.heartbeat, []⟩] [[0, 16, 0, 0]] rfl).1, hdecode, ?_⟩
  rw [stream_framing.1 _ (by decide)]
  rw [hheartbeat] at hparse
  exact hparse

end Dlep
