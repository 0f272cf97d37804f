import LoadFleet.Proofs.RoundTrips

/-!
# Frames one after the other

A frame declares how much of it is still to come, so bytes can be walked from frame to frame
without knowing what they mean.  A reply consists of whole frames, whose types, lengths and tags
are those of its kind; a reader of another kind refuses it at the first tag.
-/

namespace LoadFleet

namespace Frame

open LittleEndian

/-- What stands before the body of a frame: its message type, the declared count of bytes behind
that count, and the tag that these bytes start with. -/
structure Head where
  messageType : UInt32
  length : UInt32
  tag : UInt32
deriving DecidableEq

/-- The head that bytes start with. -/
def headOf (bytes : List UInt8) : Head :=
  ⟨word32At bytes 0, word32At bytes 4, word32At bytes 8⟩

/-- The bytes of a frame as far as its head declares them. -/
def Head.width (h : Head) : Nat := headerLength + h.length.toNat

/-- The heads of the frames that bytes consist of.  There are none where the bytes end before a
frame does. -/
def walk (bytes : List UInt8) : Option (List Head) :=
  if bytes = [] then some []
  else if bytes.length < headerLength + tagLength then none
  else if bytes.length < (headOf bytes).width then none
  else (walk (bytes.drop (headOf bytes).width)).map (headOf bytes :: ·)
termination_by bytes.length
decreasing_by
  rename_i hsome _ _
  have hpos : 0 < bytes.length := List.length_pos_iff.mpr hsome
  have hwidth : 0 < (headOf bytes).width := Nat.add_pos_left (by decide) _
  rw [List.length_drop]
  exact Nat.sub_lt hpos hwidth

/-!
## Walking over written frames
-/

theorem word32At_zero_append (w : UInt32) (rest : List UInt8) :
    word32At (ofWord32 w ++ rest) 0 = w := by
  unfold word32At
  rw [List.drop_zero, List.take_left' (length_ofWord32 w), word32_ofWord32]

theorem word32At_append {before : List UInt8} {place : Nat} (hlength : before.length = place)
    (w : UInt32) (rest : List UInt8) :
    word32At (before ++ (ofWord32 w ++ rest)) place = w := by
  have hdrop := word32At_drop (before ++ (ofWord32 w ++ rest)) place 0
  rw [List.drop_left' hlength, word32At_zero_append] at hdrop
  exact hdrop.symm

/-- The head of a reply frame that is started with a length. -/
def startedHead (tag : UInt32) (length : Nat) : Head := ⟨reply, declared length, tag⟩

theorem headOf_frameStart (tag : UInt32) (length : Nat) (rest : List UInt8) :
    headOf (Reply.frameStart tag length ++ rest) = startedHead tag length := by
  unfold headOf Reply.frameStart startedHead
  simp only [List.append_assoc]
  have hlength := word32At_append (length_ofWord32 reply) (declared length) (ofWord32 tag ++ rest)
  have hheader : (ofWord32 reply ++ ofWord32 (declared length)).length = 8 := by
    rw [List.length_append, length_ofWord32, length_ofWord32]
  have htag := word32At_append hheader tag rest
  rw [List.append_assoc] at htag
  rw [word32At_zero_append, hlength, htag]

/-- A frame that is started with this length declares its tag and this body. -/
def Announces (length : Nat) (body : List UInt8) : Prop :=
  (declared length).toNat = tagLength + body.length

theorem announces_of_length {length count : Nat} {body : List UInt8} (hbody : body.length = count)
    (hlength : (declared length).toNat = tagLength + count) : Announces length body := by
  unfold Announces
  rw [hbody, hlength]

/-- A walk goes over a frame whose start announces its body, and on with what follows the frame. -/
theorem walk_frame (tag : UInt32) {length : Nat} {body : List UInt8} (hbody : Announces length body)
    (rest : List UInt8) :
    walk (Reply.frameStart tag length ++ body ++ rest) =
      (walk rest).map (startedHead tag length :: ·) := by
  have hwidth : (startedHead tag length).width = (Reply.frameStart tag length ++ body).length := by
    rw [List.length_append, Reply.length_frameStart]
    show headerLength + (declared length).toNat = _
    rw [hbody, ← Nat.add_assoc]
    rfl
  have hlength : (Reply.frameStart tag length ++ body ++ rest).length =
      12 + body.length + rest.length := by
    rw [List.length_append, List.length_append, Reply.length_frameStart]
  have hsome : Reply.frameStart tag length ++ body ++ rest ≠ [] := by
    apply List.length_pos_iff.mp
    omega
  have htagged :
      ¬ (Reply.frameStart tag length ++ body ++ rest).length < headerLength + tagLength := by
    unfold headerLength tagLength
    omega
  have hwhole : ¬ (Reply.frameStart tag length ++ body ++ rest).length <
      (startedHead tag length).width := by
    rw [hwidth, List.length_append]
    omega
  have hhead : headOf (Reply.frameStart tag length ++ body ++ rest) = startedHead tag length := by
    rw [List.append_assoc]
    exact headOf_frameStart tag length (body ++ rest)
  rw [walk, if_neg hsome, if_neg htagged, hhead, if_neg hwhole, hwidth, List.drop_left]

theorem walk_nil : walk [] = some [] := by
  rw [walk, if_pos rfl]

end Frame

namespace Reader

open LittleEndian

theorem replyTagged_wrong {tag actual : UInt32} (hwrong : actual ≠ tag) (length : UInt32)
    (context : String) (rest : List UInt8) :
    replyTagged tag context (ofWord32 Frame.reply ++ ofWord32 length ++ ofWord32 actual ++ rest) =
      .error (.replyTag context tag actual) := by
  have htype := takes_header Frame.reply length context (ofWord32 actual ++ rest)
  have htag := takes_word32 actual context rest
  unfold replyTagged
  rw [List.append_assoc, bind_apply_ok htype]
  simp only [ne_eq, not_true_eq_false, if_false]
  rw [bind_apply_ok htag, if_pos hwrong]
  rfl

end Reader

namespace Reply

open LittleEndian

/-!
## Kinds told apart
-/

/-- What a reader of a kind calls the first frame. -/
def frameName : ReplyKind -> String
  | .ack => "ACK"
  | .throughput => "throughput reply"
  | .latency => "latency reply"

theorem tag_injective {kind other : ReplyKind} (h : kind.tag = other.tag) : kind = other := by
  revert h
  cases kind <;> cases other <;> decide

theorem reader_eq (length : Nat) (kind : ReplyKind) :
    exists next : Unit -> Reader Reply,
      reader length kind = (Reader.replyTagged kind.tag (frameName kind) >>= next) := by
  cases kind with
  | ack => exact ⟨_, rfl⟩
  | throughput => exact ⟨_, rfl⟩
  | latency => exact ⟨_, rfl⟩

theorem encode_front (r : Reply) :
    exists length rest, r.encode = frameStart r.kind.tag length ++ rest := by
  cases r with
  | ack => exact ⟨0, [], (List.append_nil _).symm⟩
  | throughput report => exact ⟨_, _, List.append_assoc _ _ _⟩
  | latency report => exact ⟨_, _, List.append_assoc _ _ _⟩

theorem decode_other {kind : ReplyKind} {r : Reply} (hother : kind ≠ r.kind) :
    decode kind r.encode = .error (.replyTag (frameName kind) kind.tag r.kind.tag) := by
  have hwrong : r.kind.tag ≠ kind.tag := by
    intro htag
    exact hother (tag_injective htag).symm
  rcases reader_eq r.encode.length kind with ⟨next, hreader⟩
  rcases encode_front r with ⟨length, rest, hencode⟩
  have hfront : Reader.replyTagged kind.tag (frameName kind) r.encode =
      .error (.replyTag (frameName kind) kind.tag r.kind.tag) := by
    rw [hencode]
    exact Reader.replyTagged_wrong hwrong _ _ rest
  unfold decode Reader.run
  rw [hreader, Reader.bind_apply_error hfront]
  rfl

/-- A reply is read back as what it is, and by a reader of another kind as the wrong tag. -/
theorem decode_encode_any (kind : ReplyKind) (r : Reply) :
    decode kind r.encode =
      if kind = r.kind then .ok r
      else .error (.replyTag (frameName kind) kind.tag r.kind.tag) := by
  by_cases hkind : kind = r.kind
  · rw [if_pos hkind, hkind]
    exact decode_encode r
  · rw [if_neg hkind]
    exact decode_other hkind

theorem encode_injective : Function.Injective encode := by
  intro r other hsame
  have hread := decode_encode r
  rw [hsame, decode_encode_any] at hread
  by_cases hkind : r.kind = other.kind
  · rw [if_pos hkind] at hread
    exact (Except.ok.inj hread).symm
  · rw [if_neg hkind] at hread
    cases hread

/-!
## Frames of replies
-/

/-- The heads of the frames of a reply, with or without its trailer. -/
def heads : ReplyKind -> Bool -> List Frame.Head
  | .ack, _ => [⟨3, 4, 0⟩]
  | .throughput, false => [⟨3, 36, 1⟩]
  | .throughput, true => [⟨3, 36, 1⟩, ⟨3, 8, 5⟩]
  | .latency, false => [⟨3, 140, 2⟩]
  | .latency, true => [⟨3, 140, 2⟩, ⟨3, 8, 3⟩, ⟨3, 12, 4⟩, ⟨3, 8, 5⟩]

/-!
The lengths that frames are started with are constants beside the fields that are written, so each
of them has to be compared with the fields of its frame.
-/

theorem walk_interArrivalFrame (flag : UInt32) :
    Frame.walk (interArrivalFrame flag) = some [⟨3, 8, 5⟩] := by
  have hbody : Frame.Announces Frame.interArrivalLength (ofWord32 flag) :=
    Frame.announces_of_length (length_ofWord32 flag) rfl
  have hwalk := Frame.walk_frame Frame.interArrivalTag hbody []
  rw [List.append_nil, Frame.walk_nil] at hwalk
  exact hwalk

theorem walk_trailerFrames (t : Trailer) :
    Frame.walk (trailerFrames t) = some [⟨3, 8, 3⟩, ⟨3, 12, 4⟩, ⟨3, 8, 5⟩] := by
  have hconvergence : Frame.Announces Frame.convergenceLength (ofWord32 t.convergence) :=
    Frame.announces_of_length (length_ofWord32 t.convergence) rfl
  have hcorrelation : Frame.Announces Frame.correlationLength (ofFloat t.correlation) :=
    Frame.announces_of_length (length_ofFloat t.correlation) rfl
  unfold trailerFrames
  rw [List.append_assoc, Frame.walk_frame Frame.convergenceTag hconvergence,
    Frame.walk_frame Frame.correlationTag hcorrelation, walk_interArrivalFrame]
  rfl

theorem walk_encode (r : Reply) : Frame.walk r.encode = some (heads r.kind r.isTrailed) := by
  cases r with
  | ack =>
      -- An acknowledgement is started with no length at all, and announces its tag even so.
      have hempty : Frame.Announces 0 [] := rfl
      have hwalk := Frame.walk_frame Frame.ackTag hempty []
      rw [List.append_nil, List.append_nil, Frame.walk_nil] at hwalk
      exact hwalk
  | throughput report =>
      have hbody : Frame.Announces Frame.throughputLength (encodeCounters report.stats) :=
        Frame.announces_of_length (length_encodeCounters report.stats) rfl
      rw [encode, Frame.walk_frame Frame.throughputTag hbody]
      rcases report with ⟨stats, _ | flag⟩
      · show (Frame.walk []).map _ = _
        rw [Frame.walk_nil]
        rfl
      · show (Frame.walk (interArrivalFrame flag)).map _ = _
        rw [walk_interArrivalFrame]
        rfl
  | latency report =>
      have hbody : Frame.Announces Frame.latencyLength (encodeStats report.stats) :=
        Frame.announces_of_length (length_encodeStats report.stats) rfl
      rw [encode, Frame.walk_frame Frame.latencyTag hbody]
      rcases report with ⟨stats, _ | trailer⟩
      · show (Frame.walk []).map _ = _
        rw [Frame.walk_nil]
        rfl
      · show (Frame.walk (trailerFrames trailer)).map _ = _
        rw [walk_trailerFrames]
        rfl

/-- Every reply is read back by a reader of its kind and refused by any other for its tag.  The
lengths in its frames lead from the first frame to the end of the bytes, past the tags of its kind
in their order, and no two replies are written alike. -/
theorem encoding_self_describing :
    (forall kind r, decode kind r.encode =
      if kind = r.kind then .ok r
      else .error (.replyTag (frameName kind) kind.tag r.kind.tag)) ∧
    (forall r : Reply, Frame.walk r.encode = some (heads r.kind r.isTrailed)) ∧
    (forall r other : Reply, r ≠ other -> r.encode ≠ other.encode) := by
  refine ⟨decode_encode_any, walk_encode, ?_⟩
  intro r other hdifferent hsame
  exact hdifferent (encode_injective hsame)

end Reply
end LoadFleet
