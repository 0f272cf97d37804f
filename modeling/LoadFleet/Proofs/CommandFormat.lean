import LoadFleet.Proofs.Framing

/-!
# Which bytes are a command

Bytes are a command if they start with one of the three message types and are long enough for the
numbers behind the header.  What follows these numbers does not matter, and neither does the length
that the header declares.  A command that is written again repeats the bytes it was read from, apart
from that length and from the bits of a sampling rate that is no number.
-/

namespace LoadFleet

namespace LittleEndian

/-!
## Words written again
-/

theorem combine_lt (bytes : List UInt8) : combine bytes < 256 ^ bytes.length := by
  have hsame := combine_split bytes.length (combine bytes)
  rw [split_combine] at hsame
  calc combine bytes = combine bytes % Nat.pow 256 bytes.length := hsame
    _ < 256 ^ bytes.length := Nat.mod_lt _ (Nat.pow_pos (by decide))

theorem ofWord32_word32 {bytes : List UInt8} (hlength : bytes.length = 4) :
    ofWord32 (word32 bytes) = bytes := by
  have hlt := combine_lt bytes
  rw [hlength] at hlt
  unfold ofWord32 word32
  rw [UInt32.toNat_ofNat_of_lt' hlt, ← hlength, split_combine]

theorem ofWord64_word64 {bytes : List UInt8} (hlength : bytes.length = 8) :
    ofWord64 (word64 bytes) = bytes := by
  have hlt := combine_lt bytes
  rw [hlength] at hlt
  unfold ofWord64 word64
  rw [UInt64.toNat_ofNat_of_lt' hlt, ← hlength, split_combine]

theorem ofWord32_word32At {bytes : List UInt8} {place : Nat} (h : place + 4 ≤ bytes.length) :
    ofWord32 (word32At bytes place) = (bytes.drop place).take 4 := by
  apply ofWord32_word32
  rw [List.length_take, List.length_drop]
  omega

theorem ofWord64_word64At {bytes : List UInt8} {place : Nat} (h : place + 8 ≤ bytes.length) :
    ofWord64 (word64At bytes place) = (bytes.drop place).take 8 := by
  apply ofWord64_word64
  rw [List.length_take, List.length_drop]
  omega

end LittleEndian

namespace Binary64

open Float.Model

theorem toBits_ofBits {word : UInt64} (h : (Float.ofBits word).isNaN = false) :
    (Float.ofBits word).toBits = word := by
  -- Unpacking a word loses bits only where the word is no number.
  have hvalid : Format.binary64.Valid word.toBitVec := by
    constructor
    intro hexponent hfraction
    have hnone : UnpackedFloat.unpack .binary64 word.toBitVec = .notANumber := by
      unfold UnpackedFloat.unpack
      rw [if_pos hexponent, if_neg hfraction]
    have hpacked : (Float.ofBits word).isNaN = true := by
      show (UnpackedFloat.unpack .binary64 (UnpackedFloat.pack .binary64
        (UnpackedFloat.unpack .binary64 word.toBitVec))).isNaN = true
      rw [hnone, UnpackedFloat.isNaN_unpack_iff_of_valid UnpackedFloat.valid_pack]
      rfl
    rw [h] at hpacked
    cases hpacked
  apply UInt64.toBitVec_inj.mp
  exact UnpackedFloat.pack_unpack_of_valid hvalid

end Binary64

namespace Command

open LittleEndian
open Reader

/-!
## Numbers behind the header
-/

def payloadReader (messageType : UInt32) : Reader Command := do
  if messageType = Frame.startLoad then
    return .startLoad (← Reader.word32 "START_LOAD payload")
  else if messageType = Frame.startMeasure then
    let sampleCount ← Reader.word32 "START_MEASURE sample count"
    let samplingRate ← Reader.float "START_MEASURE sampling rate"
    return .startMeasure sampleCount samplingRate
  else if messageType = Frame.reportRequest then
    let code ← Reader.word32 "REPORT_REQ payload"
    match ReportKind.ofCode? code with
    | some kind => return .report kind
    | none => throw (.replyTag "REPORT_REQ kind" Frame.latencyKind code)
  else
    throw (.messageType "command header" Frame.reportRequest messageType)

theorem reader_eq : reader = (Reader.header "command header" >>= payloadReader) :=
  rfl

theorem reads_startLoad :
    Reads (payloadReader 0) 4 (fun _ => True) (fun bytes => .startLoad (word32At bytes 0)) :=
  (reads_word32 _).map Command.startLoad

theorem reads_startMeasure :
    Reads (payloadReader 1) 12 (fun _ => True)
      (fun bytes => .startMeasure (word32At bytes 0) (Float.ofBits (word64At bytes 4))) := by
  have hchain := (reads_word32 "START_MEASURE sample count").bind fun sampleCount =>
    (reads_float "START_MEASURE sampling rate").map fun samplingRate =>
      Command.startMeasure sampleCount samplingRate
  apply hchain.congr rfl
  · intro bytes
    simp
  · intro bytes
    simp

theorem reads_kind (code : UInt32) :
    Reads
      (match ReportKind.ofCode? code with
        | some kind => return .report kind
        | none => throw (.replyTag "REPORT_REQ kind" Frame.latencyKind code) : Reader Command)
      0 (fun _ => code = 0 ∨ code = 1)
      (fun _ => .report (if code = 0 then .throughput else .latency)) := by
  by_cases hthroughput : code = 0
  · subst hthroughput
    apply (reads_pure (Command.report .throughput)).congr rfl
    · intro bytes
      simp
    · intro bytes
      rfl
  · by_cases hlatency : code = 1
    · subst hlatency
      apply (reads_pure (Command.report .latency)).congr rfl
      · intro bytes
        simp
      · intro bytes
        rfl
    · have hnone : ReportKind.ofCode? code = none :=
        (if_neg hthroughput).trans (if_neg hlatency)
      rw [hnone]
      constructor
      · intro bytes _ hcode
        exact absurd hcode (by simp [hthroughput, hlatency])
      · intro bytes _
        exact ⟨_, rfl⟩

theorem reads_report :
    Reads (payloadReader 2) 4 (fun bytes => word32At bytes 0 = 0 ∨ word32At bytes 0 = 1)
      (fun bytes => .report (if word32At bytes 0 = 0 then .throughput else .latency)) := by
  apply ((reads_word32 "REPORT_REQ payload").bind reads_kind).congr rfl
  · intro bytes
    simp
  · intro bytes
    rfl

theorem payloadReader_unknown {messageType : UInt32} (hload : messageType ≠ 0)
    (hmeasure : messageType ≠ 1) (hreport : messageType ≠ 2) :
    payloadReader messageType =
      throw (.messageType "command header" Frame.reportRequest messageType) :=
  (if_neg hload).trans ((if_neg hmeasure).trans (if_neg hreport))

/-!
## The format and what it holds
-/

/-- The bytes that a command starts. -/
def Formatted (bytes : List UInt8) : Prop :=
  12 ≤ bytes.length ∧ word32At bytes 0 = 0 ∨
    20 ≤ bytes.length ∧ word32At bytes 0 = 1 ∨
      12 ≤ bytes.length ∧ word32At bytes 0 = 2 ∧ (word32At bytes 8 = 0 ∨ word32At bytes 8 = 1)

def Opens : Command -> List UInt8 -> Prop
  | .startLoad load, bytes =>
      12 ≤ bytes.length ∧ word32At bytes 0 = 0 ∧ word32At bytes 8 = load
  | .startMeasure sampleCount samplingRate, bytes =>
      20 ≤ bytes.length ∧ word32At bytes 0 = 1 ∧ word32At bytes 8 = sampleCount ∧
        Float.ofBits (word64At bytes 12) = samplingRate
  | .report kind, bytes =>
      12 ≤ bytes.length ∧ word32At bytes 0 = 2 ∧ word32At bytes 8 = kind.code

theorem exists_opens_iff (bytes : List UInt8) :
    (exists c : Command, c.Opens bytes) <-> Formatted bytes := by
  constructor
  · intro h
    rcases h with ⟨load | ⟨sampleCount, samplingRate⟩ | kind, hopens⟩
    · exact .inl ⟨hopens.left, hopens.right.left⟩
    · exact .inr (.inl ⟨hopens.left, hopens.right.left⟩)
    · refine .inr (.inr ⟨hopens.left, hopens.right.left, ?_⟩)
      cases kind with
      | throughput => exact .inl hopens.right.right
      | latency => exact .inr hopens.right.right
  · intro h
    rcases h with ⟨hlength, htype⟩ | ⟨hlength, htype⟩ | ⟨hlength, htype, hcode | hcode⟩
    · exact ⟨.startLoad _, hlength, htype, rfl⟩
    · exact ⟨.startMeasure _ _, hlength, htype, rfl, rfl⟩
    · exact ⟨.report .throughput, hlength, htype, hcode⟩
    · exact ⟨.report .latency, hlength, htype, hcode⟩

theorem decode_of_short {bytes : List UInt8} (h : bytes.length < 8) :
    decode bytes = .error (.truncated "command header" 8 bytes.length) := by
  have hheader : Reader.header "command header" bytes =
      .error (.truncated "command header" 8 bytes.length) := by
    apply bind_apply_error
    exact if_pos h
  unfold decode Reader.run
  rw [reader_eq, bind_apply_error hheader]
  rfl

theorem decode_of_header {bytes : List UInt8} (h : 8 ≤ bytes.length) :
    decode bytes = (payloadReader (word32At bytes 0)).run (bytes.drop 8) := by
  unfold decode Reader.run
  rw [reader_eq, bind_apply_ok ((reads_header _).accepts bytes h trivial)]

theorem decode_of_opens {c : Command} {bytes : List UInt8} (h : c.Opens bytes) :
    decode bytes = .ok c := by
  have hpayload (width : Nat) (hlength : 8 + width ≤ bytes.length) :
      width ≤ (bytes.drop 8).length := by
    rw [List.length_drop]
    omega
  cases c with
  | startLoad load =>
      rcases h with ⟨hlength, htype, rfl⟩
      rw [decode_of_header (by omega), htype,
        reads_startLoad.run_ok (hpayload 4 hlength) trivial, word32At_drop]
  | startMeasure sampleCount samplingRate =>
      rcases h with ⟨hlength, htype, rfl, rfl⟩
      rw [decode_of_header (by omega), htype,
        reads_startMeasure.run_ok (hpayload 12 hlength) trivial, word32At_drop, word64At_drop]
  | report kind =>
      rcases h with ⟨hlength, htype, hcode⟩
      have hkind : word32At (bytes.drop 8) 0 = kind.code := by
        rw [word32At_drop]
        exact hcode
      rw [decode_of_header (by omega), htype, reads_report.run_ok (hpayload 4 hlength), hkind]
      · cases kind <;> rfl
      · rw [hkind]
        cases kind with
        | throughput => exact .inl rfl
        | latency => exact .inr rfl

theorem decode_of_not_formatted {bytes : List UInt8} (h : ¬ Formatted bytes) :
    exists fault, decode bytes = .error fault := by
  by_cases hheader : 8 ≤ bytes.length
  · rw [decode_of_header hheader]
    by_cases hload : word32At bytes 0 = 0
    · rw [hload]
      apply reads_startLoad.run_error
      intro hpayload
      rw [List.length_drop] at hpayload
      exact h (.inl ⟨by omega, hload⟩)
    · by_cases hmeasure : word32At bytes 0 = 1
      · rw [hmeasure]
        apply reads_startMeasure.run_error
        intro hpayload
        rw [List.length_drop] at hpayload
        exact h (.inr (.inl ⟨by omega, hmeasure⟩))
      · by_cases hreport : word32At bytes 0 = 2
        · rw [hreport]
          apply reads_report.run_error
          intro hpayload
          rw [List.length_drop, word32At_drop] at hpayload
          exact h (.inr (.inr ⟨by omega, hreport, hpayload.right⟩))
        · rw [payloadReader_unknown hload hmeasure hreport]
          exact ⟨_, rfl⟩
  · exact ⟨_, decode_of_short (Nat.lt_of_not_le hheader)⟩

theorem decode_eq_ok_iff (bytes : List UInt8) (c : Command) :
    decode bytes = .ok c <-> c.Opens bytes := by
  constructor
  · intro hdecode
    by_cases hformat : Formatted bytes
    · rcases (exists_opens_iff bytes).mpr hformat with ⟨other, hopens⟩
      rw [decode_of_opens hopens] at hdecode
      cases hdecode
      exact hopens
    · rcases decode_of_not_formatted hformat with ⟨fault, hfault⟩
      rw [hfault] at hdecode
      cases hdecode
  · exact decode_of_opens

/-- The bytes may differ in the length that their header declares. -/
theorem decode_congr {bytes others : List UInt8} (hlength : others.length = bytes.length)
    (h : forall i, i < 4 ∨ 8 ≤ i -> others[i]? = bytes[i]?) : decode others = decode bytes := by
  by_cases hheader : 8 ≤ bytes.length
  · have htype : word32At others 0 = word32At bytes 0 := by
      apply word32At_congr
      intro i _ hi
      exact h i (.inl (by omega))
    have hpayload : others.drop 8 = bytes.drop 8 := by
      apply List.ext_getElem?
      intro i
      rw [List.getElem?_drop, List.getElem?_drop]
      exact h (8 + i) (.inr (Nat.le_add_right 8 i))
    rw [decode_of_header (hlength.symm ▸ hheader), decode_of_header hheader, htype, hpayload]
  · have hshort : bytes.length < 8 := Nat.lt_of_not_le hheader
    rw [decode_of_short (hlength.symm ▸ hshort), decode_of_short hshort, hlength]

/-!
## Frames
-/

theorem length_frame (c : Command) : c.frame.length = 8 + c.payloadLength := by
  rw [frame, List.length_append, List.length_append, length_ofWord32, length_ofWord32,
    c.length_payload]

theorem declared_frame (c : Command) : (word32At c.frame 4).toNat = c.payloadLength := by
  have hdeclared := Frame.word32At_append (length_ofWord32 c.messageType)
    (UInt32.ofNat c.payloadLength) c.payload
  rw [frame, List.append_assoc, hdeclared]
  cases c <;> rfl

theorem take_frame (c : Command) : c.frame.take 4 = ofWord32 c.messageType := by
  rw [frame, List.append_assoc]
  exact List.take_left' (length_ofWord32 c.messageType)

theorem drop_frame (c : Command) : c.frame.drop 8 = c.payload :=
  List.drop_left' (by rw [List.length_append, length_ofWord32, length_ofWord32])

theorem decode_frame_append (c : Command) (rest : List UInt8) :
    decode (c.frame ++ rest) = .ok c := by
  unfold decode Reader.run
  rw [c.takes_frame rest]
  rfl

theorem encode_injective : Function.Injective encode := by
  intro c other hsame
  rw [c.encode_eq, other.encode_eq] at hsame
  have hread := c.decode_frame
  rw [Except.ok.inj hsame, other.decode_frame] at hread
  exact (Except.ok.inj hread).symm

def unnumbered : Command -> Bool
  | .startMeasure _ samplingRate => samplingRate.isNaN
  | _ => false

/-- A frame repeats the bytes that its command was read from: their message type, the number behind
their header, and the rest up to its own end.  A rate that is no number may have other bits, which
are no number either. -/
structure Repeats (c : Command) (bytes frame : List UInt8) : Prop where
  length : frame.length = if word32At bytes 0 = 1 then 20 else 12
  enough : frame.length ≤ bytes.length
  messageType : frame.take 4 = bytes.take 4
  number : (frame.drop 8).take 4 = (bytes.drop 8).take 4
  rate : c.unnumbered = false -> frame.drop 12 = (bytes.drop 12).take (frame.length - 12)
  unnumbered : c.unnumbered = true -> frame.length = 20 ∧
    (Float.ofBits (word64At frame 12)).isNaN = true ∧
    (Float.ofBits (word64At bytes 12)).isNaN = true

theorem Opens.le_length {c : Command} {bytes : List UInt8} (h : c.Opens bytes) :
    12 ≤ bytes.length := by
  cases c with
  | startLoad load => exact h.left
  | startMeasure sampleCount samplingRate => exact Nat.le_trans (by decide) h.left
  | report kind => exact h.left

theorem Opens.word_eq {c : Command} {bytes : List UInt8} (h : c.Opens bytes) :
    word32At bytes 0 = c.messageType := by
  cases c with
  | startLoad load => exact h.right.left
  | startMeasure sampleCount samplingRate => exact h.right.left
  | report kind => exact h.right.left

theorem Opens.take_eq {c : Command} {bytes : List UInt8} (h : c.Opens bytes) :
    c.frame.take 4 = bytes.take 4 := by
  rw [take_frame, ← h.word_eq]
  exact ofWord32_word32At (Nat.le_trans (by decide) h.le_length)

/-- A command whose payload is the number behind the header. -/
theorem repeats_of_number {c : Command} {bytes : List UInt8} (h : c.Opens bytes)
    (htype : c.messageType ≠ 1) (hpayload : c.payload = ofWord32 (word32At bytes 8))
    (hnumbered : c.unnumbered = false) : c.Repeats bytes c.frame := by
  have hframe : c.frame.length = 12 := by
    rw [length_frame, ← length_payload, hpayload, length_ofWord32]
  constructor
  · rw [h.word_eq, if_neg htype]
    exact hframe
  · rw [hframe]
    exact h.le_length
  · exact h.take_eq
  · rw [drop_frame, hpayload, ofWord32_word32At h.le_length, List.take_take]
    rfl
  · intro _
    rw [hframe, List.drop_eq_nil_of_le (Nat.le_of_eq hframe)]
    rfl
  · intro hunnumbered
    rw [hnumbered] at hunnumbered
    cases hunnumbered

theorem drop_startMeasure (sampleCount : UInt32) (samplingRate : Float) :
    (frame (.startMeasure sampleCount samplingRate)).drop 12 = ofFloat samplingRate := by
  show (frame (.startMeasure sampleCount samplingRate)).drop (8 + 4) = _
  rw [← List.drop_drop, drop_frame]
  exact List.drop_left' (length_ofWord32 sampleCount)

theorem repeats_startMeasure {sampleCount : UInt32} {samplingRate : Float} {bytes : List UInt8}
    (h : (startMeasure sampleCount samplingRate).Opens bytes) :
    (startMeasure sampleCount samplingRate).Repeats bytes
      (frame (.startMeasure sampleCount samplingRate)) := by
  have hframe := length_frame (.startMeasure sampleCount samplingRate)
  have hread := (decode_eq_ok_iff _ _).mp (decode_frame (.startMeasure sampleCount samplingRate))
  have hnumber : word32At bytes 8 = sampleCount := h.right.right.left
  have hrate : Float.ofBits (word64At bytes 12) = samplingRate := h.right.right.right
  constructor
  · rw [h.word_eq]
    exact hframe
  · rw [hframe]
    exact h.left
  · exact h.take_eq
  · rw [drop_frame, ← ofWord32_word32At h.le_length, hnumber]
    exact List.take_left' (length_ofWord32 sampleCount)
  · intro hnumbered
    have hbits : samplingRate.toBits = word64At bytes 12 := by
      rw [← hrate]
      apply Binary64.toBits_ofBits
      rw [hrate]
      exact hnumbered
    rw [drop_startMeasure, ofFloat, hbits, hframe, ofWord64_word64At h.left]
    rfl
  · intro hunnumbered
    refine ⟨hframe, ?_, ?_⟩
    · rw [hread.right.right.right]
      exact hunnumbered
    · rw [hrate]
      exact hunnumbered

theorem repeats_of_opens {c : Command} {bytes : List UInt8} (h : c.Opens bytes) :
    c.Repeats bytes c.frame := by
  cases c with
  | startLoad load =>
      have htype : Frame.startLoad ≠ 1 := by decide
      have hpayload : ofWord32 load = ofWord32 (word32At bytes 8) := by
        rw [h.right.right]
      exact repeats_of_number h htype hpayload rfl
  | startMeasure sampleCount samplingRate => exact repeats_startMeasure h
  | report kind =>
      have htype : Frame.reportRequest ≠ 1 := by decide
      have hpayload : ofWord32 kind.code = ofWord32 (word32At bytes 8) := by
        rw [h.right.right]
      exact repeats_of_number h htype hpayload rfl

/-- Every command is written as a frame as long as its header declares, and is read back from this
frame and whatever follows it.  Bytes are read as a command exactly when they have its format, and
the command is then written as the bytes it was read from, but for the declared length.  No two
commands are written alike, and the declared length does not change what is read. -/
theorem command_codec_exact :
    (forall c : Command, exists bytes, c.encode = .ok bytes ∧
      bytes.length = 8 + (word32At bytes 4).toNat ∧
      forall rest, decode (bytes ++ rest) = .ok c) ∧
    (forall bytes, (exists c, decode bytes = .ok c) <-> Formatted bytes) ∧
    (forall bytes c, decode bytes = .ok c ->
      exists again, c.encode = .ok again ∧ c.Repeats bytes again) ∧
    (forall c other : Command, c ≠ other -> c.encode ≠ other.encode) ∧
    (forall bytes others, others.length = bytes.length ->
      (forall i, i < 4 ∨ 8 ≤ i -> others[i]? = bytes[i]?) -> decode others = decode bytes) := by
  refine ⟨?_, ?_, ?_, ?_, ?_⟩
  · intro c
    refine ⟨c.frame, c.encode_eq, ?_, c.decode_frame_append⟩
    rw [length_frame, declared_frame]
  · intro bytes
    rw [← exists_opens_iff]
    exact exists_congr (decode_eq_ok_iff bytes)
  · intro bytes c hdecode
    exact ⟨c.frame, c.encode_eq, repeats_of_opens ((decode_eq_ok_iff bytes c).mp hdecode)⟩
  · intro c other hdifferent hsame
    exact hdifferent (encode_injective hsame)
  · intro bytes others
    exact decode_congr

end Command
end LoadFleet
