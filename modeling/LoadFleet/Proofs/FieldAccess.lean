import LoadFleet.Protocol.Reader

/-!
# Fields at fixed places

A reader of fixed width is described by the bytes it accepts and by the value it finds in them,
both given by places counted from the front.  Readers in sequence are described by the same
places, moved behind what was taken before.
-/

namespace LoadFleet

namespace LittleEndian

/-!
## Words at a place
-/

def word32At (bytes : List UInt8) (place : Nat) : UInt32 := word32 ((bytes.drop place).take 4)

def word64At (bytes : List UInt8) (place : Nat) : UInt64 := word64 ((bytes.drop place).take 8)

@[simp]
theorem word32At_drop (bytes : List UInt8) (n place : Nat) :
    word32At (bytes.drop n) place = word32At bytes (n + place) := by
  simp [word32At]

@[simp]
theorem word64At_drop (bytes : List UInt8) (n place : Nat) :
    word64At (bytes.drop n) place = word64At bytes (n + place) := by
  simp [word64At]

theorem take_drop_congr {bytes others : List UInt8} {place width : Nat}
    (h : forall i, place ≤ i -> i < place + width -> others[i]? = bytes[i]?) :
    (others.drop place).take width = (bytes.drop place).take width := by
  apply List.ext_getElem?
  intro i
  by_cases hi : i < width
  · rw [List.getElem?_take_of_lt hi, List.getElem?_take_of_lt hi, List.getElem?_drop,
      List.getElem?_drop]
    exact h (place + i) (Nat.le_add_right place i) (Nat.add_lt_add_left hi place)
  · rw [List.getElem?_take_eq_none (Nat.le_of_not_lt hi),
      List.getElem?_take_eq_none (Nat.le_of_not_lt hi)]

theorem word32At_congr {bytes others : List UInt8} {place : Nat}
    (h : forall i, place ≤ i -> i < place + 4 -> others[i]? = bytes[i]?) :
    word32At others place = word32At bytes place := by
  unfold word32At
  rw [take_drop_congr h]

theorem word64At_congr {bytes others : List UInt8} {place : Nat}
    (h : forall i, place ≤ i -> i < place + 8 -> others[i]? = bytes[i]?) :
    word64At others place = word64At bytes place := by
  unfold word64At
  rw [take_drop_congr h]

end LittleEndian

namespace Reader

open LittleEndian

/-!
## Readers of fixed width
-/

/-- A reader takes `width` bytes off the front if they are there and pass a test, and finds a value
in them; otherwise it ends in a fault. -/
structure Reads (r : Reader α) (width : Nat) (test : List UInt8 -> Prop)
    (value : List UInt8 -> α) : Prop where
  accepts : forall bytes, width ≤ bytes.length -> test bytes ->
    r bytes = .ok (value bytes, bytes.drop width)
  refuses : forall bytes, ¬ (width ≤ bytes.length ∧ test bytes) ->
    exists fault, r bytes = .error fault

theorem bind_apply_ok {r : Reader α} {f : α -> Reader β} {bytes rest : List UInt8} {value : α}
    (h : r bytes = .ok (value, rest)) :
    (r >>= f) bytes = f value rest := by
  show (r bytes >>= fun taken => f taken.1 taken.2) = f value rest
  rw [h]
  rfl

theorem bind_apply_error {r : Reader α} {f : α -> Reader β} {bytes : List UInt8}
    {fault : WireFault} (h : r bytes = .error fault) :
    (r >>= f) bytes = .error fault := by
  show (r bytes >>= fun taken => f taken.1 taken.2) = .error fault
  rw [h]
  rfl

theorem reads_pure (value : α) :
    Reads (pure value) 0 (fun _ => True) (fun _ => value) where
  accepts := by
    intro bytes _ _
    rfl
  refuses := by
    intro bytes h
    exact absurd ⟨Nat.zero_le _, trivial⟩ h

theorem reads_take (count : Nat) (context : String) :
    Reads (take count context) count (fun _ => True) (fun bytes => bytes.take count) where
  accepts := by
    intro bytes hlength _
    simp [take, Nat.not_lt.mpr hlength]
  refuses := by
    intro bytes h
    have hlength : bytes.length < count :=
      Nat.lt_of_not_le fun hle => h ⟨hle, trivial⟩
    exact ⟨.truncated context count bytes.length, by simp [take, hlength]⟩

namespace Reads

theorem bind {r : Reader α} {f : α -> Reader β} {width width' : Nat}
    {test : List UInt8 -> Prop} {test' : α -> List UInt8 -> Prop} {value : List UInt8 -> α}
    {value' : α -> List UInt8 -> β}
    (h : Reads r width test value)
    (h' : forall a, Reads (f a) width' (test' a) (value' a)) :
    Reads (r >>= f) (width + width')
      (fun bytes => test bytes ∧ test' (value bytes) (bytes.drop width))
      (fun bytes => value' (value bytes) (bytes.drop width)) where
  accepts := by
    intro bytes hlength htest
    have hfirst := h.accepts bytes (by omega) htest.left
    have hsecond := (h' (value bytes)).accepts (bytes.drop width)
      (by rw [List.length_drop]; omega) htest.right
    rw [bind_apply_ok hfirst, hsecond, List.drop_drop]
  refuses := by
    intro bytes hnot
    by_cases hfirst : width ≤ bytes.length ∧ test bytes
    · have hsecond : ¬ (width' ≤ (bytes.drop width).length ∧
          test' (value bytes) (bytes.drop width)) := by
        intro hboth
        rw [List.length_drop] at hboth
        exact hnot ⟨by omega, hfirst.right, hboth.right⟩
      rw [bind_apply_ok (h.accepts bytes hfirst.left hfirst.right)]
      exact (h' (value bytes)).refuses (bytes.drop width) hsecond
    · rcases h.refuses bytes hfirst with ⟨fault, hfault⟩
      exact ⟨fault, bind_apply_error hfault⟩

theorem congr {r : Reader α} {width width' : Nat} {test test' : List UInt8 -> Prop}
    {value value' : List UInt8 -> α} (h : Reads r width test value)
    (hwidth : width = width') (htest : forall bytes, test bytes <-> test' bytes)
    (hvalue : forall bytes, value bytes = value' bytes) :
    Reads r width' test' value' := by
  have htests : test = test' := funext fun bytes => propext (htest bytes)
  have hvalues : value = value' := funext hvalue
  rw [← hwidth, ← htests, ← hvalues]
  exact h

theorem map {r : Reader α} {width : Nat} {test : List UInt8 -> Prop}
    {value : List UInt8 -> α} (h : Reads r width test value) (f : α -> β) :
    Reads (do return f (← r)) width test (fun bytes => f (value bytes)) := by
  apply (h.bind fun a => reads_pure (f a)).congr
  · exact Nat.add_zero width
  · intro bytes
    exact Iff.of_eq (and_true _)
  · intro bytes
    rfl

theorem some_map {r : Reader α} {width : Nat} {test : List UInt8 -> Prop}
    {value : List UInt8 -> α} (h : Reads r width test value) :
    Reads (some <$> r) width test (fun bytes => some (value bytes)) := by
  rw [map_eq_pure_bind]
  exact h.map some

theorem run_ok {r : Reader α} {width : Nat} {test : List UInt8 -> Prop}
    {value : List UInt8 -> α} (h : Reads r width test value) {bytes : List UInt8}
    (hlength : width ≤ bytes.length) (htest : test bytes) :
    r.run bytes = .ok (value bytes) := by
  unfold Reader.run
  rw [h.accepts bytes hlength htest]
  rfl

theorem run_error {r : Reader α} {width : Nat} {test : List UInt8 -> Prop}
    {value : List UInt8 -> α} (h : Reads r width test value) {bytes : List UInt8}
    (hnot : ¬ (width ≤ bytes.length ∧ test bytes)) :
    exists fault, r.run bytes = .error fault := by
  rcases h.refuses bytes hnot with ⟨fault, hfault⟩
  refine ⟨fault, ?_⟩
  unfold Reader.run
  rw [hfault]
  rfl

end Reads

/-!
## Words and frame starts
-/

theorem reads_word32 (context : String) :
    Reads (word32 context) 4 (fun _ => True) (fun bytes => word32At bytes 0) :=
  (reads_take 4 context).map LittleEndian.word32

theorem reads_word64 (context : String) :
    Reads (word64 context) 8 (fun _ => True) (fun bytes => word64At bytes 0) :=
  (reads_take 8 context).map LittleEndian.word64

theorem reads_float (context : String) :
    Reads (float context) 8 (fun _ => True) (fun bytes => Float.ofBits (word64At bytes 0)) :=
  (reads_take 8 context).map LittleEndian.float

theorem reads_header (context : String) :
    Reads (header context) 8 (fun _ => True) (fun bytes => word32At bytes 0) := by
  apply ((reads_take 8 context).map fun taken => LittleEndian.word32 (taken.take 4)).congr rfl
  · intro bytes
    rfl
  · intro bytes
    simp [word32At, List.take_take]

/-- A test of a value that was read takes no bytes. -/
theorem reads_unless (bad : Prop) [Decidable bad] (fault : WireFault) :
    Reads (if bad then throw fault else pure () : Reader Unit) 0 (fun _ => ¬ bad)
      (fun _ => ()) where
  accepts := by
    intro bytes _ hgood
    rw [if_neg hgood]
    rfl
  refuses := by
    intro bytes h
    have hbad : bad := by
      by_cases hbad : bad
      · exact hbad
      · exact absurd ⟨Nat.zero_le _, hbad⟩ h
    exact ⟨fault, by rw [if_pos hbad]; rfl⟩

theorem reads_replyTagged (tag : UInt32) (context : String) :
    Reads (replyTagged tag context) 12
      (fun bytes => word32At bytes 0 = Frame.reply ∧ word32At bytes 8 = tag)
      (fun _ => ()) := by
  have hchain :=
    (reads_header context).bind fun messageType =>
      (reads_unless (messageType ≠ Frame.reply)
        (.messageType context Frame.reply messageType)).bind fun _ =>
      (reads_word32 context).bind fun actual =>
        reads_unless (actual ≠ tag) (.replyTag context tag actual)
  have hsame : replyTagged tag context = (header context >>= fun messageType =>
      (if messageType ≠ Frame.reply then
        throw (.messageType context Frame.reply messageType) else pure ()) >>= fun _ =>
      word32 context >>= fun actual =>
        if actual ≠ tag then throw (.replyTag context tag actual) else pure ()) := by
    apply bind_congr
    intro messageType
    by_cases htype : messageType = Frame.reply
    · simp [htype]
    · simp only [ne_eq, htype, not_false_eq_true, if_true]
  rw [hsame]
  apply hchain.congr rfl
  · intro bytes
    simp
  · intro bytes
    rfl

end Reader
end LoadFleet
