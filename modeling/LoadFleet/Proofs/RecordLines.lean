import LoadFleet.Experiment
import LoadFleet.Proofs.Numerals
import LoadFleet.Proofs.SplitTexts

/-!
# Lines of records

A lawful writer writes single strings and numbers in printable ASCII, apart from characters that a
string has itself, and of these none below the space.  So is then a whole value, however deep.  The
record of a point never breaks its line, whatever its numbers are, and splitting the text of an
outcome at line ends gives the records again.
-/

namespace LoadFleet
namespace Text

/-- The space and the visible characters of ASCII. -/
def Printable (c : Char) : Prop :=
  ' ' ≤ c ∧ c ≤ '~'

/-- Characters that are all printable. -/
def Plain (cs : List Char) : Prop :=
  forall c, c ∈ cs -> Printable c

instance (c : Char) : Decidable (Printable c) :=
  inferInstanceAs (Decidable (_ ∧ _))

instance (cs : List Char) : Decidable (Plain cs) :=
  List.decidableBAll _ cs

theorem plain_nil : Plain [] :=
  nofun

theorem plain_cons {c : Char} {cs : List Char} : Plain (c :: cs) <-> Printable c ∧ Plain cs :=
  List.forall_mem_cons

theorem plain_append {cs ds : List Char} : Plain (cs ++ ds) <-> Plain cs ∧ Plain ds :=
  List.forall_mem_append

theorem plain_replicate {c : Char} (h : Printable c) (n : Nat) : Plain (List.replicate n c) := by
  intro d hd
  rw [List.eq_of_mem_replicate hd]
  exact h

theorem plain_decimal (n : Nat) : Plain (decimal n) := by
  intro c hc
  rcases visible_of_mem_decimal hc with ⟨hleast, hmost⟩
  exact ⟨Char.le_trans (by decide) hleast, hmost⟩

theorem printable_hexDigit {value : Nat} (h : value < 16) : Printable (hexDigit value) := by
  have hall : forall value : Fin 16, Printable (hexDigit value) := by
    decide
  exact hall ⟨value, h⟩

theorem pieces_lines_of_space_le {lines : List (List Char)}
    (h : forall line, line ∈ lines -> forall c, c ∈ line -> ' ' ≤ c) :
    pieces '\n' (lines.flatMap fun line => line ++ ['\n']) = lines ++ [[]] := by
  apply pieces_lines
  intro line hline hbreak
  exact absurd (h line hline '\n' hbreak) (by decide)

end Text

open Text (Plain Printable plain_append plain_cons)

/-!
## Numbers
-/

namespace Binary64

theorem withoutTrailingZeros_subset (digits : List Char) :
    withoutTrailingZeros digits ⊆ digits := by
  intro c hc
  rw [withoutTrailingZeros, List.mem_reverse] at hc
  exact List.mem_reverse.mp ((List.dropWhile_sublist _).subset hc)

theorem plain_shortestFrom (i : Interval) (tie : Tie) (power : Int) (count fuel : Nat) :
    Plain (shortestFrom i tie power count fuel).digits := by
  induction fuel generalizing count with
  | zero => exact plain_cons.mpr ⟨by decide, Text.plain_nil⟩
  | succ fuel ih =>
      unfold shortestFrom
      split
      · intro c hc
        exact Text.plain_decimal _ c (withoutTrailingZeros_subset _ hc)
      · exact ih (count + 1)

theorem plain_shortest (tie : Tie) (significand : Nat) (exponent : Int) :
    Plain (shortest tie significand exponent).digits := by
  unfold shortest
  split
  · exact plain_cons.mpr ⟨by decide, Text.plain_nil⟩
  · exact plain_shortestFrom _ _ _ _ _

section

variable {d : Digits} (hd : Plain d.digits)
include hd

theorem plain_positional (fraction : Bool) : Plain (d.positional fraction) := by
  have hzeros (n : Nat) : Plain (List.replicate n '0') := Text.plain_replicate (by decide) n
  have hwhole : Plain (d.digits.take d.point.toNat) :=
    fun c hc => hd c (List.mem_of_mem_take hc)
  have hrest : Plain (d.digits.drop d.point.toNat) :=
    fun c hc => hd c (List.mem_of_mem_drop hc)
  have hfilled (n : Nat) : Plain (d.digits.take d.point.toNat ++ List.replicate n '0') :=
    plain_append.mpr ⟨hwhole, hzeros n⟩
  unfold Digits.positional
  split
  · rw [plain_cons, plain_cons, plain_append]
    exact ⟨by decide, by decide, hzeros _, hd⟩
  · dsimp only
    split
    · split
      · exact plain_append.mpr ⟨hfilled _, by decide⟩
      · exact hfilled _
    · rw [plain_append, plain_cons]
      exact ⟨hfilled _, by decide, hrest⟩

theorem plain_scientific (plus : Bool) : Plain (d.scientific plus) := by
  have hsign : Plain (if d.point - 1 < 0 then ['-'] else if plus then ['+'] else []) := by
    split
    · decide
    · split <;> decide
  unfold Digits.scientific
  rw [plain_append, plain_cons, plain_append]
  refine ⟨?mantissa, by decide, hsign, Text.plain_decimal _⟩
  case mantissa =>
    rcases hdigits : d.digits with _ | ⟨first, _ | ⟨second, rest⟩⟩
    · decide
    · rw [hdigits] at hd
      exact hd
    · rw [hdigits, plain_cons] at hd
      rw [plain_cons, plain_cons]
      exact ⟨hd.left, by decide, hd.right⟩

theorem plain_digits (layout : Layout) : Plain (layout.digits d) := by
  unfold Layout.digits
  split
  · exact plain_positional hd layout.fraction
  · exact plain_scientific hd layout.plus

end

theorem plain_write_finite {layout : Layout} {x : Float} {negative : Bool} {significand : Nat}
    {exponent : Int} (h : form x = .finite negative significand exponent) :
    Plain (layout.write x) := by
  unfold Layout.write
  rw [h, plain_append]
  constructor
  · cases negative <;> decide
  · exact plain_digits (plain_shortest _ _ _) layout

end Binary64

/-!
## Writers
-/

namespace Json

/-- What is known of the way single strings and numbers are written. -/
structure Writer.Lawful (writer : Writer) : Prop where
  /-- Control characters are escaped, by characters that are printable. -/
  string : forall {s c}, c ∈ writer.string s -> Printable c ∨ c ∈ s.toList ∧ ' ' ≤ c
  finite : forall {x negative significand exponent},
    Binary64.form x = .finite negative significand exponent -> Plain (writer.real x)
  infinite : forall {x negative},
    Binary64.form x = .infinite negative -> writer.real x = "null".toList
  nan : forall {x}, Binary64.form x = .nan -> writer.real x = "null".toList

theorem plain_null : Plain "null".toList := by
  decide +kernel

theorem Writer.Lawful.plain_real {writer : Writer} (h : writer.Lawful) (x : Float) :
    Plain (writer.real x) := by
  cases hform : Binary64.form x with
  | finite negative significand exponent => exact h.finite hform
  | infinite negative =>
      rw [h.infinite hform]
      exact plain_null
  | nan =>
      rw [h.nan hform]
      exact plain_null

namespace Writer

theorem mem_escape {c d : Char} (h : d ∈ escape c) : Printable d ∨ d = c ∧ ' ' ≤ c := by
  have hpair {letter : Char} (hletter : Printable letter) (hd : d ∈ ['\\', letter]) :
      Printable d ∨ d = c ∧ ' ' ≤ c := by
    rw [List.mem_pair] at hd
    rcases hd with rfl | rfl
    · exact Or.inl (by decide)
    · exact Or.inl hletter
  unfold escape at h
  split_ifs at h with _ _ _ _ _ _ _ hcode
  iterate 7 · exact hpair (by decide) h
  · have hhigh : Printable (Text.hexDigit (c.toNat / 16)) :=
      Text.printable_hexDigit (Nat.div_lt_of_lt_mul (Nat.lt_trans hcode (by decide)))
    have hlow : Printable (Text.hexDigit (c.toNat % 16)) :=
      Text.printable_hexDigit (Nat.mod_lt _ (by decide))
    have hcodeUnit : Plain ['\\', 'u', '0', '0', Text.hexDigit (c.toNat / 16),
        Text.hexDigit (c.toNat % 16)] := by
      simp only [plain_cons]
      exact ⟨by decide, by decide, by decide, by decide, hhigh, hlow, Text.plain_nil⟩
    exact Or.inl (hcodeUnit d h)
  · rw [List.mem_singleton] at h
    exact Or.inr ⟨h, Nat.not_lt.mp hcode⟩

theorem mem_quote {s : String} {c : Char} (h : c ∈ quote s) :
    Printable c ∨ c ∈ s.toList ∧ ' ' ≤ c := by
  have hmark : Printable '"' := by
    decide
  rw [quote, List.mem_cons, List.mem_append, List.mem_flatMap, List.mem_singleton] at h
  rcases h with rfl | ⟨d, hd, hc⟩ | rfl
  · exact Or.inl hmark
  · rcases mem_escape hc with hprintable | ⟨rfl, hcode⟩
    · exact Or.inl hprintable
    · exact Or.inr ⟨hd, hcode⟩
  · exact Or.inl hmark

theorem lawful_standard : standard.Lawful where
  string := mem_quote
  finite := by
    intro x negative significand exponent hform
    show Plain (writeReal x)
    rw [writeReal, hform]
    exact Binary64.plain_write_finite hform
  infinite := by
    intro x negative hform
    show writeReal x = _
    rw [writeReal, hform]
  nan := by
    intro x hform
    show writeReal x = _
    rw [writeReal, hform]

end Writer

/-!
## Values
-/

namespace Value

mutual

def characters : Value -> List Char
  | .null => []
  | .natural _ => []
  | .real _ => []
  | .text s => s.toList
  | .list items => itemCharacters items
  | .record fields => fieldCharacters fields

def itemCharacters : List Value -> List Char
  | [] => []
  | item :: rest => item.characters ++ itemCharacters rest

def fieldCharacters : List (String × Value) -> List Char
  | [] => []
  | (name, value) :: rest => name.toList ++ (value.characters ++ fieldCharacters rest)

end

section

variable {writer : Writer}

/-- Items and fields are parted by signs that are no part of them. -/
theorem mem_writeItems_cons {c : Char} {item : Value} {rest : List Value}
    (h : c ∈ writeItems writer (item :: rest)) :
    c ∈ item.write writer ∨ c = ',' ∨ c ∈ writeItems writer rest := by
  cases rest with
  | nil => exact Or.inl h
  | cons second more =>
      rw [writeItems, List.mem_append, List.mem_cons] at h
      · exact h
      · exact List.cons_ne_nil second more

theorem mem_writeFields_cons {c : Char} {name : String} {value : Value}
    {rest : List (String × Value)} (h : c ∈ writeFields writer ((name, value) :: rest)) :
    c ∈ writer.string name ∨ c = ':' ∨ c ∈ value.write writer ∨ c = ',' ∨
      c ∈ writeFields writer rest := by
  cases rest with
  | nil =>
      rw [writeFields, List.mem_append, List.mem_cons] at h
      exact h.imp_right fun h => h.imp_right Or.inl
  | cons second more =>
      rw [writeFields, List.mem_append, List.mem_cons, List.mem_append, List.mem_cons] at h
      · exact h
      · exact List.cons_ne_nil second more

-- What is known of a text does not depend on how deep it lies, so each of these statements is about
-- the characters of all texts below, and they follow the recursion of the writer.
mutual

theorem mem_write (hwriter : writer.Lawful) {c : Char} :
    forall {v : Value}, c ∈ v.write writer -> Printable c ∨ c ∈ v.characters ∧ ' ' ≤ c
  | .null, h => Or.inl (plain_null c h)
  | .natural n, h => Or.inl (Text.plain_decimal n c h)
  | .real x, h => Or.inl (hwriter.plain_real x c h)
  | .text _, h => hwriter.string h
  | .list items, h => by
      rw [write, List.mem_cons, List.mem_append, List.mem_singleton] at h
      rcases h with rfl | hitems | rfl
      · exact Or.inl (by decide)
      · exact mem_writeItems hwriter hitems
      · exact Or.inl (by decide)
  | .record fields, h => by
      rw [write, List.mem_cons, List.mem_append, List.mem_singleton] at h
      rcases h with rfl | hfields | rfl
      · exact Or.inl (by decide)
      · exact mem_writeFields hwriter hfields
      · exact Or.inl (by decide)

theorem mem_writeItems (hwriter : writer.Lawful) {c : Char} :
    forall {items : List Value}, c ∈ writeItems writer items ->
      Printable c ∨ c ∈ itemCharacters items ∧ ' ' ≤ c
  | [], h => absurd h List.not_mem_nil
  | item :: rest, h => by
      rw [itemCharacters, List.mem_append]
      rcases mem_writeItems_cons h with hitem | rfl | hrest
      · exact (mem_write hwriter hitem).imp_right fun hc => ⟨Or.inl hc.left, hc.right⟩
      · exact Or.inl (by decide)
      · exact (mem_writeItems hwriter hrest).imp_right fun hc => ⟨Or.inr hc.left, hc.right⟩

theorem mem_writeFields (hwriter : writer.Lawful) {c : Char} :
    forall {fields : List (String × Value)}, c ∈ writeFields writer fields ->
      Printable c ∨ c ∈ fieldCharacters fields ∧ ' ' ≤ c
  | [], h => absurd h List.not_mem_nil
  | (name, value) :: rest, h => by
      rw [fieldCharacters, List.mem_append, List.mem_append]
      rcases mem_writeFields_cons h with hname | rfl | hvalue | rfl | hrest
      · exact (hwriter.string hname).imp_right fun hc => ⟨Or.inl hc.left, hc.right⟩
      · exact Or.inl (by decide)
      · exact (mem_write hwriter hvalue).imp_right fun hc => ⟨Or.inr (Or.inl hc.left), hc.right⟩
      · exact Or.inl (by decide)
      · have hlater := mem_writeFields hwriter hrest
        exact hlater.imp_right fun hc => ⟨Or.inr (Or.inr hc.left), hc.right⟩

end

/-- Whatever its texts are, a value is written without line breaks and other characters below the
space. -/
theorem space_le_of_mem_write (hwriter : writer.Lawful) {v : Value} {c : Char}
    (h : c ∈ v.write writer) : ' ' ≤ c := by
  rcases mem_write hwriter h with hprintable | ⟨-, hcode⟩
  · exact hprintable.left
  · exact hcode

/-- A value whose texts and names are printable is written with printable characters only. -/
theorem plain_write (hwriter : writer.Lawful) {v : Value} (hv : Plain v.characters) :
    Plain (v.write writer) := by
  intro c hc
  rcases mem_write hwriter hc with hprintable | ⟨hmem, -⟩
  · exact hprintable
  · exact hv c hmem

end

theorem plain_list {items : List Value} (h : forall item, item ∈ items -> Plain item.characters) :
    Plain (list items).characters := by
  rw [characters]
  induction items with
  | nil => exact Text.plain_nil
  | cons item rest ih =>
      rw [List.forall_mem_cons] at h
      rw [itemCharacters, plain_append]
      exact ⟨h.left, ih h.right⟩

theorem plain_list_map {α : Type} {write : α -> Value} (h : forall a, Plain (write a).characters)
    (values : List α) : Plain (list (values.map write)).characters :=
  plain_list (List.forall_mem_map.mpr fun a _ => h a)

theorem plain_record {fields : List (String × Value)}
    (h : forall field, field ∈ fields ->
      Plain (text field.fst).characters ∧ Plain field.snd.characters) :
    Plain (record fields).characters := by
  rw [characters]
  induction fields with
  | nil => exact Text.plain_nil
  | cons field rest ih =>
      rw [List.forall_mem_cons] at h
      rw [fieldCharacters, plain_append, plain_append]
      exact ⟨h.left.left, h.left.right, ih h.right⟩

theorem plain_optional {α : Type} {write : α -> Value} (h : forall a, Plain (write a).characters)
    (value : Option α) : Plain (Value.optional write value).characters := by
  cases value with
  | none => exact Text.plain_nil
  | some a => exact h a

end Value
end Json

/-!
## Records and their lines
-/

namespace Record

open Json Value

def pointNames : List String :=
  ["mode", "offered_load", "latency_rate", "sampling_rate", "sample_count", "window_secs",
    "iterations", "retries", "throughput", "counters", "latency", "trailers", "rps",
    "rx_bytes_per_sec", "tx_bytes_per_sec", "completed", "agents", "rx_bytes", "tx_bytes",
    "rx_reqs", "tx_reqs", "avg_ns", "p50", "p90", "p95", "p99", "lower", "value", "upper",
    "convergence", "correlations", "ia_compliance"]

theorem plain_of_mem_pointNames :
    forall name, name ∈ pointNames -> Plain (text name).characters := by
  simp only [characters]
  decide +kernel

theorem plain_label (m : Mode) : Plain (text m.label).characters := by
  rw [characters]
  cases m <;> decide +kernel

theorem plain_point (p : Point) : Plain (point p).characters := by
  have hnames := plain_of_mem_pointNames
  simp only [pointNames, List.forall_mem_cons] at hnames
  have hnatural (n : Nat) : Plain (natural n).characters := Text.plain_nil
  have hreal (x : Float) : Plain (real x).characters := Text.plain_nil
  have hword (w : UInt32) : Plain (word32 w).characters := hnatural w.toNat
  have hlong (w : UInt64) : Plain (word64 w).characters := hnatural w.toNat
  have hestimate (e : Estimate) : Plain (estimate e).characters :=
    plain_record (by simp [hnames, hlong])
  have htotals (t : Totals) : Plain (totals t).characters :=
    plain_record (by simp [hnames, hlong, hnatural])
  have hrates (r : Rates) : Plain (rates r).characters :=
    plain_record (by simp [hnames, hlong, hreal])
  have hlatency (l : MergedLatency) : Plain (latency l).characters :=
    plain_record (by simp [hnames, hlong, hestimate, htotals, hnatural])
  have htrailers (t : Trailers) : Plain (trailers t).characters :=
    plain_record (by simp [hnames, plain_list_map hword, plain_list_map hreal])
  exact plain_record (by simp [hnames, plain_label, hword, hlong, hreal, plain_optional hword,
    hrates, htotals, hlatency, htrailers])

end Record

namespace Outcome

open Json (Value)

def lines (o : Outcome) (writer : Json.Writer) : List (List Char) :=
  o.points.map fun p => (Record.point p).write writer

theorem text_json_toList (o : Outcome) (writer : Json.Writer) :
    (o.text writer .json).toList = (o.lines writer).flatMap fun line => line ++ ['\n'] := by
  rw [lines, List.flatMap_map]
  exact String.toList_ofList

theorem plain_of_mem_lines {o : Outcome} {writer : Json.Writer} (hwriter : writer.Lawful)
    {line : List Char} (h : line ∈ o.lines writer) : line ≠ [] ∧ Plain line := by
  rcases List.mem_map.mp h with ⟨p, -, rfl⟩
  exact ⟨List.cons_ne_nil _ _, Value.plain_write hwriter (Record.plain_point p)⟩

/-- With any lawful writer, the text of an outcome has one line for each point, in order.  A line is
never empty and holds no character but printable ones, so the text splits into the records again,
and texts of points that are put behind one another are behind one another, too.  Records with any
other names, texts and numbers keep to their lines as well. -/
theorem records_one_line_each (writer : Json.Writer) (hwriter : writer.Lawful) (o : Outcome) :
    (o.lines writer).length = o.points.length ∧
      (o.text writer .json).toList = ((o.lines writer).flatMap fun line => line ++ ['\n']) ∧
      (forall line, line ∈ o.lines writer -> line ≠ [] ∧ Plain line) ∧
      Text.pieces '\n' (o.text writer .json).toList = o.lines writer ++ [[]] ∧
      (forall other : Outcome, ({ o with points := o.points ++ other.points }).text writer .json =
        o.text writer .json ++ other.text writer .json) ∧
      forall records : List (List (String × Value)),
        let lines := records.map fun fields => (Value.record fields).write writer
        (forall line, line ∈ lines -> line ≠ [] ∧ forall c, c ∈ line -> ' ' ≤ c) ∧
          Text.pieces '\n' (lines.flatMap fun line => line ++ ['\n']) = lines ++ [[]] := by
  refine ⟨List.length_map _, o.text_json_toList writer, fun _ => plain_of_mem_lines hwriter,
    ?split, ?append, ?any⟩
  case split =>
    rw [text_json_toList]
    exact Text.pieces_lines_of_space_le fun line hline c hc =>
      ((plain_of_mem_lines hwriter hline).right c hc).left
  case append =>
    intro other
    apply String.toList_inj.mp
    rw [String.toList_append, text_json_toList, text_json_toList, text_json_toList,
      ← List.flatMap_append, lines, lines, lines, ← List.map_append]
  case any =>
    intro records lines
    have hlines : forall line, line ∈ lines -> line ≠ [] ∧ forall c, c ∈ line -> ' ' ≤ c :=
      List.forall_mem_map.mpr fun fields _ =>
        ⟨List.cons_ne_nil _ _, fun _ => Value.space_le_of_mem_write hwriter⟩
    exact ⟨hlines, Text.pieces_lines_of_space_le fun line hline => (hlines line hline).right⟩

/-- The point of one agent whose correlation is no number. -/
def unnumberedPoint : Point :=
  Measurement.symmetricPoint 1000 .initial (.ofSeconds 50)
    [⟨⟨⟨0, 0, 50000, 0⟩, 0, ⟨0, 0, 0⟩, ⟨0, 0, 0⟩, ⟨0, 0, 0⟩, ⟨0, 0, 0⟩⟩,
      some ⟨1, Float.ofBits 0x7FF8000000000000, 1⟩⟩]

/-- The text of two such points splits into their two records. -/
theorem records_one_line_each_unnumbered :
    let o : Outcome := ⟨"corr:1000:10000", [unnumberedPoint, unnumberedPoint]⟩
    (o.lines .standard).length = 2 ∧
      Text.pieces '\n' (o.text .standard .json).toList = o.lines .standard ++ [[]] ∧
      forall line, line ∈ o.lines .standard -> line ≠ [] ∧ Plain line := by
  intro o
  rcases records_one_line_each .standard Json.Writer.lawful_standard o with
    ⟨hlength, -, hplain, hpieces, -⟩
  exact ⟨hlength, hpieces, hplain⟩

end Outcome
end LoadFleet
