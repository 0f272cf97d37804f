import LoadFleet.Proofs.ExpectedReplies

/-!
# Replies collected from several links

Each link is read once, and what all reads brought in is either a reply from every link or a
failure.  The failure is that of one read, and names the link that was read: the first that failed,
where no link was silent.  All that is known of the join is that it is lawful.
-/

namespace LoadFleet

/-!
## Single reads
-/

theorem Heard.isSilence_iff {h : Heard} : h.isSilence = true <-> h = .silence := by
  cases h <;> simp [isSilence]

/-- A read brought in at least one byte, and bytes that decode as this reply. -/
inductive Heard.Brings (kind : ReplyKind) (r : Reply) : Heard -> Prop
  | bytes {raw : List UInt8} (hsome : raw ≠ []) (hdecode : Reply.decode kind raw = .ok r) :
      Brings kind r (.bytes raw)

/-- The failure that a read of a link amounts to. -/
inductive Link.FailsWith (kind : ReplyKind) (deadline : Duration) (link : Link κ) :
    Heard -> Failure -> Prop
  | silent : FailsWith kind deadline link .silence
      (.transport (.readTimeout link.name deadline.millis))
  | hungUp : FailsWith kind deadline link (.bytes []) (.transport (.closed link.name))
  | brokenOff (reason : String) : FailsWith kind deadline link (.failed reason)
      (.transport (.read link.name reason))
  | undecodable {raw : List UInt8} {fault : WireFault} (hsome : raw ≠ [])
      (hdecode : Reply.decode kind raw = .error fault) :
      FailsWith kind deadline link (.bytes raw) (.protocol (.reply link.name raw fault))

namespace Link

section

variable {kind : ReplyKind} {deadline : Duration} {link : Link κ} {h : Heard} {r : Reply}
  {failure : Failure}

theorem judgeRead_bytes {raw : List UInt8} (hsome : raw ≠ []) :
    judgeRead kind deadline link (.bytes raw) =
      (Reply.decode kind raw).mapError fun fault => .protocol (.reply link.name raw fault) := by
  cases raw with
  | nil => exact absurd rfl hsome
  | cons byte rest => rfl

theorem judgeRead_eq_ok_iff : judgeRead kind deadline link h = .ok r <-> h.Brings kind r := by
  constructor
  · intro hjudged
    cases h with
    | silence => cases hjudged
    | failed reason => cases hjudged
    | bytes raw =>
        by_cases hsome : raw = []
        · subst hsome
          cases hjudged
        · rw [judgeRead_bytes hsome] at hjudged
          cases hdecode : Reply.decode kind raw with
          | ok found =>
              rw [hdecode] at hjudged
              cases hjudged
              exact .bytes hsome hdecode
          | error fault =>
              rw [hdecode] at hjudged
              cases hjudged
  · intro hbrings
    cases hbrings with
    | bytes hsome hdecode =>
        rw [judgeRead_bytes hsome, hdecode]
        rfl

theorem judgeRead_eq_error_iff :
    judgeRead kind deadline link h = .error failure <-> link.FailsWith kind deadline h failure := by
  constructor
  · intro hjudged
    cases h with
    | silence =>
        cases hjudged
        exact .silent
    | failed reason =>
        cases hjudged
        exact .brokenOff reason
    | bytes raw =>
        by_cases hsome : raw = []
        · subst hsome
          cases hjudged
          exact .hungUp
        · rw [judgeRead_bytes hsome] at hjudged
          cases hdecode : Reply.decode kind raw with
          | ok found =>
              rw [hdecode] at hjudged
              cases hjudged
          | error fault =>
              rw [hdecode] at hjudged
              cases hjudged
              exact .undecodable hsome hdecode
  · intro hfails
    cases hfails with
    | silent => rfl
    | hungUp => rfl
    | brokenOff reason => rfl
    | undecodable hsome hdecode =>
        rw [judgeRead_bytes hsome, hdecode]
        rfl

end

/-!
## All reads
-/

section

variable {join : List Ending -> Except Failure (List Reply)} {kind : ReplyKind}
  {deadline : Duration} {heard : List (Link κ × Heard)}

theorem joined_eq_ok (hjoin : LawfulJoin join) {replies : List Reply}
    (h : join (heard.map (ending kind deadline)) = .ok replies) :
    List.Forall₂ (fun reading r => reading.2.Brings kind r) heard replies := by
  have hresults := hjoin.results_of_ok h
  rw [List.forall₂_map_left_iff] at hresults
  exact hresults.imp fun _ _ => judgeRead_eq_ok_iff.mp

theorem joined_eq_error (hjoin : LawfulJoin join) {failure : Failure}
    (h : join (heard.map (ending kind deadline)) = .error failure) :
    exists reading, reading ∈ heard ∧ reading.1.FailsWith kind deadline reading.2 failure := by
  rcases hjoin.found _ _ h with ⟨_, hmem, hfailed⟩
  rcases List.mem_map.mp hmem with ⟨reading, hreading, rfl⟩
  exact ⟨reading, hreading, judgeRead_eq_error_iff.mp hfailed⟩

theorem joined_eq_first_error (hjoin : LawfulJoin join)
    (hheard : forall reading, reading ∈ heard -> reading.2 ≠ .silence) {failure : Failure}
    (h : join (heard.map (ending kind deadline)) = .error failure) :
    exists before reading after, heard = before ++ reading :: after ∧
      reading.1.FailsWith kind deadline reading.2 failure ∧
      forall other, other ∈ before -> exists r, other.2.Brings kind r := by
  have hready : forall one, one ∈ heard.map (ending kind deadline) -> one.waited = false := by
    intro one hone
    rcases List.mem_map.mp hone with ⟨reading, hreading, rfl⟩
    cases hsilence : reading.2.isSilence with
    | true => exact absurd (Heard.isSilence_iff.mp hsilence) (hheard reading hreading)
    | false => exact hsilence
  -- The ending that decides is the ending of one of the reads, and so are those before it.
  rcases hjoin.first_of_error hready h with ⟨front, _, back, hsplit, hfailed, hfront⟩
  rcases List.map_eq_append_iff.mp hsplit with ⟨before, rest, rfl, rfl, hrest⟩
  rcases List.map_eq_cons_iff.mp hrest with ⟨reading, after, rfl, rfl, -⟩
  refine ⟨before, reading, after, rfl, judgeRead_eq_error_iff.mp hfailed, ?_⟩
  intro other hother
  rcases hfront _ (List.mem_map_of_mem hother) with ⟨r, hr⟩
  exact ⟨r, judgeRead_eq_ok_iff.mp hr⟩

theorem exists_joined_eq_ok_iff (hjoin : LawfulJoin join) :
    (exists replies, join (heard.map (ending kind deadline)) = .ok replies) <->
      forall reading, reading ∈ heard -> exists r, reading.2.Brings kind r := by
  constructor
  · intro hok reading hreading
    rcases hok with ⟨replies, hok⟩
    have hboth : List.Forall₂
        (fun reading r => (exists r, reading.2.Brings kind r) ∧ reading.2.Brings kind r) heard
        replies :=
      (joined_eq_ok hjoin hok).imp fun _ r hr => ⟨⟨r, hr⟩, hr⟩
    exact ((List.forall₂_and_left _ _).mp hboth).left reading hreading
  · intro hbrings
    cases hjoined : join (heard.map (ending kind deadline)) with
    | ok replies => exact ⟨replies, rfl⟩
    | error failure =>
        -- The read whose failure this is would have brought in a reply as well.
        rcases joined_eq_error hjoin hjoined with ⟨reading, hreading, hfails⟩
        rcases hbrings reading hreading with ⟨r, hr⟩
        have hok := judgeRead_eq_error_iff.mpr hfails
        rw [judgeRead_eq_ok_iff.mpr hr] at hok
        cases hok

end

/-!
## Collecting
-/

/-- Over a medium that reads from every connection it is given and joins the reads lawfully,
collecting is a single read of each link, of at most as many bytes as are read of a reply at once.
It gives the replies that the reads brought in, one for each link and in the order of the links,
exactly if every read brought in one.  Otherwise it gives no reply but the failure of one read, with
the name of its link; where no link was silent, that is the first link whose read failed. -/
theorem collect_all_or_nothing {medium : Medium (StateM W) κ} (hmedium : medium.ReadsEach)
    (hjoin : LawfulJoin medium.join) (kind : ReplyKind) (deadline : Duration)
    (links : List (Link κ)) (world : W) :
    let read := (medium.readEach (links.map connection) kind.bufferLength deadline).run world
    let heard := links.zip (read.1.map Prod.fst)
    let collected := (collect medium kind deadline links).run world
    heard.map Prod.fst = links ∧
    ((exists replies, collected.1.1 = .ok replies) <->
      forall reading, reading ∈ heard -> exists r, reading.2.Brings kind r) ∧
    (forall replies, collected.1.1 = .ok replies ->
      List.Forall₂ (fun reading r => reading.2.Brings kind r) heard replies ∧
        collected.2 = read.2) ∧
    forall failure, collected.1.1 = .error failure ->
      (exists reading, reading ∈ heard ∧ reading.1.FailsWith kind deadline reading.2 failure) ∧
      ((forall reading, reading ∈ heard -> reading.2 ≠ .silence) ->
        exists before reading after, heard = before ++ reading :: after ∧
          reading.1.FailsWith kind deadline reading.2 failure ∧
          forall other, other ∈ before -> exists r, other.2.Brings kind r) := by
  intro read heard collected
  have hlinks : links.length ≤ (read.1.map Prod.fst).length := by
    rw [List.length_map, hmedium, List.length_map]
  have hjoined : collected.1.1 = medium.join (heard.map (ending kind deadline)) := rfl
  rw [hjoined]
  exact ⟨List.map_fst_zip hlinks, exists_joined_eq_ok_iff hjoin,
    fun _ hok => ⟨joined_eq_ok hjoin hok, rfl⟩,
    fun _ hfailed => ⟨joined_eq_error hjoin hfailed,
      fun hheard => joined_eq_first_error hjoin hheard hfailed⟩⟩

end Link

/-- Three agents: the first has acknowledged, the second has written the start of a frame, and the
third has hung up. -/
def StageState.unsettled : StageState :=
  .start [
    .ok ⟨fun _ => .silent, [], Reply.ack.encode, .live⟩,
    .ok ⟨fun _ => .silent, [], [3, 0, 0, 0, 4], .live⟩,
    .ok ⟨fun _ => .silent, [], [], .closed⟩]

/-- The second agent decides: nothing is wrong with the first, and the third comes later. -/
theorem Link.collect_all_or_nothing_unsettled :
    let medium := Stage.bare.machine.medium
    let links : List (Link Nat) :=
      [⟨"a", .symmetric, "a:5001", 0⟩, ⟨"b", .symmetric, "b:5001", 1⟩,
        ⟨"c", .symmetric, "c:5001", 2⟩]
    let collected := (collect medium .ack (.ofMillis 500) links).run .unsettled
    let failure := Failure.protocol (.reply "b" [3, 0, 0, 0, 4] (.truncated "ACK" 8 5))
    medium.ReadsEach ∧ LawfulJoin medium.join ∧ collected.1.1 = .error failure ∧
      exists (before after : List (Link Nat × Heard)) (link : Link Nat) (h : Heard),
        (before ++ (link, h) :: after).map Prod.fst = links ∧
        link.FailsWith .ack (.ofMillis 500) h failure ∧
        forall other, other ∈ before -> exists r, other.2.Brings .ack r := by
  intro medium links collected failure
  have hfailed : collected.1.1 = .error failure := by decide +kernel
  have hheard : forall reading, reading ∈ links.zip
      (((medium.readEach (links.map Link.connection) ReplyKind.ack.bufferLength
        (.ofMillis 500)).run .unsettled).1.map Prod.fst) -> reading.2 ≠ .silence := by
    decide +kernel
  rcases collect_all_or_nothing Stage.bare.readsEach_medium Ending.lawful_join .ack
    (.ofMillis 500) links .unsettled with ⟨hlinks, -, -, herror⟩
  rcases (herror _ hfailed).right hheard with
    ⟨before, ⟨link, h⟩, after, hsplit, hfails, hbefore⟩
  rw [hsplit] at hlinks
  exact ⟨Stage.bare.readsEach_medium, Ending.lawful_join, hfailed, before, after, link, h, hlinks,
    hfails, hbefore⟩

end LoadFleet
