import LoadFleet.Launch.Remote
import LoadFleet.Proofs.Numerals
import LoadFleet.Proofs.Resolution

/-!
# Launch lines

An agent is started by one line of text, which its host takes apart at white space.  The line is the
program and its arguments with one space between each two, and nothing is quoted, so the agent gets
the arguments it is meant to get exactly if all of them are words.  Three of them are texts that
settings take over as they are given.
-/

namespace LoadFleet
namespace Text

/-- A class of characters that part words: it has the space, and no visible ASCII character. -/
structure Parting (blank : Char -> Bool) : Prop where
  space : blank ' ' = true
  visible : forall c, '!' ≤ c -> c ≤ '~' -> blank c = false

def shellBlank (c : Char) : Bool :=
  c == ' ' || c == '\t' || c == '\n'

/-- A text that is not parted anywhere. -/
def IsWord (blank : Char -> Bool) (s : String) : Prop :=
  s ≠ "" ∧ forall c, c ∈ s.toList -> blank c = false

/-- The words of a text: its pieces between characters of a class, without the empty ones. -/
def words (blank : Char -> Bool) (s : String) : List String :=
  ((s.toList.splitOnP blank).filter fun piece => !piece.isEmpty).map String.ofList

def IsVisible (s : String) : Prop :=
  s ≠ "" ∧ forall c, c ∈ s.toList -> '!' ≤ c ∧ c ≤ '~'

-- The characters of the text are looked at, and not all characters there are.
instance (blank : Char -> Bool) (s : String) : Decidable (IsWord blank s) :=
  @instDecidableAnd _ _ inferInstance (List.decidableBAll _ s.toList)

instance (s : String) : Decidable (IsVisible s) :=
  @instDecidableAnd _ _ inferInstance (List.decidableBAll _ s.toList)

/-!
## Characters that part words
-/

theorem parting_shellBlank : Parting shellBlank where
  space := rfl
  visible c hleast _ := by
    have hapart {d : Char} (hd : d < '!') : (c == d) = false := by
      apply beq_false_of_ne
      intro hcd
      rw [hcd] at hleast
      exact Char.not_le.mpr hd hleast
    unfold shellBlank
    rw [hapart (by decide), hapart (by decide), hapart (by decide)]
    rfl

theorem parting_isBlank : Parting isBlank where
  space := rfl
  visible c hleast hmost := by
    have hfrom : 33 ≤ c.toNat := hleast
    have hto : c.toNat ≤ 126 := hmost
    have hapart : forall range, range ∈ blankRanges -> range.2 < 33 ∨ 126 < range.1 := by
      decide
    unfold isBlank
    rw [List.any_eq_false]
    intro range hrange hinside
    rw [Bool.and_eq_true, decide_eq_true_iff, decide_eq_true_iff] at hinside
    have hout := hapart range hrange
    omega

/-!
## Words of a line
-/

section

variable {blank : Char -> Bool}

theorem not_blank_of_mem_splitOnP {cs piece : List Char} (h : piece ∈ cs.splitOnP blank) :
    forall c, c ∈ piece -> blank c = false := by
  induction cs generalizing piece with
  | nil =>
      rw [List.splitOnP_nil, List.mem_singleton] at h
      rw [h]
      exact nofun
  | cons first rest ih =>
      rw [List.splitOnP_cons_eq_if_modifyHead] at h
      by_cases hfirst : blank first = true
      · rw [if_pos hfirst, List.mem_cons] at h
        rcases h with rfl | hpiece
        · exact nofun
        · exact ih hpiece
      · rcases List.exists_cons_of_ne_nil (List.splitOnP_ne_nil blank rest) with
          ⟨front, others, hrest⟩
        rw [if_neg hfirst, hrest, List.modifyHead_cons, List.mem_cons] at h
        rw [hrest] at ih
        rcases h with rfl | hpiece
        · exact List.forall_mem_cons.mpr ⟨Bool.eq_false_iff.mpr hfirst, ih List.mem_cons_self⟩
        · exact ih (List.mem_cons_of_mem front hpiece)

theorem isWord_of_mem_words {s word : String} (h : word ∈ words blank s) : IsWord blank word := by
  rcases List.mem_map.mp h with ⟨piece, hpiece, rfl⟩
  rcases List.mem_filter.mp hpiece with ⟨hmem, hsome⟩
  constructor
  · intro hempty
    rw [String.ofList_eq_empty_iff.mp hempty] at hsome
    cases hsome
  · rw [String.toList_ofList]
    exact not_blank_of_mem_splitOnP hmem

theorem splitOnP_intercalate (hspace : blank ' ' = true) {pieces : List (List Char)}
    (hsome : pieces ≠ [])
    (hpieces : forall piece, piece ∈ pieces -> forall c, c ∈ piece -> blank c = false) :
    ([' '].intercalate pieces).splitOnP blank = pieces := by
  induction pieces with
  | nil => exact absurd rfl hsome
  | cons piece rest ih =>
      rw [List.forall_mem_cons] at hpieces
      cases rest with
      | nil =>
          rw [List.intercalate_singleton]
          exact List.splitOnP_eq_singleton hpieces.left
      | cons second more =>
          rw [List.intercalate_cons_cons, List.append_assoc, List.singleton_append,
            List.splitOnP_append_cons_of_forall_mem hpieces.left ' ' hspace,
            ih (List.cons_ne_nil second more) hpieces.right]

theorem words_intercalate (hspace : blank ' ' = true) {ws : List String} (hsome : ws ≠ [])
    (hws : forall w, w ∈ ws -> IsWord blank w) :
    words blank (String.intercalate " " ws) = ws := by
  have hpieces : forall piece, piece ∈ ws.map String.toList ->
      forall c, c ∈ piece -> blank c = false :=
    List.forall_mem_map.mpr fun w hw => (hws w hw).right
  have hfilled : forall piece, piece ∈ ws.map String.toList -> (!piece.isEmpty) = true := by
    rw [List.forall_mem_map]
    intro w hw
    rw [Bool.not_eq_true', List.isEmpty_eq_false_iff, ne_eq, String.toList_eq_nil_iff]
    exact (hws w hw).left
  have hid : String.ofList ∘ String.toList = id := funext fun _ => String.ofList_toList
  have hline : (String.intercalate " " ws).toList = [' '].intercalate (ws.map String.toList) :=
    String.toList_intercalate
  rw [words, hline, splitOnP_intercalate hspace (mt List.map_eq_nil_iff.mp hsome) hpieces,
    List.filter_eq_self.mpr hfilled, List.map_map, hid, List.map_id]

theorem Parting.isWord_of_visible (hblank : Parting blank) {s : String} (h : IsVisible s) :
    IsWord blank s :=
  ⟨h.left, fun c hc => hblank.visible c (h.right c hc).left (h.right c hc).right⟩

theorem isVisible_natural (n : Nat) : IsVisible (natural n) := by
  constructor
  · exact mt String.ofList_eq_empty_iff.mp (decimal_ne_nil n)
  · intro c hc
    rw [natural, String.toList_ofList] at hc
    exact visible_of_mem_decimal hc

end

end Text

/-!
## Launch lines
-/

/-- The texts of arguments that every launch line repeats as they are. -/
def Arguments.repeatedTexts (a : Arguments) : List String :=
  [a.targetHost, a.interArrival, a.appProtocol]

namespace Launch

open Text (IsWord Parting words)

/-- The program that a launch line starts, with its arguments, and what goes before them. -/
def launchWords (remote : String) (arguments : List String) : List String :=
  ["ulimit", "-c", "unlimited", "&&", "sudo", remote] ++ arguments

theorem launchLine_eq_intercalate (remote : String) {arguments : List String}
    (hsome : arguments ≠ []) :
    launchLine remote arguments = String.intercalate " " (launchWords remote arguments) := by
  have hfront : "ulimit -c unlimited && sudo ".toList = "ulimit".toList ++ (" ".toList ++
      ("-c".toList ++ (" ".toList ++ ("unlimited".toList ++ (" ".toList ++ ("&&".toList ++
        (" ".toList ++ ("sudo".toList ++ " ".toList)))))))) := by
    decide +kernel
  rcases List.exists_cons_of_ne_nil hsome with ⟨first, rest, rfl⟩
  apply String.toList_inj.mp
  unfold launchLine launchWords
  simp only [String.toList_append, String.toList_intercalate, List.cons_append, List.nil_append,
    List.map_cons, List.intercalate_cons_cons, hfront, List.append_assoc]

theorem agentArguments_ne_nil (server : ServerSettings) (role : Role) (nicTimestamps : Bool) :
    agentArguments server role nicTimestamps ≠ [] :=
  List.cons_ne_nil _ _

def fixedWords : List String :=
  ["ulimit", "-c", "unlimited", "&&", "sudo", "-s", "-t", "-i", "-p", "-r", "-a"]

section

variable {blank : Char -> Bool}

theorem isWord_of_mem_fixedWords (hblank : Parting blank) {w : String} (hw : w ∈ fixedWords) :
    IsWord blank w := by
  have hvisible : forall w, w ∈ fixedWords -> Text.IsVisible w := by
    decide +kernel
  exact hblank.isWord_of_visible (hvisible w hw)

theorem isVisible_label (p : TargetProtocol) : Text.IsVisible p.label := by
  cases p <;> decide +kernel

theorem isWord_agentArguments_iff (hblank : Parting blank) (server : ServerSettings) (role : Role)
    (nicTimestamps : Bool) :
    (forall w, w ∈ agentArguments server role nicTimestamps -> IsWord blank w) <->
      forall text, text ∈ [server.target, server.interArrival, server.appProtocol] ->
        IsWord blank text := by
  have hfixed : forall w, w ∈ fixedWords -> IsWord blank w :=
    fun _ => isWord_of_mem_fixedWords hblank
  have hnumber (n : Nat) : IsWord blank (Text.natural n) :=
    hblank.isWord_of_visible (Text.isVisible_natural n)
  have hlabel (p : TargetProtocol) : IsWord blank p.label :=
    hblank.isWord_of_visible (isVisible_label p)
  simp only [fixedWords, List.forall_mem_cons] at hfixed
  simp [agentArguments, hfixed, hnumber, hlabel]

theorem isWord_launchWords_iff (hblank : Parting blank) {remote : String}
    (hremote : IsWord blank remote) (arguments : List String) :
    (forall w, w ∈ launchWords remote arguments -> IsWord blank w) <->
      forall w, w ∈ arguments -> IsWord blank w := by
  have hfixed : forall w, w ∈ fixedWords -> IsWord blank w :=
    fun _ => isWord_of_mem_fixedWords hblank
  simp only [fixedWords, List.forall_mem_cons] at hfixed
  simp [launchWords, hfixed, hremote]

/-- A launch line is taken apart into what it was made of exactly if every argument is a word. -/
theorem words_launchLine_iff (hblank : Parting blank) {remote : String}
    (hremote : IsWord blank remote) {arguments : List String} (hsome : arguments ≠ []) :
    words blank (launchLine remote arguments) = launchWords remote arguments <->
      forall w, w ∈ arguments -> IsWord blank w := by
  rw [← isWord_launchWords_iff hblank hremote]
  constructor
  · intro h w hw
    rw [← h] at hw
    exact Text.isWord_of_mem_words hw
  · intro h
    rw [launchLine_eq_intercalate remote hsome]
    exact Text.words_intercalate hblank.space (List.cons_ne_nil _ _) h

theorem launchWords_inj {remote other : String} {arguments others : List String}
    (h : launchWords remote arguments = launchWords other others) :
    remote = other ∧ arguments = others := by
  rw [launchWords, launchWords] at h
  simpa using h

end

end Launch

namespace Settings

open Launch (agentArguments launchLine launchWords)
open Text (IsWord Parting words shellBlank)

theorem server_of_resolve {a : Arguments} {s : Settings} (h : resolve a = .ok s) :
    s.server = a.server := by
  rcases resolvable_of_resolve h with ⟨-, hresolvable, -⟩
  unfold resolve at h
  rw [if_neg (mt Roster.isEmpty_iff.mp hresolvable.someone),
    repeatedHost_of_distinct hresolvable.distinct, hresolvable.read] at h
  change (s.pattern.ensureAgents a.roster.count).mapError Failure.config >>= _ = .ok s at h
  rw [hresolvable.agents] at h
  exact congrArg server (Except.ok.inj h).symm

/-- With settings that were resolved, a host takes the launch line of an agent apart into the
program and the agent's fourteen arguments exactly if the texts that are repeated are words.  Lines
of such settings are the same only for the same program and arguments. -/
theorem launch_line_split {a : Arguments} {s : Settings} (hresolve : resolve a = .ok s)
    {blank : Char -> Bool} (hblank : Parting blank) {remote : String}
    (hremote : IsWord blank remote) (role : Role) (nicTimestamps : Bool) :
    let arguments := agentArguments s.server role nicTimestamps
    let line := launchLine remote arguments
    arguments.length = 14 ∧
      (words blank line = ["ulimit", "-c", "unlimited", "&&", "sudo", remote] ++ arguments <->
        forall text, text ∈ a.repeatedTexts -> IsWord blank text) ∧
      ((forall text, text ∈ a.repeatedTexts -> IsWord blank text) ->
        forall b t other otherRole otherNicTimestamps, resolve b = .ok t -> IsWord blank other ->
          (forall text, text ∈ b.repeatedTexts -> IsWord blank text) ->
            let others := agentArguments t.server otherRole otherNicTimestamps
            line = launchLine other others -> remote = other ∧ arguments = others) := by
  intro arguments line
  have hsplit {a : Arguments} {s : Settings} (hresolve : resolve a = .ok s) {remote : String}
      (hremote : IsWord blank remote) (role : Role) (nicTimestamps : Bool) :
      words blank (launchLine remote (agentArguments s.server role nicTimestamps)) =
          launchWords remote (agentArguments s.server role nicTimestamps) <->
        forall text, text ∈ a.repeatedTexts -> IsWord blank text := by
    rw [Launch.words_launchLine_iff hblank hremote (Launch.agentArguments_ne_nil _ _ _),
      Launch.isWord_agentArguments_iff hblank, server_of_resolve hresolve]
    rfl
  refine ⟨rfl, hsplit hresolve hremote role nicTimestamps, ?_⟩
  intro htexts b t other otherRole otherNicTimestamps hb hother hothers others hline
  have hwords := (hsplit hresolve hremote role nicTimestamps).mpr htexts
  have hsame := (hsplit hb hother otherRole otherNicTimestamps).mpr hothers
  apply Launch.launchWords_inj
  rw [← hwords, ← hsame]
  exact congrArg (words blank) hline

/-- One latency agent with two texts of its own, and standard values for everything else. -/
def latencyRun (interArrival appProtocol : String) : Arguments :=
  { Arguments.standard with latencyAgents := ["lt1"], interArrival, appProtocol }

theorem exists_resolve_latencyRun (interArrival appProtocol : String) :
    exists s, resolve (latencyRun interArrival appProtocol) = .ok s := by
  have hresolvable :
      Resolvable (latencyRun interArrival appProtocol) (.step 10000 100000 50000) := by
    constructor
    case someone => exact List.cons_ne_nil "lt1" []
    case distinct => exact List.nodup_singleton "lt1"
    case read =>
      show Pattern.read "step:10000:100000:50000" = _
      decide +kernel
    case agents => rfl
  rcases resolve_of_resolvable hresolvable with ⟨s, hs, -⟩
  exact ⟨s, hs⟩

/-- The shell and a reader of white space of any kind find the same words, and the line of a
throughput agent is another one. -/
theorem launch_line_split_latencyRun :
    exists s, resolve (latencyRun "exp" "echo") = .ok s ∧
      let line role := launchLine "/tmp/user/agent" (agentArguments s.server role false)
      let expected := ["ulimit", "-c", "unlimited", "&&", "sudo", "/tmp/user/agent", "-s",
        "127.0.0.1:8000", "-t", "8", "-c", "256", "-i", "exp", "-p", "TCP", "-r", "echo", "-a", "1"]
      words shellBlank (line .latency) = expected ∧ words Text.isBlank (line .latency) = expected ∧
        line .latency ≠ line .throughput := by
  rcases exists_resolve_latencyRun "exp" "echo" with ⟨s, hs⟩
  have hserver : s.server = (latencyRun "exp" "echo").server := server_of_resolve hs
  have hshellPath : IsWord shellBlank "/tmp/user/agent" := by decide +kernel
  have hblankPath : IsWord Text.isBlank "/tmp/user/agent" := by decide +kernel
  rcases launch_line_split hs Text.parting_shellBlank hshellPath .latency false with
    ⟨-, hshell, hsame⟩
  rcases launch_line_split hs Text.parting_isBlank hblankPath .latency false with ⟨-, hblank, -⟩
  refine ⟨s, hs, ?shell, ?blank, ?other⟩
  case shell =>
    rw [hshell.mpr (by decide +kernel), hserver]
    decide +kernel
  case blank =>
    rw [hblank.mpr (by decide +kernel), hserver]
    decide +kernel
  case other =>
    intro hline
    have hother := hsame (by decide +kernel) _ s "/tmp/user/agent" .throughput false hs hshellPath
      (by decide +kernel) hline
    rw [hserver] at hother
    exact absurd hother.right (by decide +kernel)

/-- A text with spaces is parted as if it were several arguments, so other texts can come to the
same line. -/
theorem launch_line_ambiguous :
    exists s t, resolve (latencyRun "exp" "get -p TCP -r set") = .ok s ∧
      resolve (latencyRun "exp -p TCP -r get" "set") = .ok t ∧
      let arguments := agentArguments s.server .latency false
      let others := agentArguments t.server .latency false
      arguments ≠ others ∧
        launchLine "/tmp/user/agent" arguments = launchLine "/tmp/user/agent" others ∧
        IsWord shellBlank "/tmp/user/agent" ∧
        words shellBlank (launchLine "/tmp/user/agent" arguments) ≠
          ["ulimit", "-c", "unlimited", "&&", "sudo", "/tmp/user/agent"] ++ arguments := by
  rcases exists_resolve_latencyRun "exp" "get -p TCP -r set" with ⟨s, hs⟩
  rcases exists_resolve_latencyRun "exp -p TCP -r get" "set" with ⟨t, ht⟩
  refine ⟨s, t, hs, ht, ?_⟩
  rw [server_of_resolve hs, server_of_resolve ht]
  exact ⟨by decide +kernel, by decide +kernel, by decide +kernel, by decide +kernel⟩

end Settings
end LoadFleet
