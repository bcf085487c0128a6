import Mathlib.Logic.Function.Iterate
import SqlSyntax.CommandLine.Outcome
import SqlSyntax.Proofs.Text.Lowering

/-!
# Transcripts

A session answers a statement as a run of the program on this statement alone does, except
that it shows warnings in a table and an error as a line of text. The settings of that run are
those at the start of the session, with each of the three switches flipped once for every
earlier line that is the command for it.

So of the lines before a statement only these commands matter: neither statements, whether they
are accepted or not, nor blank lines, nor words that are no command. Of the lines behind the
first one that ends the session nothing is read.

## Main results

* `settingsAfter_cons` — what one line does to the settings.
* `replies_answer` — what one line is answered with.
* `exists_replies` — what all lines are answered with.
* `session_answersAsRuns` — a session and runs on single statements.
-/

namespace SqlSyntax.Session

/-! ## Lines that end a session -/

/-- Whether a line is one of the words that end a session, in any letter case and with white
space around it or not. -/
def IsExit (text : String) : Prop :=
  (Unicode.trim text.toList).map Char.toLower = ".exit".toList ∨
    (Unicode.trim text.toList).map Char.toLower = ".quit".toList

instance : DecidablePred IsExit := fun _ => inferInstanceAs (Decidable (_ ∨ _))

theorem eq_dot_of_toLower {c : Char} (h : c.toLower = '.') : c = '.' := by
  unfold Char.toLower at h
  split at h
  · rename_i letter
    have lower : 65 ≤ c.val.toNat := letter.1
    have upper : c.val.toNat ≤ 90 := letter.2
    have moved : (c.val + 32).toNat = 46 := congrArg Char.toNat h
    rw [UInt32.toNat_add, show (32 : UInt32).toNat = 32 from rfl] at moved
    omega
  · exact h

theorem ofText?_eq_exit (text : String) : Command.ofText? text = some .exit ↔
    Unicode.lowerCase text = ".exit" ∨ Unicode.lowerCase text = ".quit" := by
  unfold Command.ofText?
  split <;> simp_all

theorem ofText?_eq_exit_iff (cs : List Char) :
    Command.ofText? (String.ofList cs) = some .exit ↔
      cs.map Char.toLower = ".exit".toList ∨ cs.map Char.toLower = ".quit".toList := by
  have exit : ∀ c ∈ ".exit".toList, Unicode.IsPlain c := by simp [Unicode.IsPlain]
  have quit : ∀ c ∈ ".quit".toList, Unicode.IsPlain c := by simp [Unicode.IsPlain]
  rw [ofText?_eq_exit, Unicode.lowerCase_eq_iff _ exit, Unicode.lowerCase_eq_iff _ quit,
    String.toList_ofList]

theorem ofLine_eq_exit_iff (text : String) : Entry.ofLine text = .command .exit ↔ IsExit text := by
  unfold Entry.ofLine IsExit
  split
  · rename_i blank
    rw [blank]
    simp
  · rename_i cs command
    rw [command, ← ofText?_eq_exit_iff]
    dsimp only
    cases Command.ofText? (String.ofList ('.' :: cs)) <;> simp
  · rename_i statement
    -- A word in lower case starts with a dot only if the word itself does.
    refine iff_of_false nofun ?_
    rintro (exit | quit)
    · obtain ⟨c, cs, shape, dot, -⟩ := List.map_eq_cons_iff.1 exit
      exact statement cs (by rw [shape, eq_dot_of_toLower dot])
    · obtain ⟨c, cs, shape, dot, -⟩ := List.map_eq_cons_iff.1 quit
      exact statement cs (by rw [shape, eq_dot_of_toLower dot])

example : Entry.ofLine " .QuiT\t" = .command .exit := by decide +kernel

/-- A line is a statement if there is more in it than white space and it starts with no dot. -/
theorem ofLine_eq_statement_iff (text sql : String) : Entry.ofLine text = .statement sql ↔
    sql.toList = Unicode.trim text.toList ∧ sql.toList ≠ [] ∧ sql.toList.head? ≠ some '.' := by
  have same (cs : List Char) : String.ofList cs = sql ↔ sql.toList = cs := by
    rw [← String.toList_inj, String.toList_ofList, eq_comm]
  unfold Entry.ofLine
  split
  · rename_i blank
    rw [blank]
    refine iff_of_false nofun ?_
    rintro ⟨empty, nonempty, -⟩
    exact nonempty empty
  · rename_i cs command
    rw [command]
    refine iff_of_false ?_ ?_
    · dsimp only
      split <;> nofun
    · rintro ⟨shape, -, undotted⟩
      exact undotted (by rw [shape]; rfl)
  · rename_i nonempty undotted
    rw [Entry.statement.injEq, same]
    constructor
    · intro shape
      refine ⟨shape, ?_, ?_⟩
      · rw [shape]
        exact nonempty
      · rw [shape]
        intro dotted
        obtain ⟨cs, command⟩ := List.head?_eq_some_iff.1 dotted
        exact undotted cs command
    · exact And.left

/-- The lines before the first one that ends the session. -/
def untilExit (lines : List String) : List String := lines.takeWhile fun text => ¬ IsExit text

/-! ## Settings -/

/-- A switch that is flipped once for each of the lines that is the given command. -/
def flipped (c : Command) (lines : List String) (on : Bool) : Bool :=
  not^[lines.countP fun text => Entry.ofLine text = .command c] on

/-- The settings behind some lines. -/
def settingsAfter (s : Settings) (lines : List String) : Settings :=
  { s with
    tokens := flipped .toggleTokens lines s.tokens
    canonical := flipped .toggleCanonical lines s.canonical
    analysis.spans := flipped .toggleSpans lines s.analysis.spans }

theorem flipped_cons_self {c : Command} {text : String} (h : Entry.ofLine text = .command c)
    (lines : List String) (on : Bool) : flipped c (text :: lines) on = flipped c lines !on := by
  unfold flipped
  rw [List.countP_cons_of_pos (by simpa using h)]
  rfl

theorem flipped_cons_of_ne {c : Command} {text : String} (h : Entry.ofLine text ≠ .command c)
    (lines : List String) (on : Bool) : flipped c (text :: lines) on = flipped c lines on := by
  unfold flipped
  rw [List.countP_cons_of_neg (by simpa using h)]

/-- The first line has its effect, and then the others have theirs. -/
theorem settingsAfter_cons {s t : Settings} {text : String}
    (next : (Entry.ofLine text).next? s = some t) (lines : List String) :
    settingsAfter s (text :: lines) = settingsAfter t lines := by
  unfold settingsAfter
  cases entry : Entry.ofLine text with
  | command c =>
    rw [entry] at next
    cases c with
    | exit => cases next
    | help | toggleTokens | toggleCanonical | toggleSpans =>
      obtain rfl := Option.some.inj next
      simp [flipped_cons_self, flipped_cons_of_ne, entry, Command.apply]
  | blank | unknown | statement =>
    rw [entry] at next
    obtain rfl := Option.some.inj next
    simp [flipped_cons_of_ne, entry]

/-- The lines that are commands for a switch. -/
def IsToggle (text : String) : Prop :=
  ∃ c ∈ [Command.toggleTokens, .toggleCanonical, .toggleSpans], Entry.ofLine text = .command c

instance : DecidablePred IsToggle := fun _ => inferInstanceAs (Decidable (∃ _ ∈ _, _))

theorem flipped_filter {c : Command} (h : c ∈ [.toggleTokens, .toggleCanonical, .toggleSpans])
    (lines : List String) (on : Bool) :
    flipped c (lines.filter fun text => IsToggle text) on = flipped c lines on := by
  unfold flipped
  rw [List.countP_filter]
  congr 2
  funext text
  by_cases entry : Entry.ofLine text = .command c
  · have toggle : IsToggle text := ⟨c, h, entry⟩
    simp [entry, toggle]
  · simp [entry]

/-- No other lines have an effect on the settings. -/
theorem settingsAfter_filter (s : Settings) (lines : List String) :
    settingsAfter s (lines.filter fun text => IsToggle text) = settingsAfter s lines := by
  unfold settingsAfter
  rw [flipped_filter (by simp), flipped_filter (by simp), flipped_filter (by simp)]

/-! ## Replies -/

/-- A run of the program on a single statement. -/
def singleRun (t : Settings) (sql : String) : Outcome :=
  Invocation.outcome { settings := t, statement := some sql } none ""

/-- Warnings as they are shown in a session. -/
def warningLines (warnings : List Warning) : String :=
  if warnings.isEmpty then "" else line (warningTable warnings)

/-- What an entry is answered with under the settings at that time. -/
inductive Replies (t : Settings) : Entry → String → Prop
  | blank : Replies t .blank ""
  | unknown (text : String) :
    Replies t (.unknown text) (line ("Error! Command not recognised: " ++ text))
  | command (c : Command) : Replies t (.command c) (c.answer (c.apply t))
  /-- The run on this statement alone prints `out`. -/
  | accepted {sql out : String} {a : Analysis} (run : singleRun t sql = ⟨0, out⟩)
    (analysis : analyze t.analysis sql = .ok a) :
    Replies t (.statement sql) (out ++ warningLines a.warnings)
  /-- The run on this statement alone prints the document of the same error. -/
  | rejected {sql : String} {e : Error}
    (run : singleRun t sql = ⟨1, t.tokenReport sql ++ t.errorReport e⟩)
    (analysis : analyze t.analysis sql = .error e) :
    Replies t (.statement sql) (t.tokenReport sql ++ line (e.kind ++ ": " ++ e.message))

theorem singleRun_of_ok {t : Settings} {sql : String} {a : Analysis}
    (h : analyze t.analysis sql = .ok a) :
    singleRun t sql = ⟨0, t.tokenReport sql ++ t.analysisReport a⟩ := by
  show (Report.ofStatement t sql).outcome = _
  rw [Report.ofStatement, h]
  rfl

theorem singleRun_of_error {t : Settings} {sql : String} {e : Error}
    (h : analyze t.analysis sql = .error e) :
    singleRun t sql = ⟨1, t.tokenReport sql ++ t.errorReport e⟩ := by
  show (Report.ofStatement t sql).outcome = _
  rw [Report.ofStatement, h]
  rfl

theorem replies_answer (t : Settings) (e : Entry) : Replies t e (e.answer t) := by
  cases e with
  | blank => exact .blank
  | unknown text => exact .unknown text
  | command c => exact .command c
  | statement sql =>
    show Replies t _ (statementReport t sql)
    unfold statementReport
    cases analysis : analyze t.analysis sql with
    | ok a =>
      dsimp only
      rw [← String.append_assoc]
      exact .accepted (singleRun_of_ok analysis) analysis
    | error e => exact .rejected (singleRun_of_error analysis) analysis

/-! ## Sessions -/

/-- Whether `replies` are those to some lines, of which none ends the session. -/
structure AreReplies (s : Settings) (lines replies : List String) : Prop where
  length : replies.length = lines.length
  each : ∀ ⦃i text reply⦄, lines[i]? = some text → replies[i]? = some reply →
    Replies (settingsAfter s (lines.take i)) (Entry.ofLine text) reply

theorem AreReplies.nil (s : Settings) : AreReplies s [] [] := ⟨rfl, nofun⟩

theorem AreReplies.cons {s t : Settings} {text : String} {lines replies : List String}
    (next : (Entry.ofLine text).next? s = some t) (rest : AreReplies t lines replies) :
    AreReplies s (text :: lines) ((Entry.ofLine text).answer s :: replies) where
  length := congrArg (· + 1) rest.length
  each i u reply hu hreply := by
    cases i with
    | zero =>
      obtain rfl : text = u := Option.some.inj hu
      obtain rfl : (Entry.ofLine text).answer s = reply := Option.some.inj hreply
      exact replies_answer s _
    | succ i =>
      rw [List.take_succ_cons, settingsAfter_cons next]
      exact rest.each hu hreply

/-- A session is its replies, each behind a prompt, and the farewell behind one more. -/
theorem exists_replies (s : Settings) (lines : List String) :
    ∃ replies, AreReplies s (untilExit lines) replies ∧
      String.join (answers s lines) =
        String.join (replies.map (prompt ++ ·)) ++ (prompt ++ farewell) := by
  induction lines generalizing s with
  | nil => exact ⟨[], .nil s, by simp [answers]⟩
  | cons text lines ih =>
    rw [answers_cons, untilExit]
    by_cases exit : IsExit text
    · rw [(ofLine_eq_exit_iff text).2 exit, List.takeWhile_cons_of_neg (by simpa using exit)]
      exact ⟨[], .nil s, by simp [Entry.next?, Entry.answer, Command.answer]⟩
    · rw [List.takeWhile_cons_of_pos (by simpa using exit)]
      cases next : (Entry.ofLine text).next? s with
      | none =>
        refine absurd ((ofLine_eq_exit_iff text).1 ?_) exit
        cases entry : Entry.ofLine text with
        | command c => cases c <;> simp_all [Entry.next?]
        | blank | unknown | statement => simp [entry, Entry.next?] at next
      | some t =>
        obtain ⟨replies, areReplies, joined⟩ := ih t
        refine ⟨_, .cons next areReplies, ?_⟩
        simp [joined, String.append_assoc]

/-- A session that a line ends prints what one prints whose input ends there. -/
theorem answers_of_exit (s : Settings) (earlier later : List String) {text : String}
    (exit : IsExit text) : answers s (earlier ++ text :: later) = answers s earlier := by
  induction earlier generalizing s with
  | nil =>
    rw [List.nil_append, answers_cons, (ofLine_eq_exit_iff text).2 exit]
    rfl
  | cons first earlier ih =>
    rw [List.cons_append, answers_cons, answers_cons]
    cases (Entry.ofLine first).next? s with
    | none => rfl
    | some t => exact congrArg (prompt :: (Entry.ofLine first).answer s :: ·) (ih t)

/-- How sessions from given settings on relate to runs on single statements. -/
structure AnswersAsRuns (s : Settings) : Prop where
  /-- A run without a file and a statement is a session on the lines of its input. -/
  session : ∀ script? input,
    Invocation.outcome { settings := s } script? input = ⟨0, transcript s (linesOf input)⟩
  /-- Its statements are the lines without the white space around them, where there is more in
  a line than that, and no dot in front. -/
  statements : ∀ text sql, Entry.ofLine text = .statement sql ↔
    sql.toList = Unicode.trim text.toList ∧ sql.toList ≠ [] ∧ sql.toList.head? ≠ some '.'
  /-- It prints replies to the lines up to the first that ends it, and no more than these: each
  under the settings that the commands before it lead to. -/
  replies : ∀ lines, ∃ replies, AreReplies s (untilExit lines) replies ∧
    transcript s lines =
      greeting ++ String.join (replies.map (prompt ++ ·)) ++ (prompt ++ farewell)
  /-- Of the lines before a line those that are no such commands make no difference. -/
  uninfluenced : ∀ earlier,
    settingsAfter s (earlier.filter fun text => IsToggle text) = settingsAfter s earlier
  /-- A line that ends the session does so as the end of the input does, whatever follows. -/
  ended : ∀ earlier text later, IsExit text →
    transcript s (earlier ++ text :: later) = transcript s earlier

/-- A session answers each line as a run on this line alone would. -/
theorem session_answersAsRuns (s : Settings) : AnswersAsRuns s where
  session _ _ := rfl
  statements := ofLine_eq_statement_iff
  replies lines := by
    obtain ⟨replies, areReplies, joined⟩ := exists_replies s lines
    refine ⟨replies, areReplies, ?_⟩
    rw [transcript, joined, String.append_assoc]
  uninfluenced := settingsAfter_filter s
  ended earlier text later exit := by
    rw [transcript, transcript, answers_of_exit s earlier later exit]

end SqlSyntax.Session
