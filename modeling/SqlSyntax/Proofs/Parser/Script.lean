import SqlSyntax.Proofs.Parser.Text

/-!
# Parsing scripts

A script is statements, each with a semicolon behind it but perhaps the last, and
any more semicolons before each and at the end. It is parsed to these statements,
so nothing that was parsed before a statement has a part in how that is parsed.

## Main results

* `script_sound`, `script_reads` — the parser of scripts finds the readings.
* `parseScript_sound`, `parseScript_complete` — what texts are parsed to.
-/

namespace SqlSyntax

namespace Grammar

def Semicolons (ts : List Token) : Prop := ∀ t ∈ ts, t.kind = .punctuation .semicolon

theorem Semicolons.nil : Semicolons [] := nofun

/-- Statements and the semicolons around them. -/
inductive IsScript (P : Phrases) : List Token → List Statement → Prop where
  | done {us : List Token} (before : Semicolons us) : IsScript P us []
  | last {us ts : List Token} {s : Statement} (before : Semicolons us)
      (statement : IsStatement P ts s) : IsScript P (us ++ ts) [s]
  | statement {us ts vs : List Token} {s : Statement} {t : Token} {ss : List Statement}
      (before : Semicolons us) (statement : IsStatement P ts s)
      (closing : t.kind = .punctuation .semicolon) (others : IsScript P vs ss) :
      IsScript P (us ++ (ts ++ t :: vs)) (s :: ss)

/-- A statement starts with a keyword. -/
theorem IsStatement.starts {P : Phrases} (hP : P.Proper) {ts : List Token} {s : Statement}
    (h : IsStatement P ts s) : ∃ t us k, ts = t :: us ∧ t.kind = .keyword k := by
  cases h with
  | query body =>
    obtain ⟨t, us, rfl, kind⟩ := hP.select body
    exact ⟨t, us, _, rfl, kind⟩
  | insert body => cases body <;> exact ⟨_, _, _, rfl, ‹_›⟩
  | update body => cases body; exact ⟨_, _, _, rfl, ‹_›⟩
  | delete body => cases body; exact ⟨_, _, _, rfl, ‹_›⟩
  | createTable body => cases body; exact ⟨_, _, _, rfl, ‹_›⟩
  | createIndex body => cases body; exact ⟨_, _, _, rfl, ‹_›⟩
  | createDatabase body => cases body; exact ⟨_, _, _, rfl, ‹_›⟩
  | alterTable body => cases body; exact ⟨_, _, _, rfl, ‹_›⟩
  | drop body => cases body; exact ⟨_, _, _, rfl, ‹_›⟩

theorem IsScript.eq_nil {P : Phrases} (hP : P.Proper) {ss : List Statement}
    (h : IsScript P [] ss) : ss = [] := by
  generalize tokens : [] = ts at h
  cases h with
  | done => rfl
  | last _ statement =>
    obtain ⟨t, ts, -, rfl, -⟩ := statement.starts hP
    simp at tokens
  | statement => simp at tokens

end Grammar

namespace Parser

open Grammar

/-! ## Soundness -/

theorem skipSemicolons_sound : Sound skipSemicolons fun ts _ => Semicolons ts := by
  have all {a b : Unit} {ts : List Token} (chain : Chain (fun _ ts _ => Semicolons ts) a ts b) :
      Semicolons ts := by
    induction chain with
    | done => exact .nil
    | step head _ ih => exact List.forall_mem_append.2 ⟨head, ih⟩
  intro s u s' hend h
  suffices consumed : ∃ ts, Consumes s ts s' ∧ Chain (fun _ ts _ => Semicolons ts) () ts u by
    obtain ⟨ts, hc, chain⟩ := consumed
    exact ⟨ts, hc, all chain⟩
  refine iterate_sound (fun _ s o s' hend h => ?_) hend h
  obtain ⟨o, s₁, hs, h⟩ := bind_eq_ok.1 h
  rcases punctuation?_eq_ok hend hs with ⟨rfl, hc⟩ | ⟨t, kind, rfl, hc⟩
  · obtain ⟨rfl, rfl⟩ := pure_eq_ok.1 h
    exact .inl ⟨rfl, hc⟩
  · obtain ⟨rfl, rfl⟩ := pure_eq_ok.1 h
    exact .inr ⟨(), [t], rfl, hc, List.forall_mem_singleton.2 kind⟩

/-- Whether a state is at the end of the input, and no error is behind it. -/
def AtEnd (s : ParserState) : Prop := (ahead s).isEnd ∧ (s.tokens = [] → s.failure = none)

theorem Consumes.eq_nil {s s' : ParserState} {ts : List Token} (h : Consumes s ts s')
    (here : AtEnd s) : ts = [] := by
  cases ts with
  | nil => rfl
  | cons t ts =>
    have first := here.1
    rw [ahead, h.tokens] at first
    have inner := h.inner t (List.mem_cons_self ..)
    simp [inner] at first

theorem atEnd_of_peek {s s' : ParserState} {t : Token} (h : peek s = .ok t s') (ht : t.isEnd) :
    AtEnd s := by
  have looked := h
  obtain ⟨rfl, rfl⟩ := peek_eq_ok h
  refine ⟨ht, fun hnil => ?_⟩
  by_contra hfailure
  obtain ⟨e, he⟩ := Option.ne_none_iff_exists'.1 hfailure
  simp [peek, peekAt, hnil, he] at looked

theorem endOfInput_eq_ok {s s' : ParserState} {u : Unit} (h : endOfInput s = .ok u s') :
    s = s' ∧ AtEnd s := by
  obtain ⟨t, s₁, hp, h⟩ := bind_eq_ok.1 h
  obtain rfl := (peek_eq_ok hp).1
  cases isEnd : t.isEnd with
  | false =>
    rw [if_neg (by simp [isEnd])] at h
    obtain ⟨_, s₂, -, h⟩ := bind_eq_ok.1 h
    exact absurd h failAt_ne_ok
  | true =>
    rw [if_pos isEnd] at h
    exact ⟨(pure_eq_ok.1 h).2, atEnd_of_peek hp isEnd⟩

/-- One more statement of a script, put in front of those before it. -/
def scriptStep (max : Nat) (statements : List Statement) : Parser (Option (List Statement)) := do
  skipSemicolons
  if (← peek).isEnd then
    return none
  else
    let s ← statement max
    match ← punctuation? .semicolon with
    | some _ => pure ()
    | none => endOfInput
    return some (s :: statements)

theorem script_eq (max : Nat) :
    script max = do return (← iterate (scriptStep max) []).reverse := rfl

/-- What a step consumes: semicolons to the end of the input, or semicolons, a
statement and the semicolon or the end of the input behind it. -/
theorem scriptStep_sound {max : Nat} {acc : List Statement} {o : Option (List Statement)}
    {s s' : ParserState} (hend : s.finish.isEnd) (h : scriptStep max acc s = .ok o s') :
    (o = none ∧ AtEnd s' ∧ ∃ us, Consumes s us s' ∧ Semicolons us) ∨
      ∃ us ts vs x, o = some (x :: acc) ∧ Consumes s (us ++ (ts ++ vs)) s' ∧ Semicolons us ∧
        IsStatement (phrases True max) ts x ∧
        ((∃ t, vs = [t] ∧ t.kind = .punctuation .semicolon) ∨ vs = [] ∧ AtEnd s') := by
  obtain ⟨_, s₁, hskip, h⟩ := bind_eq_ok.1 h
  obtain ⟨us, hc₁, before⟩ := skipSemicolons_sound hend hskip
  obtain ⟨t, s₂, hp, h⟩ := bind_eq_ok.1 h
  obtain rfl := (peek_eq_ok hp).1
  cases isEnd : t.isEnd with
  | true =>
    rw [if_pos isEnd] at h
    obtain ⟨rfl, rfl⟩ := pure_eq_ok.1 h
    exact .inl ⟨rfl, atEnd_of_peek hp isEnd, us, hc₁, before⟩
  | false =>
    rw [if_neg (by simp [isEnd])] at h
    obtain ⟨x, s₃, hx, h⟩ := bind_eq_ok.1 h
    obtain ⟨ts, hc₂, statement⟩ := statement_sound max hc₁.isEnd hx
    obtain ⟨o, s₄, hsemicolon, h⟩ := bind_eq_ok.1 h
    rcases punctuation?_eq_ok hc₂.isEnd hsemicolon with ⟨rfl, hc₃⟩ | ⟨t, kind, rfl, hc₃⟩
    · obtain ⟨_, s₅, hlast, h⟩ := bind_eq_ok.1 h
      obtain ⟨rfl, rfl⟩ := pure_eq_ok.1 h
      obtain ⟨rfl, here⟩ := endOfInput_eq_ok hlast
      exact .inr ⟨us, ts, [], x, rfl, hc₁.trans (hc₂.trans hc₃), before, statement,
        .inr ⟨rfl, here⟩⟩
    · obtain ⟨rfl, rfl⟩ := pure_eq_ok.1 h
      exact .inr ⟨us, ts, [t], x, rfl, hc₁.trans (hc₂.trans hc₃), before, statement,
        .inl ⟨t, rfl, kind⟩⟩

/-- The loop of a script reads what is left to its end, if it may take a step for
each token. -/
theorem scriptSteps_sound {max : Nat} (budget : List Token) {acc ss : List Statement}
    {s s' : ParserState} (hend : s.finish.isEnd) (hbudget : s.tokens.length ≤ budget.length)
    (h : iterateWithin (scriptStep max) budget acc s = .ok ss s') :
    ∃ ts xs, ss = xs.reverse ++ acc ∧ Consumes s ts s' ∧ IsScript (phrases True max) ts xs ∧
      AtEnd s' := by
  have proper := phrases_proper True max
  induction budget generalizing acc s with
  | nil =>
    obtain ⟨o, s₁, hs, h⟩ := bind_eq_ok.1 h
    have none_left : s.tokens = [] := List.eq_nil_of_length_eq_zero (Nat.le_zero.1 hbudget)
    rcases scriptStep_sound hend hs with ⟨rfl, here, us, hc, before⟩ | ⟨us, ts, vs, x, -, hc, -,
      statement, -⟩
    · obtain ⟨rfl, rfl⟩ := pure_eq_ok.1 h
      exact ⟨us, [], rfl, hc, .done before, here⟩
    · obtain ⟨t, ts, -, rfl, -⟩ := statement.starts proper
      have tokens := hc.tokens
      simp [none_left] at tokens
  | cons u budget ih =>
    obtain ⟨o, s₁, hs, h⟩ := bind_eq_ok.1 h
    rcases scriptStep_sound hend hs with ⟨rfl, here, us, hc, before⟩ |
      ⟨us, ts, vs, x, rfl, hc, before, statement, closing⟩
    · obtain ⟨rfl, rfl⟩ := pure_eq_ok.1 h
      exact ⟨us, [], rfl, hc, .done before, here⟩
    · obtain ⟨t, ts, _, rfl, -⟩ := statement.starts proper
      have fewer : s₁.tokens.length ≤ budget.length := by
        have tokens := congrArg List.length hc.tokens
        simp only [List.length_append, List.length_cons] at tokens hbudget
        omega
      obtain ⟨ws, xs, rfl, hc', others, here⟩ := ih hc.isEnd fewer h
      have consumed := hc.trans hc'
      refine ⟨_, x :: xs, by simp, consumed, ?_, here⟩
      rcases closing with ⟨v, rfl, kind⟩ | ⟨rfl, ended⟩
      · have := IsScript.statement before statement kind others
        simpa using this
      · obtain rfl := hc'.eq_nil ended
        obtain rfl := others.eq_nil proper
        have := IsScript.last before statement
        simpa using this

theorem script_sound {max : Nat} {s s' : ParserState} {ss : List Statement}
    (hend : s.finish.isEnd) (h : script max s = .ok ss s') :
    ∃ ts, Consumes s ts s' ∧ IsScript (phrases True max) ts ss ∧ AtEnd s' := by
  rw [script_eq] at h
  obtain ⟨acc, s₁, hloop, h⟩ := bind_eq_ok.1 h
  obtain ⟨rfl, rfl⟩ := pure_eq_ok.1 h
  obtain ⟨ts, xs, rfl, hc, script, here⟩ :=
    scriptSteps_sound s.tokens hend (Nat.le_refl _) hloop
  exact ⟨ts, hc, by simpa using script, here⟩

/-! ## Completeness -/

theorem skipSemicolons_reads {us rest : List Token} (h : Semicolons us)
    (hrest : headKind rest ≠ .punctuation .semicolon) : Reads skipSemicolons us () rest := by
  have chain : Chain (fun _ ts _ => ∃ t, ts = [t] ∧ t.kind = .punctuation .semicolon) () us () := by
    induction us with
    | nil => exact .done ()
    | cons t us ih =>
      obtain ⟨kind, others⟩ := List.forall_mem_cons.1 h
      rw [← List.singleton_append]
      exact .step (b := ()) ⟨t, rfl, kind⟩ (ih others)
  refine iterate_reads
    (R := fun (_ : Unit) ts _ => ∃ t, ts = [t] ∧ t.kind = .punctuation .semicolon)
    (F := fun _ => True) trivial (fun _ ts _ us hr => ?_) (fun _ ts _ us hr _ => ?_)
    (fun _ => ?_) chain
  · obtain ⟨t, rfl, -⟩ := hr
    exact ⟨nofun, trivial⟩
  · obtain ⟨t, rfl, kind⟩ := hr
    exact .bindLast (punctuation?_reads kind) .pure
  · exact .bindNil (punctuation?_absent hrest) .pure

section

variable {comma : Prop} {max : Nat} {t : Token} (ht : t.isEnd)

include ht

theorem scriptSteps_done (budget : List Token) {us : List Token} (before : Semicolons us)
    (acc : List Statement) : Reads (iterateWithin (scriptStep max) budget acc) us acc [t] := by
  have kind := (Token.isEnd_iff t).1 ht
  have step : Reads (scriptStep max acc) us none [t] := by
    refine .bindLast (skipSemicolons_reads before (by simp [kind])) (.bindPeek fun u _ hu => ?_)
    obtain rfl := hu t rfl
    rw [if_pos ht]
    exact .pure
  cases budget with
  | nil => exact .bindLast step .pure
  | cons => exact .bindLast step .pure

/-- A step reads a statement, and the semicolon behind it if there is one. -/
theorem scriptStep_reads {us ts vs rest : List Token} {x : Statement} (before : Semicolons us)
    (statement : IsStatement (phrases comma max) ts x)
    (closing : (∃ v, vs = [v] ∧ v.kind = .punctuation .semicolon) ∨ vs = [] ∧ rest = [t])
    (acc : List Statement) :
    Reads (scriptStep max acc) (us ++ (ts ++ vs)) (some (x :: acc)) rest := by
  have kind := (Token.isEnd_iff t).1 ht
  obtain ⟨u, ts, k, rfl, first⟩ := statement.starts (phrases_proper comma max)
  have ends : endsQuery (headKind (vs ++ rest)) := by
    rcases closing with ⟨v, rfl, semicolon⟩ | ⟨rfl, rfl⟩
    · simp [semicolon, endsQuery]
    · simp [kind, endsQuery]
  refine .bind (skipSemicolons_reads before (by simp [first])) (.bindPeek fun w hw _ => ?_)
  have inner : w.isEnd = false := by
    rw [Token.isEnd, hw]
    simp [first]
  rw [if_neg (by simp [inner])]
  refine .bind (.after (statement_reads statement ends)) ?_
  rcases closing with ⟨v, rfl, semicolon⟩ | ⟨rfl, rfl⟩
  · exact .bindLast (punctuation?_reads semicolon) .pure
  · refine .bindNil (punctuation?_absent (by simp [kind])) (.bindNil (a := ()) ?_ .pure)
    refine .bindPeek fun w _ hw => ?_
    obtain rfl := hw t rfl
    rw [if_pos ht]
    exact .pure

/-- The loop of a script reads a script to the end of the input. -/
theorem scriptSteps_reads {ts : List Token} {ss : List Statement}
    (h : IsScript (phrases comma max) ts ss) (budget : List Token)
    (hbudget : ts.length ≤ budget.length) (acc : List Statement) :
    Reads (iterateWithin (scriptStep max) budget acc) ts (ss.reverse ++ acc) [t] := by
  induction h generalizing budget acc with
  | done before => exact scriptSteps_done ht budget before acc
  | @last us ts x before statement =>
    cases budget with
    | nil =>
      obtain ⟨_, _, _, rfl, -⟩ := statement.starts (phrases_proper comma max)
      simp at hbudget
    | cons u budget =>
      have step : Reads (scriptStep max acc) (us ++ (ts ++ [])) (some (x :: acc)) [t] :=
        scriptStep_reads ht before statement (.inr ⟨rfl, rfl⟩) acc
      rw [List.append_nil] at step
      exact .bindLast step (.after (scriptSteps_done ht budget .nil _))
  | @statement us ts vs x v ss before statement closing _ ih =>
    cases budget with
    | nil => simp at hbudget
    | cons u budget =>
      have step : Reads (scriptStep max acc) (us ++ (ts ++ [v])) (some (x :: acc)) (vs ++ [t]) :=
        scriptStep_reads ht before statement (.inl ⟨v, rfl, closing⟩) acc
      have fewer : vs.length ≤ budget.length := by
        simp only [List.length_append, List.length_cons] at hbudget
        omega
      have loop : Reads (iterateWithin (scriptStep max) (u :: budget) acc)
          (us ++ (ts ++ [v]) ++ vs) (ss.reverse ++ x :: acc) [t] :=
        .bind step (.after (ih budget fewer (x :: acc)))
      have tokens : us ++ (ts ++ [v]) ++ vs = us ++ (ts ++ v :: vs) := by simp
      rw [tokens] at loop
      rw [List.reverse_cons, List.append_assoc]
      exact loop

theorem script_reads {ts : List Token} {ss : List Statement}
    (h : IsScript (phrases comma max) ts ss) : Reads (script max) ts ss [t] := by
  rw [script_eq]
  have loop : Reads (iterate (scriptStep max) []) ts (ss.reverse ++ []) [t] := by
    intro s htokens hfailure hend hlast
    refine scriptSteps_reads ht h s.tokens ?_ [] htokens hfailure hend hlast
    rw [htokens, List.length_append]
    omega
  refine .bindLast loop ?_
  rw [List.append_nil, List.reverse_reverse]
  exact .pure

end

end Parser

/-! ## Texts -/

open Grammar in
theorem parseScript_sound {limits : Limits} {sql : String} {ss : List Statement}
    (h : parseScript limits sql = .ok ss) :
    ∃ ts t, TokenStream.ofString sql = ⟨ts ++ [t], none⟩ ∧
      IsScript (phrases True limits.maxDepth) ts ss := by
  obtain ⟨-, s', hs'⟩ := Limits.parse_eq_ok_iff.1 h
  obtain ⟨ts, hc, script, here, hnone⟩ := Parser.script_sound (Token.isEnd_endOf _) hs'
  obtain ⟨t, stream⟩ := hc.stream_eq here hnone
  exact ⟨ts, t, stream, script⟩

open Grammar in
theorem parseScript_complete {comma : Prop} {limits : Limits} {sql : String} {ts : List Token}
    {ss : List Statement} {t : Token} (hsize : sql.utf8ByteSize ≤ limits.maxInputBytes)
    (stream : TokenStream.ofString sql = ⟨ts ++ [t], none⟩) (ht : t.isEnd)
    (script : IsScript (phrases comma limits.maxDepth) ts ss) :
    parseScript limits sql = .ok ss := by
  have tokens : (ParserState.ofStream (.ofString sql)).tokens = ts ++ [t] := by
    rw [stream]
    rfl
  have failure : (ParserState.ofStream (.ofString sql)).failure = none := by
    rw [stream]
    rfl
  obtain ⟨s', hs', -⟩ := Parser.script_reads ht script tokens failure (Token.isEnd_endOf _) nofun
  exact Limits.parse_eq_ok_iff.2 ⟨hsize, s', hs'⟩

end SqlSyntax
