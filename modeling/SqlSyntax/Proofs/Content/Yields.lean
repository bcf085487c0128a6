import Mathlib.Data.List.Perm.Basic
import SqlSyntax.Proofs.Content.Tree
import SqlSyntax.Proofs.Grammar.Basic
import SqlSyntax.Proofs.Parser.Name

/-!
# Scanning phrase by phrase

A phrase *yields* some content when scanning over it, from every mode of one
set, says just that and leads to a mode of another set, whatever comes behind
it. What comes behind matters only to a phrase that ends in a data type, since
more tokens could belong to the type.

The content that a phrase yields is in the order of its tree. The tokens may say
it in another order, if the scan takes notice of that.

## Main results

* `Yields.append`, `Many.yields`, `Separated.yields`, `Parenthesized.yields` —
  what is made of phrases yields what they yield.
* `yields_keyword`, `yields_identifier`, `yields_dataType` — what tokens yield.
-/

namespace SqlSyntax

namespace Content

/-! ## Scanning over one token -/

section

variable {m : Mode} {t : Token}

theorem scan_cons (rest : List Token) (skip : m.skip = 0) (expects : m.expects ≠ .type) :
    scan m (t :: rest) =
      (m.items t ++ (scan (m.next t) rest).1, (scan (m.next t) rest).2) := by
  simp [scan, skip, Mode.dataType?, expects]

/-- Once something was met in another order, this is not forgotten. -/
theorem scan_reordered (ts : List Token) (h : m.reordered) : (scan m ts).2.reordered := by
  induction ts generalizing m with
  | nil => exact h
  | cons t ts ih =>
    have next : (m.next t).reordered := by
      unfold Mode.next
      split <;> (try split) <;> simp [h]
    unfold scan
    split
    · exact ih h
    · exact ih h
    · exact ih next

/-- The tokens of a data type are passed over. -/
theorem scan_skip (ts : List Token) : ∃ k, ∀ rest,
    scan { m with skip := ts.length } (ts ++ rest) =
      scan { m with before := k, skip := 0 } rest := by
  induction ts generalizing m with
  | nil => exact ⟨m.before, fun _ => rfl⟩
  | cons t ts ih =>
    obtain ⟨k, hk⟩ := ih (m := { m with before := t.kind })
    refine ⟨k, fun rest => ?_⟩
    rw [← hk rest]
    rfl

end

/-! ## What phrases yield -/

/-- Whether the items of a scan are `c`, in another order if something was met
in another order. -/
structure Agrees (r : List Item × Mode) (c : List Item) : Prop where
  perm : r.1.Perm c
  eq : r.2.reordered = false → r.1 = c

/-- Scanning over `ts` from a mode of `A` says `c` and leads to a mode of `B`, if
what comes behind is in `F`. -/
def YieldsBefore (F : List Token → Prop) (A B : Mode → Prop) (ts : List Token) (c : List Item) :
    Prop :=
  ∀ m, A m → ∃ m', B m' ∧ ∀ rest, F rest → (scan m (ts ++ rest)).2 = (scan m' rest).2 ∧
    ∀ d, Agrees (scan m' rest) d → Agrees (scan m (ts ++ rest)) (c ++ d)

/-- Scanning over `ts` from a mode of `A` says `c` and leads to a mode of `B`. -/
abbrev Yields : (A B : Mode → Prop) → List Token → List Item → Prop :=
  YieldsBefore fun _ => True

section

variable {F G : List Token → Prop} {A B C : Mode → Prop} {ts us : List Token} {c d : List Item}

theorem YieldsBefore.mono {A' B' : Mode → Prop} (h : YieldsBefore F A B ts c)
    (hA : ∀ m, A' m → A m) (hB : ∀ m, B m → B' m) : YieldsBefore F A' B' ts c := by
  intro m hm
  obtain ⟨m', hm', scans⟩ := h m (hA m hm)
  exact ⟨m', hB m' hm', scans⟩

theorem YieldsBefore.before (h : YieldsBefore F A B ts c) (hF : ∀ rest, G rest → F rest) :
    YieldsBefore G A B ts c := by
  intro m hm
  obtain ⟨m', hm', scans⟩ := h m hm
  exact ⟨m', hm', fun rest hrest => scans rest (hF rest hrest)⟩

theorem YieldsBefore.congr (h : YieldsBefore F A B ts c) (e : c = d) : YieldsBefore F A B ts d :=
  e ▸ h

/-- Content may come in any order where the scan has taken notice. -/
theorem YieldsBefore.perm (h : YieldsBefore F A B ts c) (p : c.Perm d)
    (hB : ∀ m, B m → m.reordered) : YieldsBefore F A B ts d := by
  intro m hm
  obtain ⟨m', hm', scans⟩ := h m hm
  refine ⟨m', hm', fun rest hrest => ?_⟩
  obtain ⟨mode, agrees⟩ := scans rest hrest
  refine ⟨mode, fun e he => ⟨(agrees e he).perm.trans (p.append_right e), fun hr => ?_⟩⟩
  rw [mode, scan_reordered rest (hB m' hm')] at hr
  exact nomatch hr

theorem yields_nil (h : ∀ m, A m → B m) : YieldsBefore F A B [] [] :=
  fun m hm => ⟨m, h m hm, fun _ _ => ⟨rfl, fun _ he => he⟩⟩

theorem YieldsBefore.append (h : YieldsBefore F A B ts c) (h' : YieldsBefore G B C us d)
    (hF : ∀ rest, G rest → F (us ++ rest)) : YieldsBefore G A C (ts ++ us) (c ++ d) := by
  intro m hm
  obtain ⟨m', hm', first⟩ := h m hm
  obtain ⟨m'', hm'', second⟩ := h' m' hm'
  refine ⟨m'', hm'', fun rest hrest => ?_⟩
  obtain ⟨mode, agrees⟩ := first (us ++ rest) (hF rest hrest)
  obtain ⟨mode', agrees'⟩ := second rest hrest
  rw [List.append_assoc]
  refine ⟨mode.trans mode', fun e he => ?_⟩
  rw [List.append_assoc]
  exact agrees _ (agrees' e he)

theorem Yields.append (h : Yields A B ts c) (h' : YieldsBefore G B C us d) :
    YieldsBefore G A C (ts ++ us) (c ++ d) :=
  YieldsBefore.append h h' fun _ _ => trivial

theorem yields_token {t : Token}
    (h : ∀ m, A m → m.skip = 0 ∧ m.expects ≠ .type ∧ m.items t = c ∧ B (m.next t)) :
    Yields A B [t] c := by
  intro m hm
  obtain ⟨skip, expects, items, next⟩ := h m hm
  refine ⟨_, next, fun rest _ => ?_⟩
  rw [List.cons_append, List.nil_append, scan_cons rest skip expects, items]
  exact ⟨rfl, fun e he => ⟨he.perm.append_left c, fun hr => congrArg (c ++ ·) (he.eq hr)⟩⟩

end

/-! ## Sets of modes -/

/-- The modes in a frame where `x` is expected, with `K` of the token before and
`R` of what was met in another order. -/
structure At (R : Bool → Prop) (f : Frame) (o : List Frame) (x : Expects)
    (K : TokenKind → Prop) (m : Mode) : Prop where
  frame : m.frame = f
  outer : m.outer = o
  expects : m.expects = x
  skip : m.skip = 0
  before : K m.before
  reordered : R m.reordered

/-- The modes in a frame where nothing is expected. -/
abbrev Calm (R : Bool → Prop) (f : Frame) (o : List Frame) (K : TokenKind → Prop) : Mode → Prop :=
  At R f o .nothing K

/-- The modes in any frame inside the same parentheses where nothing is
expected. -/
structure Ends (R : Bool → Prop) (o : List Frame) (m : Mode) : Prop where
  outer : m.outer = o
  expects : m.expects = .nothing
  skip : m.skip = 0
  reordered : R m.reordered

/-- Nothing is known of the token before. -/
abbrev Anything : TokenKind → Prop := fun _ => True

/-- Whether an operand can follow a token of a kind. -/
def Opens (k : TokenKind) : Prop := k ≠ .keyword .CAST ∧ endsOperand k = false

/-- Whether a name can follow a token of a kind in a frame: in an `ORDER BY`, a
name behind an operand is none. -/
def Names (f : Frame) (k : TokenKind) : Prop := f = .ordered → endsOperand k = false

/-- Whether a kind is that of identifiers. -/
def Named (k : TokenKind) : Prop := ∃ style, k = .identifier style

section

variable {R S : Bool → Prop} {f : Frame} {o : List Frame} {x : Expects}
  {K L : TokenKind → Prop} {m : Mode}

theorem At.imp (h : At R f o x K m) (hK : ∀ k, K k → L k) : At R f o x L m :=
  { h with before := hK _ h.before }

theorem At.ends (h : Calm R f o K m) : Ends R o m := ⟨h.outer, h.expects, h.skip, h.reordered⟩

theorem Opens.names {k : TokenKind} (h : Opens k) : Names f k := fun _ => h.2

theorem Named.endsOperand {k : TokenKind} (h : Named k) : endsOperand k := by
  obtain ⟨style, rfl⟩ := h
  rfl

theorem Named.ne_cast {k : TokenKind} (h : Named k) : k ≠ .keyword .CAST := by
  obtain ⟨style, rfl⟩ := h
  exact nofun

end

section

variable {F G : List Token → Prop} {A B C : Mode → Prop} {R : Bool → Prop} {f : Frame}
  {o : List Frame} {x : Expects} {K L : TokenKind → Prop} {t : Token} {ts us : List Token}
  {c d : List Item} {k : Keyword}

theorem YieldsBefore.forget (h : YieldsBefore F A (At R f o x K) ts c) :
    YieldsBefore F A (At R f o x Anything) ts c :=
  h.mono (fun _ => id) fun _ hm => hm.imp fun _ _ => trivial

/-! ## Keywords -/

/-- Keywords that are always content and whose only effect is to be the token
before. -/
def isPlain : Keyword → Bool
  | .AS | .ASC | .INNER | .OUTER | .COLUMN | .OFFSET | .ALL | .ORDER | .LIMIT | .TABLE | .ADD =>
    false
  | _ => true

/-- Keywords that are never content and whose only effect is to be the token
before. -/
def isSilent : Keyword → Bool
  | .ASC | .INNER | .OUTER | .OFFSET => true
  | _ => false

/-- A token that changes nothing but the token before. -/
def Mode.pass (m : Mode) (t : Token) : Mode := { m with before := t.kind, expects := .nothing }

theorem At.pass {m : Mode} (h : At R f o x K m) (hK : L t.kind) : Calm R f o L (m.pass t) :=
  ⟨h.frame, h.outer, rfl, h.skip, hK, h.reordered⟩

/-- A token that says `c` and changes nothing but the token before. -/
theorem yields_pass (hx : x ≠ .type)
    (h : ∀ m, At R f o x K m → m.items t = c ∧ m.next t = m.pass t) (hK : L t.kind) :
    Yields (At R f o x K) (Calm R f o L) [t] c :=
  yields_token fun m hm =>
    ⟨hm.skip, hm.expects ▸ hx, (h m hm).1, (h m hm).2 ▸ hm.pass hK⟩

theorem yields_keyword (kind : t.kind = .keyword k) (plain : isPlain k) (hx : x ≠ .type)
    (hK : L (.keyword k)) : Yields (At R f o x K) (Calm R f o L) [t] [.keyword k] := by
  refine yields_pass hx (fun m _ => ⟨?_, ?_⟩) (kind ▸ hK)
  · have : isNoise m.before k = false := by cases k <;> first | rfl | cases plain
    simp [Mode.items, kind, this]
  · simp only [Mode.next, Mode.pass, kind]
    cases k <;> first | rfl | cases plain

theorem yields_silent (kind : t.kind = .keyword k) (silent : isSilent k)
    (hK : L (.keyword k)) : Yields (Calm R f o K) (Calm R f o L) [t] [] := by
  refine yields_pass nofun (fun m _ => ⟨?_, ?_⟩) (kind ▸ hK)
  · have : isNoise m.before k := by cases k <;> first | rfl | cases silent
    simp [Mode.items, kind, this]
  · simp only [Mode.next, Mode.pass, kind]
    cases k <;> first | rfl | cases silent

/-- What follows a plain keyword. -/
theorem YieldsBefore.keyword (kind : t.kind = .keyword k) (plain : isPlain k)
    (h : YieldsBefore G (Calm R f o L) C ts c) (hK : L (.keyword k)) :
    YieldsBefore G (Calm R f o K) C (t :: ts) (.keyword k :: c) :=
  Yields.append (yields_keyword (x := .nothing) kind plain nofun hK) h

/-- `ALL` is content but directly after `SELECT`. -/
theorem yields_all (kind : t.kind = .keyword .ALL) (hK : ∀ k, K k → k ≠ .keyword .SELECT)
    (hL : L (.keyword .ALL)) : Yields (Calm R f o K) (Calm R f o L) [t] [.keyword .ALL] :=
  yields_pass nofun (fun m hm => by
    have : (m.before == .keyword .SELECT) = false := beq_eq_false_iff_ne.2 (hK _ hm.before)
    simp [Mode.items, Mode.next, Mode.pass, isNoise, kind, this]) (kind ▸ hL)

theorem yields_noiseAll (kind : t.kind = .keyword .ALL) (hL : L (.keyword .ALL)) :
    Yields (Calm R f o (· = .keyword .SELECT)) (Calm R f o L) [t] [] :=
  yields_pass nofun (fun m hm => by
    simp [Mode.items, Mode.next, Mode.pass, isNoise, kind, hm.before]) (kind ▸ hL)

/-- `AS` outside the parentheses of a `CAST`. -/
theorem yields_as (kind : t.kind = .keyword .AS) (hf : f ≠ .cast) (hL : L (.keyword .AS)) :
    Yields (Calm R f o K) (Calm R f o L) [t] [] :=
  yields_pass nofun (fun m hm => by
    simp [Mode.items, Mode.next, Mode.pass, isNoise, kind, hm.frame, hf]) (kind ▸ hL)

/-- `AS` in a `CAST`. -/
theorem yields_asType (kind : t.kind = .keyword .AS) :
    Yields (Calm R .cast o K) (At R .cast o .type Anything) [t] [] :=
  yields_token fun m hm => ⟨hm.skip, by simp [hm.expects], by simp [Mode.items, isNoise, kind],
    by simpa [Mode.next, kind, hm.frame] using
      ⟨rfl, hm.outer, rfl, hm.skip, trivial, hm.reordered⟩⟩

/-- `COLUMN` leaves open what is expected. -/
theorem yields_column (kind : t.kind = .keyword .COLUMN) (hx : x ≠ .type) :
    Yields (At R f o x K) (At R f o x Anything) [t] [] :=
  yields_token fun m hm => ⟨hm.skip, hm.expects ▸ hx, by simp [Mode.items, isNoise, kind],
    by simpa [Mode.next, kind] using
      ⟨hm.frame, hm.outer, hm.expects, hm.skip, trivial, hm.reordered⟩⟩

theorem yields_add (kind : t.kind = .keyword .ADD) :
    Yields (Calm R f o K) (At R f o .column Anything) [t] [.keyword .ADD] :=
  yields_token fun m hm => ⟨hm.skip, by simp [hm.expects], by simp [Mode.items, isNoise, kind],
    by simpa [Mode.next, kind] using ⟨hm.frame, hm.outer, rfl, hm.skip, trivial, hm.reordered⟩⟩

theorem yields_order (kind : t.kind = .keyword .ORDER) :
    Yields (Calm R f o K) (Calm R .ordered o Anything) [t] [.keyword .ORDER] :=
  yields_token fun m hm => ⟨hm.skip, by simp [hm.expects], by simp [Mode.items, isNoise, kind],
    by simpa [Mode.next, kind] using ⟨rfl, hm.outer, rfl, hm.skip, trivial, hm.reordered⟩⟩

theorem yields_limit (kind : t.kind = .keyword .LIMIT) (hK : L (.keyword .LIMIT)) :
    Yields (Ends R o) (Calm R .limited o L) [t] [.keyword .LIMIT] :=
  yields_token fun m hm => ⟨hm.skip, by simp [hm.expects], by simp [Mode.items, isNoise, kind],
    by simpa [Mode.next, kind] using ⟨rfl, hm.outer, rfl, hm.skip, hK, hm.reordered⟩⟩

/-- `TABLE`, but not of `CREATE TABLE`. -/
theorem yields_table (kind : t.kind = .keyword .TABLE) (hK : ∀ k, K k → k ≠ .keyword .CREATE) :
    Yields (Calm R f o K) (Calm R f o Anything) [t] [.keyword .TABLE] :=
  yields_pass nofun (fun m hm => by
    simp [Mode.items, Mode.next, Mode.pass, isNoise, kind, hK _ hm.before]) trivial

theorem yields_createdTable (kind : t.kind = .keyword .TABLE) :
    Yields (Calm R f o (· = .keyword .CREATE)) (Calm (· = true) .table o Anything) [t]
      [.keyword .TABLE] :=
  yields_token fun m hm => ⟨hm.skip, by simp [hm.expects], by simp [Mode.items, isNoise, kind],
    by simpa [Mode.next, kind, hm.before] using ⟨rfl, hm.outer, rfl, hm.skip, trivial, rfl⟩⟩

/-! ## Other tokens -/

theorem yields_operator {p : Operator} (kind : t.kind = .operator p) (hK : L (.operator p)) :
    Yields (Calm R f o K) (Calm R f o L) [t] [.operator p] :=
  yields_pass nofun (fun m _ => by simp [Mode.items, Mode.next, Mode.pass, kind]) (kind ▸ hK)

theorem yields_number (kind : t.kind = .number) (hK : L .number) :
    Yields (Calm R f o K) (Calm R f o L) [t] [.number t.text] :=
  yields_pass nofun (fun m _ => by simp [Mode.items, Mode.next, Mode.pass, kind]) (kind ▸ hK)

theorem yields_string (kind : t.kind = .string) (hK : L .string) :
    Yields (Calm R f o K) (Calm R f o L) [t] [.string t.value] :=
  yields_pass nofun (fun m _ => by simp [Mode.items, Mode.next, Mode.pass, kind]) (kind ▸ hK)

theorem yields_dot (kind : t.kind = .punctuation .dot) (hK : L (.punctuation .dot)) :
    Yields (Calm R f o K) (Calm R f o L) [t] [] :=
  yields_pass nofun (fun m _ => by simp [Mode.items, Mode.next, Mode.pass, kind]) (kind ▸ hK)

/-- A comma that is neither that of a limit nor between the elements of a
table. -/
theorem yields_comma (kind : t.kind = .punctuation .comma) (hf : f ≠ .limited)
    (hf' : f ≠ .columns) (hK : L (.punctuation .comma)) :
    Yields (Calm R f o K) (Calm R f o L) [t] [] :=
  yields_pass nofun (fun m hm => by
    refine ⟨by simp [Mode.items, kind], ?_⟩
    have := hm.frame
    cases hfm : m.frame <;> simp_all [Mode.next, Mode.pass]) (kind ▸ hK)

theorem yields_columnComma (kind : t.kind = .punctuation .comma) :
    Yields (Calm R .columns o K) (At R .columns o .column Anything) [t] [] :=
  yields_token fun m hm => ⟨hm.skip, by simp [hm.expects], by simp [Mode.items, kind],
    by simpa [Mode.next, kind, hm.frame] using
      ⟨rfl, hm.outer, rfl, hm.skip, trivial, hm.reordered⟩⟩

theorem yields_limitComma (kind : t.kind = .punctuation .comma)
    (hK : L (.punctuation .comma)) :
    Yields (Calm R .limited o K) (Calm (· = true) .limited o L) [t] [] :=
  yields_token fun m hm => ⟨hm.skip, by simp [hm.expects], by simp [Mode.items, kind],
    by simpa [Mode.next, kind, hm.frame] using ⟨rfl, hm.outer, rfl, hm.skip, hK, rfl⟩⟩

theorem yields_identifier {style : QuoteStyle} (kind : t.kind = .identifier style)
    (hK : ∀ k, K k → Names f k) :
    Yields (Calm R f o K) (Calm R f o Named) [t] [.identifier t.value] :=
  yields_pass nofun (fun m hm => by
    have : m.isPlacement t = false := by
      by_cases hf : f = .ordered
      · simp [Mode.isPlacement, hK _ hm.before hf]
      · simp [Mode.isPlacement, hm.frame, hf]
    simp [Mode.items, Mode.next, Mode.pass, kind, this, hm.expects]) ⟨style, kind⟩

/-- The name of a column in front of its data type. -/
theorem yields_columnName {style : QuoteStyle} (kind : t.kind = .identifier style)
    (hf : f ≠ .ordered) :
    Yields (At R f o .column K) (At R f o .type Anything) [t] [.identifier t.value] :=
  yields_token fun m hm => ⟨hm.skip, by simp [hm.expects],
    by simp [Mode.items, kind, Mode.isPlacement, hm.frame, hf],
    by simpa [Mode.next, kind, hm.expects] using
      ⟨hm.frame, hm.outer, rfl, hm.skip, trivial, hm.reordered⟩⟩

/-- A word of an `ORDER BY` behind an operand. -/
theorem yields_placement {text : String} (h : Grammar.IsWord text ts)
    (hw : text ∈ placementWords) :
    Yields (Calm R .ordered o fun k => endsOperand k) (Calm R .ordered o fun k => endsOperand k) ts
      [.word text] := by
  obtain @⟨t, kind, spelled⟩ := h
  refine yields_pass nofun (fun m hm => ?_) (by rw [kind]; rfl)
  have : m.isPlacement t := by
    simp [Mode.isPlacement, hm.frame, hm.before, kind, spelled, hw]
  simp [Mode.items, Mode.next, Mode.pass, kind, this, spelled, hm.expects]

/-! ## Parentheses -/

theorem yields_open (kind : t.kind = .punctuation .openParen) (hf : f ≠ .table)
    (hK : ∀ k, K k → k ≠ .keyword .CAST) (hL : L (.punctuation .openParen)) :
    Yields (Calm R f o K) (Calm R .plain (f :: o) L) [t] [] :=
  yields_token fun m hm => ⟨hm.skip, by simp [hm.expects], by simp [Mode.items, kind],
    by simpa [Mode.next, kind, Mode.inside, hm.frame, hf, hK _ hm.before] using
      ⟨rfl, by rw [hm.outer], rfl, hm.skip, hL, hm.reordered⟩⟩

theorem yields_openCast (kind : t.kind = .punctuation .openParen) (hf : f ≠ .table)
    (hL : L (.punctuation .openParen)) :
    Yields (Calm R f o (· = .keyword .CAST)) (Calm R .cast (f :: o) L) [t] [] :=
  yields_token fun m hm => ⟨hm.skip, by simp [hm.expects], by simp [Mode.items, kind],
    by simpa [Mode.next, kind, Mode.inside, hm.frame, hf, hm.before] using
      ⟨rfl, by rw [hm.outer], rfl, hm.skip, hL, hm.reordered⟩⟩

theorem yields_openColumns (kind : t.kind = .punctuation .openParen) :
    Yields (Calm R .table o K) (At R .columns (.table :: o) .column Anything) [t] [] :=
  yields_token fun m hm => ⟨hm.skip, by simp [hm.expects], by simp [Mode.items, kind],
    by simpa [Mode.next, kind, Mode.inside, hm.frame] using
      ⟨rfl, by rw [hm.outer], rfl, hm.skip, trivial, hm.reordered⟩⟩

theorem yields_close (kind : t.kind = .punctuation .closeParen)
    (hL : L (.punctuation .closeParen)) :
    Yields (Ends R (f :: o)) (Calm R f o L) [t] [] :=
  yields_token fun m hm => ⟨hm.skip, by simp [hm.expects], by simp [Mode.items, kind],
    by simpa [Mode.next, kind, hm.outer] using ⟨rfl, rfl, rfl, hm.skip, hL, hm.reordered⟩⟩

/-! ## Data types -/

theorem yields_dataType {type : DataType} (h : Grammar.IsDataType ts type) :
    YieldsBefore Parser.FollowsType (At R f o .type K) (Calm R f o Anything) ts [.type type] := by
  intro m hm
  obtain ⟨t, us, rfl⟩ : ∃ t us, ts = t :: us := by
    obtain @⟨t, us⟩ := h
    exact ⟨t, us, rfl⟩
  obtain ⟨k, skipped⟩ := scan_skip (m := { m with before := t.kind, expects := .nothing }) us
  refine ⟨{ m with before := k, expects := .nothing, skip := 0 },
    ⟨hm.frame, hm.outer, rfl, rfl, trivial, hm.reordered⟩, fun rest hrest => ?_⟩
  have here : m.dataType? (t :: us ++ rest) = some (type, us.length + 1) := by
    have reads : Parser.Reads Parser.dataType (t :: us) type rest := Parser.dataType_reads h hrest
    obtain ⟨s, hs, consumes⟩ := reads (s := .ofStream ⟨t :: us ++ rest, none⟩) rfl rfl
      (Token.isEnd_endOf _) nofun
    have left : s.tokens = rest := consumes.tokens_eq rfl
    simp only [Mode.dataType?, hm.expects, hs, left, if_true, List.length_append,
      Nat.add_sub_cancel, List.length_cons]
  have scanned : scan m (t :: us ++ rest) =
      (.type type :: (scan { m with before := k, expects := .nothing, skip := 0 } rest).1,
        (scan { m with before := k, expects := .nothing, skip := 0 } rest).2) := by
    rw [← skipped rest]
    simp only [List.cons_append] at here ⊢
    simp only [scan, hm.skip, here, Nat.add_sub_cancel]
  rw [scanned]
  exact ⟨rfl, fun d hd => ⟨hd.perm.cons _, fun hr => congrArg _ (hd.eq hr)⟩⟩

end

end Content

end SqlSyntax
