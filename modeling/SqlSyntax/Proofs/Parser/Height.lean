import SqlSyntax.Proofs.Grammar.Coverage
import SqlSyntax.Proofs.Parser.Text

/-!
# The height of parsed trees

The depth limit bounds the height of a tree, counted in expressions, queries and
set operations, but not by itself. A level is given back when an operand is
complete, and the operators folded onto the operand take their levels from what
was there before it. So the levels inside an operand and those of the operators
above it are bounded separately, and the same again inside the operand: with
`d` levels a path goes through `d` at most, then `d - 1`, and so on.

## Main results

* `phrases_fit` — the height of what is read in some levels.
* `parseStatement_height` — the height of what is parsed.
* `height_attained` — the bound is attained.
-/

namespace SqlSyntax

/-! ## Paths in a tree -/

namespace Part

/-- Whether parts come one below the other, the first of them below `p`. -/
def Path (p : Part) (ps : List Part) : Prop := (p :: ps).IsChain fun q r => r ∈ q.children

/-- Whether every path from a part downwards goes through `k` levels at most. -/
def Fits (k : Nat) (p : Part) : Prop := ∀ ps, p.Path ps → (p :: ps).countP isLevel ≤ k

theorem Fits.mono {k n : Nat} {p : Part} (h : p.Fits k) (hle : k ≤ n) : p.Fits n :=
  fun ps hps => Nat.le_trans (h ps hps) hle

/-- A path goes through the first part and then through one of its children. -/
theorem fits_of_children {k : Nat} {p : Part} (h : ∀ c ∈ p.children, c.Fits k) :
    p.Fits (k + p.isLevel.toNat) := by
  intro ps path
  have first : (p :: ps).countP isLevel = ps.countP isLevel + p.isLevel.toNat := by
    rw [List.countP_cons]
    cases p.isLevel <;> rfl
  have below : ps.countP isLevel ≤ k := by
    cases ps with
    | nil => exact Nat.zero_le _
    | cons c ps =>
      obtain ⟨mem, path⟩ := List.isChain_cons_cons.1 path
      exact h c mem ps path
  omega

theorem fits_succ_of_children {k : Nat} {p : Part} (h : ∀ c ∈ p.children, c.Fits k) :
    p.Fits (k + 1) :=
  (fits_of_children h).mono (by cases p.isLevel <;> simp)

/-- The path through the first child of each part, `n` parts long at most. -/
def leftmost : Nat → Part → List Part
  | 0, _ => []
  | n + 1, p =>
    match p.children with
    | [] => []
    | c :: _ => c :: leftmost n c

theorem path_leftmost (n : Nat) (p : Part) : p.Path (leftmost n p) := by
  induction n generalizing p with
  | zero => exact .singleton p
  | succ n ih =>
    rw [leftmost]
    split
    · exact .singleton p
    · rename_i c _ children
      exact List.isChain_cons_cons.2 ⟨children ▸ List.mem_cons_self .., ih c⟩

end Part

/-! ## Readings -/

namespace Grammar

/-- Whether a part on some tokens is not higher than `k`. -/
def FitsOn (k : Nat) (ts : List Token) (p : Part) : Prop := Covers ts p.span ∧ p.Fits k

theorem Spread.fits {k : Nat} {ts : List Token} {ps : List Part} (h : Spread (FitsOn k) ts ps)
    {p : Part} (hp : p ∈ ps) : p.Fits k := by
  obtain ⟨_, -, -, fits⟩ := h.mem hp
  exact fits

theorem fitsOn_composes (k : Nat) : Composes (FitsOn k) where
  covers := And.left
  intro {ts p ps} plain covers parts children := by
    refine ⟨covers, ?_⟩
    have fits := Part.fits_of_children fun c hc => parts.fits (children.mem_iff.2 hc)
    rwa [plain] at fits

theorem FitsOn.succ {k : Nat} {ts : List Token} {p : Part} (covers : Covers ts p.span)
    (parts : Spread (FitsOn k) ts p.children) : FitsOn (k + 1) ts p :=
  ⟨covers, Part.fits_succ_of_children fun _ hc => parts.fits hc⟩

theorem Phrases.Lays.mono {P : Phrases} {k n : Nat} (hP : P.Lays (FitsOn k)) (hle : k ≤ n) :
    P.Lays (FitsOn n) where
  composes := fitsOn_composes n
  expr h ordered := (hP.expr h ordered).imp id (·.mono hle)
  query _ _ h ordered := (hP.query h ordered).imp id (·.mono hle)

/-- The most levels on a path, where `depth` levels are left. -/
def tallest : Nat → Nat
  | 0 => 0
  | depth + 1 => tallest depth + (depth + 1)

theorem tallest_mono {d depth : Nat} (hle : d ≤ depth) : tallest d ≤ tallest depth := by
  induction hle with
  | refl => exact Nat.le_refl _
  | step _ ih => exact Nat.le_trans ih (Nat.le_add_right ..)

theorem tallest_eq (depth : Nat) : tallest depth = depth * (depth + 1) / 2 := by
  have twice : tallest depth * 2 = depth * (depth + 1) := by
    induction depth with
    | zero => rfl
    | succ depth ih =>
      rw [tallest, Nat.add_mul, ih, Nat.mul_comm depth, ← Nat.mul_add]
  omega

variable {depth level k : Nat} {ts us : List Token}

/-- Each operator that is folded onto an operand adds a level above it. -/
theorem folds_fit {left e : Expr} (hsub : ∀ d < depth, (phrases True d).Lays (FitsOn k))
    (h : folds True depth level left us e) (hleft : FitsOn k ts (.expr left))
    (ordered : Ordered (ts ++ us)) : FitsOn (k + depth) (ts ++ us) (.expr e) := by
  induction depth generalizing left ts us k with
  | zero =>
    obtain ⟨rfl, rfl⟩ := h
    rwa [List.append_nil]
  | succ depth ih =>
    rcases h with ⟨rfl, rfl⟩ | ⟨op, vs, ws, m, rfl, hlevel, hop, fold, others⟩
    · rw [List.append_nil]
      exact hleft.imp id (·.mono (Nat.le_add_right ..))
    · rw [← List.append_assoc] at ordered ⊢
      obtain ⟨covers, parts⟩ := fold.spread (hsub depth (Nat.lt_succ_self _)) hleft ordered.left
      have fits := ih (k := k + 1)
        (fun d hd => (hsub d (Nat.lt_succ_of_lt hd)).mono (Nat.le_succ k)) others
        (.succ covers parts) ordered
      rwa [Nat.add_right_comm] at fits

/-- Each set operator adds a level above what it combines, and the query is one
more. -/
theorem combines_fit {before : List Token} {left : QueryBody} {q : Query}
    (hsub : ∀ d ≤ depth, (phrases True d).Lays (FitsOn k))
    (h : combines True depth before left ts q) (hleft : FitsOn k before left.part)
    (ordered : Ordered (before ++ ts)) : FitsOn (k + depth + 1) (before ++ ts) (.query q) := by
  have ended {d k : Nat} {before : List Token} {left : QueryBody} {ts : List Token}
      (hP : (phrases True d).Lays (FitsOn k)) (tail : IsQueryTail (phrases True d) before left ts q)
      (hleft : FitsOn k before left.part) (ordered : Ordered (before ++ ts)) :
      FitsOn (k + 1) (before ++ ts) (.query q) := by
    obtain ⟨covers, parts⟩ := tail.spread hP hleft ordered
    exact .succ covers parts
  induction depth generalizing before left ts k with
  | zero => exact ended (hsub 0 (Nat.le_refl _)) h hleft ordered
  | succ depth ih =>
    rcases (combines_succ ..).1 h with tail | ⟨op, us, vs, b, rfl, operand, others⟩
    · have fits := ended (hsub _ (Nat.le_refl _)) tail hleft ordered
      exact fits.imp id (·.mono (by omega))
    · rw [← List.append_assoc] at ordered ⊢
      obtain ⟨covers, parts⟩ := operand.spread (hsub depth (Nat.le_succ _)) hleft ordered.left
      have fits := ih (k := k + 1)
        (fun d hd => (hsub d (Nat.le_succ_of_le hd)).mono (Nat.le_succ k)) others
        (.succ covers parts) ordered
      rwa [Nat.add_right_comm k 1 depth] at fits

/-- What is read in some levels is no higher than `tallest`. -/
theorem phrases_fit (depth : Nat) : (phrases True depth).Lays (FitsOn (tallest depth)) := by
  induction depth using Nat.strongRecOn with
  | ind depth ih =>
    cases depth with
    | zero => exact ⟨fitsOn_composes _, nofun, nofun⟩
    | succ depth =>
      have hP := ih depth (Nat.lt_succ_self _)
      have below (d : Nat) (hd : d ≤ depth) : (phrases True d).Lays (FitsOn (tallest depth)) :=
        (ih d (Nat.lt_succ_of_le hd)).mono (tallest_mono hd)
      refine ⟨fitsOn_composes _, fun h ordered => ?_, fun ts q h ordered => ?_⟩
      · obtain ⟨us, vs, o, rfl, operand, others⟩ := h
        obtain ⟨covers, parts⟩ := operand.spread hP ordered.left
        have fits := folds_fit (k := tallest depth + 1)
          (fun d hd => (below d (Nat.le_of_lt hd)).mono (Nat.le_succ _)) others
          (.succ covers parts) ordered
        rwa [Nat.add_assoc, Nat.add_comm 1] at fits
      · obtain ⟨us, vs, s, rfl, select, others⟩ := h
        exact combines_fit below others (select.laid hP ordered.left) ordered

end Grammar

/-! ## Texts -/

open Grammar in
/-- With a limit of `d` levels, no path of a parsed tree goes through more than
`d * (d + 1) / 2` expressions, queries and set operations. -/
theorem parseStatement_height {limits : Limits} {sql : String} {s : Statement}
    (h : parseStatement limits sql = .ok s) :
    s.part.Fits (limits.maxDepth * (limits.maxDepth + 1) / 2) := by
  obtain ⟨ts, us, last, stream, statement, -⟩ := parseStatement_sound h
  have inner : ∀ t ∈ ts, t.isEnd = false := fun t ht =>
    (TokenStream.isEnd_of_eq stream).1 t (List.mem_append_left _ ht)
  have ordered : Ordered ts := by
    rw [List.append_assoc] at stream
    exact TokenStream.ordered_of_readFrom stream inner
  rw [← tallest_eq]
  exact (statement.laid (phrases_fit _) ordered).2

/-- The limit itself is no bound: with 3 levels a path can go through 4, since
those inside the parentheses are given back before the operator takes its own. -/
theorem height_of_test : ∃ s ps, parseStatement ⟨1000, 3⟩ "SELECT (1) IS NULL" = .ok s ∧
    s.part.Path ps ∧ 3 < (s.part :: ps).countP Part.isLevel := by
  have height : (match parseStatement ⟨1000, 3⟩ "SELECT (1) IS NULL" with
      | .ok s => (s.part :: s.part.leftmost 9).countP Part.isLevel
      | .error _ => 0) = 4 := by decide +kernel
  cases h : parseStatement ⟨1000, 3⟩ "SELECT (1) IS NULL" with
  | error => simp [h] at height
  | ok s =>
    simp only [h] at height
    exact ⟨s, _, rfl, s.part.path_leftmost 9, by omega⟩

/-- With 3 levels a path can go through 6, and through no more. -/
theorem height_attained : ∃ s ps,
    parseStatement ⟨1000, 3⟩ "SELECT (1) IS NULL UNION SELECT * UNION SELECT *" = .ok s ∧
    s.part.Path ps ∧ (s.part :: ps).countP Part.isLevel = 6 ∧ s.part.Fits 6 := by
  have height :
      (match parseStatement ⟨1000, 3⟩ "SELECT (1) IS NULL UNION SELECT * UNION SELECT *" with
      | .ok s => (s.part :: s.part.leftmost 9).countP Part.isLevel
      | .error _ => 0) = 6 := by decide +kernel
  cases h : parseStatement ⟨1000, 3⟩ "SELECT (1) IS NULL UNION SELECT * UNION SELECT *" with
  | error => simp [h] at height
  | ok s =>
    simp only [h] at height
    exact ⟨s, _, rfl, s.part.path_leftmost 9, height, parseStatement_height h⟩

end SqlSyntax
