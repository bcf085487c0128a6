import SqlSyntax.Proofs.Token.Units

/-!
# Slices of a text

A slice goes from one byte of a text to another. It can be taken when both are at the start
of a character or at the end of the text, and in this order. Anywhere else there is no such
text, which `slice?` and `textFrom?` say by giving none.

What stands between the quotes of a token is a slice as well: it leaves out the first byte
and the last one. This needs a token that is long enough and starts and ends with a character
of one byte, as the tokens of a text do.

## Main results

* `slice?_append`, `textFrom?_append` — the slices between the pieces of a text.
* `Token.value?_eq` — the slice that the value of a token of a text is taken from exists.
-/

namespace SqlSyntax

/-- Whether byte `n` of a text is the first one of a character, or right behind the text. -/
def isBoundary : Nat → List Char → Bool
  | 0, _ => true
  | _ + 1, [] => false
  | n + 1, c :: cs => c.utf8Size ≤ n + 1 && isBoundary (n + 1 - c.utf8Size) cs

/-- The text from byte `n` on, if it can be cut there. -/
def textFrom? (n : Nat) (text : List Char) : Option (List Char) :=
  if isBoundary n text then some (dropBytes n text) else none

/-- The text from byte `start` up to byte `stop`, if it can be cut at both. -/
def slice? (start stop : Nat) (text : List Char) : Option (List Char) :=
  if start ≤ stop ∧ isBoundary start text ∧ isBoundary stop text then
    some (takeBytes (stop - start) (dropBytes start text))
  else none

/-- A text can be cut behind each of its pieces. -/
theorem isBoundary_append (cs ds : List Char) : isBoundary (byteLength cs) (cs ++ ds) := by
  induction cs with
  | nil => rw [byteLength, isBoundary]
  | cons c cs ih =>
    have size := c.utf8Size_pos
    obtain ⟨m, hm⟩ : ∃ m, byteLength (c :: cs) = m + 1 :=
      ⟨byteLength (c :: cs) - 1, by rw [byteLength]; omega⟩
    have le : c.utf8Size ≤ m + 1 := by rw [← hm, byteLength]; omega
    have rest : m + 1 - c.utf8Size = byteLength cs := by rw [← hm, byteLength]; omega
    rw [hm, List.cons_append, isBoundary, rest, decide_eq_true le, Bool.true_and]
    exact ih

theorem textFrom?_append (before rest : List Char) :
    textFrom? (byteLength before) (before ++ rest) = some rest := by
  rw [textFrom?, if_pos (isBoundary_append before rest), dropBytes_append]

theorem slice?_append (before piece behind : List Char) :
    slice? (byteLength before) (byteLength (before ++ piece)) (before ++ (piece ++ behind)) =
      some piece := by
  have start := isBoundary_append before (piece ++ behind)
  have stop := isBoundary_append (before ++ piece) behind
  rw [List.append_assoc] at stop
  have length : byteLength (before ++ piece) = byteLength before + byteLength piece :=
    byteLength_append ..
  rw [slice?, if_pos ⟨by omega, start, stop⟩, dropBytes_append, length, Nat.add_sub_cancel_left]
  have taken := takeBytes_append 0 piece behind
  rw [Nat.add_zero, takeBytes, List.append_nil] at taken
  rw [taken]

example : slice? 1 3 "aéz".toList = some ['é'] ∧ slice? 1 2 "aéz".toList = none ∧
    slice? 3 5 "aéz".toList = none := by decide

namespace Token

/-- What stands between the quotes of a token, as the slice without its first and its last
byte; none if there is no such slice. -/
def body? (t : Token) : Option (List Char) :=
  let length := byteLength t.text.toList
  if 1 ≤ length then slice? 1 (length - 1) t.text.toList else none

/-- The text that a token stands for, taken from the slice between its quotes. -/
def value? (t : Token) : Option String :=
  match t.kind with
  | .string => t.body?.map fun body => String.ofList (Quoted.unescape body)
  | .identifier style =>
    match style.quote? with
    | some q => t.body?.map fun body => String.ofList (Quoted.undouble q body)
    | none => some t.text
  | _ => some t.text

/-- Between two quotes of one byte there is a slice. -/
theorem body?_eq {t : Token} {q : Char} {body : List Char} (size : q.utf8Size = 1)
    (text : t.text.toList = q :: (body ++ [q])) : t.body? = some t.body := by
  have front : byteLength [q] = 1 := by rw [byteLength, byteLength, size]
  have length : byteLength t.text.toList = 1 + byteLength body + 1 := by
    rw [text, byteLength, byteLength_append, size, front]
    omega
  have stop : byteLength t.text.toList - 1 = byteLength ([q] ++ body) := by
    rw [length, byteLength_append, front]
    omega
  have sliced := slice?_append [q] body [q]
  rw [front, ← stop] at sliced
  rw [body?, if_pos (by omega), Token.body, text] at *
  rw [List.drop_one, List.tail_cons, List.dropLast_concat]
  exact sliced

/-- The value of each token of a text is taken from a slice that exists. -/
theorem value?_eq {sql : String} {t : Token} (h : t ∈ (TokenStream.ofString sql).tokens) :
    t.value? = some t.value := by
  have quoted {q : Char} (quote : t.kind.quote? = some q) (size : q.utf8Size = 1) :
      t.body? = some t.body := by
    obtain ⟨_, _, us, -, -, -, -, text, -⟩ := exists_units h quote
    exact body?_eq size text
  unfold value? value
  cases kind : t.kind with
  | string => rw [quoted (by rw [kind]; rfl) (by decide)]; rfl
  | identifier style =>
    cases style with
    | bare => rfl
    | double => rw [quoted (by rw [kind]; rfl) (by decide)]; rfl
    | backquote => rw [quoted (by rw [kind]; rfl) (by decide)]; rfl
  | _ => rfl

end Token

end SqlSyntax
