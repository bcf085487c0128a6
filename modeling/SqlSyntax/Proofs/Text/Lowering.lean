import SqlSyntax.Unicode.LowerCase

/-!
# Lower case that is in ASCII

The lower case of a text is taken by the rules of the Unicode standard. Where it comes out as a
word in ASCII, the text is mostly this word in another case of ASCII letters: no character
outside ASCII has a lower case in ASCII, with one exception. That is the Kelvin sign, whose
lower case is `k`. The letter `İ` has an `i` in its lower case, but a dot behind it.

## Main results

* `exists_not_isPlain` — what the lower case of a character outside ASCII holds.
* `lowerCase_eq_iff` — the texts with a given lower case in ASCII without a `k`.
-/

namespace SqlSyntax.Unicode

/-- Whether a character is in ASCII and is the lower case of nothing outside it. -/
def IsPlain (c : Char) : Prop := c.toNat ≠ 0 ∧ c.toNat < 0x80 ∧ c ≠ 'k'

instance : DecidablePred IsPlain := fun _ => inferInstanceAs (Decidable (_ ∧ _))

/-! ## Characters -/

theorem toLower_of_le {c : Char} (outside : 0x80 ≤ c.toNat) : c.toLower = c := by
  unfold Char.toLower
  apply dif_neg
  rintro ⟨-, small⟩
  have : c.toNat ≤ 0x5A := small
  omega

/-- Of all runs of mappings, that of the Kelvin sign alone has its target in ASCII. -/
theorem targets_outside : ∀ run ∈ lowerCaseRanges.toList.zip lowerCaseTargets.toList,
    0x80 ≤ run.2.2 ∨ run.1 = (0x212A, 0x212A) := by
  decide +kernel

theorem le_lowerCodePoint {n : Nat} (outside : 0x80 ≤ n) (other : n ≠ 0x212A) :
    0x80 ≤ lowerCodePoint n := by
  unfold lowerCodePoint
  split
  · exact outside
  · rename_i i found
    obtain ⟨range, isRange, lower, upper⟩ := RangeTable.of_find?_eq_some found
    split
    · rename_i first last step target isRange' isTarget
      obtain rfl : (first, last) = range := Option.some.inj (isRange'.symm.trans isRange)
      have run : (lowerCaseRanges.toList.zip lowerCaseTargets.toList)[i]? =
          some ((first, last), step, target) :=
        List.getElem?_zip_eq_some.2 ⟨by simpa using isRange, by simpa using isTarget⟩
      split
      · rcases targets_outside _ (List.mem_of_getElem? run) with high | kelvin
        · exact Nat.le_add_right_of_le high
        · cases kelvin
          dsimp only at lower upper
          omega
      · exact outside
    · exact outside

theorem toNat_ofNat {n : Nat} (h : (Char.ofNat n).toNat ≠ 0) : (Char.ofNat n).toNat = n := by
  by_cases valid : n.isValidChar
  · rw [Char.ofNat, dif_pos valid]
    rfl
  · rw [Char.ofNat, dif_neg valid] at h
    exact absurd rfl h

/-- The lower case of a character outside ASCII holds one that is not plain. -/
theorem exists_not_isPlain {c : Char} (outside : 0x80 ≤ c.toNat) :
    ∃ d ∈ lowerChar c, ¬ IsPlain d := by
  unfold lowerChar
  rw [if_neg (Nat.not_lt.2 outside)]
  split
  · exact ⟨Char.ofNat 0x307, by simp, fun plain => absurd plain.2.1 (by decide)⟩
  · refine ⟨_, List.mem_singleton_self _, fun plain => ?_⟩
    by_cases kelvin : c.toNat = 0x212A
    · rw [kelvin] at plain
      exact plain.2.2 (by decide +kernel)
    · have high := le_lowerCodePoint outside kelvin
      have low := plain.2.1
      rw [toNat_ofNat plain.1] at low
      omega

/-! ## Texts -/

theorem lowerChars_eq (before out cs : List Char) :
    lowerChars before out cs = out.reverse ++ lowerChars before [] cs := by
  induction cs generalizing before out with
  | nil => simp [lowerChars]
  | cons c cs ih =>
    rw [lowerChars, lowerChars, ih, ih (c :: before) (_ ++ [])]
    simp

theorem lowerChars_cons_of_lt {c : Char} (inside : c.toNat < 0x80) (before cs : List Char) :
    lowerChars before [] (c :: cs) = c.toLower :: lowerChars (c :: before) [] cs := by
  have other : c ≠ 'Σ' := by
    rintro rfl
    exact absurd inside (by decide)
  rw [lowerChars, lowerChars_eq, if_neg other, lowerChar, if_pos inside]
  rfl

theorem lowerChars_cons_of_le {c : Char} (outside : 0x80 ≤ c.toNat) (before cs : List Char) :
    ∃ d ∈ lowerChars before [] (c :: cs), ¬ IsPlain d := by
  rw [lowerChars, lowerChars_eq, List.append_nil, List.reverse_reverse]
  split
  · refine ⟨lowerSigma before cs, List.mem_append_left _ (List.mem_singleton_self _), ?_⟩
    unfold lowerSigma
    split <;> exact fun plain => absurd plain.2.1 (by decide)
  · obtain ⟨d, member, special⟩ := exists_not_isPlain outside
    exact ⟨d, List.mem_append_left _ member, special⟩

/-- What stands before a text matters to its lower case only outside ASCII. -/
theorem lowerChars_eq_iff {before cs word : List Char} (plain : ∀ c ∈ word, IsPlain c) :
    lowerChars before [] cs = word ↔ cs.map Char.toLower = word := by
  induction cs generalizing before word with
  | nil => rfl
  | cons c cs ih =>
    by_cases inside : c.toNat < 0x80
    · rw [lowerChars_cons_of_lt inside, List.map_cons]
      cases word with
      | nil => simp
      | cons d word =>
        rw [List.cons.injEq, List.cons.injEq, ih (List.forall_mem_cons.1 plain).2]
    · have outside := Nat.not_lt.1 inside
      constructor
      · rintro rfl
        obtain ⟨d, member, special⟩ := lowerChars_cons_of_le outside before cs
        exact absurd (plain d member) special
      · rintro rfl
        have first := plain c.toLower (List.mem_cons_self ..)
        rw [toLower_of_le outside] at first
        exact absurd first.2.1 inside

/-- A text whose lower case is a plain word is this word in some case of ASCII letters. -/
theorem lowerCase_eq_iff (text : String) {word : String} (plain : ∀ c ∈ word.toList, IsPlain c) :
    lowerCase text = word ↔ text.toList.map Char.toLower = word.toList := by
  rw [← lowerChars_eq_iff plain, lowerCase, ← String.toList_inj, String.toList_ofList]

end SqlSyntax.Unicode
