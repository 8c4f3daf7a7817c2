import DexCanon.Text.Cut

/-!
# Where a text is cut

A cut is at the first occurrence of the separator: the text is what stands before it, the separator
and what follows, and no earlier occurrence overlaps the part before.
-/

set_option autoImplicit false

namespace DexCanon.Text

variable {separator text before after : List Char}

theorem isPrefix_append_of_isPrefix_dropLast {rest : List Char}
    (h : separator <+: before ++ separator.dropLast) :
    separator <+: before ++ separator ++ rest := by
  have hd : before ++ separator.dropLast <+: before ++ separator :=
    (List.prefix_append_right_inj before).mpr (List.dropLast_prefix separator)
  exact (h.trans hd).trans (List.prefix_append _ rest)

/-- An occurrence at the very front, with something before the cut, would overlap that part. -/
theorem isPrefix_dropLast_of_isPrefix {c : Char} {rest : List Char}
    (h : separator <+: c :: before ++ separator ++ rest) :
    separator <+: c :: before ++ separator.dropLast := by
  have hsplit : c :: before ++ separator.dropLast <+: c :: before ++ separator ++ rest :=
    ((List.prefix_append_right_inj (c :: before)).mpr (List.dropLast_prefix separator)).trans
      (List.prefix_append _ rest)
  apply List.prefix_of_prefix_length_le h hsplit
  simp only [List.length_append, List.length_cons, List.length_dropLast]
  omega

theorem cut?_eq_some_iff (hs : separator ≠ []) :
    cut? separator text = some (before, after) ↔
      text = before ++ separator ++ after ∧ ¬ separator <:+: before ++ separator.dropLast := by
  induction text generalizing before with
  | nil => simp [cut?, hs]
  | cons c rest ih =>
    rw [cut?]
    by_cases hfront : separator <+: c :: rest
    · rw [if_pos (List.isPrefixOf_iff_prefix.mpr hfront), Option.some.injEq, Prod.mk.injEq]
      obtain ⟨tail, htail⟩ := hfront
      constructor
      · rintro ⟨rfl, rfl⟩
        refine ⟨?_, ?_⟩
        · rw [← htail, List.drop_left, List.nil_append]
        · intro hinfix
          have hlen := hinfix.length_le
          have hpos := List.length_pos_iff.mpr hs
          simp only [List.nil_append, List.length_dropLast] at hlen
          omega
      · rintro ⟨htext, hfirst⟩
        cases before with
        | nil =>
          rw [htext, List.nil_append, List.drop_left]
          exact ⟨rfl, rfl⟩
        | cons d before =>
          rw [← htail] at htext
          have hprefix : separator <+: d :: before ++ separator ++ after :=
            htext ▸ List.prefix_append separator tail
          exact absurd (isPrefix_dropLast_of_isPrefix hprefix).isInfix hfirst
    · rw [if_neg (by rwa [List.isPrefixOf_iff_prefix]), Option.map_eq_some_iff]
      constructor
      · rintro ⟨⟨front, back⟩, hcut, heq⟩
        obtain ⟨rfl, rfl⟩ := Prod.mk.injEq .. ▸ heq
        obtain ⟨rfl, hfirst⟩ := ih.mp hcut
        refine ⟨rfl, ?_⟩
        rw [List.cons_append, List.infix_cons_iff, not_or]
        refine ⟨?_, hfirst⟩
        intro hprefix
        have hbegin : separator <+: c :: front ++ separator ++ back :=
          isPrefix_append_of_isPrefix_dropLast hprefix
        exact hfront hbegin
      · rintro ⟨htext, hfirst⟩
        cases before with
        | nil =>
          rw [htext, List.nil_append] at hfront
          exact absurd (List.prefix_append separator after) hfront
        | cons d before =>
          obtain ⟨rfl, rfl⟩ := List.cons.inj htext
          rw [List.cons_append, List.infix_cons_iff, not_or] at hfirst
          exact ⟨(before, after), ih.mpr ⟨rfl, hfirst.2⟩, rfl⟩

theorem cut?_eq_none_iff (hs : separator ≠ []) :
    cut? separator text = none ↔ ¬ separator <:+: text := by
  induction text with
  | nil => simp [cut?, hs]
  | cons c rest ih =>
    rw [cut?, List.infix_cons_iff, not_or, ← ih]
    by_cases hfront : separator <+: c :: rest
    · simp [List.isPrefixOf_iff_prefix.mpr hfront, hfront]
    · rw [if_neg (by rwa [List.isPrefixOf_iff_prefix]), Option.map_eq_none_iff]
      exact (and_iff_right hfront).symm

theorem singleton_infix_iff {mark : Char} : [mark] <:+: text ↔ mark ∈ text := by
  constructor
  · intro h
    exact h.subset (List.mem_singleton_self mark)
  · intro h
    obtain ⟨front, back, rfl⟩ := List.append_of_mem h
    exact ⟨front, back, by simp⟩

theorem cut?_mark_eq_some_iff {mark : Char} :
    cut? [mark] text = some (before, after) ↔
      text = before ++ mark :: after ∧ mark ∉ before := by
  rw [cut?_eq_some_iff (List.cons_ne_nil mark [])]
  simp [singleton_infix_iff]

theorem cut?_mark_eq_none_iff {mark : Char} : cut? [mark] text = none ↔ mark ∉ text := by
  rw [cut?_eq_none_iff (List.cons_ne_nil mark []), singleton_infix_iff]

/-- At an arrow: the part before does not hold one. Its end and the first half of the arrow behind
it cannot make one up. -/
theorem cut?_arrow_eq_some_iff : cut? ['-', '>'] text = some (before, after) ↔
    text = before ++ '-' :: '>' :: after ∧ ¬ ['-', '>'] <:+: before := by
  have hend : ¬ ['-', '>'] <:+ before ++ ['-'] := by
    rintro ⟨front, hfront⟩
    have hlast := congrArg List.getLast? hfront
    simp at hlast
  rw [cut?_eq_some_iff (List.cons_ne_nil '-' ['>'])]
  simp [List.infix_concat_iff, hend]

-- ---------------------------------------------------------------------------
-- Lengths in bytes
-- ---------------------------------------------------------------------------

theorem byteCount_append (front back : List Char) :
    byteCount (front ++ back) = byteCount front + byteCount back := by
  induction front with
  | nil => exact (Nat.zero_add _).symm
  | cons c front ih =>
    calc
      byteCount (c :: front ++ back) = c.utf8Size + byteCount (front ++ back) := rfl
      _ = byteCount (c :: front) + byteCount back := by rw [ih, ← Nat.add_assoc]; rfl

theorem byteCount_eq (text : List Char) : byteCount text = (String.ofList text).utf8ByteSize := by
  induction text with
  | nil => rfl
  | cons c rest ih =>
    have hsplit : String.ofList (c :: rest) = String.singleton c ++ String.ofList rest := by
      rw [← String.toList_inj]
      simp
    rw [hsplit, String.utf8ByteSize_append, String.utf8ByteSize_singleton, ← ih]
    rfl

end DexCanon.Text
