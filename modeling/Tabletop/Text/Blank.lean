namespace Tabletop.Text

/-!
# Blank characters

Which characters count as white space, and texts with the blanks at their two
ends removed. `isBlank_of_isWhitespace` says that every character the core
library calls white space is blank.
-/

/-- First and last code point of each run of blank characters, in ascending order. -/
def blankRanges : List (Nat × Nat) :=
  [(0x09, 0x0D), (0x1C, 0x20), (0x85, 0x85), (0xA0, 0xA0), (0x1680, 0x1680),
    (0x2000, 0x200A), (0x2028, 0x2029), (0x202F, 0x202F), (0x205F, 0x205F),
    (0x3000, 0x3000)]

/-- Whether a code point lies in one of the given closed ranges. -/
def inRanges
    (ranges : List (Nat × Nat))
    (c : Char) : Bool :=
  ranges.any fun (low, high) => low ≤ c.toNat && c.toNat ≤ high

/--
Whether a character is blank: a space, a tab, the end of a line or a paragraph,
or one of the four information separators.
-/
def isBlank (c : Char) : Bool :=
  inRanges blankRanges c

/-- The text from its first character that is not blank. -/
def trimStart (cs : List Char) : List Char :=
  cs.dropWhile isBlank

/-- The text up to its last character that is not blank. -/
def trimEnd (cs : List Char) : List Char :=
  (cs.reverse.dropWhile isBlank).reverse

/-- The text between its first and its last character that is not blank. -/
def trimChars (cs : List Char) : List Char :=
  trimEnd (trimStart cs)

/-- A string without the blanks at its two ends. -/
def trim (text : String) : String :=
  String.ofList (trimChars text.toList)

theorem trimChars_infix (cs : List Char) :
    trimChars cs <:+: cs := by
  have ended : trimEnd (trimStart cs) <+: trimStart cs := by
    rw [← List.reverse_suffix]
    simpa [trimEnd] using List.dropWhile_suffix isBlank
  exact ended.isInfix.trans (List.dropWhile_suffix isBlank).isInfix

private theorem dropWhile_isBlank_eq_self
    {cs : List Char}
    (noBlank : ∀ c ∈ cs, isBlank c = false) :
    cs.dropWhile isBlank = cs := by
  cases cs with
  | nil =>
      rfl
  | cons c rest =>
      simp [noBlank c (.head rest)]

/-- Where nothing is blank, nothing is trimmed. -/
theorem trimChars_eq_self
    {cs : List Char}
    (noBlank : ∀ c ∈ cs, isBlank c = false) :
    trimChars cs = cs := by
  have noBlankReversed : ∀ c ∈ cs.reverse, isBlank c = false :=
    fun c member => noBlank c (List.mem_reverse.mp member)
  unfold trimChars trimStart trimEnd
  rw [dropWhile_isBlank_eq_self noBlank, dropWhile_isBlank_eq_self noBlankReversed,
    List.reverse_reverse]

theorem isBlank_of_isDigit
    {c : Char}
    (digit : c.isDigit = true) :
    isBlank c = false := by
  obtain ⟨low, high⟩ := Char.isDigit_iff_toNat.mp digit
  change 48 ≤ c.toNat at low
  change c.toNat ≤ 57 at high
  simp [isBlank, inRanges, blankRanges]
  omega

theorem isBlank_of_isWhitespace
    {c : Char}
    (h : c.isWhitespace = true) :
    isBlank c = true := by
  simp only [Char.isWhitespace, Bool.or_eq_true, decide_eq_true_eq] at h
  rcases h with ((rfl | rfl) | rfl) | rfl <;> decide

end Tabletop.Text
