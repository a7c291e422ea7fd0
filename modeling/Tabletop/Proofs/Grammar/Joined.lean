import Tabletop.Proofs.Grammar.Overlong

namespace Tabletop

/-!
# Codes joined by an `x`

A text without an `E` at its end and another text, joined by an `x`, write the
code with the factors of both. The `E` of the second text is that of the whole,
so it stands for the factors of the first as well.
-/

namespace Text

section

variable {c : Char}

theorem trimStart_append_cons
    (notBlank : isBlank c = false)
    (before behind : List Char) :
    trimStart (before ++ c :: behind) = trimStart before ++ c :: behind := by
  induction before with
  | nil =>
      exact List.dropWhile_cons_of_neg (by simp [notBlank])
  | cons first before inductionHypothesis =>
      unfold trimStart at inductionHypothesis ⊢
      rw [List.cons_append, List.dropWhile_cons, List.dropWhile_cons, inductionHypothesis]
      split <;> rfl

theorem trimEnd_append_cons
    (notBlank : isBlank c = false)
    (before behind : List Char) :
    trimEnd (before ++ c :: behind) = before ++ c :: trimEnd behind := by
  have reversed := trimStart_append_cons notBlank behind.reverse before.reverse
  unfold trimStart at reversed
  unfold trimEnd
  rw [List.reverse_append, List.reverse_cons, List.append_assoc, List.singleton_append, reversed]
  simp

end

theorem trimStart_eq_self
    {cs : List Char}
    (noBlank : ∀ c ∈ cs.head?, isBlank c = false) :
    trimStart cs = cs := by
  cases cs with
  | nil =>
      rfl
  | cons c rest =>
      exact List.dropWhile_cons_of_neg (by simp [noBlank c rfl])

theorem trimEnd_eq_self
    {cs : List Char}
    (noBlank : ∀ c ∈ cs.getLast?, isBlank c = false) :
    trimEnd cs = cs := by
  have reversed : trimStart cs.reverse = cs.reverse := by
    apply trimStart_eq_self
    rw [List.head?_reverse]
    exact noBlank
  unfold trimEnd
  rw [show cs.reverse.dropWhile isBlank = cs.reverse from reversed, List.reverse_reverse]

/-- What is not blank is not trimmed. -/
theorem mem_trimStart
    {cs : List Char}
    {c : Char}
    (member : c ∈ cs)
    (noBlank : isBlank c = false) :
    c ∈ trimStart cs := by
  have parts : cs.takeWhile isBlank ++ trimStart cs = cs :=
    List.takeWhile_append_dropWhile
  rw [← parts, List.mem_append] at member
  refine member.resolve_left fun inBlanks => ?_
  rw [List.all_eq_true.mp List.all_takeWhile c inBlanks] at noBlank
  cases noBlank

theorem getLast?_trimStart
    {cs : List Char}
    {c : Char}
    (last : c ∈ (trimStart cs).getLast?) :
    c ∈ cs.getLast? := by
  obtain ⟨blanks, shape⟩ : trimStart cs <:+ cs := List.dropWhile_suffix isBlank
  rw [← shape, List.getLast?_append, Option.mem_def.mp last]
  rfl

theorem trimChars_eq_trimStart
    {cs : List Char}
    (noBlank : ∀ c ∈ cs.getLast?, isBlank c = false) :
    trimChars cs = trimStart cs :=
  trimEnd_eq_self fun c last => noBlank c (getLast?_trimStart last)

/-- Where no blanks stand next to a character, the text before it and the text behind it are trimmed. -/
theorem trimChars_append_cons
    {c : Char}
    {before behind : List Char}
    (notBlank : isBlank c = false)
    (noBlankBefore : ∀ c ∈ before.getLast?, isBlank c = false)
    (noBlankBehind : ∀ c ∈ behind.head?, isBlank c = false) :
    trimChars (before ++ c :: behind) = trimChars before ++ c :: trimChars behind := by
  rw [trimChars_eq_trimStart noBlankBefore]
  unfold trimChars
  rw [trimStart_append_cons notBlank, trimEnd_append_cons notBlank, trimStart_eq_self noBlankBehind]

end Text

section

variable {c : Char} {cs rest : List Char} {factor : Factor} {factors : List Factor}

theorem FactorSpelling.EndsBefore.append_cons
    {f : FactorSpelling}
    (ends : f.EndsBefore rest)
    (noDigit : c.isDigit = false)
    (noSign : ∀ sign : Sign, c ≠ sign.char)
    (behind : List Char) :
    f.EndsBefore (rest ++ c :: behind) := by
  cases rest with
  | nil =>
      exact f.endsBefore_cons noDigit noSign
  | cons first rest =>
      exact ⟨Text.noDigitAhead_cons.mpr (Text.noDigitAhead_cons.mp ends.noDigit), ends.noSign⟩

/-- What is behind a character makes no difference to a factor before it, if it ends the factor. -/
theorem readFactor_append_cons
    (read : readFactor cs = .ok (factor, rest))
    (noDigit : c.isDigit = false)
    (noSign : ∀ sign : Sign, c ≠ sign.char)
    (behind : List Char) :
    readFactor (cs ++ c :: behind) = .ok (factor, rest ++ c :: behind) := by
  have reading := readFactor_reading cs
  rw [read] at reading
  cases reading with
  | read f spelled =>
      have short := readFactor_short read spelled
      rw [spelled.shape, List.append_assoc]
      exact readFactor_spelled short (spelled.ends.append_cons noDigit noSign behind)

theorem readFactor_append_x
    (read : readFactor cs = .ok (factor, rest))
    (behind : List Char) :
    readFactor (cs ++ 'x' :: behind) = .ok (factor, rest ++ 'x' :: behind) :=
  readFactor_append_cons read (by decide) (by rintro (_ | _) <;> decide) behind

/-- Behind a complete chain and an `x` the chain goes on. -/
theorem readFactors_append_x
    (read : readFactors cs = .ok (factors, []))
    (behind : List Char) :
    readFactors (cs ++ 'x' :: behind) =
      (readFactors behind).map fun (more, rest) => (factors ++ more, rest) := by
  induction cs using readFactors.induct generalizing factors with
  | case1 cs misread step =>
      rw [readFactors_of_error step] at read
      cases read
  | case2 cs factor rest step inductionHypothesis =>
      rw [readFactors_of_more step] at read
      have stepOn := readFactor_append_x step behind
      rw [List.cons_append] at stepOn
      rw [readFactors_of_more stepOn]
      cases restRead : readFactors rest with
      | error misread =>
          rw [restRead] at read
          cases read
      | ok taken =>
          rcases taken with ⟨more, behindMore⟩
          rw [restRead] at read
          cases read
          rw [inductionHypothesis restRead]
          cases readFactors behind <;> rfl
  | case3 cs factor rest noX step =>
      rw [readFactors_of_last step (head?_ne_x noX)] at read
      cases read
      rw [readFactors_of_more (readFactor_append_x step behind)]
      rfl

/--
A chain that has ended is not taken up again behind a character that ends a factor:
the text from where it ended is left over. Behind a complete chain the character is
no `x`.
-/
theorem readFactors_append_cons
    (read : readFactors cs = .ok (factors, rest))
    (noDigit : c.isDigit = false)
    (noSign : ∀ sign : Sign, c ≠ sign.char)
    (noX : rest = [] → c ≠ 'x')
    (behind : List Char) :
    readFactors (cs ++ c :: behind) = .ok (factors, rest ++ c :: behind) := by
  induction cs using readFactors.induct generalizing factors with
  | case1 cs misread step =>
      rw [readFactors_of_error step] at read
      cases read
  | case2 cs factor more step inductionHypothesis =>
      rw [readFactors_of_more step] at read
      have stepOn := readFactor_append_cons step noDigit noSign behind
      rw [List.cons_append] at stepOn
      rw [readFactors_of_more stepOn]
      cases moreRead : readFactors more with
      | error misread =>
          rw [moreRead] at read
          cases read
      | ok taken =>
          rcases taken with ⟨factors, left⟩
          rw [moreRead] at read
          cases read
          rw [inductionHypothesis moreRead]
          rfl
  | case3 cs factor left stops step =>
      have last := head?_ne_x stops
      rw [readFactors_of_last step last] at read
      cases read
      refine readFactors_of_last (readFactor_append_cons step noDigit noSign behind) ?_
      cases rest with
      | nil =>
          exact fun isX => noX rfl (Option.some.inj isX)
      | cons first rest =>
          exact last

end

/-- A text is read as a code if it is read as a chain with the `E` of the code behind it. -/
theorem readCode_ok_iff
    {cs : List Char}
    {code : DiceCode} :
    readCode cs = .ok code ↔
      readFactors cs = .ok (code.factors, Spelling.explodeChars code.explode) := by
  unfold readCode
  cases readFactors cs with
  | error misread =>
      constructor <;> nofun
  | ok taken =>
      rcases taken with ⟨factors, rest⟩
      simp only [bind, Except.bind]
      constructor
      · intro read
        split at read
        · next complete =>
            have taken := readExplode_append rest
            rw [complete, List.append_nil] at taken
            cases read
            rw [taken]
        · cases read
      · intro same
        obtain ⟨rfl, rfl⟩ := Prod.ext_iff.mp (Except.ok.inj same)
        have noE : code.explode = false → ([] : List Char).head? ≠ some 'E' :=
          fun _ => nofun
        have taken := readExplode_explodeChars noE
        rw [List.append_nil] at taken
        rw [taken]
        rfl

namespace DiceCode

/-- A fault in the first factor is the fault of the text. -/
theorem read?_of_fault
    {text : String}
    {cs : List Char}
    {misread : Misread}
    (trimmed : Text.trimChars text.toList = cs)
    (fault : readFactor cs = .error misread) :
    read? text = .error misread := by
  unfold read? readCode
  rw [trimmed, readFactors_of_error fault]
  rfl

theorem read?_of_factor
    {text : String}
    {cs : List Char}
    {factor : Factor}
    {explode : Bool}
    (trimmed : Text.trimChars text.toList = cs)
    (read : readFactor cs = .ok (factor, Spelling.explodeChars explode)) :
    read? text = .ok { factors := [factor], explode := explode } := by
  have last : (Spelling.explodeChars explode).head? ≠ some 'x' := by
    cases explode <;> nofun
  unfold read?
  rw [trimmed, readCode_ok_iff, readFactors_of_last read last]

variable {first second : DiceCode} {text other : String}

theorem explode_eq_false
    (read : read? text = .ok first)
    (noE : text.toList.getLast? ≠ some 'E')
    (noBlank : ∀ c ∈ text.toList.getLast?, Text.isBlank c = false) :
    first.explode = false := by
  obtain ⟨s, shape, rfl⟩ := readCode_sound read
  cases explode : s.explode with
  | false =>
      exact explode
  | true =>
      have ended : 'E' ∈ (Text.trimStart text.toList).getLast? := by
        rw [← Text.trimChars_eq_trimStart noBlank, ← shape]
        simp [Spelling.chars, explode, Spelling.explodeChars, ← List.append_assoc]
      exact absurd (Text.getLast?_trimStart ended) noE

theorem explode_eq_true
    (read : read? text = .ok first)
    (lastE : text.toList.getLast? = some 'E') :
    first.explode = true := by
  obtain ⟨s, shape, rfl⟩ := readCode_sound read
  have noBlank : ∀ c ∈ text.toList.getLast?, Text.isBlank c = false := by
    rw [lastE]
    rintro c ⟨⟩
    decide
  apply s.explode_of_mem
  rw [shape, Text.trimChars_eq_trimStart noBlank]
  exact Text.mem_trimStart (List.mem_of_getLast? lastE) (by decide)

/-- Behind a text without an `E` and an `x`, a text is read as it is on its own. -/
theorem read?_append_x
    (read : read? text = .ok first)
    (noE : text.toList.getLast? ≠ some 'E')
    (noBlankBefore : ∀ c ∈ text.toList.getLast?, Text.isBlank c = false)
    (noBlankBehind : ∀ c ∈ other.toList.head?, Text.isBlank c = false) :
    read? (text ++ "x" ++ other) =
      (read? other).map fun second =>
        { factors := first.factors ++ second.factors, explode := second.explode } := by
  have joined : (text ++ "x" ++ other).toList = text.toList ++ 'x' :: other.toList := by
    simp
  have chain := readCode_ok_iff.mp read
  rw [explode_eq_false read noE noBlankBefore] at chain
  unfold read? readCode
  rw [joined, Text.trimChars_append_cons (by decide) noBlankBefore noBlankBehind, readFactors_append_x chain]
  rcases readFactors (Text.trimChars other.toList) with misread | ⟨factors, rest⟩
  · rfl
  · simp only [Except.map, bind, Except.bind]
    split <;> rfl

/-- Two texts joined by an `x` are read as the code with the factors of both. -/
theorem read?_joined
    (read : read? text = .ok first)
    (noE : text.toList.getLast? ≠ some 'E')
    (noBlankBefore : ∀ c ∈ text.toList.getLast?, Text.isBlank c = false)
    (readOther : read? other = .ok second)
    (noBlankBehind : ∀ c ∈ other.toList.head?, Text.isBlank c = false) :
    read? (text ++ "x" ++ other) =
      .ok { factors := first.factors ++ second.factors, explode := second.explode } := by
  rw [read?_append_x read noE noBlankBefore noBlankBehind, readOther]
  rfl

/-- Behind a text with an `E` and an `x`, everything is left over. -/
theorem read?_append_x_of_explode
    (read : read? text = .ok first)
    (lastE : text.toList.getLast? = some 'E')
    (noBlankBehind : ∀ c ∈ other.toList.head?, Text.isBlank c = false) :
    read? (text ++ "x" ++ other) =
      .error (.rejected
        (.trailingInput (String.ofList ('x' :: Text.trimEnd other.toList)))) := by
  have joined : (text ++ "x" ++ other).toList = text.toList ++ 'x' :: other.toList := by
    simp
  have noBlankBefore : ∀ c ∈ text.toList.getLast?, Text.isBlank c = false := by
    rw [lastE]
    rintro c ⟨⟩
    decide
  have chain := readCode_ok_iff.mp read
  rw [explode_eq_true read lastE] at chain
  have trimmed : Text.trimChars other.toList = Text.trimEnd other.toList :=
    congrArg Text.trimEnd (Text.trimStart_eq_self noBlankBehind)
  unfold read? readCode
  rw [joined, Text.trimChars_append_cons (by decide) noBlankBefore noBlankBehind,
    readFactors_append_cons chain (by decide) (by rintro (_ | _) <;> decide) (by nofun), trimmed]
  rfl

/--
A text that is read, joined by an `x` with any text that begins with no blank. Without
an `E` at its end the two are read as the code of both, or fail as the second does on
its own; with an `E` all from the `x` on is left over.
-/
theorem read?_joined_any
    (read : read? text = .ok first)
    (noBlankBefore : ∀ c ∈ text.toList.getLast?, Text.isBlank c = false)
    (noBlankBehind : ∀ c ∈ other.toList.head?, Text.isBlank c = false) :
    (text.toList.getLast? ≠ some 'E' →
        (∀ second,
          read? other = .ok second →
            read? (text ++ "x" ++ other) =
              .ok { factors := first.factors ++ second.factors, explode := second.explode }) ∧
          ∀ misread,
            read? other = .error misread → read? (text ++ "x" ++ other) = .error misread) ∧
      (text.toList.getLast? = some 'E' →
        read? (text ++ "x" ++ other) =
          .error (.rejected
            (.trailingInput (String.ofList ('x' :: Text.trimEnd other.toList))))) := by
  refine ⟨fun noE => ⟨?_, ?_⟩, ?_⟩
  · intro second readOther
    exact read?_joined read noE noBlankBefore readOther noBlankBehind
  · intro misread readOther
    rw [read?_append_x read noE noBlankBefore noBlankBehind, readOther]
    rfl
  · intro lastE
    exact read?_append_x_of_explode read lastE noBlankBehind

theorem read?_joined_any_leftOver :
    read? "d6" = .ok { factors := [{}] } ∧
      read? "3e" = .error (.rejected (.unexpectedChar "d" "e")) ∧
      read? ("d6" ++ "x" ++ "3e") = .error (.rejected (.unexpectedChar "d" "e")) ∧
      read? "d6E" = .ok { factors := [{}], explode := true } ∧
      read? ("d6E" ++ "x" ++ "d4 ") = .error (.rejected (.trailingInput "xd4")) := by
  have read : read? "d6" = .ok { factors := [{}] } :=
    read?_of_factor rfl rfl
  have readOther : read? "3e" = .error (.rejected (.unexpectedChar "d" "e")) :=
    read?_of_fault rfl rfl
  have readE : read? "d6E" = .ok { factors := [{}], explode := true } :=
    read?_of_factor rfl rfl
  have noBlankBefore : ∀ c ∈ "d6".toList.getLast?, Text.isBlank c = false := by
    rintro c ⟨⟩
    rfl
  have noBlankBeforeE : ∀ c ∈ "d6E".toList.getLast?, Text.isBlank c = false := by
    rintro c ⟨⟩
    rfl
  have noBlankBehind : ∀ c ∈ "3e".toList.head?, Text.isBlank c = false := by
    rintro c ⟨⟩
    rfl
  have noBlankBehindE : ∀ c ∈ "d4 ".toList.head?, Text.isBlank c = false := by
    rintro c ⟨⟩
    rfl
  have rejected := (read?_joined_any read noBlankBefore noBlankBehind).1 (by decide)
  have leftOver := (read?_joined_any readE noBlankBeforeE noBlankBehindE).2 rfl
  exact ⟨read, readOther, rejected.2 _ readOther, readE, leftOver⟩

end DiceCode

end Tabletop
