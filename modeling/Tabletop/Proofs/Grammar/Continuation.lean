import Tabletop.Proofs.Grammar.Joined

namespace Tabletop

/-!
# Texts that go on

More text behind one that is rejected helps only if the fault stands at its end. Reading
is incremental: what has been read before the end of a text, or refused there, is read or
refused in the same way in every text that goes on (`Incremental`). The parts of a factor
are put together by `Incremental.andThen`, and factors to a chain by `readFactors_incremental`.
A number that is too large at the very end only grows with the digits that follow.
-/

namespace Text

theorem head?_trimStart
    (cs : List Char) :
    ∀ c ∈ (trimStart cs).head?, isBlank c = false := by
  intro c first
  have notBlank := List.head?_dropWhile_not isBlank cs
  have isFirst : (cs.dropWhile isBlank).head? = some c := first
  simpa [isFirst] using notBlank

theorem trimEnd_append_blanks (cs : List Char) :
    ∃ blanks, cs = trimEnd cs ++ blanks := by
  obtain ⟨blanks, shape⟩ : cs.reverse.dropWhile isBlank <:+ cs.reverse :=
    List.dropWhile_suffix isBlank
  refine ⟨blanks.reverse, ?_⟩
  rw [trimEnd, ← List.reverse_append, shape, List.reverse_reverse]

theorem trimEnd_shape (cs : List Char) :
    trimEnd cs = [] ∨
      ∃ before last, isBlank last = false ∧ trimEnd cs = before ++ [last] := by
  have notBlank := head?_trimStart cs.reverse
  change (trimStart cs.reverse).reverse = [] ∨ _
  cases shape : trimStart cs.reverse with
  | nil =>
      exact .inl rfl
  | cons last before =>
      rw [shape] at notBlank
      refine .inr ⟨before.reverse, last, notBlank last rfl, ?_⟩
      change (trimStart cs.reverse).reverse = _
      rw [shape, List.reverse_cons]

/-- A trimmed text is not trimmed further at its front. -/
theorem trimStart_trimChars (cs : List Char) :
    trimStart (trimChars cs) = trimChars cs := by
  apply trimStart_eq_self
  intro c first
  obtain ⟨blanks, shape⟩ := trimEnd_append_blanks (trimStart cs)
  have isFirst : (trimEnd (trimStart cs)).head? = some c := first
  apply head?_trimStart cs
  rw [shape, List.head?_append, isFirst]
  rfl

/-- The blanks at the end of a text stand within the text that goes on. -/
theorem trimChars_append
    {cs : List Char}
    (notEmpty : trimChars cs ≠ [])
    (more : List Char) :
    ∃ behind, trimChars (cs ++ more) = trimChars cs ++ behind := by
  obtain ⟨blanks, shape⟩ := trimEnd_append_blanks (trimStart cs)
  obtain ⟨before, last, notBlank, trimmed⟩ :=
    (trimEnd_shape (trimStart cs)).resolve_left notEmpty
  have started : trimStart (cs ++ more) = trimStart cs ++ more := by
    have startNotEmpty : trimStart cs ≠ [] := by
      intro empty
      rw [empty] at shape
      unfold trimChars at notEmpty
      rw [empty] at notEmpty
      exact notEmpty rfl
    unfold trimStart at startNotEmpty ⊢
    rw [List.dropWhile_append, if_neg (by simpa using startNotEmpty)]
  refine ⟨trimEnd (blanks ++ more), ?_⟩
  calc
    trimChars (cs ++ more) = trimEnd (before ++ last :: (blanks ++ more)) := by
      rw [trimChars, started, shape, trimmed]
      simp
    _ = before ++ last :: trimEnd (blanks ++ more) := trimEnd_append_cons notBlank _ _
    _ = trimChars cs ++ trimEnd (blanks ++ more) := by
      rw [trimChars, trimmed]
      simp

namespace LeadingRun

variable {cs run rest : List Char}

/-- A run that ends before the text does ends there in every text that goes on. -/
theorem append
    (leading : LeadingRun cs run rest)
    (before : rest ≠ [])
    (more : List Char) :
    LeadingRun (cs ++ more) run (rest ++ more) where
  split := by rw [leading.split, List.append_assoc]
  digits := leading.digits
  ends := by
    cases rest with
    | nil =>
        exact absurd rfl before
    | cons c rest =>
        exact noDigitAhead_cons.mpr (noDigitAhead_cons.mp leading.ends)

/-- A run up to the end of a text goes on with the digits that follow. -/
theorem extend
    {more digits behind : List Char}
    (leading : LeadingRun cs run [])
    (next : LeadingRun more digits behind) :
    LeadingRun (cs ++ more) (run ++ digits) behind where
  split := by rw [leading.split, next.split, List.append_nil, List.append_assoc]
  digits := List.forall_mem_append.mpr ⟨leading.digits, next.digits⟩
  ends := next.ends

end LeadingRun

/-- Digits behind a run make its number at least ten times as large. -/
theorem numeralValue_append_ge
    (run : List Char)
    {digits : List Char}
    (notEmpty : digits ≠ []) :
    10 * numeralValue run ≤ numeralValue (run ++ digits) := by
  have places : 10 ^ 1 ≤ 10 ^ digits.length :=
    Nat.pow_le_pow_right (by decide) (List.length_pos_iff.mpr notEmpty)
  have scaled := Nat.mul_le_mul_right (numeralValue run) places
  calc
    10 * numeralValue run ≤ 10 ^ digits.length * numeralValue run := scaled
    _ ≤ 10 ^ digits.length * numeralValue run + numeralValue digits := Nat.le_add_right _ _
    _ = numeralValue (run ++ digits) := by
      unfold numeralValue
      rw [Nat.ofDigitChars_append, ← Nat.ofDigitChars_eq_ofDigitChars_zero]

end Text

/-- Whether an error is of a class that no text behind it can repair. -/
def CodeError.Lasts : CodeError → Prop
  | .unexpectedChar _ _ => True
  | .trailingInput _ => True
  | .badNumber text => text ≠ ""
  | _ => False

/-- Whether what reading a text has come to holds whatever follows the text. -/
def Conclusive {α : Type} : Except Misread (α × List Char) → Prop
  | .ok (_, rest) => rest ≠ []
  | .error (.rejected error) => error.Lasts
  | .error (.oversized _) => False

/-- The same reading where more text follows: the same value, or an error of the same class. -/
inductive GoesOn
    {α : Type}
    (more : List Char) :
    Except Misread (α × List Char) → Except Misread (α × List Char) → Prop where
  | read
      {value : α}
      {rest : List Char} :
      GoesOn more (.ok (value, rest)) (.ok (value, rest ++ more))
  | refused
      {error again : CodeError}
      (sameName : again.name = error.name) :
      GoesOn more (.error (.rejected error)) (.error (.rejected again))

/--
Whether a reader comes to its conclusions as it goes: what is conclusive for a text holds
for every text that goes on from it, and nothing is conclusive at the very end.
-/
structure Incremental
    {α : Type}
    (reader : List Char → Except Misread (α × List Char)) :
    Prop where
  goesOn :
    ∀ {cs},
      Conclusive (reader cs) →
      ∀ more, GoesOn more (reader cs) (reader (cs ++ more))
  inconclusive : ¬ Conclusive (reader [])

namespace Incremental

variable {α β : Type} {reader other : List Char → Except Misread (α × List Char)}

theorem giving (value : α) :
    Incremental fun cs => .ok (value, cs) where
  goesOn _ _ := .read
  inconclusive := fun notEmpty => notEmpty rfl

theorem rejecting
    {error : CodeError}
    (repairable : ¬ error.Lasts) :
    Incremental fun _ => (.error (.rejected error) : Except Misread (α × List Char)) where
  goesOn lasts _ := absurd lasts repairable
  inconclusive := repairable

/-- What is read before the end of a text is read in every text that goes on. -/
theorem steady
    (incremental : Incremental reader)
    {cs rest : List Char}
    {value : α}
    (read : reader cs = .ok (value, rest))
    (before : rest ≠ [])
    (more : List Char) :
    reader (cs ++ more) = .ok (value, rest ++ more) := by
  have conclusive : Conclusive (reader cs) := by
    rw [read]
    exact before
  have goesOn := incremental.goesOn conclusive more
  rw [read] at goesOn
  generalize reader (cs ++ more) = again at goesOn ⊢
  cases goesOn
  rfl

/-- An error that lasts is one of the same class in every text that goes on. -/
theorem lasting
    (incremental : Incremental reader)
    {cs : List Char}
    {error : CodeError}
    (refused : reader cs = .error (.rejected error))
    (lasts : error.Lasts)
    (more : List Char) :
    ∃ again, reader (cs ++ more) = .error (.rejected again) ∧ again.name = error.name := by
  have conclusive : Conclusive (reader cs) := by
    rw [refused]
    exact lasts
  have goesOn := incremental.goesOn conclusive more
  rw [refused] at goesOn
  generalize reader (cs ++ more) = result at goesOn ⊢
  cases goesOn with
  | @refused _ again sameName =>
      exact ⟨again, rfl, sameName⟩

/-- An error that lasts in one reader lasts in those that begin with it. -/
theorem refuses
    (incremental : Incremental reader)
    {cs : List Char}
    {misread : Misread}
    (fault : reader cs = .error misread)
    (conclusive : Conclusive (.error misread : Except Misread (β × List Char)))
    (more : List Char) :
    ∃ again,
      reader (cs ++ more) = .error again ∧
        GoesOn more (.error misread : Except Misread (β × List Char)) (.error again) := by
  cases misread with
  | oversized digits =>
      exact conclusive.elim
  | rejected error =>
      obtain ⟨again, isAgain, sameName⟩ := incremental.lasting fault conclusive more
      exact ⟨.rejected again, isAgain, .refused sameName⟩

/-- A second reader is conclusive only behind a first that stops before the end. -/
theorem andThen
    {next : α × List Char → Except Misread (β × List Char)}
    (begins : Incremental reader)
    (continues : ∀ value, Incremental fun rest => next (value, rest)) :
    Incremental fun cs => reader cs >>= next where
  goesOn := by
    intro cs conclusive more
    rcases first : reader cs with misread | ⟨value, rest⟩
    · rw [first] at conclusive
      obtain ⟨again, isAgain, goesOn⟩ := begins.refuses first conclusive more
      rw [isAgain]
      exact goesOn
    · rw [first] at conclusive
      by_cases ended : rest = []
      · subst ended
        exact absurd conclusive (continues value).inconclusive
      · rw [begins.steady first ended more]
        exact (continues value).goesOn conclusive more
  inconclusive := by
    have inconclusive := begins.inconclusive
    revert inconclusive
    rcases reader [] with (error | digits) | ⟨value, rest⟩
    · exact id
    · exact id
    · intro inconclusive
      obtain rfl : rest = [] := Classical.not_not.mp inconclusive
      exact (continues value).inconclusive

/-- A reader that treats the empty text apart from all others. -/
theorem of_cons
    (inconclusive : ¬ Conclusive (reader []))
    (goesOn :
      ∀ {c cs},
        Conclusive (reader (c :: cs)) →
        ∀ more, GoesOn more (reader (c :: cs)) (reader (c :: (cs ++ more)))) :
    Incremental reader where
  goesOn := by
    intro cs conclusive more
    cases cs with
    | nil =>
        exact absurd conclusive inconclusive
    | cons c cs =>
        exact goesOn conclusive more
  inconclusive := inconclusive

end Incremental

section

variable {α β : Type} {more : List Char} {change : α → β}
variable {result again : Except Misread (α × List Char)}

/-- A change of the value makes no difference to what is conclusive. -/
theorem conclusive_map_iff :
    Conclusive (result.map fun (value, rest) => (change value, rest)) ↔ Conclusive result := by
  rcases result with (error | digits) | ⟨value, rest⟩ <;> rfl

theorem GoesOn.map
    (goesOn : GoesOn more result again) :
    GoesOn more
      (result.map fun (value, rest) => (change value, rest))
      (again.map fun (value, rest) => (change value, rest)) := by
  cases goesOn with
  | read =>
      exact .read
  | refused sameName =>
      exact .refused sameName

theorem Incremental.map
    {reader : List Char → Except Misread (α × List Char)}
    (begins : Incremental reader)
    (change : α → β) :
    Incremental fun cs => (reader cs).map fun (value, rest) => (change value, rest) where
  goesOn conclusive more := (begins.goesOn (conclusive_map_iff.mp conclusive) more).map
  inconclusive := fun conclusive => begins.inconclusive (conclusive_map_iff.mp conclusive)

end

/--
Whether a run of digits is refused for its value: the number is too large, and no number
of so few significant digits that the length of the run comes first.
-/
structure TooLarge (run : List Char) : Prop where
  large : greatestNumber < Text.numeralValue run
  short : Text.numeralValue run < 1000 → run.length ≤ digitLimit

/-- A number that is too large only grows with the digits that follow. -/
theorem TooLarge.append
    {run : List Char}
    (tooLarge : TooLarge run)
    (digits : List Char) :
    TooLarge (run ++ digits) := by
  by_cases noDigit : digits = []
  · rw [noDigit, List.append_nil]
    exact tooLarge
  · have grown := Text.numeralValue_append_ge run noDigit
    have large := tooLarge.large
    unfold greatestNumber at large
    constructor
    · unfold greatestNumber
      omega
    · intro small
      omega

theorem readNumber_of_tooLarge
    {cs run rest : List Char}
    (leading : Text.LeadingRun cs run rest)
    (tooLarge : TooLarge run) :
    readNumber cs = .error (.rejected (.badNumber (String.ofList run))) := by
  have notEmpty : run ≠ [] := by
    rintro rfl
    exact absurd tooLarge.large (by decide)
  rw [readNumber_of_leadingRun leading, if_neg notEmpty]
  by_cases many : 1000 ≤ Text.numeralValue run
  · rw [if_pos many]
  · have short := tooLarge.short (Nat.lt_of_not_le many)
    rw [if_neg many, if_neg (Nat.not_lt.mpr short), if_pos tooLarge.large]

/-- An error that lasts blames a run of digits for its value. -/
theorem exists_tooLarge
    {cs : List Char}
    {error : CodeError}
    (refused : readNumber cs = .error (.rejected error))
    (lasts : error.Lasts) :
    ∃ run rest,
      Text.LeadingRun cs run rest ∧ TooLarge run ∧ error = .badNumber (String.ofList run) := by
  have reading := readNumber_reading cs
  rw [refused] at reading
  cases reading with
  | fault fault =>
      cases fault with
      | missing ends =>
          exact absurd rfl lasts
      | @tooLarge run rest leading large =>
          refine ⟨run, rest, leading, ⟨large, ?_⟩, rfl⟩
          intro small
          apply Nat.le_of_not_lt
          intro long
          have oversized := readNumber_oversized_iff.mpr (.padded leading long small)
          rw [refused] at oversized
          cases oversized

theorem readNumber_incremental : Incremental readNumber where
  goesOn := by
    intro cs conclusive more
    cases read : readNumber cs with
    | error misread =>
        rw [read] at conclusive
        cases misread with
        | oversized digits =>
            exact conclusive.elim
        | rejected error =>
            obtain ⟨run, rest, leading, tooLarge, rfl⟩ := exists_tooLarge read conclusive
            -- at the very end the run goes on with the digits that follow
            by_cases ended : rest = []
            · subst ended
              rw [readNumber_of_tooLarge (leading.extend (Text.leadingRun_spanDigits more))
                (tooLarge.append _)]
              exact .refused rfl
            · rw [readNumber_of_tooLarge (leading.append ended more) tooLarge]
              exact .refused rfl
    | ok taken =>
        rw [read] at conclusive
        have notOverlong (digits : Nat) : ¬ NumberOverlong cs digits := by
          rw [← readNumber_oversized_iff, read]
          nofun
        have reading := readNumber_reading cs
        rw [read] at reading
        cases reading with
        | read n leading =>
            have short := WrittenNumber.short_of_notOverlong leading notOverlong
            rw [readNumber_written (leading.append conclusive more) short]
            exact .read
  inconclusive := fun lasts => lasts rfl

theorem readSides_incremental : Incremental readSides := by
  apply readNumber_incremental.andThen
  intro sides
  by_cases few : sides < 2
  · simp only [if_pos few]
    exact .rejecting id
  · simp only [if_neg few]
    exact .giving sides

theorem readCount_incremental : Incremental readCount := by
  have counted :
      Incremental fun cs =>
        readNumber cs >>= fun taken =>
          if taken.1 = 0 then .error (.rejected .noRepeats) else .ok taken := by
    apply readNumber_incremental.andThen
    intro count
    by_cases zero : count = 0
    · simp only [if_pos zero]
      exact .rejecting id
    · simp only [if_neg zero]
      exact .giving count
  apply Incremental.of_cons
  · exact fun notEmpty => notEmpty rfl
  · intro c cs conclusive more
    unfold readCount at conclusive ⊢
    by_cases digit : c.isDigit = true
    · simp only [List.head?_cons, Option.any_some, digit, if_true] at conclusive ⊢
      exact counted.goesOn conclusive more
    · simp only [List.head?_cons, Option.any_some, digit] at conclusive ⊢
      exact .read

theorem readModifier_incremental : Incremental readModifier := by
  apply Incremental.of_cons
  · exact fun notEmpty => notEmpty rfl
  · intro c cs conclusive more
    by_cases isSign : ∃ sign : Sign, c = sign.char
    · obtain ⟨sign, rfl⟩ := isSign
      rw [readModifier_sign] at conclusive ⊢
      rw [readModifier_sign]
      let signed (operand : Nat) : Modifier :=
        { operation := sign.operation, operand := operand }
      exact (readNumber_incremental.map signed).goesOn conclusive more
    · have noSign (cs : List Char) : ∀ sign : Sign, (c :: cs).head? ≠ some sign.char :=
        fun sign same => isSign ⟨sign, Option.some.inj same⟩
      rw [readModifier_of_noSign (noSign _), readModifier_of_noSign (noSign _)]
      exact .read

/-- What is read of a factor behind its `d`. -/
def readDie
    (count : Nat)
    (cs : List Char) :
    Except Misread (Factor × List Char) :=
  readSides cs >>= fun (sides, rest) =>
    (readModifier rest).map fun (modifier, rest) =>
      ({ count := count, sides := sides, modifier := modifier }, rest)

theorem readDie_incremental (count : Nat) :
    Incremental (readDie count) := by
  apply readSides_incremental.andThen
  intro sides
  let factor (modifier : Modifier) : Factor :=
    { count := count, sides := sides, modifier := modifier }
  exact readModifier_incremental.map factor

section

variable {cs behind : List Char} {count : Nat} {misread : Misread}

theorem readFactor_of_error
    (fault : readCount cs = .error misread) :
    readFactor cs = .error misread := by
  simp [readFactor, fault, bind, Except.bind]

theorem readFactor_of_ended
    (counted : readCount cs = .ok (count, [])) :
    readFactor cs = .error (.rejected (.unexpectedEnd (String.ofList cs))) := by
  simp [readFactor, counted, bind, Except.bind]

theorem readFactor_of_die
    (counted : readCount cs = .ok (count, 'd' :: behind)) :
    readFactor cs = readDie count behind := by
  simp only [readFactor, readDie, counted, bind, Except.bind, if_true]
  cases readSides behind with
  | error misread =>
      rfl
  | ok taken =>
      rcases taken with ⟨sides, rest⟩
      cases readModifier rest <;> rfl

theorem readFactor_of_noDie
    {c : Char}
    (counted : readCount cs = .ok (count, c :: behind))
    (notD : c ≠ 'd') :
    readFactor cs = .error (.rejected (.unexpectedChar "d" (String.ofList (c :: behind)))) := by
  simp [readFactor, counted, notD, bind, Except.bind]

end

theorem readFactor_incremental : Incremental readFactor where
  goesOn := by
    intro cs conclusive more
    cases counted : readCount cs with
    | error misread =>
        rw [readFactor_of_error counted] at conclusive ⊢
        obtain ⟨again, isAgain, goesOn⟩ := readCount_incremental.refuses counted conclusive more
        rw [readFactor_of_error isAgain]
        exact goesOn
    | ok taken =>
        rcases taken with ⟨count, rest⟩
        cases rest with
        | nil =>
            rw [readFactor_of_ended counted] at conclusive
            exact conclusive.elim
        | cons c behind =>
            have countedOn := readCount_incremental.steady counted (List.cons_ne_nil c behind) more
            by_cases isD : c = 'd'
            · subst isD
              rw [readFactor_of_die counted] at conclusive ⊢
              rw [readFactor_of_die countedOn]
              exact (readDie_incremental count).goesOn conclusive more
            · rw [readFactor_of_noDie counted isD, readFactor_of_noDie countedOn isD]
              exact .refused rfl
  inconclusive := id

/-- A chain goes on as its factors do, since each of them stops before the next one begins. -/
theorem readFactors_goesOn
    {cs : List Char}
    (conclusive : Conclusive (readFactors cs))
    (more : List Char) :
    GoesOn more (readFactors cs) (readFactors (cs ++ more)) := by
  induction cs using readFactors.induct with
  | case1 cs misread step =>
      rw [readFactors_of_error step] at conclusive ⊢
      obtain ⟨again, isAgain, goesOn⟩ := readFactor_incremental.refuses step conclusive more
      rw [readFactors_of_error isAgain]
      exact goesOn
  | case2 cs factor rest step inductionHypothesis =>
      have stepOn := readFactor_incremental.steady step (List.cons_ne_nil 'x' rest) more
      rw [readFactors_of_more step] at conclusive ⊢
      rw [readFactors_of_more stepOn]
      exact (inductionHypothesis (conclusive_map_iff.mp conclusive)).map
  | case3 cs factor rest noX step =>
      have last := head?_ne_x noX
      rw [readFactors_of_last step last] at conclusive ⊢
      have stepOn := readFactor_incremental.steady step conclusive more
      have lastOn : (rest ++ more).head? ≠ some 'x' := by
        cases rest with
        | nil =>
            exact absurd rfl conclusive
        | cons c rest =>
            exact last
      rw [readFactors_of_last stepOn lastOn]
      exact .read

theorem readFactors_incremental : Incremental readFactors where
  goesOn := readFactors_goesOn
  inconclusive := by
    rw [readFactors_of_error (readFactor_of_ended rfl)]
    exact id

theorem readExplode_append_more
    {rest : List Char}
    (before : rest ≠ [])
    (more : List Char) :
    readExplode (rest ++ more) = ((readExplode rest).1, (readExplode rest).2 ++ more) := by
  cases rest with
  | nil =>
      exact absurd rfl before
  | cons c rest =>
      by_cases isE : c = 'E'
      · subst isE
        rfl
      · simp [readExplode, isE]

/-- An error that lasts is one of the same class in every text that goes on. -/
theorem readCode_lasting
    {cs : List Char}
    {error : CodeError}
    (refused : readCode cs = .error (.rejected error))
    (lasts : error.Lasts)
    (more : List Char) :
    ∃ again, readCode (cs ++ more) = .error (.rejected again) ∧ again.name = error.name := by
  unfold readCode at refused ⊢
  cases chain : readFactors cs with
  | error misread =>
      rw [chain] at refused
      rw [Except.error.inj refused] at chain
      obtain ⟨again, isAgain, sameName⟩ := readFactors_incremental.lasting chain lasts more
      exact ⟨again, by rw [isAgain]; rfl, sameName⟩
  | ok taken =>
      rcases taken with ⟨factors, rest⟩
      simp only [chain, bind, Except.bind] at refused
      by_cases complete : (readExplode rest).2 = []
      · rw [if_pos complete] at refused
        cases refused
      · rw [if_neg complete] at refused
        cases refused
        have before : rest ≠ [] := by
          rintro rfl
          exact complete rfl
        have leftOver : (readExplode rest).2 ++ more ≠ [] := by
          simp [complete]
        refine ⟨.trailingInput (String.ofList ((readExplode rest).2 ++ more)), ?_, rfl⟩
        simp only [readFactors_incremental.steady chain before more, bind, Except.bind,
          readExplode_append_more before, if_neg leftOver]

/-- Only a factor that ends with its count ends too early. -/
theorem FactorFault.counted_of_unexpectedEnd
    {cs : List Char}
    {context : String}
    (fault : FactorFault cs (.unexpectedEnd context)) :
    ∃ count, CountSpelled cs count [] := by
  cases fault with
  | count fault =>
      cases fault
  | @ended count counted =>
      exact ⟨count, counted⟩
  | sides counted fault =>
      cases fault with
      | number fault =>
          cases fault
  | modifier counted sided fault =>
      cases fault with
      | operand shape fault =>
          cases fault

/-- A factor that has ended with its count is complete with a `d6` behind it. -/
theorem readFactor_completed
    {cs : List Char}
    {context : String}
    (ended : readFactor cs = .error (.rejected (.unexpectedEnd context))) :
    ∃ factor, readFactor (cs ++ ['d', '6']) = .ok (factor, []) := by
  have reading := readFactor_reading cs
  rw [ended] at reading
  cases reading with
  | fault fault =>
      obtain ⟨count, counted⟩ := fault.counted_of_unexpectedEnd
      have notOverlong (digits : Nat) : ¬ NumberOverlong cs digits := by
        intro overlong
        rw [(FactorOverlong.count overlong).readFactor_eq] at ended
        cases ended
      have short : ∀ n ∈ count, n.digits.length ≤ digitLimit := by
        rintro n ⟨⟩
        exact WrittenNumber.short_of_notOverlong counted.leading notOverlong
      have die : Text.NoDigitAhead ['d', '6'] :=
        Text.noDigitAhead_cons.mpr (by decide)
      have leading := counted.leading.extend (Text.leadingRun_nil die)
      rw [List.append_nil] at leading
      have countedOn : CountSpelled (cs ++ ['d', '6']) count ['d', '6'] :=
        ⟨leading, counted.notZero⟩
      exact ⟨_, readFactor_of_die (readCount_spelled countedOn short)⟩

theorem readFactors_completed
    {cs : List Char}
    {context : String}
    (ended : readFactors cs = .error (.rejected (.unexpectedEnd context))) :
    ∃ factors, readFactors (cs ++ ['d', '6']) = .ok (factors, []) := by
  induction cs using readFactors.induct with
  | case1 cs misread step =>
      rw [readFactors_of_error step] at ended
      rw [Except.error.inj ended] at step
      obtain ⟨factor, completed⟩ := readFactor_completed step
      exact ⟨[factor], readFactors_of_last completed (by simp)⟩
  | case2 cs factor rest step inductionHypothesis =>
      have stepOn := readFactor_incremental.steady step (List.cons_ne_nil 'x' rest) ['d', '6']
      rw [readFactors_of_more step] at ended
      have restEnded : readFactors rest = .error (.rejected (.unexpectedEnd context)) := by
        cases more : readFactors rest with
        | error misread =>
            rw [more] at ended
            exact congrArg Except.error (Except.error.inj ended)
        | ok taken =>
            rw [more] at ended
            cases ended
      obtain ⟨factors, completed⟩ := inductionHypothesis restEnded
      refine ⟨factor :: factors, ?_⟩
      rw [List.cons_append] at stepOn
      rw [readFactors_of_more stepOn, completed]
      rfl
  | case3 cs factor rest noX step =>
      rw [readFactors_of_last step (head?_ne_x noX)] at ended
      cases ended

theorem readCode_completed
    {cs : List Char}
    {context : String}
    (ended : readCode cs = .error (.rejected (.unexpectedEnd context))) :
    ∃ code, readCode (cs ++ ['d', '6']) = .ok code := by
  unfold readCode at ended
  cases chain : readFactors cs with
  | error misread =>
      rw [chain] at ended
      rw [Except.error.inj ended] at chain
      obtain ⟨factors, completed⟩ := readFactors_completed chain
      refine ⟨{ factors := factors, explode := false }, ?_⟩
      rw [readCode_ok_iff]
      exact completed
  | ok taken =>
      rw [chain] at ended
      simp only [bind, Except.bind] at ended
      split at ended <;> cases ended

namespace DiceCode

/--
The class of an error tells whether more text can help. A text that ends too early is
completed by a `d6` behind it, once the blanks are removed; an error that lasts is one of
the same class whatever follows the text.
-/
theorem read?_continued :
    (∀ text context,
        read? text = .error (.rejected (.unexpectedEnd context)) →
        ∃ code, read? (Text.trim text ++ "d6") = .ok code) ∧
      ∀ text error,
        read? text = .error (.rejected error) →
        error.Lasts →
        ∀ more, ∃ again,
          read? (text ++ more) = .error (.rejected again) ∧ again.name = error.name := by
  constructor
  · intro text context ended
    obtain ⟨code, completed⟩ := readCode_completed ended
    refine ⟨code, ?_⟩
    have joined :
        (Text.trim text ++ "d6").toList = Text.trimChars text.toList ++ ['d', '6'] := by
      simp [Text.trim]
    have trimmed :
        Text.trimChars (Text.trimChars text.toList ++ ['d', '6']) =
          Text.trimChars text.toList ++ ['d', '6'] := by
      rw [Text.trimChars, Text.trimStart_append_cons (by decide), Text.trimStart_trimChars,
        Text.trimEnd_append_cons (by decide)]
      rfl
    unfold read?
    rw [joined, trimmed]
    exact completed
  · intro text error refused lasts more
    have notEmpty : Text.trimChars text.toList ≠ [] := by
      intro empty
      unfold read? at refused
      rw [empty] at refused
      have ended : readCode [] = .error (.rejected (.unexpectedEnd "")) := by
        rw [readCode, readFactors_of_error (readFactor_of_ended rfl)]
        rfl
      cases ended.symm.trans refused
      exact lasts
    obtain ⟨behind, shape⟩ := Text.trimChars_append notEmpty more.toList
    unfold read?
    rw [String.toList_append, shape]
    exact readCode_lasting refused lasts behind

/-- A count before a line break can be completed; a number that is too large grows. -/
theorem read?_continued_countAndLarge :
    read? " 3\n" = .error (.rejected (.unexpectedEnd "3")) ∧
      (∃ code, read? (Text.trim " 3\n" ++ "d6") = .ok code) ∧
      read? "d300" = .error (.rejected (.badNumber "300")) ∧
      ∃ again,
        read? ("d300" ++ "0E") = .error (.rejected again) ∧ again.name = "NumberParseError" := by
  have ended : read? " 3\n" = .error (.rejected (.unexpectedEnd "3")) :=
    read?_of_fault rfl rfl
  have large : read? "d300" = .error (.rejected (.badNumber "300")) :=
    read?_of_fault rfl rfl
  have notEmpty : "300" ≠ "" := by
    decide
  exact ⟨ended, read?_continued.1 _ _ ended, large,
    read?_continued.2 _ _ large notEmpty "0E"⟩

end DiceCode

end Tabletop
