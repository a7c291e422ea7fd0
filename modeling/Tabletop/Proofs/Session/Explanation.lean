import Mathlib.Algebra.Order.BigOperators.Group.List
import Mathlib.Algebra.Order.Group.Int
import Mathlib.Data.List.Basic
import Tabletop.Proofs.Session.Replay

namespace Tabletop

/-!
# Explanations

The explanation of an audit is the canonical text, the faces that were drawn and the
total in one line. Every position of a code that is read draws at least one die, so there
are faces to list. A colon stands in no canonical text, a bracket and a comma in no list
of numerals and no numeral, so the three parts are recovered from the line.
-/

namespace Text

theorem mem_signedNumeral
    {i : Int}
    {c : Char}
    (member : c ∈ signedNumeral i) :
    c.isDigit = true ∨ c = '-' := by
  cases i with
  | ofNat n =>
      exact .inl (Nat.isDigit_of_mem_toDigits (by decide) (by decide) member)
  | negSucc n =>
      rcases List.mem_cons.mp member with isDash | inNumeral
      · exact .inr isDash
      · exact .inl (Nat.isDigit_of_mem_toDigits (by decide) (by decide) inNumeral)

theorem numeral_injective
    {m n : Nat}
    (same : numeral m = numeral n) :
    m = n := by
  have value := congrArg numeralValue same
  rwa [numeralValue_numeral, numeralValue_numeral] at value

theorem signedNumeral_injective
    {i j : Int}
    (same : signedNumeral i = signedNumeral j) :
    i = j := by
  have noDash (n : Nat) (digits : List Char) : numeral n ≠ '-' :: digits := by
    intro shape
    have member : '-' ∈ numeral n := by
      simp [shape]
    have digit := Nat.isDigit_of_mem_toDigits (b := 10) (by decide) (by decide) member
    exact absurd digit (by decide)
  cases i with
  | ofNat m =>
      cases j with
      | ofNat n =>
          exact congrArg Int.ofNat (numeral_injective same)
      | negSucc n =>
          exact absurd same (noDash m _)
  | negSucc m =>
      cases j with
      | ofNat n =>
          exact absurd same.symm (noDash n _)
      | negSucc n =>
          have next := numeral_injective (List.cons.inj same).2
          rw [Nat.succ.inj next]

/-- A text is split in one way only at the first place of a character. -/
theorem split_unique
    {c : Char}
    {before other behind otherBehind : List Char}
    (same : before ++ c :: behind = other ++ c :: otherBehind)
    (notBefore : c ∉ before)
    (notOther : c ∉ other) :
    before = other ∧ behind = otherBehind := by
  induction before generalizing other with
  | nil =>
      cases other with
      | nil =>
          exact ⟨rfl, (List.cons.inj same).2⟩
      | cons first other =>
          exact absurd (List.cons.inj same).1 (List.ne_of_not_mem_cons notOther)
  | cons first before inductionHypothesis =>
      cases other with
      | nil =>
          exact absurd (List.cons.inj same).1.symm (List.ne_of_not_mem_cons notBefore)
      | cons otherFirst other =>
          obtain ⟨rfl, rest⟩ := List.cons.inj same
          obtain ⟨rfl, behindSame⟩ :=
            inductionHypothesis rest (List.not_mem_of_not_mem_cons notBefore)
              (List.not_mem_of_not_mem_cons notOther)
          exact ⟨rfl, behindSame⟩

/-- Texts without a character are recovered from their list with separators that begin with it. -/
theorem intercalate_injective
    {c : Char}
    {separator : List Char}
    {texts others : List (List Char)}
    (same : (c :: separator).intercalate texts = (c :: separator).intercalate others)
    (notIn : ∀ text ∈ texts, c ∉ text)
    (notInOthers : ∀ text ∈ others, c ∉ text)
    (notEmpty : texts ≠ [])
    (othersNotEmpty : others ≠ []) :
    texts = others := by
  have alone
      {text first second : List Char}
      {rest : List (List Char)}
      (without : c ∉ text) :
      (c :: separator).intercalate [text] ≠
        (c :: separator).intercalate (first :: second :: rest) := by
    intro shape
    rw [List.intercalate_singleton, List.intercalate_cons_cons] at shape
    exact without (by simp [shape])
  induction texts generalizing others with
  | nil =>
      exact absurd rfl notEmpty
  | cons text texts inductionHypothesis =>
      have without := notIn text (.head texts)
      cases others with
      | nil =>
          exact absurd rfl othersNotEmpty
      | cons other others =>
          have otherWithout := notInOthers other (.head others)
          cases texts with
          | nil =>
              cases others with
              | nil =>
                  simpa using same
              | cons second others =>
                  exact absurd same (alone without)
          | cons next texts =>
              cases others with
              | nil =>
                  exact absurd same.symm (alone otherWithout)
              | cons second others =>
                  rw [List.intercalate_cons_cons, List.intercalate_cons_cons, List.append_assoc,
                    List.append_assoc, List.cons_append, List.cons_append] at same
                  obtain ⟨rfl, rest⟩ := split_unique same without otherWithout
                  have restSame :=
                    inductionHypothesis (List.append_cancel_left rest)
                      (fun text member => notIn text (.tail _ member))
                      (fun text member => notInOthers text (.tail _ member))
                      (List.cons_ne_nil _ _) (List.cons_ne_nil _ _)
                  rw [restSame]

theorem mem_intercalate
    {c : Char}
    {separator : List Char}
    {texts : List (List Char)}
    (member : c ∈ separator.intercalate texts) :
    c ∈ separator ∨ ∃ text ∈ texts, c ∈ text := by
  induction texts with
  | nil =>
      cases member
  | cons text texts inductionHypothesis =>
      cases texts with
      | nil =>
          rw [List.intercalate_singleton] at member
          exact .inr ⟨text, .head [], member⟩
      | cons next texts =>
          rw [List.intercalate_cons_cons, List.mem_append, List.mem_append] at member
          rcases member with (inText | inSeparator) | inRest
          · exact .inr ⟨text, .head _, inText⟩
          · exact .inl inSeparator
          · refine (inductionHypothesis inRest).imp_right ?_
            rintro ⟨found, inTexts, inFound⟩
            exact ⟨found, .tail text inTexts, inFound⟩

end Text

/-- Whether a character can stand in the canonical text of a code. -/
def IsCodeChar (c : Char) : Prop :=
  c.isDigit = true ∨ c ∈ ['d', 'x', '+', '-', 'E']

theorem isCodeChar_signedNumeral
    {i : Int}
    {c : Char}
    (member : c ∈ Text.signedNumeral i) :
    IsCodeChar c := by
  rcases Text.mem_signedNumeral member with digit | rfl
  · exact .inl digit
  · exact .inr (by decide)

theorem Modifier.isCodeChar_chars
    {modifier : Modifier}
    {c : Char}
    (member : c ∈ modifier.chars) :
    IsCodeChar c := by
  unfold chars at member
  split at member
  · rcases List.mem_cons.mp member with rfl | inOperand
    · exact .inr (by decide)
    · exact isCodeChar_signedNumeral inOperand
  · rcases List.mem_cons.mp member with rfl | inOperand
    · exact .inr (by decide)
    · exact isCodeChar_signedNumeral inOperand
  · cases member
  · cases member

theorem Factor.isCodeChar_chars
    {factor : Factor}
    {c : Char}
    (member : c ∈ factor.chars) :
    IsCodeChar c := by
  simp only [chars, List.mem_append, List.mem_cons] at member
  rcases member with inCount | rfl | inSides | inModifier
  · split at inCount
    · cases inCount
    · exact isCodeChar_signedNumeral inCount
  · exact .inr (by decide)
  · exact isCodeChar_signedNumeral inSides
  · exact factor.modifier.isCodeChar_chars inModifier

theorem isCodeChar_factorChars
    {factors : List Factor}
    {c : Char}
    (member : c ∈ factorChars factors) :
    IsCodeChar c := by
  induction factors using factorChars.induct with
  | case1 =>
      cases member
  | case2 factor =>
      exact factor.isCodeChar_chars member
  | case3 factor rest notEmpty inductionHypothesis =>
      rw [factorChars] at member
      · simp only [List.mem_append, List.mem_cons] at member
        rcases member with inFactor | rfl | inRest
        · exact factor.isCodeChar_chars inFactor
        · exact .inr (by decide)
        · exact inductionHypothesis inRest
      · exact notEmpty

theorem DiceCode.isCodeChar_chars
    {code : DiceCode}
    {c : Char}
    (member : c ∈ code.chars) :
    IsCodeChar c := by
  rcases List.mem_append.mp member with inFactors | inE
  · exact isCodeChar_factorChars inFactors
  · split at inE
    · rw [List.mem_singleton.mp inE]
      exact .inr (by decide)
    · cases inE

theorem DiceCode.noColon_text (code : DiceCode) :
    ':' ∉ code.text.toList := by
  unfold text
  rw [String.toList_ofList]
  intro member
  exact absurd (isCodeChar_chars member) (by unfold IsCodeChar; decide)

/-- The fewest faces that settle a position: two for a pair, one for any other. -/
def Rules.fewestFaces
    (rules : Rules)
    (sides : Int) :
    Nat :=
  if sides = 66 ∧ rules.whole66 = false then 2 else 1

/-- The fewest faces that settle all positions of a factor. -/
def Factor.fewestDraws
    (rules : Rules)
    (factor : Factor) :
    Int :=
  factor.count * rules.fewestFaces factor.sides

section

variable {rules : Rules}

theorem Rules.fewestFaces_pos
    (rules : Rules)
    (sides : Int) :
    0 < rules.fewestFaces sides := by
  unfold fewestFaces
  split <;> decide

theorem PositionSettled.fewest_le
    {sides : Int}
    {block : List Int}
    {worth : Int}
    (settled : PositionSettled rules sides block worth) :
    rules.fewestFaces sides ≤ block.length := by
  unfold Rules.fewestFaces
  cases settled with
  | pair paired tensRange unitsRange =>
      simp [paired]
  | chain exploding lastRange =>
      simp [exploding.2]
  | single notPaired notExploding faceRange =>
      simp [notPaired]

theorem PositionsSettled.fewest_le
    {sides : Int}
    {count : Nat}
    {faces : List Int}
    {sum : Int}
    (settled : PositionsSettled rules sides count faces sum) :
    count * rules.fewestFaces sides ≤ faces.length := by
  induction settled with
  | done =>
      simp
  | next settled rest inductionHypothesis =>
      have first := settled.fewest_le
      rw [Nat.succ_mul, List.length_append]
      omega

theorem FactorsSettled.fewest_le
    {factors : List Factor}
    {faces : List Int}
    {product : Int}
    (settled : FactorsSettled rules factors faces product) :
    (factors.map (Factor.fewestDraws rules)).sum ≤ faces.length := by
  induction settled with
  | done =>
      simp
  | @next factor factors faces more sum product settled rest inductionHypothesis =>
      have first : factor.fewestDraws rules ≤ faces.length :=
        calc
          factor.count * rules.fewestFaces factor.sides
            ≤ factor.count.toNat * rules.fewestFaces factor.sides :=
              Int.mul_le_mul_of_nonneg_right (Int.self_le_toNat _) (Int.natCast_nonneg _)
          _ ≤ faces.length := Int.ofNat_le.mpr settled.fewest_le
      rw [List.map_cons, List.sum_cons, List.length_append]
      omega

/-- A code that can be written draws at least one die. -/
theorem DiceCode.WellFormed.fewest_pos
    {code : DiceCode}
    (wellFormed : code.WellFormed)
    (rules : Rules) :
    0 < (code.factors.map (Factor.fewestDraws rules)).sum := by
  apply List.sum_pos
  · intro draws member
    obtain ⟨factor, inCode, rfl⟩ := List.mem_map.mp member
    have count := (wellFormed.factors factor inCode).count.1
    exact Int.mul_pos count (Int.ofNat_lt.mpr (rules.fewestFaces_pos factor.sides))
  · simpa using wellFormed.nonempty

end

namespace Audit

/-- Whether an audit is what some source comes to where a text is rolled by given rules. -/
def Given
    (rules : Rules)
    (text : String)
    (audit : Audit) :
    Prop :=
  ∃ (σ : Type) (source : Source σ) (title : String) (state : σ),
    (source.auditText title rules text state).outcome = .ok audit

/-- The faces that were drawn as they are listed in an explanation. -/
def faceList (audit : Audit) : String :=
  ", ".intercalate (audit.faces.map Text.showInt)

/-- Whether an audit is of the code of a text, and no position of the code goes without a die. -/
structure Covers
    (rules : Rules)
    (text : String)
    (code : DiceCode)
    (audit : Audit) :
    Prop where
  read : DiceCode.read? text = .ok code
  normalized : audit.normalized = code.text
  fewest : (code.factors.map (Factor.fewestDraws rules)).sum ≤ audit.rolls.length
  notEmpty : audit.rolls ≠ []

theorem Given.covers
    {rules : Rules}
    {text : String}
    {audit : Audit}
    (given : audit.Given rules text) :
    ∃ code, audit.Covers rules text code := by
  obtain ⟨σ, source, title, state, done⟩ := given
  cases read : DiceCode.read? text with
  | error misread =>
      rw [Source.auditText, read] at done
      cases done
  | ok code =>
      rw [Source.auditText, read] at done
      obtain ⟨rolls, product, left, -, settled, -, rfl⟩ := Source.auditCode_ok done
      have fewest := FactorsSettled.fewest_le settled
      rw [List.length_map] at fewest
      have drawn : 0 < (code.factors.map (Factor.fewestDraws rules)).sum :=
        (DiceCode.wellFormed_of_read? read).fewest_pos rules
      refine ⟨code, read, rfl, fewest, ?_⟩
      rintro rfl
      exact absurd fewest (Int.not_le.mpr drawn)

theorem explanation_of_notEmpty
    {audit : Audit}
    (notEmpty : audit.rolls ≠ []) :
    audit.explanation =
      audit.normalized ++ ": rolls [" ++ audit.faceList ++ "] => " ++ Text.showInt audit.total := by
  have listed : audit.rolls.isEmpty = false := by
    simpa using notEmpty
  simp [explanation, faceList, faces, listed, String.append_assoc, Function.comp_def]

theorem faceList_toList (audit : Audit) :
    audit.faceList.toList = [',', ' '].intercalate (audit.faces.map Text.signedNumeral) := by
  simp [faceList, String.toList_intercalate, Text.showInt, Function.comp_def]

theorem noBracket_faceList (audit : Audit) :
    ']' ∉ audit.faceList.toList := by
  rw [faceList_toList]
  intro member
  rcases Text.mem_intercalate member with inSeparator | ⟨numeral, inFaces, inNumeral⟩
  · exact absurd inSeparator (by decide)
  · obtain ⟨face, -, rfl⟩ := List.mem_map.mp inFaces
    exact absurd (Text.mem_signedNumeral inNumeral) (by decide)

theorem faces_eq_of_faceList
    {audit other : Audit}
    (same : audit.faceList = other.faceList)
    (notEmpty : audit.rolls ≠ [])
    (otherNotEmpty : other.rolls ≠ []) :
    audit.faces = other.faces := by
  have noComma (faces : List Int) :
      ∀ numeral ∈ faces.map Text.signedNumeral, ',' ∉ numeral := by
    intro numeral inFaces member
    obtain ⟨face, -, rfl⟩ := List.mem_map.mp inFaces
    exact absurd (Text.mem_signedNumeral member) (by decide)
  have characters := congrArg String.toList same
  rw [faceList_toList, faceList_toList] at characters
  have numerals :=
    Text.intercalate_injective characters (noComma _) (noComma _)
      (by simpa [faces] using notEmpty) (by simpa [faces] using otherNotEmpty)
  exact (List.map_inj_right fun _ _ => Text.signedNumeral_injective).mp numerals

/-- The characters of an explanation, parted at the colon and at the closing bracket. -/
theorem explanation_toList
    {audit : Audit}
    (notEmpty : audit.rolls ≠ []) :
    audit.explanation.toList =
      audit.normalized.toList ++ ':' ::
        (" rolls [".toList ++
          (audit.faceList.toList ++ ']' ::
            (" => ".toList ++ Text.signedNumeral audit.total))) := by
  rw [explanation_of_notEmpty notEmpty]
  simp [Text.showInt]

/-- The parts of an explanation are recovered from the line. -/
theorem explanation_injective
    {audit other : Audit}
    (same : audit.explanation = other.explanation)
    (noColon : ':' ∉ audit.normalized.toList)
    (otherNoColon : ':' ∉ other.normalized.toList)
    (notEmpty : audit.rolls ≠ [])
    (otherNotEmpty : other.rolls ≠ []) :
    audit.normalized = other.normalized ∧
      audit.faces = other.faces ∧
      audit.total = other.total := by
  have line := congrArg String.toList same
  rw [explanation_toList notEmpty, explanation_toList otherNotEmpty] at line
  obtain ⟨normalized, behindColon⟩ := Text.split_unique line noColon otherNoColon
  have listed := List.append_cancel_left behindColon
  obtain ⟨faceList, behindBracket⟩ :=
    Text.split_unique listed audit.noBracket_faceList other.noBracket_faceList
  have total := List.append_cancel_left behindBracket
  exact ⟨String.toList_inj.mp normalized,
    faces_eq_of_faceList (String.toList_inj.mp faceList) notEmpty otherNotEmpty,
    Text.signedNumeral_injective total⟩

/--
The audit of a roll draws at least one die for every position and two for a pair, so its
explanation lists faces; and the explanation tells the canonical text, the faces and the
total, whatever sources and rules two audits come from. Every report that a table makes
holds such an audit.
-/
theorem explanation_tellsAll :
    (∀ rules text (audit : Audit),
        audit.Given rules text →
        (∃ code, audit.Covers rules text code) ∧
          audit.explanation =
            audit.normalized ++ ": rolls [" ++ audit.faceList ++ "] => " ++
              Text.showInt audit.total) ∧
      (∀ rules text otherRules otherText (audit other : Audit),
        audit.Given rules text →
        other.Given otherRules otherText →
        audit.explanation = other.explanation →
        audit.normalized = other.normalized ∧
          audit.faces = other.faces ∧
          audit.total = other.total) ∧
      ∀ (table : Table) chosen rules text report,
        (table.report chosen rules text).outcome = .ok report →
        report.audit.Given rules text := by
  refine ⟨?_, ?_, ?_⟩
  · intro rules text audit given
    obtain ⟨code, covers⟩ := given.covers
    exact ⟨⟨code, covers⟩, explanation_of_notEmpty covers.notEmpty⟩
  · intro rules text otherRules otherText audit other given otherGiven same
    obtain ⟨code, covers⟩ := given.covers
    obtain ⟨otherCode, otherCovers⟩ := otherGiven.covers
    exact explanation_injective same (covers.normalized ▸ code.noColon_text)
      (otherCovers.normalized ▸ otherCode.noColon_text) covers.notEmpty otherCovers.notEmpty
  · intro table chosen rules text report done
    have audited := table.report_audit chosen rules text
    rw [done] at audited
    exact ⟨_, _, _, _, audited.symm⟩

/-- Two texts of one code, one of them rolled at a table; a six explodes in both. -/
theorem explanation_tellsAll_explodingSix :
    ∃ (table : Table) (chosen : Handle) (report : Report) (audit : Audit),
      (table.report (some chosen) {} " d06E").outcome = .ok report ∧
        report.audit.Given {} " d06E" ∧
        audit.Given {} "1d6E" ∧
        audit.explanation = "d6E: rolls [6, 2] => 8" ∧
        report.audit.explanation = audit.explanation ∧
        report.audit.faces = audit.faces := by
  let code : DiceCode := { factors := [{}], explode := true }
  have factorRead : readFactor "d06E".toList = .ok ({}, ['E']) := by
    rfl
  have factorReadAgain : readFactor "1d6E".toList = .ok ({}, ['E']) := by
    rfl
  have read : DiceCode.read? " d06E" = .ok code :=
    DiceCode.read?_of_factor rfl factorRead
  have readAgain : DiceCode.read? "1d6E" = .ok code :=
    DiceCode.read?_of_factor rfl factorReadAgain
  let script := Well.script [6, 2] 0
  let bare : Table := { identifiers := fun _ => default, moment := default }
  let added := bare.rack.addWell script
  let table : Table := { bare with rack := added.2 }
  let audit : Audit := .listing "" {} "1d6E" code [(6, 6), (6, 2)] 8
  have given : audit.Given {} "1d6E" := by
    refine ⟨Well, Well.source, "", script, ?_⟩
    unfold Source.auditText
    rw [readAgain]
    rfl
  obtain ⟨report, done, same⟩ :
      ∃ report,
        (table.report (some added.1) {} " d06E").outcome = .ok report ∧
          report.audit.explanation = "d6E: rolls [6, 2] => 8" := by
    unfold Table.report
    rw [read]
    exact ⟨_, rfl, by decide⟩
  obtain ⟨listed, told, reported⟩ := explanation_tellsAll
  have reportGiven := reported table _ _ _ _ done
  have line : audit.explanation = "d6E: rolls [6, 2] => 8" := by
    rw [(listed _ _ _ given).2]
    decide
  have sameLine := same.trans line.symm
  exact ⟨table, added.1, report, audit, done, reportGiven, given, line, sameLine,
    (told _ _ _ _ _ _ reportGiven given sameLine).2.1⟩

end Audit

end Tabletop
