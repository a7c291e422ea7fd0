import Tabletop.Proofs.Command.FailFast
import Tabletop.Proofs.Command.Switches

namespace Tabletop

/-!
# Ways to make sixes explode

Sixes explode because a code ends in an `E`, because the rules of the roll say so,
because a switch is given or because it is preferred. All that counts in the end is
whether one of them holds: `evaluate_congr`. So the ways can be taken for one another,
in the roll of a text and in a whole run (`explosions_interchangeable`).
-/

/-- An `E` behind a text without one is the `E` of the code, which is the same otherwise. -/
theorem DiceCode.read?_append_E
    {text : String}
    {code : DiceCode}
    (read : read? text = .ok code)
    (noE : text.toList.getLast? ≠ some 'E')
    (noBlank : ∀ c ∈ text.toList.getLast?, Text.isBlank c = false) :
    read? (text ++ "E") = .ok { code with explode := true } := by
  have joined : (text ++ "E").toList = text.toList ++ ['E'] := by
    simp
  have chain := readCode_ok_iff.mp read
  rw [explode_eq_false read noE noBlank] at chain
  unfold read?
  rw [joined, Text.trimChars_append_cons (by decide) noBlank (by simp), readCode_ok_iff]
  exact readFactors_append_cons chain (by decide) (by rintro (_ | _) <;> decide) (by nofun) []

/-- What comes of the roll of a text: how it ends, what is said, which dice are asked for, what is left. -/
structure TextRoll (σ : Type) where
  outcome : Except Failure Int
  remarks : List Remark
  asked : List Int
  left : σ

/-- The run of one code that is not echoed. -/
def Passage.course
    {σ : Type}
    (passage : Passage σ Int) :
    Course σ where
  ending :=
    match passage.outcome with
    | .ok _ => .status 0
    | .error failure => failure.ending
  remarks :=
    match passage.outcome with
    | .ok result => passage.remarks ++ [.result result]
    | .error _ => passage.remarks
  notices := passage.entries.map Notice.entry
  left := passage.left

namespace Source

variable {σ : Type}

/-- Rolls a text from a source that is watched. -/
def textRoll
    (source : Source σ)
    (rules : Rules)
    (text : String)
    (state : σ) :
    TextRoll σ where
  outcome := (source.rollText rules text state).outcome
  remarks := (source.rollText rules text state).remarks
  asked := (source.watched.rollText rules text { inner := state }).left.asked
  left := (source.rollText rules text state).left

variable {source : Source σ} {rules otherRules : Rules} {code other : DiceCode}
variable {text otherText : String} {state : σ}

/-- What comes of a code depends on its factors, and on the rules that count for it. -/
theorem evaluate_congr
    (factors : code.factors = other.factors)
    (counting : rules.forCode code = otherRules.forCode other) :
    source.evaluate rules code state = source.evaluate otherRules other state := by
  unfold evaluate throwCode
  rw [factors, counting]

theorem textRoll_congr
    (read : DiceCode.read? text = .ok code)
    (readOther : DiceCode.read? otherText = .ok other)
    (factors : code.factors = other.factors)
    (counting : rules.forCode code = otherRules.forCode other) :
    source.textRoll rules text state = source.textRoll otherRules otherText state := by
  unfold textRoll
  rw [rollText_of_read read, rollText_of_read read, rollText_of_read readOther,
    rollText_of_read readOther, evaluate_congr factors counting, evaluate_congr factors counting]
  -- The entries differ, but none of them is seen here.
  dsimp only [Passage.afterEntry]

/-- The run of one code is its roll, and then its result. -/
theorem follow_alone (read : DiceCode.read? text = .ok code) :
    source.follow rules false [text] state = (source.rollText rules text state).course := by
  cases rolled : (source.rollText rules text state).outcome with
  | ok result =>
      rw [follow_of_result rolled]
      simp [Course.andThen, resultCourse, follow, Passage.course, rolled, echoBefore, echoAfter]
  | error failure =>
      rw [follow]
      simp only [rolled]
      rcases failure with (error | digits) | fault
      · rw [rollText_misread_iff.mp rolled] at read
        cases read
      · simp [Passage.course, rolled, echoBefore, Failure.ending]
      · simp [Passage.course, rolled, echoBefore, Failure.ending]

end Source

/-- Whether two runs of the program are the same, from whatever source. -/
def Surroundings.SameRuns (first second : Surroundings) : Prop :=
  ∀ {σ : Type} (source : Source σ) (state : σ),
    (Plan.make? first).map (·.carryOut source state) =
      (Plan.make? second).map (·.carryOut source state)

namespace Plan

/-- What is seen of one code, where the desk says nothing of how it was read. -/
theorem carryOut_alone
    {σ : Type}
    {source : Source σ}
    {invocation : Invocation}
    {preferences : Preferences}
    {text : String}
    {code : DiceCode}
    {state : σ}
    (alone : invocation.codes = [text])
    (read : DiceCode.read? text = .ok code)
    (unwritten :
      (Desk.configure (.named preferences.journal) {}).written [readEntry text code] = "")
    (input : StandardInput) :
    let passage := source.evaluate (effectiveRules invocation preferences) code state
    (make invocation preferences input).carryOut source state =
      { ending := passage.course.ending
        output := (loudness invocation preferences).narrator.transcript passage.course.remarks
        errors := (Desk.configure (.named preferences.journal) {}).written passage.entries
        left := passage.left } := by
  intro passage
  have made :
      make invocation preferences input =
        { echoing invocation preferences [text] with echo := false } := by
    unfold make
    rw [alone]
    rfl
  have errors :
      String.join (((readEntry text code :: passage.entries).map Notice.entry).map
          (Notice.text (Desk.configure (.named preferences.journal) {}))) =
        (Desk.configure (.named preferences.journal) {}).written passage.entries := by
    have joined := Notice.join_text (Desk.configure (.named preferences.journal) {})
      (readEntry text code :: passage.entries) []
    rw [List.map_nil, List.append_nil] at joined
    rw [joined, Desk.written_cons, unwritten]
    simp [linesText]
  rw [made]
  unfold carryOut echoing
  rw [Source.follow_alone read, Source.rollText_of_read read, ← errors]
  rfl

/-- Under the switch the preference counts for nothing, and either does what the other does. -/
theorem make_adding_explode
    (invocation : Invocation)
    (preferences : Preferences)
    (preferred : Bool)
    (input : StandardInput) :
    make (invocation.adding .explode) { preferences with explode := preferred } input =
      make invocation { preferences with explode := true } input := by
  have rules :
      effectiveRules (invocation.adding .explode) { preferences with explode := preferred } =
        effectiveRules invocation { preferences with explode := true } := by
    unfold effectiveRules
    rw [Bool.or_true]
    rfl
  exact congrArg (fun rules => { make invocation preferences input with rules := rules }) rules

/-- With the switch a run is what it is with the preference, whatever is preferred besides. -/
theorem make?_adding_explode
    {arguments switched : List String}
    (adds : Invocation.Adds .explode arguments switched)
    (preferences : Preferences)
    (preferred : Bool)
    (input : StandardInput) :
    make?
        { arguments := switched
          input := input
          preferences := .ok { preferences with explode := preferred } } =
      make?
        { arguments := arguments
          input := input
          preferences := .ok { preferences with explode := true } } := by
  cases accepted : Invocation.read? arguments with
  | error dismissal =>
      rw [make?_of_dismissed (adds.dismissed accepted), make?_of_dismissed accepted]
  | ok invocation =>
      rw [make?_of_accepted (adds.accepted accepted) rfl, make?_of_accepted accepted rfl,
        make_adding_explode]

/-- For one code the `E` behind it does what the switch does. -/
theorem sameRuns_append_E
    {text : String}
    {code : DiceCode}
    {options switched : List String}
    {preferences : Preferences}
    (read : DiceCode.read? text = .ok code)
    (noE : text.toList.getLast? ≠ some 'E')
    (noBlank : ∀ c ∈ text.toList.getLast?, Text.isBlank c = false)
    (noDash : text.toList.head? ≠ some '-')
    (onlyOptions : Invocation.OnlyOptions options)
    (adds : Invocation.Adds .explode (options ++ [text]) switched)
    (severe : Severity.warning ≤ (Desk.configure (.named preferences.journal) {}).effectiveLevel)
    (input : StandardInput) :
    Surroundings.SameRuns
      { arguments := switched, input := input, preferences := .ok preferences }
      { arguments := options ++ [text ++ "E"]
        input := input
        preferences := .ok preferences } := by
  have noDashE : (text ++ "E").toList.head? ≠ some '-' := by
    rw [String.toList_append, List.head?_append]
    cases first : text.toList.head? with
    | none =>
        decide
    | some c =>
        rw [first] at noDash
        exact noDash
  have readText := Invocation.read?_append onlyOptions (List.forall_mem_singleton.mpr noDash)
    (List.cons_ne_nil text [])
  have readE := Invocation.read?_append onlyOptions (List.forall_mem_singleton.mpr noDashE)
    (List.cons_ne_nil (text ++ "E") [])
  intro σ source state
  cases accepted : Invocation.read? options with
  | error dismissal =>
      rw [accepted] at readText readE
      rw [make?_of_dismissed (adds.dismissed readText), make?_of_dismissed readE]
  | ok invocation =>
      rw [accepted] at readText readE
      rw [make?_of_accepted (adds.accepted readText) rfl, make?_of_accepted readE rfl]
      have unwritten (text : String) (code : DiceCode) :
          (Desk.configure (.named preferences.journal) {}).written [readEntry text code] = "" := by
        have debug : Severity.debug < Severity.warning := by
          decide
        exact Desk.written_of_below (Int.lt_of_lt_of_le debug severe)
      have same :
          source.evaluate
              (effectiveRules (Invocation.adding .explode { invocation with codes := [text] })
                preferences) code state =
            source.evaluate (effectiveRules { invocation with codes := [text ++ "E"] } preferences)
              { code with explode := true } state := by
        refine Source.evaluate_congr rfl ?_
        unfold Rules.forCode
        rw [Bool.or_true]
        rfl
      refine congrArg Except.ok ?_
      refine (carryOut_alone rfl read (unwritten _ _) input).trans ?_
      refine Eq.trans ?_
        (carryOut_alone rfl (DiceCode.read?_append_E read noE noBlank) (unwritten _ _) input).symm
      dsimp only
      rw [same]
      rfl

end Plan

/--
The ways to make sixes explode can be taken for one another. A text is accepted that
has neither an `E` nor a blank at its end. With an `E` behind it, under rules by which
sixes explode, or both, its roll comes to the same and asks for the same dice. Any
command line with the switch runs as it does with the preference instead, and as with
both. Where no other code is given and the desk admits nothing below a warning, it
runs as it does with an `E` behind the text as well.
-/
theorem explosions_interchangeable
    {text : String}
    {code : DiceCode}
    (accepted : DiceCode.read? text = .ok code)
    (noE : text.toList.getLast? ≠ some 'E')
    (noBlank : ∀ c ∈ text.toList.getLast?, Text.isBlank c = false)
    (preferences : Preferences)
    (input : StandardInput) :
    let command (arguments : List String) (preferences : Preferences) : Surroundings :=
      { arguments := arguments, input := input, preferences := .ok preferences }
    let exploding : Preferences := { preferences with explode := true }
    (∀ {σ : Type} (source : Source σ) (whole66 : Bool) (state : σ),
        let roll (explode : Bool) (text : String) :=
          source.textRoll { explode := explode, whole66 := whole66 } text state
        roll false (text ++ "E") = roll true text ∧ roll true (text ++ "E") = roll true text) ∧
      (∀ arguments, Invocation.Adds .explode arguments ("-e" :: arguments)) ∧
      (∀ {arguments switched},
        Invocation.Adds .explode arguments switched →
          (command switched preferences).SameRuns (command arguments exploding) ∧
            (command switched exploding).SameRuns (command arguments exploding)) ∧
      (text.toList.head? ≠ some '-' →
        Severity.warning ≤ (Desk.configure (.named preferences.journal) {}).effectiveLevel →
          ∀ options switched,
            Invocation.OnlyOptions options →
            Invocation.Adds .explode (options ++ [text]) switched →
              (command switched preferences).SameRuns
                (command (options ++ [text ++ "E"]) preferences)) := by
  intro command exploding
  refine ⟨?_, ?_, ?_, ?_⟩
  · intro σ source whole66 state roll
    have readE := DiceCode.read?_append_E accepted noE noBlank
    exact ⟨Source.textRoll_congr readE accepted rfl rfl, Source.textRoll_congr readE accepted rfl rfl⟩
  · intro arguments
    exact Invocation.adds_cons rfl nofun nofun
  · intro arguments switched adds
    have one :
        Plan.make? (command switched preferences) = Plan.make? (command arguments exploding) :=
      Plan.make?_adding_explode adds preferences preferences.explode input
    have both :
        Plan.make? (command switched exploding) = Plan.make? (command arguments exploding) :=
      Plan.make?_adding_explode adds preferences true input
    refine ⟨?_, ?_⟩
    · intro σ source state
      rw [one]
    · intro σ source state
      rw [both]
  · intro noDash severe options switched onlyOptions adds
    exact Plan.sameRuns_append_E accepted noE noBlank noDash onlyOptions adds severe input

/-- A six-sided die, in a quiet run with nothing preferred or with explosions preferred. -/
theorem explosions_interchangeable_d6 :
    Well.source.textRoll {} ("d6" ++ "E") (.script [6, 4] 0) =
        Well.source.textRoll { explode := true } "d6" (.script [6, 4] 0) ∧
      Surroundings.SameRuns { arguments := ["-e", "-q", "d6"] }
        { arguments := ["-q", "d6"], preferences := .ok { explode := true } } ∧
      Surroundings.SameRuns { arguments := ["-e", "-q", "d6"] }
        { arguments := ["-q", "d6" ++ "E"] } := by
  have accepted : DiceCode.read? "d6" = .ok { factors := [{}] } :=
    @DiceCode.read?_of_factor _ _ _ false rfl rfl
  have noBlank : ∀ c ∈ "d6".toList.getLast?, Text.isBlank c = false := by
    rintro c ⟨⟩
    rfl
  have onlyOptions : Invocation.OnlyOptions ["-q"] :=
    @Invocation.onlyOptions_of_classified _ [.option .quiet true none] rfl (by simp)
  obtain ⟨rolls, adds, preferred, behind⟩ :=
    explosions_interchangeable accepted (by decide) noBlank {} {}
  exact ⟨(rolls Well.source false (.script [6, 4] 0)).1, (preferred (adds ["-q", "d6"])).1,
    behind (by decide) (by decide) ["-q"] ["-e", "-q", "d6"] onlyOptions (adds ["-q", "d6"])⟩

end Tabletop
