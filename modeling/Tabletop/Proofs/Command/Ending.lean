import Tabletop.Command.Run
import Tabletop.Proofs.Grammar.Overlong

namespace Tabletop

/-!
# How a run of codes ends

Codes are rolled one after the other, and the run is over with the first one
that has no result: `follow_ended_iff`. A text that is no dice code is reported
with the status one, unless an overlong number is reached in it first; the run
is then brought down by the text: `settled_iff_notOverlong`.
-/

/-- How a run ends at a code that has no result. -/
def Failure.ending : Failure → Ending
  | .misread (.rejected _) => .status 1
  | failure => .escaped failure

theorem Failure.ending_ne_done (failure : Failure) :
    failure.ending ≠ .status 0 := by
  rcases failure with (error | digits) | fault <;> nofun

/-- Only an overlong number lets a failure of the text out of a run. -/
theorem Failure.eq_oversized_of_ending
    {failure : Failure}
    {misread : Misread}
    (same : failure.ending = .escaped (.misread misread)) :
    ∃ digits, failure = .misread (.oversized digits) ∧ misread = .oversized digits := by
  rcases failure with (error | digits) | fault
  · cases same
  · cases same
    exact ⟨digits, rfl, rfl⟩
  · cases same

theorem Failure.eq_rejected_of_ending
    {failure : Failure}
    (same : failure.ending = .status 1) :
    ∃ error, failure = .misread (.rejected error) := by
  rcases failure with (error | digits) | fault
  · exact ⟨error, rfl⟩
  · cases same
  · cases same

/-- What is seen of one course and then of another that goes on where it was left. -/
def Course.andThen
    {σ : Type}
    (first second : Course σ) :
    Course σ where
  ending := second.ending
  remarks := first.remarks ++ second.remarks
  notices := first.notices ++ second.notices
  left := second.left

namespace Source

variable {σ : Type} {source : Source σ} {rules : Rules} {echo : Bool}
variable {code : String} {codes before : List String} {state : σ}

/-- The course of one code that has a result. -/
def resultCourse
    (source : Source σ)
    (rules : Rules)
    (echo : Bool)
    (code : String)
    (result : Int)
    (state : σ) :
    Course σ where
  ending := .status 0
  remarks :=
    echoBefore echo code ++ (source.rollText rules code state).remarks ++
      .result result :: echoAfter echo
  notices := (source.rollText rules code state).entries.map Notice.entry
  left := (source.rollText rules code state).left

theorem follow_of_result
    {result : Int}
    (rolled : (source.rollText rules code state).outcome = .ok result) :
    source.follow rules echo (code :: codes) state =
      (source.resultCourse rules echo code result state).andThen
        (source.follow rules echo codes (source.rollText rules code state).left) := by
  rw [follow]
  simp only [rolled]
  simp [Course.andThen, resultCourse]

theorem follow_of_failure
    {failure : Failure}
    (failed : (source.rollText rules code state).outcome = .error failure) :
    (source.follow rules echo (code :: codes) state).ending = failure.ending := by
  rw [follow]
  simp only [failed]
  rcases failure with (error | digits) | fault <;> rfl

/-- A run that is not over goes on as a run of the codes that are left. -/
theorem follow_append
    (codes : List String)
    (done : (source.follow rules echo before state).ending = .status 0) :
    source.follow rules echo (before ++ codes) state =
      (source.follow rules echo before state).andThen
        (source.follow rules echo codes (source.follow rules echo before state).left) := by
  induction before generalizing state with
  | nil =>
      rfl
  | cons code before inductionHypothesis =>
      cases rolled : (source.rollText rules code state).outcome with
      | error failure =>
          rw [follow_of_failure rolled] at done
          exact absurd done failure.ending_ne_done
      | ok result =>
          rw [follow_of_result rolled] at done ⊢
          rw [List.cons_append, follow_of_result rolled, inductionHypothesis done]
          simp [Course.andThen]

/-- A run ends other than with the status zero where the first code has no result. -/
theorem follow_ended_iff
    {ending : Ending}
    (notDone : ending ≠ .status 0) :
    (source.follow rules echo codes state).ending = ending ↔
      ∃ before code behind failure,
        codes = before ++ code :: behind ∧
          (source.follow rules echo before state).ending = .status 0 ∧
          (source.rollText rules code
            (source.follow rules echo before state).left).outcome = .error failure ∧
          failure.ending = ending := by
  constructor
  · induction codes generalizing state with
    | nil =>
        exact fun ended => absurd ended.symm notDone
    | cons code codes inductionHypothesis =>
        intro ended
        cases rolled : (source.rollText rules code state).outcome with
        | error failure =>
            rw [follow_of_failure rolled] at ended
            exact ⟨[], code, codes, failure, rfl, rfl, rolled, ended⟩
        | ok result =>
            rw [follow_of_result rolled] at ended
            obtain ⟨before, stop, behind, failure, rfl, done, failed, same⟩ :=
              inductionHypothesis ended
            refine ⟨code :: before, stop, behind, failure, rfl, ?_, ?_, same⟩
            · rw [follow_of_result rolled]
              exact done
            · rw [follow_of_result rolled]
              exact failed
  · rintro ⟨before, code, behind, failure, rfl, done, failed, rfl⟩
    rw [follow_append _ done]
    exact follow_of_failure failed

/-- The text alone decides whether rolling it fails for its text. -/
theorem rollText_misread_iff
    {text : String}
    {misread : Misread} :
    (source.rollText rules text state).outcome = .error (.misread misread) ↔
      DiceCode.read? text = .error misread := by
  unfold rollText
  cases DiceCode.read? text with
  | error other =>
      simp [Passage.failed]
  | ok code =>
      constructor
      · intro failed
        have evaluated := evaluate_outcome source rules code state
        rw [show (source.evaluate rules code state).outcome = _ from failed] at evaluated
        cases thrown : (source.throwCode rules code state).outcome with
        | error fault =>
            rw [thrown] at evaluated
            cases evaluated
        | ok product =>
            rw [thrown] at evaluated
            cases evaluated
      · nofun

/-- The end of a run at a code that is rejected: the status one, and the message as the last line. -/
theorem follow_of_rejected
    {error : CodeError}
    (rejected : DiceCode.read? code = .error (.rejected error)) :
    source.follow rules echo (code :: codes) state =
      { ending := .status 1
        remarks := echoBefore echo code
        notices := [.entry (rejectEntry code error), .line ("error: " ++ error.message)]
        left := state } := by
  have passage :
      source.rollText rules code state = .failed (.misread (.rejected error)) state := by
    unfold rollText
    rw [rejected]
  rw [follow, passage]
  simp [Passage.failed]

end Source

namespace Plan

variable {σ : Type}

/-- The same plan with other codes. -/
def withCodes
    (plan : Plan)
    (codes : List String) :
    Plan :=
  { plan with codes := codes }

/-- The status is one exactly if a code is rejected, whose message is the last line of the errors. -/
theorem carryOut_rejected_iff
    {source : Source σ}
    {plan : Plan}
    {state : σ} :
    (plan.carryOut source state).ending = .status 1 ↔
      ∃ before code behind error,
        plan.codes = before ++ code :: behind ∧
          ((plan.withCodes before).carryOut source state).ending = .status 0 ∧
          DiceCode.read? code = .error (.rejected error) ∧
          ∃ written,
            (plan.carryOut source state).errors =
              written ++ ("error: " ++ error.message ++ "\n") := by
  change (source.follow plan.rules plan.echo plan.codes state).ending = _ ↔ _
  rw [Source.follow_ended_iff (by nofun)]
  constructor
  · rintro ⟨before, code, behind, failure, shape, done, failed, same⟩
    obtain ⟨error, rfl⟩ := Failure.eq_rejected_of_ending same
    rw [Source.rollText_misread_iff] at failed
    have whole := Source.follow_append (code :: behind) done
    rw [Source.follow_of_rejected failed, ← shape] at whole
    refine ⟨before, code, behind, error, shape, done, failed, ?_⟩
    unfold carryOut
    rw [whole]
    simp only [Course.andThen, List.map_append, String.join_append, List.map_cons, List.map_nil,
      String.join_cons, String.join_nil, String.append_empty, Notice.text]
    exact ⟨_, String.append_assoc.symm⟩
  · rintro ⟨before, code, behind, error, shape, done, rejected, -⟩
    exact ⟨before, code, behind, .misread (.rejected error), shape, done,
      Source.rollText_misread_iff.mpr rejected, rfl⟩

/-- Whether one of the codes is reached whose text is neither read nor rejected. -/
theorem carryOut_misread_iff
    {source : Source σ}
    {plan : Plan}
    {state : σ}
    {misread : Misread} :
    (plan.carryOut source state).ending = .escaped (.misread misread) ↔
      ∃ before code behind digits,
        plan.codes = before ++ code :: behind ∧
          ((plan.withCodes before).carryOut source state).ending = .status 0 ∧
          misread = .oversized digits ∧
          ChainOverlong (Text.trimChars code.toList) digits := by
  change (source.follow plan.rules plan.echo plan.codes state).ending = _ ↔ _
  rw [Source.follow_ended_iff (by nofun)]
  constructor
  · rintro ⟨before, code, behind, failure, shape, done, failed, same⟩
    obtain ⟨digits, rfl, rfl⟩ := Failure.eq_oversized_of_ending same
    rw [Source.rollText_misread_iff] at failed
    exact ⟨before, code, behind, digits, shape, done, rfl, readCode_oversized_iff.mp failed⟩
  · rintro ⟨before, code, behind, digits, shape, done, rfl, overlong⟩
    have failed := readCode_oversized_iff.mpr overlong
    exact ⟨before, code, behind, .misread (.oversized digits), shape, done,
      Source.rollText_misread_iff.mpr failed, rfl⟩

end Plan

namespace DiceCode

/-- A text is read or rejected unless an overlong number is reached in it. -/
theorem read?_settled_iff {text : String} :
    ((∃ code, read? text = .ok code) ∨ ∃ error, read? text = .error (.rejected error)) ↔
      ∀ digits, ¬ ChainOverlong (Text.trimChars text.toList) digits := by
  constructor
  · intro settled digits overlong
    have oversized : read? text = .error (.oversized digits) :=
      readCode_oversized_iff.mpr overlong
    rcases settled with ⟨code, read⟩ | ⟨error, rejected⟩
    · rw [oversized] at read
      cases read
    · rw [oversized] at rejected
      cases rejected
  · intro notOverlong
    cases result : read? text with
    | ok code =>
        exact .inl ⟨code, rfl⟩
    | error misread =>
        cases misread with
        | rejected error =>
            exact .inr ⟨error, rfl⟩
        | oversized digits =>
            exact absurd (readCode_oversized_iff.mp result) (notOverlong digits)

/--
A text is read or rejected exactly if no overlong number is reached in it, and a
run of codes is brought down by a text exactly if such a number is reached. At a
code that is rejected, the run ends with the status one and the message.
-/
theorem settled_iff_notOverlong
    {σ : Type}
    (text : String)
    (source : Source σ)
    (plan : Plan)
    (state : σ) :
    (((∃ code, read? text = .ok code) ∨ ∃ error, read? text = .error (.rejected error)) ↔
        ∀ digits, ¬ ChainOverlong (Text.trimChars text.toList) digits) ∧
      (∀ misread,
        (plan.carryOut source state).ending = .escaped (.misread misread) ↔
          ∃ before code behind digits,
            plan.codes = before ++ code :: behind ∧
              ((plan.withCodes before).carryOut source state).ending = .status 0 ∧
              misread = .oversized digits ∧
              ChainOverlong (Text.trimChars code.toList) digits) ∧
      ((plan.carryOut source state).ending = .status 1 ↔
        ∃ before code behind error,
          plan.codes = before ++ code :: behind ∧
            ((plan.withCodes before).carryOut source state).ending = .status 0 ∧
            read? code = .error (.rejected error) ∧
            ∃ written,
              (plan.carryOut source state).errors =
                written ++ ("error: " ++ error.message ++ "\n")) :=
  ⟨read?_settled_iff, fun _ => Plan.carryOut_misread_iff, Plan.carryOut_rejected_iff⟩

/-- The code `d6` with zeros in front of its sides. -/
def paddedSix (zeros : Nat) : String :=
  String.ofList ('d' :: (List.replicate zeros '0' ++ ['6']))

theorem paddedSix_overlong
    {zeros : Nat}
    (long : digitLimit ≤ zeros) :
    ChainOverlong (Text.trimChars (paddedSix zeros).toList) (zeros + 1) := by
  have noBlank : ∀ c ∈ 'd' :: (List.replicate zeros '0' ++ ['6']), Text.isBlank c = false := by
    intro c member
    simp only [List.mem_cons, List.mem_append, List.mem_replicate, List.not_mem_nil,
      or_false] at member
    rcases member with rfl | ⟨-, rfl⟩ | rfl <;> decide
  rw [paddedSix, String.toList_ofList, Text.trimChars_eq_self noBlank]
  exact chainOverlong_paddedSides long (by decide)

theorem read?_paddedSix :
    read? (paddedSix 4300) = .error (.oversized 4301) ∧
      ¬ ((∃ code, read? (paddedSix 4300) = .ok code) ∨
        ∃ error, read? (paddedSix 4300) = .error (.rejected error)) ∧
      ((Plan.make { codes := [paddedSix 4300] } {} {}).carryOut Well.source
        (.script [] 0)).ending = .escaped (.misread (.oversized 4301)) := by
  have overlong := paddedSix_overlong (Nat.le_of_eq rfl : digitLimit ≤ 4300)
  refine ⟨readCode_oversized_iff.mpr overlong, ?_, ?_⟩
  · rw [read?_settled_iff]
    exact fun notOverlong => notOverlong 4301 overlong
  · rw [Plan.carryOut_misread_iff]
    exact ⟨[], paddedSix 4300, [], 4301, rfl, rfl, rfl, overlong⟩

end DiceCode

end Tabletop
