import Tabletop.Command.Run
import Tabletop.Proofs.Command.Ending
import Tabletop.Proofs.Throws.Trace

namespace Tabletop

/-!
# A command line with one code

A word that does not begin with a dash is a code. Where it is the only word and
nothing else is preferred, the program prints the result of the code, or the
message for which the code is rejected, and nothing besides.
-/

namespace Word

theorem form?_of_noDash
    {text : String}
    (noDash : text.toList.head? ≠ some '-') :
    form? text = none := by
  have notShort (switch : Switch) : switch.short ≠ text := by
    rintro rfl
    exact noDash (by cases switch <;> rfl)
  have notLong (switch : Switch) : switch.long ≠ text := by
    rintro rfl
    exact noDash (by cases switch <;> rfl)
  have noShort : Switch.all.find? (fun switch => switch.short = text) = none := by
    simp [List.find?_eq_none, notShort]
  have noLong : Switch.all.find? (fun switch => switch.long = text) = none := by
    simp [List.find?_eq_none, notLong]
  unfold form?
  rw [noShort, noLong]
  rfl

theorem splitValue_noDash
    {text : String}
    (noDash : text.toList.head? ≠ some '-') :
    (splitValue text).1.toList.head? ≠ some '-' := by
  have name : (splitValue text).1 = String.ofList (text.toList.takeWhile (· != '=')) := by
    unfold splitValue
    dsimp only
    split <;> rfl
  rw [name, String.toList_ofList]
  intro dash
  obtain ⟨behind, shape⟩ := List.takeWhile_prefix (l := text.toList) (· != '=')
  rw [← shape, List.head?_append, dash] at noDash
  exact noDash rfl

/-- A word that does not begin with a dash is an operand. -/
theorem ofText?_of_noDash
    {text : String}
    (noDash : text.toList.head? ≠ some '-') :
    ofText? text = .ok (.operand text) := by
  have noForm := form?_of_noDash (splitValue_noDash noDash)
  unfold ofText?
  rw [form?_of_noDash noDash]
  revert noForm
  rcases splitValue text with ⟨name, value⟩
  intro noForm
  have noValueForm : (value.bind fun _ => form? name) = none := by
    cases value with
    | none =>
        rfl
    | some value =>
        exact noForm
  simp only [noValueForm]
  split
  · next shape =>
      rw [shape] at noDash
      exact absurd rfl noDash
  · next shape =>
      rw [shape] at noDash
      exact absurd rfl noDash
  · rfl

end Word

theorem Invocation.read?_of_noDash
    {text : String}
    (noDash : text.toList.head? ≠ some '-') :
    Invocation.read? [text] = .ok { codes := [text] } := by
  have notDivider : text ≠ "--" := by
    rintro rfl
    exact noDash rfl
  have classified : Word.classify? [text] = .ok [.operand text] := by
    unfold Word.classify?
    rw [if_neg notDivider, Word.ofText?_of_noDash noDash]
    rfl
  -- The first double dash among the codes would be dropped.
  have codes : [text].erase "--" = [text] :=
    List.erase_of_not_mem (by simpa using notDivider.symm)
  unfold read?
  rw [classified]
  change Except.ok ({ codes := [text].erase "--" } : Invocation) = _
  rw [codes]

/--
Whether what is seen of a run is the answer to a roll: the result alone, or the
message for which the code is rejected and nothing besides.
-/
structure Run.Answers
    {σ : Type}
    (run : Run σ)
    (rolled : Except Failure Int) :
    Prop where
  result :
    ∀ total,
      rolled = .ok total →
        run.ending = .status 0 ∧ run.output = "===> " ++ Text.showInt total ++ "\n"
  rejection :
    ∀ error,
      rolled = .error (.misread (.rejected error)) →
        run.ending = .status 1 ∧
          run.output = "" ∧
          run.errors = "error: " ++ error.message ++ "\n"

/-- The plan for one code where nothing else is said and nothing is preferred. -/
def Plan.single (text : String) : Plan where
  rules := {}
  narrator := {}
  desk := Desk.configure (.named "WARNING") {}
  echo := false
  codes := [text]

theorem Plan.make?_of_dismissed
    {surroundings : Surroundings}
    {dismissal : Dismissal}
    (dismissed : Invocation.read? surroundings.arguments = .error dismissal) :
    Plan.make? surroundings = .error (.dismissed dismissal) := by
  unfold make?
  rw [dismissed]
  rfl

theorem Plan.make?_of_accepted
    {surroundings : Surroundings}
    {invocation : Invocation}
    {preferences : Preferences}
    (accepted : Invocation.read? surroundings.arguments = .ok invocation)
    (preferred : surroundings.preferences = .ok preferences) :
    Plan.make? surroundings = .ok (.make invocation preferences surroundings.input) := by
  unfold make?
  rw [accepted, preferred]
  rfl

theorem Plan.make?_single
    {surroundings : Surroundings}
    {text : String}
    (noDash : text.toList.head? ≠ some '-')
    (arguments : surroundings.arguments = [text])
    (preferences : surroundings.preferences = .ok {}) :
    Plan.make? surroundings = .ok (.single text) := by
  have accepted : Invocation.read? surroundings.arguments = .ok { codes := [text] } := by
    rw [arguments, Invocation.read?_of_noDash noDash]
  exact make?_of_accepted accepted preferences

section

variable {σ : Type} {source : Source σ} {rules : Rules} {text : String} {state : σ}

/-- All that rolling remarks on is the faces that were accepted. -/
theorem Source.rollText_remarks :
    ∃ faces : List Int,
      (source.rollText rules text state).remarks = faces.map Remark.face := by
  unfold rollText
  cases DiceCode.read? text with
  | error misread =>
      exact ⟨[], rfl⟩
  | ok code =>
      exact ⟨_, source.evaluate_remarks rules code state⟩

/-- The entry about a rejected code is below the severity of a warning. -/
theorem rejectEntry_unwritten
    (code : String)
    (error : CodeError) :
    (Desk.configure (.named "WARNING") {}).written [rejectEntry code error] = "" := by
  have below : Severity.debug < (Desk.configure (.named "WARNING") {}).effectiveLevel := by
    decide
  exact Desk.written_of_below below

/-- At the standard threshold nobody hears of the faces. -/
theorem faces_unheard : ¬ FacesHeard (some {}) := by
  rintro ⟨_, ⟨⟩, -, high⟩
  exact absurd high (by decide)

namespace Plan

theorem carryOut_single_of_result
    {total : Int}
    (rolled : (source.rollText {} text state).outcome = .ok total) :
    ((single text).carryOut source state).ending = .status 0 ∧
      ((single text).carryOut source state).output = "===> " ++ Text.showInt total ++ "\n" := by
  obtain ⟨faces, remarks⟩ : ∃ faces : List Int,
      (source.rollText {} text state).remarks = faces.map Remark.face :=
    Source.rollText_remarks
  have spoken :
      Narrator.heard {} ([] ++ (source.rollText {} text state).remarks ++ [.result total] ++ []) =
        [.result total] := by
    rw [remarks, List.nil_append, List.append_nil, Narrator.heard_append,
      Narrator.heard_faces_of_unheard faces_unheard]
    rfl
  unfold carryOut single
  rw [Source.follow_of_result rolled]
  refine ⟨rfl, ?_⟩
  change String.join ((Narrator.heard {} ([] ++ _ ++ [.result total] ++ [])).map _) = _
  rw [spoken]
  rfl

theorem carryOut_single_of_rejected
    {error : CodeError}
    (rejected : (source.rollText {} text state).outcome = .error (.misread (.rejected error))) :
    ((single text).carryOut source state).ending = .status 1 ∧
      ((single text).carryOut source state).output = "" ∧
      ((single text).carryOut source state).errors = "error: " ++ error.message ++ "\n" := by
  unfold carryOut single
  rw [Source.follow_of_rejected (Source.rollText_misread_iff.mp rejected)]
  refine ⟨rfl, rfl, ?_⟩
  change String.join [Desk.written _ [rejectEntry text error], "error: " ++ error.message ++ "\n"] = _
  rw [rejectEntry_unwritten]
  simp

theorem carryOut_single
    (source : Source σ)
    (text : String)
    (state : σ) :
    ((single text).carryOut source state).Answers (source.rollText {} text state).outcome where
  result _ := carryOut_single_of_result
  rejection _ := carryOut_single_of_rejected

end Plan

end

end Tabletop
