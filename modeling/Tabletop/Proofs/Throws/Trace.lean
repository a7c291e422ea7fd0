import Tabletop.Proofs.Throws.Alike
import Tabletop.Proofs.Throws.Answers

namespace Tabletop

/-!
# What is told of a roll

There are two traces of a roll: the faces that a notebook in front of the source
holds, and the remarks that a narrator passes on. The notebook is written before
the range of a face is checked and the remark is made after it, so the traces
differ by the face that a roll fails for, and by no other: `evaluate_traced`.
-/

/-- The faces that a notebook holds, in order. -/
def Recorded.values
    {σ : Type}
    (noted : Recorded σ) :
    List Int :=
  noted.rolls.toList.map Prod.snd

/-- The face that was drawn last and not accepted, if a throw with this outcome fails for one. -/
inductive LastFace {α : Type} : Except Fault α → List Int → Prop where
  | value (value : α) :
      LastFace (.ok value) []
  | refused (refusal : Refusal) :
      LastFace (.error (.refused refusal)) []
  | endless :
      LastFace (.error .endless) []
  | impossible (face sides : Int) :
      LastFace (.error (.impossible face sides)) [face]
  | unwritable (face : Int) :
      LastFace (.error .unwritable) [face]

theorem lastFace_rejected
    {α : Type}
    (face sides : Int) :
    LastFace (.error (.rejected face sides) : Except Fault α) [face] := by
  unfold Fault.rejected
  split
  · exact .impossible face sides
  · exact .unwritable face

/-- What is passed on of some remarks if anyone is there to do it. -/
def told
    (narrator : Option Narrator)
    (remarks : List Remark) :
    String :=
  match narrator with
  | some narrator => narrator.transcript remarks
  | none => ""

/-- Whether someone is there who passes on the faces of dice. -/
def FacesHeard (narrator : Option Narrator) : Prop :=
  ∃ listening,
    narrator = some listening ∧ listening.muted = false ∧ 2 ≤ listening.threshold

/-- The lines about some faces. -/
def faceLines (faces : List Int) : String :=
  String.join (faces.map fun face => "Rolled: " ++ Text.showInt face ++ "\n")

theorem Narrator.passes_face
    (narrator : Narrator)
    (face : Int) :
    narrator.passes (.face face) = true ↔ narrator.muted = false ∧ 2 ≤ narrator.threshold := by
  have level : (Remark.face face).level = 2 :=
    rfl
  simp [passes, level]

theorem told_faces
    {narrator : Option Narrator}
    (heard : FacesHeard narrator)
    (faces : List Int) :
    told narrator (faces.map Remark.face) = faceLines faces := by
  obtain ⟨listening, rfl, listens⟩ := heard
  have passed : ∀ remark ∈ faces.map Remark.face, listening.passes remark = true := by
    intro remark member
    obtain ⟨face, -, rfl⟩ := List.mem_map.mp member
    exact (listening.passes_face face).mpr listens
  change String.join (((faces.map Remark.face).filter listening.passes).map _) = _
  rw [List.filter_eq_self.mpr passed, List.map_map]
  rfl

theorem Narrator.heard_faces_of_unheard
    {narrator : Narrator}
    (unheard : ¬ FacesHeard (some narrator))
    (faces : List Int) :
    narrator.heard (faces.map Remark.face) = [] := by
  refine List.filter_eq_nil_iff.mpr ?_
  intro remark member passed
  obtain ⟨face, -, rfl⟩ := List.mem_map.mp member
  exact unheard ⟨narrator, rfl, (narrator.passes_face face).mp passed⟩

theorem told_faces_of_unheard
    {narrator : Option Narrator}
    (unheard : ¬ FacesHeard narrator)
    (faces : List Int) :
    told narrator (faces.map Remark.face) = "" := by
  cases narrator with
  | none =>
      rfl
  | some listening =>
      change String.join ((listening.heard (faces.map Remark.face)).map _) = _
      rw [Narrator.heard_faces_of_unheard unheard]
      rfl

/--
A roll next to the same roll with a notebook in front of the source. The notebook
changes nothing, and what is told of the roll is found in it: all of its faces, or
all but the last one if that is the face that the roll fails for.
-/
structure Traced
    {σ : Type}
    (narrator : Option Narrator)
    (rolled : Passage σ Int)
    (noted : Passage (Recorded σ) Int)
    (told : String) :
    Prop where
  outcome : noted.outcome = rolled.outcome
  left : noted.left.inner = rolled.left
  unheard : ¬ FacesHeard narrator → told = ""
  all :
    FacesHeard narrator →
      (∀ face sides, rolled.outcome ≠ .error (.fault (.impossible face sides))) →
        rolled.outcome ≠ .error (.fault .unwritable) →
          told = faceLines noted.left.values
  allButLast :
    FacesHeard narrator →
      ∀ face sides,
        rolled.outcome = .error (.fault (.impossible face sides)) →
          ∃ earlier, noted.left.values = earlier ++ [face] ∧ told = faceLines earlier
  allButUnwritable :
    FacesHeard narrator →
      rolled.outcome = .error (.fault .unwritable) →
        ∃ earlier face, noted.left.values = earlier ++ [face] ∧ told = faceLines earlier

namespace Source

variable {σ : Type} (source : Source σ) (rules : Rules) (code : DiceCode) (state : σ)

/-- A notebook holds the faces that were accepted, and then the one that was not. -/
theorem throwCode_recorded :
    let thrown := source.recorded.throwCode rules code { inner := state }
    ∃ last,
      LastFace thrown.outcome last ∧
        thrown.hand.source.values = thrown.hand.faces.toList ++ last := by
  dsimp only
  have ends := code_ends source.recorded rules code { inner := state }
  revert ends
  generalize source.recorded.throwCode rules code { inner := state } = thrown
  intro ends
  cases ends with
  | settled drawn settled =>
      exact ⟨[], .value _, by simp [Recorded.values, drawn.recorded_toList]⟩
  | @broken rolls reached left die fault drawn opened breaks =>
      have written := source.recorded_rolls die reached
      have answered := source.recorded_answer die reached
      cases breaks with
      | refused answer =>
          rw [answer] at written answered
          rw [← answered] at written
          change left.rolls = reached.rolls at written
          refine ⟨[], .refused _, ?_⟩
          simp [Recorded.values, written, drawn.recorded_toList]
      | @rejected face _ answer notAccepted =>
          rw [answer] at written answered
          rw [← answered] at written
          change left.rolls = reached.rolls.push _ at written
          refine ⟨[face], lastFace_rejected face die, ?_⟩
          simp [Recorded.values, written, drawn.recorded_toList]
      | endless =>
          exact ⟨[], .endless, by simp [Recorded.values, drawn.recorded_toList]⟩

variable {source rules code state}

theorem evaluate_fault_iff {fault : Fault} :
    (source.evaluate rules code state).outcome = .error (.fault fault) ↔
      (source.throwCode rules code state).outcome = .error fault := by
  rw [evaluate_outcome]
  cases (source.throwCode rules code state).outcome <;> simp [Except.mapError, Except.map]

variable (source rules code state) in
/-- The faces in a notebook are those that are remarked on, and then one that is not accepted. -/
theorem evaluate_recorded :
    ∃ earlier last,
      LastFace (source.throwCode rules code state).outcome last ∧
        (source.recorded.evaluate rules code { inner := state }).left.values = earlier ++ last ∧
        (source.evaluate rules code state).remarks = earlier.map Remark.face := by
  obtain ⟨last, lastFace, values⟩ := source.throwCode_recorded rules code state
  have hands :
      Hand.Alike (fun noted state => noted.inner = state) #[]
        { source := { inner := state } : Hand (Recorded σ) } { source := state } :=
    ⟨rfl, rfl⟩
  have outcome :
      (source.recorded.throwCode rules code { inner := state }).outcome =
        (source.throwCode rules code state).outcome :=
    (source.alike_recorded.throwProduct hands (rules.forCode code) code.factors 1).outcome
  have alike := source.alike_recorded.evaluate (s := { inner := state }) rfl rules code
  rw [outcome] at lastFace
  rw [← evaluate_left] at values
  refine ⟨_, last, lastFace, values, ?_⟩
  rw [← alike.remarks, evaluate_remarks]

/-- Where no face is rejected, all faces in the notebook are remarked on. -/
theorem evaluate_accepted
    (accepted :
      ∀ face sides,
        (source.evaluate rules code state).outcome ≠ .error (.fault (.impossible face sides)))
    (writable : (source.evaluate rules code state).outcome ≠ .error (.fault .unwritable)) :
    (source.evaluate rules code state).remarks =
      (source.recorded.evaluate rules code { inner := state }).left.values.map Remark.face := by
  obtain ⟨earlier, last, lastFace, values, remarks⟩ := source.evaluate_recorded rules code state
  simp only [ne_eq, evaluate_fault_iff] at accepted writable
  have noneRejected : last = [] := by
    revert lastFace accepted writable
    generalize (source.throwCode rules code state).outcome = outcome
    intro lastFace accepted writable
    cases lastFace with
    | impossible face sides => exact absurd rfl (accepted face sides)
    | unwritable face => exact absurd rfl writable
    | _ => rfl
  rw [values, remarks, noneRejected, List.append_nil]

/-- The face that a roll fails for is the last one in the notebook, and no remark is made on it. -/
theorem evaluate_rejected
    {face sides : Int}
    (failed :
      (source.evaluate rules code state).outcome = .error (.fault (.impossible face sides))) :
    ∃ earlier,
      (source.recorded.evaluate rules code { inner := state }).left.values = earlier ++ [face] ∧
        (source.evaluate rules code state).remarks = earlier.map Remark.face := by
  obtain ⟨earlier, last, lastFace, values, remarks⟩ := source.evaluate_recorded rules code state
  rw [evaluate_fault_iff.mp failed] at lastFace
  cases lastFace
  exact ⟨earlier, values, remarks⟩

theorem evaluate_unwritable
    (failed : (source.evaluate rules code state).outcome = .error (.fault .unwritable)) :
    ∃ earlier face,
      (source.recorded.evaluate rules code { inner := state }).left.values = earlier ++ [face] ∧
        (source.evaluate rules code state).remarks = earlier.map Remark.face := by
  obtain ⟨earlier, last, lastFace, values, remarks⟩ := source.evaluate_recorded rules code state
  rw [evaluate_fault_iff.mp failed] at lastFace
  cases lastFace with
  | unwritable face => exact ⟨earlier, face, values, remarks⟩

/-- All dice of a text that has a result are remarked on. -/
theorem rollText_accepted
    {text : String}
    {result : Int}
    (rolled : (source.rollText rules text state).outcome = .ok result) :
    (source.rollText rules text state).remarks =
      (source.recorded.rollText rules text { inner := state }).left.values.map Remark.face := by
  unfold rollText at rolled ⊢
  cases read : DiceCode.read? text with
  | error misread =>
      rw [read] at rolled
      cases rolled
  | ok code =>
      rw [read] at rolled
      change (source.evaluate rules code state).outcome = .ok result at rolled
      refine evaluate_accepted ?_ ?_ <;>
        simp [rolled]

variable (source rules code state)

/-- The two traces of a roll agree but for the face that the roll fails for. -/
theorem evaluate_traced (narrator : Option Narrator) :
    Traced narrator
      (source.evaluate rules code state)
      (source.recorded.evaluate rules code { inner := state })
      (told narrator (source.evaluate rules code state).remarks) := by
  have alike := source.alike_recorded.evaluate (s := { inner := state }) rfl rules code
  refine ⟨alike.outcome, alike.left, ?_, ?_, ?_, ?_⟩
  · intro unheard
    rw [evaluate_remarks]
    exact told_faces_of_unheard unheard _
  · intro heard accepted writable
    rw [evaluate_accepted accepted writable]
    exact told_faces heard _
  · intro heard face sides failed
    obtain ⟨earlier, values, remarks⟩ := evaluate_rejected failed
    rw [remarks]
    exact ⟨earlier, values, told_faces heard earlier⟩
  · intro heard failed
    obtain ⟨earlier, face, values, remarks⟩ := evaluate_unwritable failed
    rw [remarks]
    exact ⟨earlier, face, values, told_faces heard earlier⟩

end Source

end Tabletop
