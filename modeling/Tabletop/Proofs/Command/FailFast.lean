import Tabletop.Proofs.Command.Options
import Tabletop.Proofs.Grammar.Joined
import Tabletop.Proofs.Throws.Trace

namespace Tabletop

/-!
# A command line with several codes

Several codes are rolled in succession, each with what the codes before it left
of the source, until one is rejected. `follow_inSuccession` is the run of the
codes before that one, and `carryOut_failFast` says what is seen of it: the lines
for each result, the code that was rejected and its message, and nothing of the
codes behind it.
-/

/-- A code that was rolled: its result, the faces of its dice, and the entries made. -/
structure Rolled where
  code : String
  result : Int
  faces : List Int
  entries : List Entry

namespace Rolled

/-- The lines that are printed for a code that was rolled. -/
def lines (rolled : Rolled) : Loudness → List String
  | .quiet => ["===> " ++ Text.showInt rolled.result]
  | .standard => [rolled.code, "===> " ++ Text.showInt rolled.result, ""]
  | .verbose =>
      [rolled.code] ++ rolled.faces.map (fun face => "Rolled: " ++ Text.showInt face) ++
        ["===> " ++ Text.showInt rolled.result, ""]

/-- The remarks that are made on a code that was rolled. -/
def remarks (rolled : Rolled) : List Remark :=
  [.standard rolled.code] ++ rolled.faces.map Remark.face ++
    [.result rolled.result, .standard ""]

end Rolled

/-- What stands behind the codes of a run that have a result. -/
inductive Remainder where
  | nothing
  /-- A code that is rejected, and the codes behind it. -/
  | rejected (code : String) (error : CodeError) (behind : List String)

namespace Remainder

def codes : Remainder → List String
  | nothing => []
  | rejected code _ behind => code :: behind

/-- Whether the code that is said to be rejected is rejected. -/
def Correct : Remainder → Prop
  | nothing => True
  | rejected code error _ => DiceCode.read? code = .error (.rejected error)

def status : Remainder → Nat
  | nothing => 0
  | rejected _ _ _ => 1

/-- A code is echoed before it is read, unless results alone are printed. -/
def lines : Remainder → Loudness → List String
  | nothing, _ => []
  | rejected code _ _, loudness => if loudness = .quiet then [] else [code]

def entries : Remainder → List Entry
  | nothing => []
  | rejected code error _ => [rejectEntry code error]

/-- The line about the code that is rejected. -/
def complaints : Remainder → List String
  | nothing => []
  | rejected _ error _ => ["error: " ++ error.message]

def remarks : Remainder → List Remark
  | nothing => []
  | rejected code _ _ => [.standard code]

/-- The same with other codes behind the code that is rejected. -/
def withBehind
    (others : List String) :
    Remainder → Remainder
  | nothing => nothing
  | rejected code error _ => rejected code error others

end Remainder

/-- Lines as a text. -/
def linesText (lines : List String) : String :=
  String.join (lines.map (· ++ "\n"))

theorem linesText_append
    (first second : List String) :
    linesText (first ++ second) = linesText first ++ linesText second := by
  simp [linesText]

namespace Source

variable {σ : Type}

/-- Codes that are rolled one after the other, with what came of each and the state left at last. -/
inductive InSuccession
    (source : Source σ)
    (rules : Rules) :
    List String → σ → List Rolled → σ → Prop where
  | done {state : σ} :
      InSuccession source rules [] state [] state
  | next
      {code : String}
      {codes : List String}
      {state left : σ}
      {result : Int}
      {later : List Rolled}
      (rolled : (source.rollText rules code state).outcome = .ok result)
      (rest : InSuccession source rules codes (source.rollText rules code state).left later left) :
      InSuccession source rules (code :: codes) state
        ({ code := code
           result := result
           faces := (source.recorded.rollText rules code { inner := state }).left.values
           entries := (source.rollText rules code state).entries } :: later)
        left

/-- Whether no roll of some codes, one after the other, meets a fault. -/
def Unfailing
    (source : Source σ)
    (rules : Rules) :
    List String → σ → Prop
  | [], _ => True
  | code :: codes, state =>
      (∀ fault, (source.rollText rules code state).outcome ≠ .error (.fault fault)) ∧
        source.Unfailing rules codes (source.rollText rules code state).left

variable {source : Source σ} {rules : Rules} {before : List String} {state left : σ}
variable {results : List Rolled} {remainder : Remainder}

theorem exists_inSuccession
    (allRead : ∀ code ∈ before, ∃ read, DiceCode.read? code = .ok read)
    (unfailing : source.Unfailing rules before state) :
    ∃ results left, source.InSuccession rules before state results left := by
  induction before generalizing state with
  | nil =>
      exact ⟨[], state, .done⟩
  | cons code codes inductionHypothesis =>
      obtain ⟨noFault, laterUnfailing⟩ := unfailing
      obtain ⟨⟨read, isRead⟩, laterRead⟩ := List.forall_mem_cons.mp allRead
      obtain ⟨later, left, rest⟩ := inductionHypothesis laterRead laterUnfailing
      cases rolled : (source.rollText rules code state).outcome with
      | ok result =>
          exact ⟨_, left, .next rolled rest⟩
      | error failure =>
          cases failure with
          | misread misread =>
              rw [rollText_misread_iff.mp rolled] at isRead
              cases isRead
          | fault fault =>
              exact absurd rolled (noFault fault)

/-- The course of codes that are rolled in succession, and of what stands behind them. -/
theorem follow_inSuccession
    (succession : source.InSuccession rules before state results left)
    (correct : remainder.Correct) :
    source.follow rules true (before ++ remainder.codes) state =
      { ending := .status remainder.status
        remarks := results.flatMap Rolled.remarks ++ remainder.remarks
        notices :=
          (results.flatMap Rolled.entries ++ remainder.entries).map Notice.entry ++
            remainder.complaints.map Notice.line
        left := left } := by
  induction succession with
  | done =>
      cases remainder with
      | nothing =>
          rfl
      | rejected code error behind =>
          exact follow_of_rejected correct
  | @next code codes state left result later rolled rest inductionHypothesis =>
      have remarks := rollText_accepted rolled
      rw [List.cons_append, follow_of_result rolled, inductionHypothesis]
      simp [Course.andThen, resultCourse, remarks, Rolled.remarks, echoBefore, echoAfter]

end Source

theorem Narrator.transcript_append
    (narrator : Narrator)
    (first second : List Remark) :
    narrator.transcript (first ++ second) =
      narrator.transcript first ++ narrator.transcript second := by
  simp [transcript, heard_append]

/-- Only the highest loudness lets faces pass. -/
theorem facesHeard_iff {loudness : Loudness} :
    FacesHeard (some loudness.narrator) ↔ loudness = .verbose := by
  constructor
  · rintro ⟨_, ⟨⟩, -, high⟩
    cases loudness with
    | quiet =>
        exact absurd high (by decide)
    | standard =>
        exact absurd high (by decide)
    | verbose =>
        rfl
  · rintro rfl
    exact ⟨_, rfl, rfl, Int.le_refl 2⟩

theorem linesText_faces (faces : List Int) :
    linesText (faces.map fun face => "Rolled: " ++ Text.showInt face) = faceLines faces := by
  unfold linesText faceLines
  rw [List.map_map]
  rfl

theorem Rolled.transcript
    (rolled : Rolled)
    (loudness : Loudness) :
    loudness.narrator.transcript rolled.remarks = linesText (rolled.lines loudness) := by
  have faces :
      loudness.narrator.transcript (rolled.faces.map Remark.face) =
        if loudness = .verbose then faceLines rolled.faces else "" := by
    split
    · next verbose =>
        exact told_faces (facesHeard_iff.mpr verbose) rolled.faces
    · next notVerbose =>
        exact told_faces_of_unheard (fun heard => notVerbose (facesHeard_iff.mp heard)) rolled.faces
  unfold remarks
  rw [Narrator.transcript_append, Narrator.transcript_append, faces]
  cases loudness with
  | quiet =>
      change "" ++ "" ++ linesText (rolled.lines .quiet) = _
      rw [String.empty_append, String.empty_append]
  | standard =>
      change linesText [rolled.code] ++ "" ++
        linesText ["===> " ++ Text.showInt rolled.result, ""] = _
      rw [String.append_empty, ← linesText_append]
      rfl
  | verbose =>
      unfold lines
      rw [linesText_append, linesText_append, linesText_faces]
      rfl

theorem transcript_results
    (results : List Rolled)
    (loudness : Loudness) :
    loudness.narrator.transcript (results.flatMap Rolled.remarks) =
      linesText (results.flatMap (Rolled.lines · loudness)) := by
  induction results with
  | nil =>
      rfl
  | cons rolled results inductionHypothesis =>
      rw [List.flatMap_cons, List.flatMap_cons, Narrator.transcript_append, linesText_append,
        inductionHypothesis, rolled.transcript]

theorem Remainder.transcript
    (remainder : Remainder)
    (loudness : Loudness) :
    loudness.narrator.transcript remainder.remarks = linesText (remainder.lines loudness) := by
  cases remainder with
  | nothing =>
      rfl
  | rejected code error behind =>
      cases loudness <;> rfl

/-- Entries go to the error output as the desk writes them, and lines as they are. -/
theorem Notice.join_text
    (desk : Desk)
    (entries : List Entry)
    (lines : List String) :
    String.join ((entries.map Notice.entry ++ lines.map Notice.line).map (Notice.text desk)) =
      desk.written entries ++ linesText lines := by
  have written : String.join ((entries.map Notice.entry).map (Notice.text desk)) =
      desk.written entries := by
    induction entries with
    | nil =>
        rfl
    | cons entry entries inductionHypothesis =>
        rw [desk.written_cons, ← inductionHypothesis]
        exact String.join_cons
  rw [List.map_append, String.join_append, written, List.map_map]
  rfl

/-- What is seen of codes that were rolled, and of what stands behind them. -/
def Run.untilRejected
    {σ : Type}
    (loudness : Loudness)
    (desk : Desk)
    (results : List Rolled)
    (remainder : Remainder)
    (left : σ) :
    Run σ where
  ending := .status remainder.status
  output := linesText (results.flatMap (Rolled.lines · loudness) ++ remainder.lines loudness)
  errors :=
    desk.written (results.flatMap Rolled.entries ++ remainder.entries) ++
      linesText remainder.complaints
  left := left

/-- Nothing is seen of the codes behind the one that is rejected. -/
theorem Run.untilRejected_withBehind
    {σ : Type}
    (loudness : Loudness)
    (desk : Desk)
    (results : List Rolled)
    (remainder : Remainder)
    (others : List String)
    (left : σ) :
    untilRejected loudness desk results (remainder.withBehind others) left =
      untilRejected loudness desk results remainder left := by
  cases remainder <;> rfl

namespace Remainder

variable {remainder : Remainder} {others before : List String}

theorem withBehind_correct (correct : remainder.Correct) :
    (remainder.withBehind others).Correct := by
  cases remainder <;> exact correct

theorem withBehind_noDash
    (noDash : ∀ code ∈ before ++ remainder.codes, code.toList.head? ≠ some '-')
    (othersNoDash : ∀ code ∈ others, code.toList.head? ≠ some '-') :
    ∀ code ∈ before ++ (remainder.withBehind others).codes, code.toList.head? ≠ some '-' := by
  cases remainder with
  | nothing =>
      exact noDash
  | rejected code error behind =>
      obtain ⟨beforeNoDash, restNoDash⟩ := List.forall_mem_append.mp noDash
      have codeNoDash := restNoDash code (.head _)
      exact List.forall_mem_append.mpr
        ⟨beforeNoDash, List.forall_mem_cons.mpr ⟨codeNoDash, othersNoDash⟩⟩

end Remainder

namespace Plan

theorem carryOut_echoing
    {σ : Type}
    {source : Source σ}
    {invocation : Invocation}
    {preferences : Preferences}
    {before : List String}
    {results : List Rolled}
    {remainder : Remainder}
    {state left : σ}
    (succession :
      source.InSuccession (effectiveRules invocation preferences) before state results left)
    (correct : remainder.Correct) :
    (echoing invocation preferences (before ++ remainder.codes)).carryOut source state =
      .untilRejected (loudness invocation preferences)
        (Desk.configure (.named preferences.journal) {}) results remainder left := by
  unfold carryOut echoing Run.untilRejected
  rw [Source.follow_inSuccession succession correct]
  dsimp only
  rw [Narrator.transcript_append, transcript_results, remainder.transcript, ← linesText_append,
    Notice.join_text]

/--
A run of several codes, which fails fast. The codes before the first one that is
rejected are rolled in succession, and what is printed is the lines for each of
them and the echo of the one that is rejected. Its message is the only line in
the error output besides what the desk writes, the status is one exactly if a
code is rejected, and the codes behind it change nothing.
-/
theorem carryOut_failFast
    {σ : Type}
    (source : Source σ)
    (state : σ)
    (input : StandardInput)
    {options before : List String}
    {remainder : Remainder}
    {invocation : Invocation}
    {preferences : Preferences}
    (onlyOptions : Invocation.OnlyOptions options)
    (accepted : Invocation.read? options = .ok invocation)
    (noDash : ∀ code ∈ before ++ remainder.codes, code.toList.head? ≠ some '-')
    (several : 2 ≤ (before ++ remainder.codes).length)
    (allRead : ∀ code ∈ before, ∃ read, DiceCode.read? code = .ok read)
    (correct : remainder.Correct)
    (unfailing : source.Unfailing (effectiveRules invocation preferences) before state) :
    let surroundings (codes : List String) : Surroundings :=
      { arguments := options ++ codes, input := input, preferences := .ok preferences }
    ∃ plan results left,
      make? (surroundings (before ++ remainder.codes)) = .ok plan ∧
        source.InSuccession (effectiveRules invocation preferences) before state results left ∧
        plan.carryOut source state =
          .untilRejected (loudness invocation preferences)
            (Desk.configure (.named preferences.journal) {}) results remainder left ∧
        ∀ others,
          (∀ code ∈ others, code.toList.head? ≠ some '-') →
            2 ≤ (before ++ (remainder.withBehind others).codes).length →
              (make? (surroundings (before ++ (remainder.withBehind others).codes))).map
                  (·.carryOut source state) =
                .ok (plan.carryOut source state) := by
  intro surroundings
  obtain ⟨results, left, succession⟩ := Source.exists_inSuccession allRead unfailing
  refine ⟨_, results, left, make?_codes onlyOptions accepted noDash several preferences input,
    succession, carryOut_echoing succession correct, ?_⟩
  intro others othersNoDash othersSeveral
  have stillNoDash := Remainder.withBehind_noDash noDash othersNoDash
  rw [make?_codes onlyOptions accepted stillNoDash othersSeveral preferences input]
  change Except.ok (carryOut _ source state) = _
  rw [carryOut_echoing succession (Remainder.withBehind_correct correct),
    Run.untilRejected_withBehind, carryOut_echoing succession correct]

/-- Three codes, of which the second is rejected and the third is not looked at. -/
theorem carryOut_failFast_secondRejected :
    ∃ plan,
      make? { arguments := ["-v", "d6", "x", "d8"] } = .ok plan ∧
        plan.carryOut Well.source (.script [4] 0) =
          { ending := .status 1
            output := "d6\nRolled: 4\n===> 4\n\nx\n"
            errors := "error: [UNEXPECTED_CHAR] Expected 'd' but found 'x'.\n"
            left := .script [] 1 } := by
  have onlyOptions : Invocation.OnlyOptions ["-v"] :=
    @Invocation.onlyOptions_of_classified _ [.option .verbose true none] rfl (by simp)
  have rejected : DiceCode.read? "x" = .error (.rejected (.unexpectedChar "d" "x")) :=
    DiceCode.read?_of_fault rfl rfl
  have read : DiceCode.read? "d6" = .ok { factors := [{}] } :=
    @DiceCode.read?_of_factor _ _ _ false rfl rfl
  have rolled : (Well.source.rollText {} "d6" (.script [4] 0)).outcome = .ok 4 := by
    rw [Source.rollText_of_read read]
    rfl
  have noneGiven : effectiveRules { verbose := true } {} = {} :=
    rfl
  have unfailing :
      Well.source.Unfailing (effectiveRules { verbose := true } {}) ["d6"] (.script [4] 0) := by
    rw [noneGiven]
    refine ⟨?_, trivial⟩
    rw [rolled]
    exact nofun
  obtain ⟨plan, results, left, planned, succession, carried, -⟩ :=
    @carryOut_failFast _ Well.source (.script [4] 0) {} ["-v"] ["d6"]
      (.rejected "x" (.unexpectedChar "d" "x") ["d8"]) { verbose := true } {}
      onlyOptions rfl (by decide) (by decide) (by simpa using ⟨_, read⟩) rejected
      unfailing
  refine ⟨plan, planned, carried.trans ?_⟩
  cases succession with
  | next result rest =>
      cases rest
      rw [noneGiven] at result ⊢
      obtain rfl := Except.ok.inj (result.symm.trans rolled)
      rw [Source.rollText_of_read read, Source.rollText_of_read read]
      rfl

end Plan

end Tabletop
