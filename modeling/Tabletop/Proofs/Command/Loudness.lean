import Mathlib.Data.List.Basic
import Tabletop.Proofs.Command.FailFast
import Tabletop.Proofs.Command.Switches

namespace Tabletop

/-!
# How loud a run is

The loudness decides which messages of a run are printed and nothing else: not how
the run ends, not what goes to the error output, and not what is left of the source.
`graded` compares the three loudnesses of one plan. `make?_graded` is the same for
command lines that differ in the switch for it, under which the preference counts for
nothing.
-/

/-- What a result is announced by. -/
def resultLine (result : Int) : String :=
  "===> " ++ Text.showInt result

/-- Whether two runs are the same in all that is seen of them but the output. -/
structure Run.SameButOutput
    {σ : Type}
    (first second : Run σ) :
    Prop where
  ending : first.ending = second.ending
  errors : first.errors = second.errors
  left : first.left = second.left

/-- A narrator with a lower threshold passes on a part of what one with a higher threshold does. -/
theorem Narrator.heard_sublist_heard
    {lower higher : Narrator}
    (unmuted : higher.muted = false)
    (below : lower.threshold ≤ higher.threshold)
    (remarks : List Remark) :
    List.Sublist (lower.heard remarks) (higher.heard remarks) := by
  refine List.monotone_filter_right remarks ?_
  intro remark passed
  have spoken : remark.level ≤ lower.threshold := by
    simp only [passes, Bool.and_eq_true, decide_eq_true_eq] at passed
    exact passed.2
  simp only [passes, unmuted, Bool.not_false, Bool.true_and, decide_eq_true_eq]
  exact Int.le_trans spoken below

namespace Source

variable {σ : Type} {source : Source σ} {rules : Rules} {echo : Bool}
variable {code : String} {codes : List String} {state : σ}

/-- The results of codes that are rolled one after the other, up to the first code without one. -/
def results
    (source : Source σ)
    (rules : Rules) :
    List String → σ → List Int
  | [], _ => []
  | code :: codes, state =>
      match (source.rollText rules code state).outcome with
      | .ok result =>
          result :: source.results rules codes (source.rollText rules code state).left
      | .error _ =>
          []

theorem follow_remarks_of_failure
    {failure : Failure}
    (failed : (source.rollText rules code state).outcome = .error failure) :
    (source.follow rules echo (code :: codes) state).remarks =
      echoBefore echo code ++ (source.rollText rules code state).remarks := by
  rw [follow]
  simp only [failed]
  rcases failure with (error | digits) | fault <;> rfl

/-- Of a code that is rolled, without its result, a quiet narrator passes on nothing. -/
theorem heard_quiet_before
    (source : Source σ)
    (rules : Rules)
    (echo : Bool)
    (code : String)
    (state : σ) :
    Loudness.quiet.narrator.heard
        (echoBefore echo code ++ (source.rollText rules code state).remarks) =
      [] := by
  obtain ⟨faces, remarks⟩ : ∃ faces : List Int,
      (source.rollText rules code state).remarks = faces.map Remark.face :=
    rollText_remarks
  have unheard : ¬ FacesHeard (some Loudness.quiet.narrator) := by
    rw [facesHeard_iff]
    exact nofun
  rw [remarks, Narrator.heard_append, Narrator.heard_faces_of_unheard unheard]
  cases echo <;> rfl

/-- A quiet narrator passes on the results, and nothing else. -/
theorem heard_quiet_follow :
    Loudness.quiet.narrator.heard (source.follow rules echo codes state).remarks =
      (source.results rules codes state).map Remark.result := by
  induction codes generalizing state with
  | nil =>
      rfl
  | cons code codes inductionHypothesis =>
      have before := source.heard_quiet_before rules echo code state
      unfold results
      cases rolled : (source.rollText rules code state).outcome with
      | error failure =>
          rw [follow_remarks_of_failure rolled]
          exact before
      | ok result =>
          have after :
              Loudness.quiet.narrator.heard (.result result :: echoAfter echo) =
                [.result result] := by
            cases echo <;> rfl
          rw [follow_of_result rolled]
          change Loudness.quiet.narrator.heard
            (echoBefore echo code ++ (source.rollText rules code state).remarks ++
              .result result :: echoAfter echo ++ _) = _
          rw [Narrator.heard_append, Narrator.heard_append, before, after, inductionHypothesis]
          rfl

end Source

namespace Plan

/-- The messages that are printed when a plan is carried out. -/
def messages
    {σ : Type}
    (plan : Plan)
    (source : Source σ)
    (state : σ) :
    List String :=
  (plan.narrator.heard (source.follow plan.rules plan.echo plan.codes state).remarks).map
    Remark.text

/-- The same plan at another loudness. -/
def withLoudness
    (loudness : Loudness)
    (plan : Plan) :
    Plan :=
  { plan with narrator := loudness.narrator }

/--
Three plans for the same run that differ in how much of it is heard. Each prints its
messages on lines of their own. A plan prints all that is printed by the ones before
it, in the same order, and the first one prints the results alone.
-/
structure Graded (quiet middle verbose : Plan) : Prop where
  printed :
    ∀ plan ∈ [quiet, middle, verbose], ∀ {σ : Type} (source : Source σ) (state : σ),
      (plan.carryOut source state).output = linesText (plan.messages source state)
  quietRun :
    ∀ {σ : Type} (source : Source σ) (state : σ),
      (quiet.carryOut source state).SameButOutput (middle.carryOut source state)
  verboseRun :
    ∀ {σ : Type} (source : Source σ) (state : σ),
      (verbose.carryOut source state).SameButOutput (middle.carryOut source state)
  quietMessages :
    ∀ {σ : Type} (source : Source σ) (state : σ),
      List.Sublist (quiet.messages source state) (middle.messages source state)
  verboseMessages :
    ∀ {σ : Type} (source : Source σ) (state : σ),
      List.Sublist (middle.messages source state) (verbose.messages source state)
  results :
    ∀ {σ : Type} (source : Source σ) (state : σ),
      quiet.messages source state =
        (source.results middle.rules middle.codes state).map resultLine

theorem carryOut_output
    {σ : Type}
    (plan : Plan)
    (source : Source σ)
    (state : σ) :
    (plan.carryOut source state).output = linesText (plan.messages source state) := by
  unfold linesText messages
  rw [List.map_map]
  rfl

/-- What is printed at a loudness is printed at a higher one. -/
theorem messages_sublist
    {σ : Type}
    {lower higher : Loudness}
    (below : lower.rank ≤ higher.rank)
    (plan : Plan)
    (source : Source σ)
    (state : σ) :
    List.Sublist ((plan.withLoudness lower).messages source state)
      ((plan.withLoudness higher).messages source state) :=
  (Narrator.heard_sublist_heard rfl below _).map _

theorem messages_quiet
    {σ : Type}
    (plan : Plan)
    (source : Source σ)
    (state : σ) :
    (plan.withLoudness .quiet).messages source state =
      (source.results plan.rules plan.codes state).map resultLine := by
  unfold messages withLoudness
  rw [Source.heard_quiet_follow, List.map_map]
  rfl

/-- The three loudnesses of one plan. -/
theorem graded (plan : Plan) :
    Graded (plan.withLoudness .quiet) (plan.withLoudness .standard) (plan.withLoudness .verbose)
    where
  printed plan _ := plan.carryOut_output
  quietRun _ _ := ⟨rfl, rfl, rfl⟩
  verboseRun _ _ := ⟨rfl, rfl, rfl⟩
  quietMessages := plan.messages_sublist (by decide)
  verboseMessages := plan.messages_sublist (by decide)
  results := plan.messages_quiet

section

variable {plainly more : List String} {invocation : Invocation}

theorem make_adding_verbose
    (notQuiet : invocation.has .quiet = false)
    (preferences : Preferences)
    (loudness : Loudness)
    (input : StandardInput) :
    make (invocation.adding .verbose) { preferences with loudness := loudness } input =
      (make invocation preferences input).withLoudness .verbose := by
  have switched :
      Plan.loudness (invocation.adding .verbose) { preferences with loudness := loudness } =
        .verbose := by
    change (if invocation.has .quiet then _ else .verbose) = Loudness.verbose
    rw [notQuiet]
    rfl
  unfold make
  rw [switched]
  rfl

/-- Where no switch is given for the loudness, it is the one that is preferred. -/
theorem make_preferred
    (notQuiet : invocation.has .quiet = false)
    (notVerbose : invocation.has .verbose = false)
    (preferences : Preferences)
    (input : StandardInput) :
    make invocation preferences input =
      (make invocation preferences input).withLoudness preferences.loudness := by
  have unswitched : Plan.loudness invocation preferences = preferences.loudness := by
    change (if invocation.has .quiet then _ else if invocation.has .verbose then _ else _) = _
    rw [notQuiet, notVerbose]
    rfl
  unfold make withLoudness
  rw [unswitched]
  rfl

/-- The plan for given words and input, where a loudness is preferred besides. -/
def preferring
    (preferences : Preferences)
    (input : StandardInput)
    (loudness : Loudness)
    (arguments : List String) :
    Except Obstacle Plan :=
  make?
    { arguments := arguments
      input := input
      preferences := .ok { preferences with loudness := loudness } }

/-- Under the switch for quiet the preference counts for nothing. -/
theorem make?_adding_quiet
    (adds : Invocation.Adds .quiet plainly more)
    (preferences : Preferences)
    (loudness : Loudness)
    (input : StandardInput) :
    preferring preferences input loudness more =
      (preferring preferences input .standard plainly).map (withLoudness .quiet) := by
  unfold preferring
  cases accepted : Invocation.read? plainly with
  | error dismissal =>
      rw [make?_of_dismissed (adds.dismissed accepted), make?_of_dismissed accepted]
      rfl
  | ok invocation =>
      rw [make?_of_accepted (adds.accepted accepted) rfl, make?_of_accepted accepted rfl]
      rfl

/-- Under the switch for verbose the preference counts for nothing. -/
theorem make?_adding_verbose
    (notQuiet : ¬ Invocation.Gives plainly .quiet)
    (adds : Invocation.Adds .verbose plainly more)
    (preferences : Preferences)
    (loudness : Loudness)
    (input : StandardInput) :
    preferring preferences input loudness more =
      (preferring preferences input .standard plainly).map (withLoudness .verbose) := by
  unfold preferring
  cases accepted : Invocation.read? plainly with
  | error dismissal =>
      rw [make?_of_dismissed (adds.dismissed accepted), make?_of_dismissed accepted]
      rfl
  | ok invocation =>
      rw [make?_of_accepted (adds.accepted accepted) rfl, make?_of_accepted accepted rfl,
        make_adding_verbose (Invocation.has_of_notGiven notQuiet accepted)]
      rfl

theorem make?_standard
    (notQuiet : ¬ Invocation.Gives plainly .quiet)
    (notVerbose : ¬ Invocation.Gives plainly .verbose)
    (preferences : Preferences)
    (input : StandardInput) :
    preferring preferences input .standard plainly =
      (preferring preferences input .standard plainly).map (withLoudness .standard) := by
  unfold preferring
  cases accepted : Invocation.read? plainly with
  | error dismissal =>
      rw [make?_of_dismissed accepted]
      rfl
  | ok invocation =>
      rw [make?_of_accepted accepted rfl]
      exact congrArg Except.ok
        (make_preferred (Invocation.has_of_notGiven notQuiet accepted)
          (Invocation.has_of_notGiven notVerbose accepted) _ input)

end

/--
A run at the three loudnesses. The words give no switch for it, and two command lines
add one each, such as the words with the switch in front. Either the same is in the
way of all three, or their runs end in the same way, write the same errors, where
`Entry.traceLine` stands for a trace, and leave the same of the source, and what they
print is graded. What is preferred in place of the loudness makes no difference where
a switch is given.
-/
theorem make?_graded
    {plainly : List String}
    (notQuiet : ¬ Invocation.Gives plainly .quiet)
    (notVerbose : ¬ Invocation.Gives plainly .verbose)
    (preferences : Preferences)
    (input : StandardInput) :
    let planned (arguments : List String) (preferences : Preferences) :=
      make? { arguments := arguments, input := input, preferences := .ok preferences }
    let standard : Preferences := { preferences with loudness := .standard }
    Invocation.Adds .quiet plainly ("-q" :: plainly) ∧
      Invocation.Adds .verbose plainly ("-v" :: plainly) ∧
      ∀ {quietly verbosely : List String},
        Invocation.Adds .quiet plainly quietly →
        Invocation.Adds .verbose plainly verbosely →
        ((∃ obstacle,
            planned quietly preferences = .error obstacle ∧
              planned plainly standard = .error obstacle ∧
              planned verbosely preferences = .error obstacle) ∨
          ∃ quiet middle verbose,
            planned quietly preferences = .ok quiet ∧
              planned plainly standard = .ok middle ∧
              planned verbosely preferences = .ok verbose ∧
              Graded quiet middle verbose) ∧
          ∀ loudness,
            let other : Preferences := { preferences with loudness := loudness }
            planned quietly other = planned quietly preferences ∧
              planned verbosely other = planned verbosely preferences := by
  intro planned standard
  have quietRivals (rival : Switch) (isRival : Switch.quiet.rival? = some rival) :
      ¬ Invocation.Gives plainly rival := by
    cases isRival
    exact notVerbose
  have verboseRivals (rival : Switch) (isRival : Switch.verbose.rival? = some rival) :
      ¬ Invocation.Gives plainly rival := by
    cases isRival
    exact notQuiet
  refine ⟨Invocation.adds_cons rfl nofun quietRivals,
    Invocation.adds_cons rfl nofun verboseRivals, ?_⟩
  intro quietly verbosely addsQuiet addsVerbose
  have quietPlan (loudness : Loudness) := make?_adding_quiet addsQuiet preferences loudness input
  have verbosePlan (loudness : Loudness) :=
    make?_adding_verbose notQuiet addsVerbose preferences loudness input
  have middlePlan := make?_standard notQuiet notVerbose preferences input
  refine ⟨?_, ?_⟩
  · have quiet := quietPlan preferences.loudness
    have verbose := verbosePlan preferences.loudness
    cases made : preferring preferences input .standard plainly with
    | error obstacle =>
        rw [made] at quiet verbose
        exact .inl ⟨obstacle, quiet, made, verbose⟩
    | ok plan =>
        rw [made] at quiet verbose middlePlan
        exact .inr ⟨_, _, _, quiet, made.trans middlePlan, verbose, plan.graded⟩
  · intro loudness other
    exact ⟨(quietPlan loudness).trans (quietPlan preferences.loudness).symm,
      (verbosePlan loudness).trans (verbosePlan preferences.loudness).symm⟩

/-- Two codes, the second of which is rejected, where verbose is preferred. -/
theorem make?_graded_preferredVerbose :
    ∃ quiet middle verbose,
      make?
          { arguments := ["-q", "-e", "d6", "x"]
            preferences := .ok { loudness := .verbose } } =
          .ok quiet ∧
        make? { arguments := ["-e", "d6", "x"] } = .ok middle ∧
        make?
          { arguments := ["-v", "-e", "d6", "x"]
            preferences := .ok { loudness := .verbose } } =
          .ok verbose ∧
        Graded quiet middle verbose := by
  have notGiven {switch : Switch} (different : switch ≠ .explode) :
      ¬ Invocation.Gives ["-e", "d6", "x"] switch := by
    rintro ⟨words, classified, word, member, gives⟩
    obtain rfl : [.option .explode true none, .operand "d6", .operand "x"] = words :=
      Except.ok.inj classified
    rcases List.mem_cons.mp member with rfl | member
    · obtain ⟨given, means, member⟩ := gives
      cases means
      exact different (List.mem_singleton.mp member)
    · simp only [List.mem_cons, List.not_mem_nil, or_false] at member
      rcases member with rfl | rfl <;> cases gives
  obtain ⟨addsQuiet, addsVerbose, runs⟩ :=
    @make?_graded ["-e", "d6", "x"] (notGiven nofun) (notGiven nofun) { loudness := .verbose } {}
  obtain ⟨⟨obstacle, -, stopped, -⟩ | planned, -⟩ := runs addsQuiet addsVerbose
  · cases stopped
  · exact planned

end Plan

end Tabletop
