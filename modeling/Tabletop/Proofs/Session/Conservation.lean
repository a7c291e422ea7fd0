import Tabletop.Proofs.Session.Throwing

namespace Tabletop

/-!
# What sessions keep account of

The draws of a step are found by throwing the same thing with a log in front of
the source. Over any run of steps the rack accounts for all draws made in it:
scripts lose and repeat no face, and notebooks hold what was drawn through them.
A step whose text is no dice code draws nothing and leaves all sources as they
were.
-/

namespace Rack

/-- Whether all wells and notebooks are in their places as they were, and new notebooks empty. -/
structure Extends (before after : Rack) : Prop where
  wells :
    ∀ {place : Nat} {well : Well},
      before.wells[place]? = some well → after.wells[place]? = some well
  notebooks :
    ∀ {place : Nat} {notebook : Notebook},
      before.notebooks[place]? = some notebook → after.notebooks[place]? = some notebook
  blank :
    ∀ {place : Nat} {notebook : Notebook},
      after.notebooks[place]? = some notebook →
      before.notebooks[place]? = some notebook ∨ notebook = #[]

/-- A handle with different notebooks in front of its well, all of them on the rack. -/
structure Holds
    (rack : Rack)
    (handle : Handle) :
    Prop where
  distinct : handle.notebooks.Nodup
  onRack : ∀ notebook ∈ handle.notebooks, notebook < rack.notebooks.size

section

variable {before middle after : Rack} {draws : List Draw} {handle : Handle}

theorem Extends.refl (rack : Rack) : rack.Extends rack where
  wells := id
  notebooks := id
  blank := .inl

theorem Extends.trans
    (first : before.Extends middle)
    (second : middle.Extends after) :
    before.Extends after where
  wells stands := second.wells (first.wells stands)
  notebooks lies := second.notebooks (first.notebooks lies)
  blank lies := (second.blank lies).elim first.blank .inr

theorem Extends.accounts
    (first : before.Extends middle)
    (second : middle.Accounts draws after) :
    before.Accounts draws after where
  script stands := second.script (first.wells stands)
  dry stands := second.dry (first.wells stands)
  notebook lies := second.notebook (first.notebooks lies)

theorem Holds.mono
    (holds : before.Holds handle)
    (noneLost : before.notebooks.size ≤ after.notebooks.size) :
    after.Holds handle where
  distinct := holds.distinct
  onRack notebook member := Nat.lt_of_lt_of_le (holds.onRack notebook member) noneLost

theorem addWell_extends
    (rack : Rack)
    (well : Well) :
    rack.Extends (rack.addWell well).2 where
  wells {place other} stands := by
    have inRack : place < rack.wells.size :=
      (Array.getElem?_eq_some_iff.mp stands).1
    change (rack.wells.push well)[place]? = some other
    rw [Array.getElem?_push_lt inRack, ← stands, Array.getElem?_eq_getElem inRack]
  notebooks := id
  blank := .inl

theorem addWell_holds
    (rack : Rack)
    (well : Well) :
    (rack.addWell well).2.Holds (rack.addWell well).1 where
  distinct := .nil
  onRack _ member := absurd member List.not_mem_nil

theorem addNotebook_extends
    (rack : Rack)
    (handle : Handle) :
    rack.Extends (rack.addNotebook handle).2 where
  wells := id
  notebooks {place notebook} lies := by
    have inRack : place < rack.notebooks.size :=
      (Array.getElem?_eq_some_iff.mp lies).1
    change (rack.notebooks.push #[])[place]? = some notebook
    rw [Array.getElem?_push_lt inRack, ← lies, Array.getElem?_eq_getElem inRack]
  blank {place notebook} lies := by
    change (rack.notebooks.push #[])[place]? = some notebook at lies
    rw [Array.getElem?_push] at lies
    split at lies
    · exact .inr (Option.some.inj lies).symm
    · exact .inl lies

/-- A new notebook is none of those that are in front of the handle already. -/
theorem addNotebook_holds
    {rack : Rack}
    (holds : rack.Holds handle) :
    (rack.addNotebook handle).2.Holds (rack.addNotebook handle).1 where
  distinct := by
    refine List.nodup_cons.mpr ⟨?_, holds.distinct⟩
    intro member
    exact absurd (holds.onRack _ member) (Nat.lt_irrefl _)
  onRack notebook member := by
    change notebook < (rack.notebooks.push #[]).size
    rw [Array.size_push]
    rcases List.mem_cons.mp member with rfl | inFront
    · exact Nat.lt_succ_self _
    · exact Nat.lt_succ_of_lt (holds.onRack notebook inFront)

end

end Rack

namespace Session

/-- The draws that a step makes: those of the same throw with a log in front of its source. -/
def drawsOf
    (session : Session)
    (step : Step) :
    List Draw :=
  match session.throwing? step with
  | none => []
  | some throwing =>
      let (handle, table) := session.seat step.choice
      (throwing.thrown (Rack.source handle).logged { inner := table.rack }).hand.source.draws handle

/-- The session after some steps. -/
def after
    (session : Session)
    (steps : List Step) :
    Session :=
  steps.foldl (fun session step => (session.step step).2) session

/-- The draws that are made in a run of steps. -/
def draws
    (session : Session) :
    List Step → List Draw
  | [] => []
  | step :: rest => session.drawsOf step ++ (session.step step).2.draws rest

/-- Whether every named source has different notebooks in front of it, all of them on the rack. -/
def Sound (session : Session) : Prop :=
  ∀ entry ∈ session.sources, session.table.rack.Holds entry.2

/-- A session at a table without sources, on which some are then placed under their names. -/
def withSources
    (table : Table)
    (plans : List (String × SourcePlan))
    (narrator : Option Narrator) :
    Session :=
  plans.foldl (fun session (name, plan) => session.addSource name plan)
    { table := { table with rack := {} }, narrator := narrator }

variable {session : Session}

theorem openPlan_extends
    (session : Session)
    (plan : SourcePlan) :
    session.table.rack.Extends (session.openPlan plan).2.rack := by
  induction plan with
  | named name =>
      unfold openPlan
      cases session.sources.lookup name with
      | none =>
          exact Rack.addWell_extends _ _
      | some handle =>
          exact .refl _
  | well well =>
      exact Rack.addWell_extends _ _
  | system =>
      exact Rack.addWell_extends _ _
  | recording inner inductionHypothesis =>
      exact inductionHypothesis.trans (Rack.addNotebook_extends _ (session.openPlan inner).1)

theorem openPlan_holds
    (sound : session.Sound)
    (plan : SourcePlan) :
    (session.openPlan plan).2.rack.Holds (session.openPlan plan).1 := by
  induction plan with
  | named name =>
      unfold openPlan
      cases known : session.sources.lookup name with
      | none =>
          exact Rack.addWell_holds _ _
      | some handle =>
          obtain ⟨earlier, later, shape, -⟩ := List.lookup_eq_some_iff.mp known
          have member : (name, handle) ∈ session.sources := by
            rw [shape]
            exact List.mem_append_right _ (.head _)
          exact sound _ member
  | well well =>
      exact Rack.addWell_holds _ _
  | system =>
      exact Rack.addWell_holds _ _
  | recording inner inductionHypothesis =>
      exact Rack.addNotebook_holds inductionHypothesis

theorem openChoice_extends
    (session : Session)
    (choice : Option SourcePlan) :
    session.table.rack.Extends (session.openChoice choice).2.rack := by
  cases choice with
  | none =>
      exact .refl _
  | some plan =>
      exact session.openPlan_extends plan

theorem seat_extends
    (session : Session)
    (choice : Option SourcePlan) :
    session.table.rack.Extends (session.seat choice).2.rack := by
  cases choice with
  | none =>
      exact Rack.addWell_extends _ _
  | some plan =>
      exact session.openPlan_extends plan

theorem seat_holds
    (sound : session.Sound)
    (choice : Option SourcePlan) :
    (session.seat choice).2.rack.Holds (session.seat choice).1 := by
  cases choice with
  | none =>
      exact Rack.addWell_holds _ _
  | some plan =>
      exact openPlan_holds sound plan

theorem Sound.mono
    {other : Session}
    (sound : session.Sound)
    (sameSources : other.sources = session.sources)
    (noneLost : session.table.rack.notebooks.size ≤ other.table.rack.notebooks.size) :
    other.Sound := by
  intro entry member
  rw [sameSources] at member
  exact (sound entry member).mono noneLost

theorem addSource_sound
    (sound : session.Sound)
    (name : String)
    (plan : SourcePlan) :
    (session.addSource name plan).Sound := by
  intro entry member
  rcases List.mem_append.mp member with older | new
  · have kept := (session.openPlan_extends plan).accounts (.refl _)
    exact (sound entry (List.mem_filter.mp older).1).mono kept.notebooks_size
  · obtain rfl := List.mem_singleton.mp new
    exact openPlan_holds sound plan

/-- What is true of a session without sources, and stays true with each source, is true with all. -/
theorem withSources_invariant
    {table : Table}
    {narrator : Option Narrator}
    (Holds : Session → Prop)
    (empty : Holds { table := { table with rack := {} }, narrator := narrator })
    (each : ∀ session name plan, Holds session → Holds (session.addSource name plan))
    (plans : List (String × SourcePlan)) :
    Holds (withSources table plans narrator) := by
  unfold withSources
  generalize { table := { table with rack := {} }, narrator := narrator : Session } = session at empty ⊢
  induction plans generalizing session with
  | nil =>
      exact empty
  | cons entry plans inductionHypothesis =>
      exact inductionHypothesis _ (each session entry.1 entry.2 empty)

theorem withSources_sound
    (table : Table)
    (plans : List (String × SourcePlan))
    (narrator : Option Narrator) :
    (withSources table plans narrator).Sound :=
  withSources_invariant Sound nofun (fun _ name plan sound => addSource_sound sound name plan) plans

theorem withSources_extends
    (table : Table)
    (plans : List (String × SourcePlan))
    (narrator : Option Narrator) :
    Rack.Extends {} (withSources table plans narrator).table.rack :=
  withSources_invariant (fun session => Rack.Extends {} session.table.rack) (.refl _)
    (fun session _ plan extended => extended.trans (session.openPlan_extends plan)) plans

section

variable {step : Step} {throwing : Throwing}

theorem drawsOf_throwing (throws : session.throwing? step = some throwing) :
    session.drawsOf step =
      (throwing.thrown (Rack.source (session.seat step.choice).1).logged
        { inner := (session.seat step.choice).2.rack }).hand.source.draws
          (session.seat step.choice).1 := by
  unfold drawsOf
  rw [throws]

/-- The logged throw of a step comes to what the step comes to, and accounts for what it leaves. -/
theorem throwing_alike
    (sound : session.Sound)
    (choice : Option SourcePlan)
    (throwing : Throwing) :
    let source := Rack.source (session.seat choice).1
    let rack := (session.seat choice).2.rack
    Thrown.Alike (rack.LoggedFrom (session.seat choice).1) #[]
      (throwing.thrown source.logged { inner := rack })
      (throwing.thrown source rack) :=
  throwing.alike (Rack.alike_logged (seat_holds sound choice).distinct _) (.start _ _)

/-- From the rack with the source of a step in place, the step is accounted for by its draws. -/
theorem seat_accounts
    (sound : session.Sound)
    (throws : session.throwing? step = some throwing) :
    (session.seat step.choice).2.rack.Accounts (session.drawsOf step)
      (session.step step).2.table.rack := by
  rw [drawsOf_throwing throws, (step_passes throws).left]
  exact (throwing_alike sound step.choice throwing).hand.source.accounts

theorem idle_extends (nothing : session.throwing? step = none) :
    session.table.rack.Extends (session.step step).2.table.rack := by
  rcases (step_idle nothing).left with opened | ⟨unchanged, -⟩
  · rw [opened]
    exact session.openChoice_extends step.choice
  · rw [unchanged]
    exact .refl _

theorem drawsOf_idle (nothing : session.throwing? step = none) :
    session.drawsOf step = [] := by
  unfold drawsOf
  rw [nothing]

/-- What one step preserves: the rack accounts for the draws of the step. -/
theorem step_accounts
    (sound : session.Sound)
    (step : Step) :
    session.table.rack.Accounts (session.drawsOf step) (session.step step).2.table.rack := by
  cases throws : session.throwing? step with
  | none =>
      rw [drawsOf_idle throws]
      exact (idle_extends throws).accounts (.refl _)
  | some throwing =>
      exact (session.seat_extends step.choice).accounts (seat_accounts sound throws)

theorem step_sound
    (sound : session.Sound)
    (step : Step) :
    (session.step step).2.Sound :=
  sound.mono (session.step_sources step) (step_accounts sound step).notebooks_size

theorem after_sound
    (sound : session.Sound)
    (steps : List Step) :
    (session.after steps).Sound := by
  induction steps generalizing session with
  | nil =>
      exact sound
  | cons step steps inductionHypothesis =>
      exact inductionHypothesis (step_sound sound step)

/-- What a run preserves: the rack accounts for the draws of all its steps. -/
theorem after_accounts
    (sound : session.Sound)
    (steps : List Step) :
    session.table.rack.Accounts (session.draws steps) (session.after steps).table.rack := by
  induction steps generalizing session with
  | nil =>
      exact .refl _
  | cons step steps inductionHypothesis =>
      exact (step_accounts sound step).trans (inductionHypothesis (step_sound sound step))

/-- A step that fails for its text throws nothing, and only its own source is set up. -/
theorem step_misread
    {misread : Misread}
    (failed : (session.step step).1.reply = .error (.failure (.misread misread))) :
    session.throwing? step = none ∧
      (session.step step).2.table = (session.openChoice step.choice).2 := by
  cases throws : session.throwing? step with
  | none =>
      rcases (step_idle throws).left with opened | ⟨-, noFailure⟩
      · exact ⟨rfl, opened⟩
      · exact absurd failed (noFailure _)
  | some throwing =>
      obtain ⟨fault, -, same⟩ := ((step_passes throws).fails _).mp failed
      cases same

/-- A step that fails for a fault made the draw that the fault is about, as its last one. -/
theorem step_fault
    (sound : session.Sound)
    {fault : Fault}
    (failed : (session.step step).1.reply = .error (.failure (.fault fault))) :
    ∃ logged : Logged Rack,
      session.drawsOf step = logged.draws (session.seat step.choice).1 ∧ logged.EndsWith fault := by
  cases throws : session.throwing? step with
  | none =>
      exact absurd failed ((step_idle throws).noFault _)
  | some throwing =>
      obtain ⟨broken, thrown, same⟩ := ((step_passes throws).fails _).mp failed
      cases same
      rw [← (throwing_alike sound step.choice throwing).outcome] at thrown
      exact ⟨_, drawsOf_throwing throws, throwing.endsWith thrown⟩

/--
What a step does to the sources. Its own source is set up first, and its draws are
accounted for from there. A step that fails for its text draws nothing and sets up
its source at most; one that fails for a face drew that face, and one that is
refused was refused its last draw.
-/
structure StepAccounted
    (session : Session)
    (step : Step)
    (made : Turn × Session) :
    Prop where
  seated : session.table.rack.Extends (session.seat step.choice).2.rack
  drawn :
    session.throwing? step ≠ none →
      (session.seat step.choice).2.rack.Accounts (session.drawsOf step) made.2.table.rack
  misread :
    ∀ misread,
      made.1.reply = .error (.failure (.misread misread)) →
        session.drawsOf step = [] ∧
          session.table.rack.Extends made.2.table.rack ∧
          made.2.table = (session.openChoice step.choice).2
  impossible :
    ∀ face sides,
      made.1.reply = .error (.failure (.fault (.impossible face sides))) →
        ∃ others,
          session.drawsOf step = others ++ [⟨(session.seat step.choice).1, sides, .ok face⟩]
  unwritable :
    made.1.reply = .error (.failure (.fault .unwritable)) →
      ∃ others face die,
        session.drawsOf step = others ++ [⟨(session.seat step.choice).1, die, .ok face⟩]
  refused :
    ∀ refusal,
      made.1.reply = .error (.failure (.fault (.refused refusal))) →
        ∃ others die,
          session.drawsOf step = others ++ [⟨(session.seat step.choice).1, die, .error refusal⟩]

theorem step_accounted
    (sound : session.Sound)
    (step : Step) :
    session.StepAccounted step (session.step step) where
  seated := session.seat_extends step.choice
  drawn throws := by
    obtain ⟨throwing, throws⟩ := Option.ne_none_iff_exists'.mp throws
    exact seat_accounts sound throws
  misread misread failed := by
    obtain ⟨nothing, opened⟩ := step_misread failed
    exact ⟨drawsOf_idle nothing, idle_extends nothing, opened⟩
  impossible face sides failed := by
    obtain ⟨logged, draws, ends⟩ := step_fault sound failed
    obtain ⟨others, log⟩ := ends.impossible face sides rfl
    rw [draws, Logged.draws, log, List.map_append]
    exact ⟨_, rfl⟩
  unwritable failed := by
    obtain ⟨logged, draws, ends⟩ := step_fault sound failed
    obtain ⟨others, face, die, log⟩ := ends.unwritable rfl
    rw [draws, Logged.draws, log, List.map_append]
    exact ⟨_, face, die, rfl⟩
  refused refusal failed := by
    obtain ⟨logged, draws, ends⟩ := step_fault sound failed
    obtain ⟨others, die, log⟩ := ends.refused refusal rfl
    rw [draws, Logged.draws, log, List.map_append]
    exact ⟨_, die, rfl⟩

end

/-- A run shows each of its steps as it is made behind the steps before it. -/
theorem run_getElem?
    (session : Session)
    (earlier later : List Step)
    (step : Step) :
    (session.run (earlier ++ step :: later))[earlier.length]? =
      some ((session.after earlier).step step) := by
  induction earlier generalizing session with
  | nil =>
      rfl
  | cons first earlier inductionHypothesis =>
      exact inductionHypothesis (session.step first).2

/--
Sources lose and repeat nothing. Take any sources, shared in any way, and any run
of steps with them. The notebooks are empty at the start. Between any two moments
of the run the rack accounts for the draws in between, and so does every step for
its own, wherever it fails.
-/
theorem runs_accounted
    (table : Table)
    (plans : List (String × SourcePlan))
    (narrator : Option Narrator)
    (earlier later : List Step)
    (step : Step) :
    let start := withSources table plans narrator
    let before := start.after earlier
    let made := before.step step
    Rack.Extends {} start.table.rack ∧
      (start.run (earlier ++ step :: later))[earlier.length]? = some made ∧
      before.table.rack.Accounts (before.draws (step :: later))
        (before.after (step :: later)).table.rack ∧
      before.StepAccounted step made := by
  have sound := after_sound (withSources_sound table plans narrator) earlier
  refine ⟨?_, ?_, ?_, ?_⟩
  · exact withSources_extends table plans narrator
  · exact run_getElem? _ earlier later step
  · exact after_accounts sound (step :: later)
  · exact step_accounted sound step

/-- A script with a notebook in front of it, and that with another notebook in front. -/
def sharedScriptPlans : List (String × SourcePlan) :=
  [("script", .well (.script [7, 3, 9] 0)), ("inner", .recording (.named "script")),
    ("outer", .recording (.named "inner"))]

/-- A bare draw, a pair that meets a face which no die has, and a draw from the dry script. -/
def sharedScriptSteps : List Step :=
  [.draw 6 (some (.named "inner")), .performPair (some (.named "outer")),
    .draw 4 (some (.named "outer"))]

theorem runs_accounted_sharedScript :
    let start := withSources pairTable sharedScriptPlans none
    let left := (start.after sharedScriptSteps).table.rack
    let behindInner := start.after (sharedScriptSteps.take 1)
    let behindPair := start.after (sharedScriptSteps.take 2)
    let outer : Handle := { well := 0, notebooks := [1, 0] }
    left.wells[0]? = some (.script [] 3) ∧
      left.notebooks[0]? = some #[(6, 7), (6, 3), (6, 9)] ∧
      left.notebooks[1]? = some #[(6, 3), (6, 9)] ∧
      (∃ others,
        behindInner.drawsOf (.performPair (some (.named "outer"))) =
          others ++ [⟨outer, 6, .ok 9⟩]) ∧
      (∃ others die,
        behindPair.drawsOf (.draw 4 (some (.named "outer"))) =
          others ++ [⟨outer, die, .error (.exhausted 3 4)⟩]) ∧
      (start.drawsOf (.roll "" {} (some (.named "outer"))) = [] ∧
        start.table.rack.Extends
          (start.step (.roll "" {} (some (.named "outer")))).2.table.rack) := by
  have whole :=
    (runs_accounted pairTable sharedScriptPlans none [] (sharedScriptSteps.drop 1)
      (.draw 6 (some (.named "inner")))).2.2.1
  have pair :=
    (runs_accounted pairTable sharedScriptPlans none (sharedScriptSteps.take 1) []
      (.performPair (some (.named "outer")))).2.2.2.impossible
  have dry :=
    (runs_accounted pairTable sharedScriptPlans none (sharedScriptSteps.take 2) []
      (.draw 4 (some (.named "outer")))).2.2.2.refused
  have misread :=
    (runs_accounted pairTable sharedScriptPlans none [] []
      (.roll "" {} (some (.named "outer")))).2.2.2.misread
  obtain ⟨left, shape, well⟩ := @Rack.Accounts.script _ _ _ whole 0 [7, 3, 9] 0 rfl
  change [7, 3, 9] ++ [] = [7, 3, 9] ++ left at shape
  obtain rfl := List.append_cancel_left shape
  have unread : DiceCode.read? "" = .error (.rejected (.unexpectedEnd "")) :=
    DiceCode.read?_of_fault rfl rfl
  refine ⟨well, ?_, ?_, ?_, ?_, ?_⟩
  · exact @Rack.Accounts.notebook _ _ _ whole 0 #[] rfl
  · exact @Rack.Accounts.notebook _ _ _ whole 1 #[] rfl
  · exact pair 9 6 rfl
  · exact dry _ rfl
  · let opened := (withSources pairTable sharedScriptPlans none).openChoice (some (.named "outer"))
    have failed := opened.2.rollText_of_misread opened.1 {} unread
    have told :=
      congrArg (fun passage => (finish { table := opened.2 } Reply.number passage).1.reply) failed
    obtain ⟨nothing, kept, -⟩ := misread _ told
    exact ⟨nothing, kept⟩

end Session

end Tabletop
