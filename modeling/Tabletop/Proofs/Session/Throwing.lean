import Tabletop.Proofs.Session.EntryPoints
import Tabletop.Proofs.Session.Ledger
import Tabletop.Proofs.Throws.Answers
import Tabletop.Session.Step

namespace Tabletop

/-!
# What a step throws

A step of a session throws one thing with one source: a code, a factor of it, a
position, or a bare draw. What the step leaves is what that throw leaves, and it
fails where the throw fails: `step_passes`. A step without a code throws nothing:
`step_idle`. A fault is always about the draw that was made last.
-/

/-- What a step throws once its code is known. -/
inductive Throwing where
  | code (rules : Rules) (code : DiceCode)
  | factor (rules : Rules) (factor : Factor)
  | position (rules : Rules) (sides : Int)
  /-- One face that nobody looks at. -/
  | face (sides : Int)

namespace Throwing

variable {σ τ : Type}

/-- Throws it with a source. -/
def thrown
    (source : Source σ)
    (state : σ) :
    Throwing → Thrown σ Int
  | code rules whole => source.throwCode rules whole state
  | factor rules part => source.throwFactor rules part { source := state }
  | position rules sides => source.throw (rules.position sides) { source := state }
  | face sides =>
      { outcome := (source.draw sides state).1.mapError .refused
        hand := { source := (source.draw sides state).2 } }

theorem alike
    {source : Source σ}
    {other : Source τ}
    {Related : σ → τ → Prop}
    {s : σ}
    {t : τ}
    (alike : source.Alike other Related)
    (related : Related s t)
    (throwing : Throwing) :
    Thrown.Alike Related #[] (throwing.thrown source s) (throwing.thrown other t) := by
  have hands : Hand.Alike Related #[] { source := s } { source := t } :=
    ⟨related, rfl⟩
  cases throwing with
  | code rules whole =>
      exact alike.throwProduct hands _ _ 1
  | factor rules part =>
      exact alike.throwFactor hands rules part
  | position rules sides =>
      exact alike.throw hands _
  | face sides =>
      exact ⟨congrArg (Except.mapError Fault.refused) (alike.answer sides related),
        alike.left sides related, rfl⟩

end Throwing

/-- The last draw in a log is the one that a fault is about. -/
structure Logged.EndsWith
    {σ : Type}
    (logged : Logged σ)
    (fault : Fault) :
    Prop where
  impossible :
    ∀ face sides,
      fault = .impossible face sides → ∃ earlier, logged.log = earlier ++ [(sides, .ok face)]
  unwritable :
    fault = .unwritable → ∃ earlier face die, logged.log = earlier ++ [(die, .ok face)]
  refused :
    ∀ refusal,
      fault = .refused refusal → ∃ earlier die, logged.log = earlier ++ [(die, .error refusal)]

section

variable {σ : Type} {source : Source σ} {fault : Fault}

theorem Ends.endsWith
    {Settled Open : List Int → Int → Prop}
    {hand : Hand (Logged σ)}
    {thrown : Thrown (Logged σ) Int}
    (ends : Ends source.logged Settled Open hand thrown)
    (broken : thrown.outcome = .error fault) :
    thrown.hand.source.EndsWith fault := by
  obtain ⟨lines, breaksOff, log⟩ := ends.log_broken broken
  cases breaksOff with
  | refused inOrder opened =>
      refine ⟨nofun, nofun, ?_⟩
      rintro _ ⟨⟩
      exact ⟨_, _, log.trans (List.append_assoc ..).symm⟩
  | impossible inOrder opened outside =>
      refine ⟨?_, nofun, nofun⟩
      rintro _ _ ⟨⟩
      exact ⟨_, log.trans (List.append_assoc ..).symm⟩
  | unwritable inOrder opened notAccepted tooLong =>
      refine ⟨nofun, ?_, nofun⟩
      rintro ⟨⟩
      exact ⟨_, _, _, log.trans (List.append_assoc ..).symm⟩
  | endless =>
      exact ⟨nofun, nofun, nofun⟩

/-- Whatever is thrown, a fault is about the draw that was made last. -/
theorem Throwing.endsWith
    {state : Logged σ}
    (throwing : Throwing)
    (broken : (throwing.thrown source.logged state).outcome = .error fault) :
    (throwing.thrown source.logged state).hand.source.EndsWith fault := by
  cases throwing with
  | code rules code =>
      exact (code_ends source.logged rules code state).endsWith broken
  | factor rules factor =>
      exact (factor_ends source.logged rules factor { source := state }).endsWith broken
  | position rules sides =>
      exact (position_ends source.logged rules sides { source := state }).endsWith broken
  | face sides =>
      change (source.draw sides state.inner).1.mapError Fault.refused = .error fault at broken
      cases answer : (source.draw sides state.inner).1 with
      | ok face =>
          rw [answer] at broken
          cases broken
      | error refusal =>
          rw [answer] at broken
          cases broken
          refine ⟨nofun, nofun, ?_⟩
          rintro _ ⟨⟩
          exact ⟨state.log, sides, congrArg (fun drawn => state.log ++ [(sides, drawn)]) answer⟩

end

/-- A text that is not read leaves the table as it was. -/
theorem Table.rollText_of_misread
    (table : Table)
    (chosen : Option Handle)
    (rules : Rules)
    {text : String}
    {misread : Misread}
    (read : DiceCode.read? text = .error misread) :
    table.rollText chosen rules text = .failed (.misread misread) table := by
  unfold rollText
  rw [read]

namespace Session

/-- The handle and the table that a step with a choice of source goes to work with. -/
def seat
    (session : Session)
    (choice : Option SourcePlan) :
    Handle × Table :=
  (session.openChoice choice).2.choose (session.openChoice choice).1

/-- What a step throws; nothing if its code is not read or not ready. -/
def throwing?
    (session : Session) :
    Step → Option Throwing
  | .roll text rules _ => (DiceCode.read? text).toOption.map (.code rules)
  | .report text rules _ => (DiceCode.read? text).toOption.map (.code rules)
  | .evaluate form rules _ => form.code?.toOption.map (.code rules)
  | .perform name _ =>
      (session.ready.lookup name).map fun kept => .code kept.2 kept.1
  | .performFactor name index _ =>
      (session.ready.lookup name).map fun kept =>
        -- A factor that is not there throws no dice.
        .factor kept.2 (kept.1.factors[index]?.getD { count := 0 })
  | .performDie name sides explode _ =>
      (session.ready.lookup name).map fun kept =>
        .position { kept.2 with explode := explode } sides
  | .performPair _ => some (.position {} pairedSides)
  | .draw sides _ => some (.face sides)
  | .prepare _ _ _ => none
  | .say _ _ => none
  | .setLevel _ => none

end Session

/-- The source that a step chooses. -/
def Step.choice : Step → Option SourcePlan
  | .roll _ _ choice => choice
  | .report _ _ choice => choice
  | .evaluate _ _ choice => choice
  | .perform _ choice => choice
  | .performFactor _ _ choice => choice
  | .performDie _ _ _ choice => choice
  | .performPair choice => choice
  | .draw _ choice => choice
  | .prepare _ _ _ => none
  | .say _ _ => none
  | .setLevel _ => none

namespace Session

/-- Whether the passage of a step leaves what was thrown and fails where throwing does. -/
structure Passes
    {α : Type}
    (passage : Passage Table α)
    (thrown : Thrown Rack Int) :
    Prop where
  left : passage.left.rack = thrown.hand.source
  fails :
    ∀ failure,
      passage.outcome = .error failure ↔
        ∃ fault, thrown.outcome = .error fault ∧ .fault fault = failure

variable {session : Session} {chosen : Option Handle} {rules : Rules} {code : DiceCode}
variable {table : Table}

theorem evaluate_passes :
    Passes (table.evaluate chosen rules code)
      ((Rack.source (table.choose chosen).1).throwCode rules code (table.choose chosen).2.rack) where
  left := Source.evaluate_left ..
  fails failure := by
    have outcome :=
      (Rack.source (table.choose chosen).1).evaluate_outcome rules code (table.choose chosen).2.rack
    rw [show (table.evaluate chosen rules code).outcome = _ from outcome]
    cases ((Rack.source (table.choose chosen).1).throwCode rules code
      (table.choose chosen).2.rack).outcome <;> simp [Except.map, Except.mapError]

theorem rollText_passes
    {text : String}
    (read : DiceCode.read? text = .ok code) :
    Passes (table.rollText chosen rules text)
      ((Rack.source (table.choose chosen).1).throwCode rules code (table.choose chosen).2.rack) := by
  unfold Table.rollText
  rw [read]
  exact ⟨evaluate_passes.left, evaluate_passes.fails⟩

theorem report_passes
    {text : String}
    (read : DiceCode.read? text = .ok code) :
    Passes (table.report chosen rules text)
      ((Rack.source (table.choose chosen).1).throwCode rules code (table.choose chosen).2.rack) where
  left := Table.report_left.trans (rollText_passes read).left
  fails failure := by
    rw [← (rollText_passes read).fails, ← Table.report_total]
    cases (table.report chosen rules text).outcome <;> simp [Except.map]

theorem onRack_passes
    (table : Table)
    (thrown : Rack → Thrown Rack Int) :
    Passes (table.onRack fun rack => (thrown rack).passage) (thrown table.rack) where
  left := rfl
  fails failure := by
    change (thrown table.rack).outcome.mapError Failure.fault = _ ↔ _
    cases (thrown table.rack).outcome <;> simp [Except.mapError]

/-- What is left of a bare draw, which fails where it is refused. -/
theorem draw_passes
    (table : Table)
    (handle : Handle)
    (sides : Int) :
    Passes
      (table.onRack fun rack =>
        { outcome := (rack.draw handle sides).1.mapError fun refusal => .fault (.refused refusal)
          left := (rack.draw handle sides).2 })
      ((Throwing.face sides).thrown (Rack.source handle) table.rack) where
  left := rfl
  fails failure := by
    change (table.rack.draw handle sides).1.mapError _ = _ ↔
      ∃ fault, (table.rack.draw handle sides).1.mapError Fault.refused = .error fault ∧ _
    cases (table.rack.draw handle sides).1 <;> simp [Except.mapError]

/-- A step that ends with the passage of a throw. -/
structure StepPasses
    (made : Turn × Session)
    (thrown : Thrown Rack Int) :
    Prop where
  left : made.2.table.rack = thrown.hand.source
  fails :
    ∀ failure,
      made.1.reply = .error (.failure failure) ↔
        ∃ fault, thrown.outcome = .error fault ∧ .fault fault = failure

theorem Passes.finish
    {α : Type}
    {passage : Passage Table α}
    {thrown : Thrown Rack Int}
    (passes : Passes passage thrown)
    (session : Session)
    (reply : α → Reply) :
    StepPasses (session.finish reply passage) thrown where
  left := passes.left
  fails failure := by
    rw [← passes.fails]
    change (passage.outcome.map reply).mapError Trouble.failure = _ ↔ _
    cases passage.outcome <;> simp [Except.map, Except.mapError]

theorem throwWith_passes
    (session : Session)
    (choice : Option SourcePlan)
    (throw : Source Rack → Hand Rack → Thrown Rack Int) :
    StepPasses (session.throwWith choice throw)
      (throw (Rack.source (session.seat choice).1) { source := (session.seat choice).2.rack }) :=
  (onRack_passes _ _).finish session _

theorem withReady_passes
    {name : String}
    {step : DiceCode → Rules → Turn × Session}
    {throwing : Throwing}
    {handle : Handle}
    {rack : Rack}
    (thrownBy : DiceCode × Rules → Throwing)
    (passes :
      ∀ kept,
        StepPasses (step kept.1 kept.2) ((thrownBy kept).thrown (Rack.source handle) rack))
    (throws : (session.ready.lookup name).map thrownBy = some throwing) :
    StepPasses (session.withReady name step) (throwing.thrown (Rack.source handle) rack) := by
  unfold withReady
  cases ready : session.ready.lookup name with
  | none =>
      rw [ready] at throws
      cases throws
  | some kept =>
      rw [ready] at throws
      cases throws
      exact passes kept

theorem read_of_throwing
    {read : Except Misread DiceCode}
    {throwing : Throwing}
    (throws : read.toOption.map (.code rules) = some throwing) :
    ∃ code, read = .ok code ∧ throwing = .code rules code := by
  cases read with
  | error misread =>
      cases throws
  | ok code =>
      exact ⟨code, rfl, (Option.some.inj throws).symm⟩

theorem misread_of_idle
    {read : Except Misread DiceCode}
    (nothing : read.toOption.map (Throwing.code rules) = none) :
    ∃ misread, read = .error misread := by
  cases read with
  | error misread =>
      exact ⟨misread, rfl⟩
  | ok code =>
      cases nothing

/-- A step that throws something ends with the passage of that throw. -/
theorem step_passes
    {step : Step}
    {throwing : Throwing}
    (throws : session.throwing? step = some throwing) :
    StepPasses (session.step step)
      (throwing.thrown (Rack.source (session.seat step.choice).1)
        (session.seat step.choice).2.rack) := by
  cases step with
  | roll text rules choice =>
      obtain ⟨code, read, rfl⟩ := read_of_throwing throws
      exact (rollText_passes read).finish session _
  | report text rules choice =>
      obtain ⟨code, read, rfl⟩ := read_of_throwing throws
      exact (report_passes read).finish session _
  | evaluate form rules choice =>
      obtain ⟨code, read, rfl⟩ := read_of_throwing throws
      have passes :=
        @evaluate_passes (session.openChoice choice).1 rules code (session.openChoice choice).2
      let passage :=
        (session.openChoice choice).2.evaluate (session.openChoice choice).1 rules code
      have alsoPasses :
          Passes { passage with entries := form.entries ++ passage.entries } _ :=
        ⟨passes.left, passes.fails⟩
      rw [Session.step, read]
      exact alsoPasses.finish session _
  | prepare name form rules =>
      cases throws
  | perform name choice =>
      refine withReady_passes _ ?_ throws
      intro kept
      exact evaluate_passes.finish session _
  | performFactor name index choice =>
      refine withReady_passes _ ?_ throws
      rintro ⟨code, rules⟩
      dsimp only
      cases code.factors[index]? with
      | none =>
          exact session.throwWith_passes choice fun _ hand => ⟨.ok 0, hand⟩
      | some factor =>
          exact session.throwWith_passes choice fun source hand =>
            source.throwFactor rules factor hand
  | performDie name sides explode choice =>
      refine withReady_passes _ ?_ throws
      intro kept
      exact session.throwWith_passes choice _
  | performPair choice =>
      cases throws
      have passes := session.throwWith_passes choice fun source hand => source.throw .pair hand
      exact passes
  | draw sides choice =>
      cases throws
      exact (draw_passes _ _ sides).finish session _
  | say form text =>
      cases throws
  | setLevel form =>
      cases throws

/-- A step that throws nothing meets no fault and changes nothing but for setting up its source. -/
structure Idle
    (session : Session)
    (step : Step)
    (made : Turn × Session) :
    Prop where
  noFault : ∀ fault, made.1.reply ≠ .error (.failure (.fault fault))
  left :
    made.2.table = (session.openChoice step.choice).2 ∨
      (made.2.table = session.table ∧ ∀ failure, made.1.reply ≠ .error (.failure failure))

theorem step_idle
    {step : Step}
    (nothing : session.throwing? step = none) :
    session.Idle step (session.step step) := by
  cases step with
  | roll text rules choice =>
      obtain ⟨misread, read⟩ := misread_of_idle nothing
      have failed :=
        (session.openChoice choice).2.rollText_of_misread (session.openChoice choice).1 rules read
      rw [show session.step (.roll text rules choice) = _ from
        congrArg (session.finish Reply.number) failed]
      exact ⟨nofun, .inl rfl⟩
  | report text rules choice =>
      obtain ⟨misread, read⟩ := misread_of_idle nothing
      have failed :=
        (session.openChoice choice).2.report_of_misread (session.openChoice choice).1 rules read
      rw [show session.step (.report text rules choice) = _ from
        congrArg (session.finish Reply.report) failed]
      exact ⟨nofun, .inl rfl⟩
  | evaluate form rules choice =>
      obtain ⟨misread, read⟩ := misread_of_idle nothing
      rw [Session.step, read]
      exact ⟨nofun, .inl rfl⟩
  | prepare name form rules =>
      rw [Session.step]
      cases form.code? <;> exact ⟨nofun, .inl rfl⟩
  | perform name choice =>
      rw [Session.step, withReady, Option.map_eq_none_iff.mp nothing]
      exact ⟨nofun, .inr ⟨rfl, nofun⟩⟩
  | performFactor name index choice =>
      rw [Session.step, withReady, Option.map_eq_none_iff.mp nothing]
      exact ⟨nofun, .inr ⟨rfl, nofun⟩⟩
  | performDie name sides explode choice =>
      rw [Session.step, withReady, Option.map_eq_none_iff.mp nothing]
      exact ⟨nofun, .inr ⟨rfl, nofun⟩⟩
  | performPair choice =>
      cases nothing
  | draw sides choice =>
      cases nothing
  | say form text =>
      rw [Session.step]
      cases form.level? <;> exact ⟨nofun, .inl rfl⟩
  | setLevel form =>
      rw [Session.step]
      cases form.level? <;> exact ⟨nofun, .inl rfl⟩

theorem step_sources
    (session : Session)
    (step : Step) :
    (session.step step).2.sources = session.sources := by
  have kept {name : String} {step : DiceCode → Rules → Turn × Session}
      (each : ∀ code rules, (step code rules).2.sources = session.sources) :
      (session.withReady name step).2.sources = session.sources := by
    unfold withReady
    cases session.ready.lookup name with
    | none =>
        rfl
    | some kept =>
        exact each kept.1 kept.2
  cases step with
  | roll text rules choice =>
      rfl
  | report text rules choice =>
      rfl
  | evaluate form rules choice =>
      rw [Session.step]
      cases form.code? <;> rfl
  | prepare name form rules =>
      rw [Session.step]
      cases form.code? <;> rfl
  | perform name choice =>
      exact kept fun _ _ => rfl
  | performFactor name index choice =>
      exact kept fun _ _ => rfl
  | performDie name sides explode choice =>
      exact kept fun _ _ => rfl
  | performPair choice =>
      rfl
  | draw sides choice =>
      rfl
  | say form text =>
      rw [Session.step]
      cases form.level? <;> rfl
  | setLevel form =>
      rw [Session.step]
      cases form.level? <;> rfl

end Session

end Tabletop
