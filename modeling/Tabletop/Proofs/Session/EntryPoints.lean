import Tabletop.Proofs.Command.SingleCode
import Tabletop.Proofs.Grammar.Joined
import Tabletop.Proofs.Session.BehindHandle
import Tabletop.Request.Tool

namespace Tabletop

/-!
# Ways to roll a text

A text can be rolled for its result or for an audit, by a call of the tool and
on the command line. Each way sets up its source in its own way and deals with
failures in its own way. They agree on the result, on what is wrong with the
text, and on what is drawn.
-/

namespace Source

variable {σ : Type} (source : Source σ) (title : String) (rules : Rules) (text : String)
variable (state : σ)

theorem auditText_total :
    (source.auditText title rules text state).outcome.map Audit.total =
      (source.rollText rules text state).outcome := by
  unfold auditText rollText
  cases DiceCode.read? text with
  | error misread =>
      rfl
  | ok code =>
      exact source.auditCode_total rules code state title text

theorem auditText_left :
    (source.auditText title rules text state).left =
      (source.rollText rules text state).left := by
  unfold auditText rollText
  cases DiceCode.read? text with
  | error misread =>
      rfl
  | ok code =>
      exact source.auditCode_left rules code state title text

end Source

theorem Plan.carryOut_alike
    {σ τ : Type}
    {source : Source σ}
    {other : Source τ}
    {Related : σ → τ → Prop}
    {s : σ}
    {t : τ}
    (alike : source.Alike other Related)
    (related : Related s t)
    (plan : Plan) :
    (plan.carryOut source s).ending = (plan.carryOut other t).ending ∧
      (plan.carryOut source s).output = (plan.carryOut other t).output ∧
      (plan.carryOut source s).errors = (plan.carryOut other t).errors := by
  obtain ⟨ending, remarks, notices, -⟩ := alike.follow related plan.rules plan.echo plan.codes
  exact ⟨ending, congrArg plan.narrator.transcript remarks,
    congrArg (fun all : List Notice => String.join (all.map (Notice.text plan.desk))) notices⟩

namespace Table

variable {table : Table} {chosen : Option Handle} {rules : Rules} {text : String}

theorem report_total :
    ((table.report chosen rules text).outcome.map Report.audit).map Audit.total =
      (table.rollText chosen rules text).outcome := by
  rw [report_audit, Source.auditText_total]
  unfold rollText Source.rollText
  cases DiceCode.read? text with
  | error misread =>
      rfl
  | ok code =>
      rfl

theorem report_left :
    (table.report chosen rules text).left.rack = (table.rollText chosen rules text).left.rack := by
  cases read : DiceCode.read? text with
  | error misread =>
      rw [report_of_misread _ _ _ read]
      unfold rollText
      rw [read]
      rfl
  | ok code =>
      rw [report_rack _ _ _ read, Source.auditText_left]
      unfold rollText Source.rollText
      rw [read]
      rfl

/-- A run with a new generator answers what a run with the generator alone does. -/
theorem command_fresh
    {surroundings : Surroundings}
    {plan : Plan}
    {rolled : Except Failure Int}
    (planned : Plan.make? surroundings = .ok plan)
    (answers :
      (plan.carryOut Well.source (.generator (.system table.entropy))).Answers rolled) :
    ∃ run, table.command none surroundings = .ok run ∧ run.Answers rolled := by
  obtain ⟨ending, output, errors⟩ :=
    Plan.carryOut_alike (Rack.alike_well (table.choose none).1) table.choose_none_stands plan
  unfold command
  rw [planned]
  refine ⟨_, rfl, ?_, ?_⟩
  · intro total result
    rw [ending, output]
    exact answers.result total result
  · intro error rejected
    rw [ending, output, errors]
    exact answers.rejection error rejected

end Table

namespace Tool

variable {table other : Table} {rules : Rules} {text : String}

/-- A direct call makes the same audit as a report elsewhere with the same random numbers. -/
theorem roll_audit (sameDraws : other.entropy = table.entropy) :
    (roll rules text other).1.map Report.audit =
      ((table.report none rules text).outcome.map Report.audit).mapError complaint := by
  have audited := other.report_fresh rules text
  rw [sameDraws, ← table.report_fresh rules text] at audited
  rw [← audited]
  change ((other.report none rules text).outcome.mapError complaint).map Report.audit = _
  cases (other.report none rules text).outcome <;> rfl

theorem roll_of_report
    {report : Report}
    (sameDraws : other.entropy = table.entropy)
    (reported : (table.report none rules text).outcome = .ok report) :
    ∃ again, (roll rules text other).1 = .ok again ∧ again.audit = report.audit := by
  have same := @roll_audit _ _ rules text sameDraws
  rw [reported] at same
  cases called : (roll rules text other).1 with
  | error complaint =>
      rw [called] at same
      cases same
  | ok again =>
      rw [called] at same
      exact ⟨again, rfl, Except.ok.inj same⟩

theorem roll_of_failure
    {failure : Failure}
    (sameDraws : other.entropy = table.entropy)
    (failed : (table.report none rules text).outcome = .error failure) :
    (roll rules text other).1 = .error (complaint failure) := by
  have same := @roll_audit _ _ rules text sameDraws
  rw [failed] at same
  cases called : (roll rules text other).1 with
  | error complaint =>
      rw [called] at same
      exact congrArg Except.error (Except.error.inj same)
  | ok again =>
      rw [called] at same
      cases same

end Tool

/--
All ways to roll a text agree. A roll and an audit come to the same total or
fail in the same way, with the same draws; so do a roll and a report at a table.
A direct call of the tool makes the audit of a report with the same random
numbers, or fails with the message of a rejected code. The command line answers
a single code with the result of a roll from the same source, or with the
message for which it is rejected.
-/
theorem entryPoints_agree (text : String) :
    (∀ {σ : Type} (source : Source σ) title rules state,
        let audited := source.auditText title rules text state
        let rolled := source.rollText rules text state
        let watched : Watched σ := { inner := state }
        audited.outcome.map Audit.total = rolled.outcome ∧
          audited.left = rolled.left ∧
          (source.watched.auditText title rules text watched).left =
            (source.watched.rollText rules text watched).left) ∧
      (∀ (table : Table) chosen rules,
        let reported := table.report chosen rules text
        let rolled := table.rollText chosen rules text
        (reported.outcome.map Report.audit).map Audit.total = rolled.outcome ∧
          reported.left.rack = rolled.left.rack) ∧
      (∀ (table other : Table) rules,
        other.entropy = table.entropy →
          let reported := (table.report none rules text).outcome
          let called := (Tool.roll rules text other).1
          (∀ report,
              reported = .ok report → ∃ again, called = .ok again ∧ again.audit = report.audit) ∧
            (∀ error,
              reported = .error (.misread (.rejected error)) →
                called = .error (.plain error.message)) ∧
            ∀ failure, reported = .error failure → called = .error (Tool.complaint failure)) ∧
      ∀ surroundings : Surroundings,
        text.toList.head? ≠ some '-' →
        surroundings.arguments = [text] →
        surroundings.preferences = .ok {} →
          (∃ plan,
              Plan.make? surroundings = .ok plan ∧
                ∀ {σ : Type} (source : Source σ) state,
                  (plan.carryOut source state).Answers (source.rollText {} text state).outcome) ∧
            ∀ table other : Table,
              other.entropy = table.entropy →
                ∃ run,
                  table.command none surroundings = .ok run ∧
                    run.Answers (other.rollText none {} text).outcome := by
  refine ⟨?_, ?_, ?_, ?_⟩
  · intro σ source title rules state audited rolled watched
    exact ⟨source.auditText_total title rules text state,
      source.auditText_left title rules text state,
      source.watched.auditText_left title rules text watched⟩
  · intro table chosen rules
    exact ⟨Table.report_total, Table.report_left⟩
  · intro table other rules sameDraws reported called
    exact ⟨fun _ => Tool.roll_of_report sameDraws,
      fun _ => Tool.roll_of_failure sameDraws,
      fun _ => Tool.roll_of_failure sameDraws⟩
  · intro surroundings noDash arguments preferences
    have planned := Plan.make?_single noDash arguments preferences
    refine ⟨⟨.single text, planned, fun source => Plan.carryOut_single source text⟩, ?_⟩
    intro table other sameDraws
    rw [other.rollText_fresh, sameDraws]
    exact table.command_fresh planned (Plan.carryOut_single _ _ _)

/-- A table with two random numbers. -/
def pairTable : Table where
  entropy := #[5, 2]
  identifiers := fun _ => default
  moment := default

theorem entryPoints_agree_exploding :
    ∃ run,
      pairTable.command none { arguments := ["d6E"] } = .ok run ∧
        run.ending = .status 0 ∧
        run.output = "===> 9\n" := by
  have factorRead : readFactor "d6E".toList = .ok ({}, ['E']) := by
    rfl
  have read : DiceCode.read? "d6E" = .ok { factors := [{}], explode := true } :=
    DiceCode.read?_of_factor rfl factorRead
  have rolled : (pairTable.rollText none {} "d6E").outcome = .ok 9 := by
    have thrown :
        (Well.source.throwCode {} { factors := [{}], explode := true }
          (.generator (.system #[5, 2]))).outcome = .ok 9 := by
      rfl
    rw [Table.rollText_fresh]
    unfold Source.rollText
    rw [read]
    change (Well.source.evaluate _ _ (.generator (.system #[5, 2]))).outcome = _
    rw [Source.evaluate_outcome, thrown]
    rfl
  obtain ⟨run, made, answers⟩ :=
    ((entryPoints_agree "d6E").2.2.2 { arguments := ["d6E"] } (by decide) rfl rfl).2
      pairTable pairTable rfl
  obtain ⟨done, said⟩ := answers.result 9 rolled
  exact ⟨run, made, done, said⟩

end Tabletop
