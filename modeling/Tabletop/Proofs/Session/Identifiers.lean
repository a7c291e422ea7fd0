import Tabletop.Proofs.Session.Conservation

namespace Tabletop

/-!
# Identifiers of reports

A table gives its identifiers away in their order, two of them to every report that
it makes and none for anything else (`step_issues`). So the reports of a run carry
one pair after the other, whatever fails between them (`reports_getElem?`). A report
that fails for its text changes nothing but that its own source is set up, and one
that fails for a fault has drawn the dice up to the one that the fault is about.
-/

/-- The report that a step was answered with, if it was. -/
def Turn.report? (turn : Turn) : Option Report :=
  match turn.reply with
  | .ok (.report report) => some report
  | _ => none

/-- The identifiers that a step was answered with. -/
def Turn.taken (turn : Turn) : Nat :=
  if turn.report?.isSome then 2 else 0

theorem Turn.taken_eq (turn : Turn) : turn.taken = 2 * turn.report?.toList.length := by
  unfold taken
  cases turn.report? <;> rfl

/-- Whether a table has given so many more identifiers of the same stream away than another. -/
structure Table.HasIssued
    (before after : Table)
    (count : Nat) :
    Prop where
  identifiers : after.identifiers = before.identifiers
  issued : after.issued = before.issued + count

/-- Whether a report carries a pair of identifiers of a stream, counted from the first pair. -/
structure Report.Carries
    (report : Report)
    (identifiers : Nat → Identifier)
    (first : Nat) :
    Prop where
  requestId : report.requestId = identifiers first
  nonce : report.nonce = identifiers (first + 1)

namespace Table

variable {before middle after table : Table} {earlier later : Nat}

theorem HasIssued.refl (table : Table) : table.HasIssued table 0 where
  identifiers := rfl
  issued := rfl

theorem HasIssued.trans
    (first : before.HasIssued middle earlier)
    (second : middle.HasIssued after later) :
    before.HasIssued after (earlier + later) where
  identifiers := second.identifiers.trans first.identifiers
  issued := by
    rw [second.issued, first.issued, Nat.add_assoc]

/-- What happens on the rack takes no identifiers. -/
theorem HasIssued.withRack
    (issued : before.HasIssued after earlier)
    (rack : Rack) :
    before.HasIssued { after with rack := rack } earlier where
  identifiers := issued.identifiers
  issued := issued.issued

variable (table : Table) (chosen : Option Handle) (rules : Rules)

theorem choose_issues : table.HasIssued (table.choose chosen).2 0 := by
  cases chosen with
  | none =>
      exact ⟨rfl, rfl⟩
  | some handle =>
      exact .refl table

theorem evaluate_issues (code : DiceCode) :
    table.HasIssued (table.evaluate chosen rules code).left 0 :=
  (table.choose_issues chosen).withRack _

theorem rollText_issues (text : String) :
    table.HasIssued (table.rollText chosen rules text).left 0 := by
  unfold rollText
  cases DiceCode.read? text with
  | error misread =>
      exact .refl table
  | ok code =>
      exact table.evaluate_issues chosen rules code

/-- A report takes the next two identifiers, and none if it fails. -/
structure ReportIssues
    (table : Table)
    (passage : Passage Table Report) :
    Prop where
  succeeds :
    ∀ report,
      passage.outcome = .ok report →
        table.HasIssued passage.left 2 ∧ report.Carries table.identifiers table.issued
  fails :
    ∀ failure, passage.outcome = .error failure → table.HasIssued passage.left 0

theorem report_issues (text : String) :
    table.ReportIssues (table.report chosen rules text) := by
  have chose := table.choose_issues chosen
  unfold report
  cases DiceCode.read? text with
  | error misread =>
      refine ⟨?_, fun _ _ => .refl table⟩
      intro report reported
      cases reported
  | ok code =>
      simp only [onRack]
      rcases (Rack.source (table.choose chosen).1).auditCode _ rules text code _ with
        ⟨failure | audit, remarks, entries, rack⟩
      · refine ⟨?_, fun _ _ => chose.withRack rack⟩
        intro report reported
        cases reported
      · refine ⟨?_, ?_⟩
        · intro report reported
          cases reported
          refine ⟨⟨chose.identifiers, ?_⟩, ?_, ?_⟩
          · exact congrArg (· + 2) chose.issued
          · exact congr chose.identifiers chose.issued
          · exact congr chose.identifiers (congrArg (· + 1) chose.issued)
        · intro failure failed
          cases failed

end Table

namespace Session

variable {session : Session}

theorem openPlan_issues (plan : SourcePlan) :
    session.table.HasIssued (session.openPlan plan).2 0 := by
  induction plan with
  | named name =>
      unfold openPlan
      cases session.sources.lookup name with
      | none =>
          exact ⟨rfl, rfl⟩
      | some handle =>
          exact .refl _
  | well well =>
      exact ⟨rfl, rfl⟩
  | system =>
      exact ⟨rfl, rfl⟩
  | recording inner inductionHypothesis =>
      exact inductionHypothesis.withRack _

theorem openChoice_issues (choice : Option SourcePlan) :
    session.table.HasIssued (session.openChoice choice).2 0 := by
  cases choice with
  | none =>
      exact .refl _
  | some plan =>
      exact openPlan_issues plan

theorem seat_issues (choice : Option SourcePlan) :
    session.table.HasIssued (session.seat choice).2 0 :=
  (openChoice_issues choice).trans (Table.choose_issues _ _)

/-- What a step takes of the identifiers: what it was answered with, which are the next ones. -/
structure StepIssues
    (session : Session)
    (made : Turn × Session) :
    Prop where
  takes : session.table.HasIssued made.2.table made.1.taken
  carries :
    ∀ report,
      made.1.report? = some report →
        report.Carries session.table.identifiers session.table.issued

/-- A step that is answered with no report takes no identifiers. -/
theorem StepIssues.of_noReport
    {made : Turn × Session}
    (noReport : made.1.report? = none)
    (issued : session.table.HasIssued made.2.table 0) :
    session.StepIssues made where
  takes := by
    unfold Turn.taken
    rw [noReport]
    exact issued
  carries report reported := by
    rw [noReport] at reported
    cases reported

theorem finish_number_issues
    {passage : Passage Table Int}
    (issued : session.table.HasIssued passage.left 0) :
    session.StepIssues (session.finish Reply.number passage) := by
  refine .of_noReport ?_ issued
  rcases passage with ⟨failure | value, remarks, entries, left⟩ <;> rfl

theorem finish_report_issues
    {table : Table}
    {passage : Passage Table Report}
    (opened : session.table.HasIssued table 0)
    (issues : table.ReportIssues passage) :
    session.StepIssues (session.finish Reply.report passage) := by
  rcases passage with ⟨failure | report, remarks, entries, left⟩
  · exact .of_noReport rfl (opened.trans (issues.fails failure rfl))
  · obtain ⟨issued, requestId, nonce⟩ := issues.succeeds report rfl
    refine ⟨opened.trans issued, ?_⟩
    rintro _ ⟨⟩
    rw [opened.identifiers, opened.issued] at requestId nonce
    exact ⟨requestId, nonce⟩

theorem throwWith_issues
    (choice : Option SourcePlan)
    (throw : Source Rack → Hand Rack → Thrown Rack Int) :
    session.StepIssues (session.throwWith choice throw) :=
  finish_number_issues ((seat_issues choice).withRack _)

theorem withReady_issues
    {name : String}
    {step : DiceCode → Rules → Turn × Session}
    (each : ∀ code rules, session.StepIssues (step code rules)) :
    session.StepIssues (session.withReady name step) := by
  unfold withReady
  cases session.ready.lookup name with
  | none =>
      exact .of_noReport rfl (.refl _)
  | some kept =>
      exact each kept.1 kept.2

/-- What one step does: it takes identifiers only if it is answered with a report. -/
theorem step_issues
    (session : Session)
    (step : Step) :
    session.StepIssues (session.step step) := by
  cases step with
  | roll text rules choice =>
      exact finish_number_issues ((openChoice_issues choice).trans (Table.rollText_issues ..))
  | report text rules choice =>
      exact finish_report_issues (openChoice_issues choice) (Table.report_issues ..)
  | evaluate form rules choice =>
      rw [Session.step]
      cases form.code? with
      | error misread =>
          exact finish_number_issues (openChoice_issues choice)
      | ok code =>
          exact finish_number_issues ((openChoice_issues choice).trans (Table.evaluate_issues ..))
  | prepare name form rules =>
      rw [Session.step]
      cases form.code? with
      | error misread =>
          exact finish_number_issues (.refl _)
      | ok code =>
          exact .of_noReport rfl (.refl _)
  | perform name choice =>
      refine withReady_issues fun code rules => ?_
      exact finish_number_issues ((openChoice_issues choice).trans (Table.evaluate_issues ..))
  | performFactor name index choice =>
      exact withReady_issues fun _ _ => throwWith_issues choice _
  | performDie name sides explode choice =>
      exact withReady_issues fun _ _ => throwWith_issues choice _
  | performPair choice =>
      rw [Session.step]
      exact throwWith_issues choice _
  | draw sides choice =>
      exact finish_number_issues ((seat_issues choice).withRack _)
  | say form text =>
      rw [Session.step]
      cases form.level? with
      | error name =>
          exact .of_noReport rfl (.refl _)
      | ok level =>
          exact .of_noReport rfl (.refl _)
  | setLevel form =>
      rw [Session.step]
      cases form.level? with
      | error name =>
          exact .of_noReport rfl (.refl _)
      | ok level =>
          exact .of_noReport rfl (.refl _)

/-- The reports that the steps of a run are answered with, in order. -/
def reports
    (session : Session)
    (steps : List Step) :
    List Report :=
  (session.run steps).filterMap fun made => made.1.report?

theorem reports_cons
    (session : Session)
    (step : Step)
    (steps : List Step) :
    session.reports (step :: steps) =
      (session.step step).1.report?.toList ++ (session.step step).2.reports steps := by
  cases reported : (session.step step).1.report? with
  | none =>
      simp [reports, run, reported]
  | some report =>
      simp [reports, run, reported]

/-- What a run takes of the identifiers: two for each of its reports, and no others. -/
theorem after_issues
    (session : Session)
    (steps : List Step) :
    session.table.HasIssued (session.after steps).table (2 * (session.reports steps).length) := by
  induction steps generalizing session with
  | nil =>
      exact .refl _
  | cons step steps inductionHypothesis =>
      have first := (session.step_issues step).takes
      have later := inductionHypothesis (session.step step).2
      rw [reports_cons, List.length_append, Nat.mul_add, ← Turn.taken_eq]
      exact first.trans later

/-- What a run does: its reports carry one pair of identifiers after the other. -/
theorem reports_getElem?
    {steps : List Step}
    {place : Nat}
    {report : Report}
    (found : (session.reports steps)[place]? = some report) :
    report.Carries session.table.identifiers (session.table.issued + 2 * place) := by
  induction steps generalizing session place with
  | nil =>
      cases found
  | cons step steps inductionHypothesis =>
      obtain ⟨⟨identifiers, issued⟩, carries⟩ := session.step_issues step
      -- The place moves on with the identifiers: by one for a pair of them, or not at all.
      rw [reports_cons] at found
      rw [Turn.taken] at issued
      cases reported : (session.step step).1.report? with
      | none =>
          rw [reported] at found issued
          have later := inductionHypothesis found
          rw [identifiers, issued] at later
          exact later
      | some first =>
          rw [reported] at found issued
          cases place with
          | zero =>
              cases found
              exact carries report reported
          | succ place =>
              have later := inductionHypothesis found
              have next :
                  session.table.issued + 2 + 2 * place =
                    session.table.issued + 2 * (place + 1) := by
                omega
              rw [identifiers, issued, Option.isSome_some, if_pos rfl, next] at later
              exact later

/--
What becomes of a report that fails. It takes no identifiers. If its text is not
read, nothing is drawn, and there are no sources besides the one that came with it.
If it fails for a fault, it drew the dice of its code in their order, up to the one
that the fault is about, and its source is left by these draws.
-/
structure ReportFails
    (session : Session)
    (text : String)
    (rules : Rules)
    (choice : Option SourcePlan)
    (made : Turn × Session) :
    Prop where
  takesNone :
    ∀ trouble, made.1.reply = .error trouble → session.table.HasIssued made.2.table 0
  misread :
    ∀ misread,
      DiceCode.read? text = .error misread →
        made.1.reply = .error (.failure (.misread misread)) ∧
          session.drawsOf (.report text rules choice) = [] ∧
          session.table.rack.Extends made.2.table.rack ∧
          made.2 = { session with table := (session.openChoice choice).2 } ∧
          (choice = none → made.2 = session)
  broken :
    ∀ fault,
      made.1.reply = .error (.failure (.fault fault)) →
        ∃ code lines,
          DiceCode.read? text = .ok code ∧
            BreaksOff (CodeOpen rules code) lines fault ∧
            session.drawsOf (.report text rules choice) =
              lines.map (fun (die, answer) => ⟨(session.seat choice).1, die, answer⟩) ∧
            (session.seat choice).2.rack.Accounts
              (session.drawsOf (.report text rules choice)) made.2.table.rack

theorem report_of_misread
    {text : String}
    {misread : Misread}
    (read : DiceCode.read? text = .error misread)
    (rules : Rules)
    (choice : Option SourcePlan) :
    session.step (.report text rules choice) =
      ({ reply := .error (.failure (.misread misread)), spoken := session.tell [] },
        { session with table := (session.openChoice choice).2 }) := by
  rw [Session.step]
  dsimp only
  rw [Table.report_of_misread _ _ _ read]
  rfl

theorem throwing?_report
    {text : String}
    {code : DiceCode}
    (read : DiceCode.read? text = .ok code)
    (rules : Rules)
    (choice : Option SourcePlan) :
    session.throwing? (.report text rules choice) = some (.code rules code) := by
  rw [throwing?, read]
  rfl

theorem report_fails
    (sound : session.Sound)
    (text : String)
    (rules : Rules)
    (choice : Option SourcePlan) :
    session.ReportFails text rules choice (session.step (.report text rules choice)) where
  takesNone trouble failed := by
    have takes := (session.step_issues (.report text rules choice)).takes
    rw [Turn.taken, Turn.report?, failed] at takes
    exact takes
  misread misread read := by
    have nothing : session.throwing? (.report text rules choice) = none := by
      rw [throwing?, read]
      rfl
    rw [report_of_misread read]
    refine ⟨rfl, drawsOf_idle nothing, session.openChoice_extends choice, rfl, ?_⟩
    rintro rfl
    rfl
  broken fault failed := by
    cases read : DiceCode.read? text with
    | error misread =>
        rw [report_of_misread read] at failed
        cases failed
    | ok code =>
        have throws := session.throwing?_report read rules choice
        obtain ⟨_, thrown, ⟨⟩⟩ := ((step_passes throws).fails _).mp failed
        -- The draws of a step are the log of its throw, and the log breaks off with the fault.
        have logged := (throwing_alike sound choice (.code rules code)).outcome.trans thrown
        have ends :=
          code_ends (Rack.source (session.seat choice).1).logged rules code
            { inner := (session.seat choice).2.rack }
        obtain ⟨lines, breaksOff, log⟩ := ends.log_broken logged
        refine ⟨code, lines, rfl, breaksOff, ?_, seat_accounts sound throws⟩
        rw [drawsOf_throwing throws]
        exact congrArg (List.map _) log

theorem withSources_issues
    (table : Table)
    (plans : List (String × SourcePlan))
    (narrator : Option Narrator) :
    table.HasIssued (withSources table plans narrator).table 0 :=
  withSources_invariant (fun session => table.HasIssued session.table 0) ⟨rfl, rfl⟩
    (fun _ _ plan issued => issued.trans (openPlan_issues plan)) plans

/--
The reports of a run carry the identifiers of the table in their order, two each,
whatever else is done and fails in between; and a report that fails leaves no trace
in them.
-/
theorem reports_identified
    (table : Table)
    (plans : List (String × SourcePlan))
    (narrator : Option Narrator)
    (steps : List Step) :
    let start := withSources table plans narrator
    (∀ (place : Nat) (report : Report),
      (start.reports steps)[place]? = some report →
        report.Carries table.identifiers (table.issued + 2 * place)) ∧
      table.HasIssued (start.after steps).table (2 * (start.reports steps).length) ∧
      ∀ (earlier : List Step) text rules choice (later : List Step),
        steps = earlier ++ .report text rules choice :: later →
          let before := start.after earlier
          let made := before.step (.report text rules choice)
          (start.run steps)[earlier.length]? = some made ∧
            before.ReportFails text rules choice made := by
  intro start
  have opened := withSources_issues table plans narrator
  refine ⟨?_, ?_, ?_⟩
  · intro place report found
    have carries := reports_getElem? found
    rw [opened.identifiers, opened.issued] at carries
    exact carries
  · have issued := opened.trans (start.after_issues steps)
    rwa [Nat.zero_add] at issued
  · rintro earlier text rules choice later rfl
    have sound := after_sound (withSources_sound table plans narrator) earlier
    exact ⟨run_getElem? _ earlier later _, report_fails sound text rules choice⟩

/-- A table whose identifiers are told apart by their number. -/
def numberedTable : Table where
  identifiers := fun place => ⟨String.ofList (Text.numeral place)⟩
  moment := default

/-- A session at this table with what is left of a script. -/
def scripted
    (faces : List Int)
    (used issued : Nat) :
    Session where
  table :=
    { numberedTable with
      rack := { wells := #[.script faces used] }
      issued := issued }
  sources := [("script", { well := 0 })]

/-- A report of one die that the script answers. -/
def scriptedReport : Step :=
  .report "d6" {} (some (.named "script"))

/-- Reports of a four, of a face that the die does not have, of no code, of a two, and of no face. -/
def mixedSteps : List Step :=
  [scriptedReport, scriptedReport, .report "" {} none, scriptedReport, scriptedReport]

theorem reports_identified_mixed :
    let start := withSources numberedTable [("script", .well (.script [4, 7, 2] 0))] none
    let behindFour := start.after (mixedSteps.take 1)
    let behindSeven := start.after (mixedSteps.take 2)
    (∃ four two,
      start.reports mixedSteps = [four, two] ∧
        four.requestId = ⟨"0"⟩ ∧ four.nonce = ⟨"1"⟩ ∧
        two.requestId = ⟨"2"⟩ ∧ two.nonce = ⟨"3"⟩) ∧
      (behindFour.table.HasIssued behindSeven.table 0 ∧
        ∃ others,
          behindFour.drawsOf scriptedReport = others ++ [⟨{ well := 0 }, 6, .ok 7⟩]) ∧
      start.after (mixedSteps.take 3) = behindSeven := by
  intro start behindFour behindSeven
  have read : DiceCode.read? "d6" = .ok { factors := [{}], explode := false } :=
    DiceCode.read?_of_factor rfl rfl
  have unread : DiceCode.read? "" = .error (.rejected (.unexpectedEnd "")) :=
    DiceCode.read?_of_fault rfl rfl
  have toFour :
      ∃ four,
        (start.step scriptedReport).1.report? = some four ∧
          (start.step scriptedReport).2 = scripted [7, 2] 1 2 := by
    simp only [scriptedReport, Session.step, openChoice, openPlan, Table.report, read]
    exact ⟨_, rfl, rfl⟩
  have toSeven :
      ((scripted [7, 2] 1 2).step scriptedReport).1.reply =
          .error (.failure (.fault (.impossible 7 6))) ∧
        ((scripted [7, 2] 1 2).step scriptedReport).2 = scripted [2] 2 2 := by
    simp only [scriptedReport, Session.step, openChoice, openPlan, Table.report, read]
    exact ⟨rfl, rfl⟩
  have toTwo :
      ∃ two,
        ((scripted [2] 2 2).step scriptedReport).1.report? = some two ∧
          ((scripted [2] 2 2).step scriptedReport).2 = scripted [] 3 4 := by
    simp only [scriptedReport, Session.step, openChoice, openPlan, Table.report, read]
    exact ⟨_, rfl, rfl⟩
  have toNone : (scripted [] 3 4).reports [scriptedReport] = [] := by
    simp only [scriptedReport, reports, run, Session.step, openChoice, openPlan, Table.report, read]
    rfl
  obtain ⟨four, fourMade, fourLeft⟩ := toFour
  obtain ⟨seven, sevenLeft⟩ := toSeven
  obtain ⟨two, twoMade, twoLeft⟩ := toTwo
  have noReport : ((scripted [7, 2] 1 2).step scriptedReport).1.report? = none := by
    rw [Turn.report?, seven]
  have both : start.reports mixedSteps = [four, two] := by
    rw [mixedSteps, reports_cons, fourMade, fourLeft, reports_cons, noReport, sevenLeft,
      reports_cons, report_of_misread unread]
    change [four] ++ (scripted [2] 2 2).reports [scriptedReport, scriptedReport] = _
    rw [reports_cons, twoMade, twoLeft, toNone]
    rfl
  obtain ⟨carries, -, fails⟩ :=
    reports_identified numberedTable [("script", .well (.script [4, 7, 2] 0))] none mixedSteps
  have first := carries 0 four (by rw [both]; rfl)
  have second := carries 1 two (by rw [both]; rfl)
  obtain ⟨takesNone, -, broken⟩ :=
    (fails (mixedSteps.take 1) "d6" {} (some (.named "script")) (mixedSteps.drop 2) rfl).2
  obtain ⟨-, misread, -⟩ :=
    (fails (mixedSteps.take 2) "" {} none (mixedSteps.drop 3) rfl).2
  have left : behindFour = scripted [7, 2] 1 2 := fourLeft
  have answer :
      (behindFour.step scriptedReport).1.reply = .error (.failure (.fault (.impossible 7 6))) := by
    rw [left]
    exact seven
  obtain ⟨code, lines, -, breaksOff, drawn, -⟩ := broken _ answer
  refine ⟨⟨four, two, both, first.requestId, first.nonce, second.requestId, second.nonce⟩,
    ⟨takesNone _ answer, ?_⟩, (misread _ unread).2.2.2.2 rfl⟩
  have handle : (behindFour.seat (some (.named "script"))).1 = { well := 0 } := by
    rw [left]
    rfl
  change behindFour.drawsOf scriptedReport =
    lines.map (fun (die, answer) => ⟨(behindFour.seat (some (.named "script"))).1, die, answer⟩)
    at drawn
  rw [drawn, handle]
  cases breaksOff with
  | impossible inOrder opened outside =>
      rw [List.map_append]
      exact ⟨_, rfl⟩

end Session

end Tabletop
