import Tabletop.Proofs.Grammar.Canonical
import Tabletop.Proofs.Grammar.Joined
import Tabletop.Proofs.Session.BehindHandle
import Tabletop.Proofs.Throws.Answers

namespace Tabletop

/-!
# Replaying an audit

An audit holds the canonical text of a code, the rules it was rolled by and the
faces that were drawn. Rolling that text by those rules from a script of those
faces gives the audit again and leaves nothing of the script; a script that ends
earlier runs dry.
-/

namespace Audit

/-- The audit of a roll with given draws and a given exact result. -/
def listing
    (title : String)
    (rules : Rules)
    (text : String)
    (code : DiceCode)
    (rolls : List (Int × Int))
    (product : Int) :
    Audit where
  input := text
  normalized := code.text
  explode := (rules.forCode code).explode
  whole66 := rules.whole66
  source := title
  rolls := rolls
  total := narrow product

/-- The rules that an audit was rolled by, with the `E` of its code. -/
def rules (audit : Audit) : Rules where
  explode := audit.explode
  whole66 := audit.whole66

/-- The faces that were drawn, in order. -/
def faces (audit : Audit) : List Int :=
  audit.rolls.map Prod.snd

/-- The roll of an audit made again with the faces of a script. -/
def replay
    (audit : Audit)
    (script : List Int) :
    Passage Well Audit :=
  let well := Well.script script 0
  Well.source.auditText well.title audit.rules audit.normalized well

/-- Two audits of one roll; they may differ in the text that was given and in the source. -/
structure SameRoll (audit again : Audit) : Prop where
  normalized : again.normalized = audit.normalized
  explode : again.explode = audit.explode
  whole66 : again.whole66 = audit.whole66
  rolls : again.rolls = audit.rolls
  total : again.total = audit.total
  explanation : again.explanation = audit.explanation

/-- Whether an audit is reproduced by its own faces, and by no fewer of them. -/
structure Replays (audit : Audit) : Prop where
  reproduced :
    ∃ again,
      (audit.replay audit.faces).outcome = .ok again ∧ audit.SameRoll again
  consumed :
    (audit.replay audit.faces).left = .script [] audit.rolls.length
  runsDry :
    ∀ script,
      script <+: audit.faces →
      script ≠ audit.faces →
      ∃ die,
        (audit.replay script).outcome =
          .error (.fault (.refused (.exhausted script.length die)))

end Audit

/-- An `E` that is already among the rules makes no difference. -/
theorem Rules.forCode_forCode
    (rules : Rules)
    (code : DiceCode) :
    (rules.forCode code).forCode code = rules.forCode code := by
  simp [forCode]

theorem codeSettled_forCode
    (rules : Rules)
    (code : DiceCode) :
    CodeSettled (rules.forCode code) code = CodeSettled rules code :=
  congrArg (FactorsSettled · code.factors) (rules.forCode_forCode code)

theorem codeOpen_forCode
    (rules : Rules)
    (code : DiceCode) :
    CodeOpen (rules.forCode code) code = CodeOpen rules code :=
  congrArg (FactorsOpen · code.factors) (rules.forCode_forCode code)

/-- Faces that are drawn from a script are taken off its front. -/
theorem Drawn.script_eq
    {Open : List Int → Int → Prop}
    {script : List Int}
    {rolls : List (Int × Int)}
    {left : Recorded Well}
    (drawn : Drawn Well.source.recorded Open { inner := .script script 0 } rolls left) :
    ∃ rest, script = rolls.map Prod.snd ++ rest ∧ left.inner = .script rest rolls.length := by
  induction drawn with
  | none =>
      exact ⟨script, rfl, rfl⟩
  | @next rolls state left die face drawn opened answer inductionHypothesis =>
      obtain ⟨rest, shape, inner⟩ := inductionHypothesis
      have answered := Well.source.recorded_answer die state
      have goesOn := Well.source.recorded_inner die state
      rw [answer, inner] at answered goesOn
      cases rest with
      | nil =>
          cases answered
      | cons next rest =>
          cases answered
          refine ⟨rest, ?_, ?_⟩
          · rw [shape, List.map_append, List.append_assoc]
            rfl
          · rw [List.length_append]
            exact goesOn

section

variable {σ : Type} {source : Source σ} {title text : String} {rules : Rules} {code : DiceCode}
variable {state : σ} {audit : Audit}

/-- An audit lists the draws of the open dice, and their faces settle the code. -/
theorem Source.auditCode_ok
    (done : (source.auditCode title rules text code state).outcome = .ok audit) :
    ∃ rolls product left,
      Drawn source.recorded (CodeOpen rules code) { inner := state } rolls left ∧
        CodeSettled rules code (rolls.map Prod.snd) product ∧
        (source.auditCode title rules text code state).left = left.inner ∧
        audit = .listing title rules text code rolls product := by
  have ends := code_ends source.recorded rules code { inner := state }
  unfold Source.auditCode Source.evaluate at done ⊢
  revert done ends
  generalize source.recorded.throwCode rules code { inner := state } = thrown
  intro done ends
  cases ends with
  | broken drawn opened breaks =>
      cases done
  | @settled rolls left product drawn settled =>
      obtain rfl : left.rolls.toList = rolls := drawn.recorded_toList
      cases done
      exact ⟨_, product, left, drawn, settled, rfl, rfl⟩

/-- Rolling a script of the faces that settled a code lists the same draws, and takes them all. -/
theorem auditCode_script
    {rolls : List (Int × Int)}
    {product : Int}
    {start left : Recorded σ}
    (drawn : Drawn source.recorded (CodeOpen rules code) start rolls left)
    (settled : CodeSettled rules code (rolls.map Prod.snd) product)
    (title text : String) :
    let again := Well.source.auditCode title rules text code (.script (rolls.map Prod.snd) 0)
    again.left = .script [] rolls.length ∧
      again.outcome = .ok (.listing title rules text code rolls product) := by
  intro again
  have rolled := scriptRoll_settled settled []
  rw [List.append_nil, List.length_map] at rolled
  have total : again.outcome.map Audit.total = .ok (narrow product) :=
    (Well.source.auditCode_total _ _ _ _ _).trans rolled.1
  have consumed : again.left = .script [] rolls.length :=
    (Well.source.auditCode_left _ _ _ _ _).trans rolled.2
  refine ⟨consumed, ?_⟩
  cases outcome : again.outcome with
  | error failure =>
      rw [outcome] at total
      cases total
  | ok audit =>
      obtain ⟨others, otherProduct, otherLeft, also, -, leftBehind, rfl⟩ :=
        Source.auditCode_ok outcome
      obtain ⟨rest, shape, inner⟩ := also.script_eq
      have nothing : rest = [] := by
        rw [← leftBehind, consumed] at inner
        injection inner with same
        exact same.symm
      rw [nothing, List.append_nil] at shape
      obtain rfl := drawn.rolls_eq also CodeOpen.die_eq shape
      rw [outcome] at total
      have sameTotal : narrow otherProduct = narrow product := Except.ok.inj total
      unfold Audit.listing
      rw [sameTotal]

/-- A script that breaks off before the code is settled runs dry. -/
theorem auditCode_runsDry
    {faces script : List Int}
    {product : Int}
    (sides : ∀ factor ∈ code.factors, Text.Writable factor.sides)
    (settled : CodeSettled rules code faces product)
    (front : script <+: faces)
    (shorter : script ≠ faces)
    (title text : String) :
    ∃ die,
      (Well.source.auditCode title rules text code (.script script 0)).outcome =
        .error (.fault (.refused (.exhausted script.length die))) := by
  obtain ⟨tail, rfl⟩ := front
  cases code_decided rules code script with
  | @settled others rest worth shape also =>
      have whole : others ++ (rest ++ tail) = script ++ tail ++ [] := by
        rw [List.append_nil, shape, List.append_assoc]
      have taken : others = script ++ tail :=
        ((FactorsSettled.gives also 1).unique (FactorsSettled.gives settled 1) whole).1
      rw [taken, List.append_assoc, List.self_eq_append_right, List.append_eq_nil_iff] at shape
      rw [shape.1, List.append_nil] at shorter
      exact absurd rfl shorter
  | @rejected others rest face die shape opened notAccepted =>
      have rolled := (scriptRoll_settled settled []).1
      rw [List.append_nil, shape, List.append_assoc, List.cons_append,
        (scriptRoll_rejected opened notAccepted).1] at rolled
      cases rolled
  | @exhausted die opened =>
      have failed := (scriptRoll_exhausted opened).1
      rw [Refusal.forDie_of_writable (opened.mayAsk.of_sides (by decide) sides)] at failed
      exact ⟨die, Source.auditCode_error title text failed⟩

/-- An audit is replayed by the code that it was made of. -/
theorem Audit.replay_listing
    (canonical : DiceCode.read? code.text = .ok code)
    (rolls : List (Int × Int))
    (product : Int)
    (script : List Int) :
    (Audit.listing title rules text code rolls product).replay script =
      Well.source.auditCode (Well.script script 0).title (rules.forCode code) code.text code
        (.script script 0) := by
  unfold replay Source.auditText
  rw [show DiceCode.read? (listing title rules text code rolls product).normalized = _ from
    canonical]
  rfl

/-- Whatever the source is, an audit that it gives replays. -/
theorem Source.auditText_replays
    (done : (source.auditText title rules text state).outcome = .ok audit) :
    audit.Replays := by
  cases read : DiceCode.read? text with
  | error misread =>
      rw [Source.auditText, read] at done
      cases done
  | ok code =>
      rw [Source.auditText, read] at done
      obtain ⟨rolls, product, left, drawn, settled, -, rfl⟩ := Source.auditCode_ok done
      have wellFormed := DiceCode.wellFormed_of_read? read
      have canonical : DiceCode.read? code.text = .ok code :=
        wellFormed.read?_text
      have sides : ∀ factor ∈ code.factors, Text.Writable factor.sides :=
        fun factor member => (wellFormed.factors factor member).sides_writable
      rw [← codeOpen_forCode] at drawn
      rw [← codeSettled_forCode] at settled
      let well := Well.script (rolls.map Prod.snd) 0
      obtain ⟨consumed, again⟩ := auditCode_script drawn settled well.title code.text
      refine ⟨⟨.listing well.title (rules.forCode code) code.text code rolls product, ?_, ?_⟩, ?_, ?_⟩
      · rw [Audit.replay_listing canonical]
        exact again
      · exact ⟨rfl, congrArg Rules.explode (rules.forCode_forCode code), rfl, rfl, rfl, rfl⟩
      · rw [Audit.replay_listing canonical]
        exact consumed
      · intro script front shorter
        rw [Audit.replay_listing canonical]
        exact auditCode_runsDry sides settled front shorter _ _

/--
Every audit replays, also the one in a report that a table makes. At any table
the replay comes out as it does here if the script is put on the rack for it.
-/
theorem audits_replay :
    (∀ {σ : Type} (source : Source σ) title rules text state audit,
        (source.auditText title rules text state).outcome = .ok audit → audit.Replays) ∧
      (∀ (table : Table) chosen rules text report,
        (table.report chosen rules text).outcome = .ok report → report.audit.Replays) ∧
      ∀ (table : Table) (audit : Audit) (script : List Int),
        let added := table.rack.addWell (.script script 0)
        let again :=
          { table with rack := added.2 }.report (some added.1) audit.rules audit.normalized
        again.outcome.map Report.audit = (audit.replay script).outcome ∧
          again.left.rack.wells[added.1.well]? = some (audit.replay script).left := by
  refine ⟨fun _ _ _ _ _ _ => Source.auditText_replays, ?_, ?_⟩
  · intro table chosen rules text report done
    have audited := table.report_audit chosen rules text
    rw [done] at audited
    exact Source.auditText_replays audited.symm
  · intro table audit script added again
    have stands := table.rack.addWell_stands (.script script 0)
    exact Table.report_bare { table with rack := added.2 } _ rfl stands

theorem replays_explodingSix :
    ∃ audit,
      (Well.source.auditText "" {} " d06E" (.script [6, 2, 9] 0)).outcome = .ok audit ∧
        audit.faces = [6, 2] ∧
        audit.Replays ∧
        ∃ again,
          (audit.replay [6, 2]).outcome = .ok again ∧ again.explanation = "d6E: rolls [6, 2] => 8" := by
  have factorRead : readFactor "d06E".toList = .ok ({}, ['E']) := by
    rfl
  have read : DiceCode.read? " d06E" = .ok { factors := [{}], explode := true } :=
    DiceCode.read?_of_factor rfl factorRead
  have done :
      (Well.source.auditText "" {} " d06E" (.script [6, 2, 9] 0)).outcome =
        .ok (.listing "" {} " d06E" { factors := [{}], explode := true } [(6, 6), (6, 2)] 8) := by
    unfold Source.auditText
    rw [read]
    rfl
  have replays := audits_replay.1 _ _ _ _ _ _ done
  obtain ⟨again, rolled, same⟩ := replays.reproduced
  exact ⟨_, done, rfl, replays, again, rolled, same.explanation⟩

end

end Tabletop
