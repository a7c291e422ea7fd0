import Tabletop.Proofs.Throws.Alike
import Tabletop.Session.Table

namespace Tabletop

/-!
# What is behind a handle

A rack that is drawn from through a handle answers as the well behind the handle
does, and keeps that well in its place: writing into notebooks changes no well.
A report at a table is an audit of the source that was chosen, so it has the
result of a roll with that source.
-/

namespace Rack

@[simp] theorem write_wells
    (rack : Rack)
    (roll : Int × Int)
    (notebook : Nat) :
    (rack.write roll notebook).wells = rack.wells :=
  rfl

theorem foldl_write_wells
    (notebooks : List Nat)
    (roll : Int × Int)
    (rack : Rack) :
    (notebooks.foldl (write · roll ·) rack).wells = rack.wells := by
  induction notebooks generalizing rack with
  | nil =>
      rfl
  | cons notebook notebooks inductionHypothesis =>
      rw [List.foldl_cons, inductionHypothesis, write_wells]

section

variable {handle : Handle} {rack : Rack} {well : Well}

theorem draw_answer
    (stands : rack.wells[handle.well]? = some well)
    (sides : Int) :
    (rack.draw handle sides).1 = (well.draw sides).1 := by
  unfold draw
  rw [stands]
  dsimp only
  rcases well.draw sides with ⟨refusal | face, left⟩ <;> rfl

theorem draw_well
    (stands : rack.wells[handle.well]? = some well)
    (sides : Int) :
    (rack.draw handle sides).2.wells[handle.well]? = some (well.draw sides).2 := by
  have inRack : handle.well < rack.wells.size :=
    (Array.getElem?_eq_some_iff.mp stands).1
  unfold draw
  rw [stands]
  dsimp only
  rcases well.draw sides with ⟨refusal | face, left⟩
  · exact Array.getElem?_setIfInBounds_self_of_lt inRack
  · dsimp only
    rw [foldl_write_wells]
    exact Array.getElem?_setIfInBounds_self_of_lt inRack

end

/-- A rack cannot be told from the well behind the handle that it is drawn from through. -/
theorem alike_well (handle : Handle) :
    (source handle).Alike Well.source fun rack well => rack.wells[handle.well]? = some well where
  answer sides _ _ stands := draw_answer stands sides
  left sides _ _ stands := draw_well stands sides
  streak {rack well} stands := by
    change ((rack.wells[handle.well]?).map Well.streak).getD 0 = well.streak
    rw [stands]
    rfl

/-- Without notebooks in front of it, a well is listed under its own name. -/
theorem title_bare
    {rack : Rack}
    {handle : Handle}
    {well : Well}
    (bare : handle.notebooks = [])
    (stands : rack.wells[handle.well]? = some well) :
    rack.title handle = well.title := by
  unfold title
  rw [bare, stands]
  rfl

/-- A well that was put on a rack stands behind its handle. -/
theorem addWell_stands
    (rack : Rack)
    (well : Well) :
    (rack.addWell well).2.wells[(rack.addWell well).1.well]? = some well := by
  simp [addWell]

end Rack

namespace Table

theorem choose_some
    (table : Table)
    (handle : Handle) :
    table.choose (some handle) = (handle, table) :=
  rfl

section

variable (table : Table) (chosen : Option Handle) (rules : Rules) (text : String)

/-- A report is made of an audit of the chosen source, or fails as that does. -/
theorem report_audit :
    (table.report chosen rules text).outcome.map Report.audit =
      ((Rack.source (table.choose chosen).1).auditText
        ((table.choose chosen).2.rack.title (table.choose chosen).1)
        rules text (table.choose chosen).2.rack).outcome := by
  unfold report Source.auditText
  cases DiceCode.read? text with
  | error misread =>
      rfl
  | ok code =>
      simp only [onRack]
      rcases (Rack.source (table.choose chosen).1).auditCode _ rules text code _ with
        ⟨_ | audit, remarks, entries, left⟩ <;> rfl

variable {text} {code : DiceCode}

/-- Where the text is read, the rack is left as the audit leaves it. -/
theorem report_rack (read : DiceCode.read? text = .ok code) :
    (table.report chosen rules text).left.rack =
      ((Rack.source (table.choose chosen).1).auditText
        ((table.choose chosen).2.rack.title (table.choose chosen).1)
        rules text (table.choose chosen).2.rack).left := by
  unfold report Source.auditText
  rw [read]
  simp only [onRack]
  rcases (Rack.source (table.choose chosen).1).auditCode _ rules text code _ with
    ⟨_ | audit, remarks, entries, left⟩ <;> rfl

/-- Where it is not, nothing is drawn and nothing is put on the rack. -/
theorem report_of_misread
    {misread : Misread}
    (read : DiceCode.read? text = .error misread) :
    table.report chosen rules text = .failed (.misread misread) table := by
  unfold report
  rw [read]

/-- A report with a well that has no notebooks in front of it is an audit of the well. -/
theorem report_bare
    {handle : Handle}
    {well : Well}
    (bare : handle.notebooks = [])
    (stands : table.rack.wells[handle.well]? = some well) :
    let report := table.report (some handle) rules text
    let audited := Well.source.auditText well.title rules text well
    report.outcome.map Report.audit = audited.outcome ∧
      report.left.rack.wells[handle.well]? = some audited.left := by
  intro report audited
  have alike := (Rack.alike_well handle).auditText stands well.title rules text
  have outcome := table.report_audit (some handle) rules text
  rw [choose_some, Rack.title_bare bare stands] at outcome
  refine ⟨outcome.trans alike.outcome, ?_⟩
  cases read : DiceCode.read? text with
  | error misread =>
      unfold report audited Source.auditText
      rw [report_of_misread _ _ _ read, read]
      exact stands
  | ok code =>
      have left := table.report_rack (some handle) rules read
      rw [choose_some, Rack.title_bare bare stands] at left
      unfold report
      rw [left]
      exact alike.left

end

section

variable (table : Table)

/-- Where no source is chosen, a generator with the table's random numbers is put on the rack. -/
theorem choose_none_stands :
    (table.choose none).2.rack.wells[(table.choose none).1.well]? =
      some (.generator (.system table.entropy)) :=
  table.rack.addWell_stands _

variable (rules : Rules) (text : String)

theorem rollText_fresh :
    (table.rollText none rules text).outcome =
      (Well.source.rollText rules text (.generator (.system table.entropy))).outcome := by
  unfold rollText Source.rollText
  cases DiceCode.read? text with
  | error misread =>
      rfl
  | ok code =>
      exact ((Rack.alike_well _).evaluate table.choose_none_stands rules code).outcome

theorem report_fresh :
    (table.report none rules text).outcome.map Report.audit =
      (Well.source.auditText Generator.systemTitle rules text
        (.generator (.system table.entropy))).outcome := by
  rw [report_audit, Rack.title_bare rfl table.choose_none_stands]
  exact ((Rack.alike_well _).auditText table.choose_none_stands _ rules text).outcome

end

end Table

end Tabletop
