import Tabletop.Proofs.Session.Conservation
import Tabletop.Proofs.Throws.Trace

namespace Tabletop

/-!
# Who listens to a session

A narrator hears of everything and changes nothing: two sessions that differ in
their narrators alone answer every step alike and stay alike (`step_unheard`,
`after_unheard`). What a narrator is told of a roll is found in a notebook in
front of the source of that roll.
-/

namespace Session

/-- The same session with another narrator, or with nobody who listens. -/
def withNarrator
    (session : Session)
    (narrator : Option Narrator) :
    Session :=
  { session with narrator := narrator }

/-- Whether two sessions differ in nothing but their narrators. -/
structure SameUnheard
    (session other : Session) :
    Prop where
  table : session.table = other.table
  sources : session.sources = other.sources
  ready : session.ready = other.ready

/-- Whether two steps are answered alike and leave sessions that are alike. -/
structure AnsweredAlike
    (made other : Turn × Session) :
    Prop where
  reply : made.1.reply = other.1.reply
  entries : made.1.entries = other.1.entries
  left : SameUnheard made.2 other.2

variable {session other : Session}

theorem openPlan_unheard
    (same : SameUnheard session other)
    (plan : SourcePlan) :
    session.openPlan plan = other.openPlan plan := by
  induction plan with
  | named name =>
      unfold openPlan
      rw [same.sources, same.table]
  | well well =>
      unfold openPlan
      rw [same.table]
  | system =>
      unfold openPlan
      rw [same.table]
  | recording inner inductionHypothesis =>
      unfold openPlan
      rw [inductionHypothesis]

theorem openChoice_unheard
    (same : SameUnheard session other)
    (choice : Option SourcePlan) :
    session.openChoice choice = other.openChoice choice := by
  cases choice with
  | none =>
      exact congrArg (Prod.mk none) same.table
  | some plan =>
      exact congrArg (fun (opened : Handle × Table) => (some opened.1, opened.2))
        (openPlan_unheard same plan)

theorem finish_unheard
    {α : Type}
    (same : SameUnheard session other)
    (reply : α → Reply)
    (passage : Passage Table α) :
    AnsweredAlike (session.finish reply passage) (other.finish reply passage) :=
  ⟨rfl, rfl, rfl, same.sources, same.ready⟩

theorem throwWith_unheard
    (same : SameUnheard session other)
    (choice : Option SourcePlan)
    (throw : Source Rack → Hand Rack → Thrown Rack Int) :
    AnsweredAlike (session.throwWith choice throw) (other.throwWith choice throw) := by
  unfold throwWith
  rw [openChoice_unheard same]
  exact finish_unheard same _ _

theorem withReady_unheard
    (same : SameUnheard session other)
    (name : String)
    {step otherStep : DiceCode → Rules → Turn × Session}
    (steps : ∀ code rules, AnsweredAlike (step code rules) (otherStep code rules)) :
    AnsweredAlike (session.withReady name step) (other.withReady name otherStep) := by
  unfold withReady
  rw [same.ready]
  cases other.ready.lookup name with
  | none =>
      exact ⟨rfl, rfl, same⟩
  | some kept =>
      exact steps kept.1 kept.2

/-- What one step preserves: sessions that differ in their narrators alone. -/
theorem step_unheard
    (same : SameUnheard session other)
    (step : Step) :
    AnsweredAlike (session.step step) (other.step step) := by
  cases step with
  | roll text rules choice =>
      rw [Session.step, Session.step, openChoice_unheard same]
      exact finish_unheard same _ _
  | report text rules choice =>
      rw [Session.step, Session.step, openChoice_unheard same]
      exact finish_unheard same _ _
  | evaluate form rules choice =>
      rw [Session.step, Session.step, openChoice_unheard same]
      cases form.code? with
      | error misread =>
          exact finish_unheard same _ _
      | ok code =>
          exact finish_unheard same _ _
  | prepare name form rules =>
      rw [Session.step, Session.step]
      cases form.code? with
      | error misread =>
          dsimp only
          rw [same.table]
          exact finish_unheard same _ _
      | ok code =>
          exact ⟨rfl, rfl, same.table, same.sources,
            congrArg (fun ready => ready.filter (·.1 != name) ++ [_]) same.ready⟩
  | perform name choice =>
      refine withReady_unheard same name ?_
      intro code rules
      rw [openChoice_unheard same]
      exact finish_unheard same _ _
  | performFactor name index choice =>
      refine withReady_unheard same name ?_
      intro code rules
      exact throwWith_unheard same choice _
  | performDie name sides explode choice =>
      refine withReady_unheard same name ?_
      intro code rules
      exact throwWith_unheard same choice _
  | performPair choice =>
      rw [Session.step, Session.step]
      exact throwWith_unheard same choice _
  | draw sides choice =>
      rw [Session.step, Session.step, openChoice_unheard same]
      exact finish_unheard same _ _
  | say form text =>
      rw [Session.step, Session.step]
      cases form.level? with
      | error name =>
          exact ⟨rfl, rfl, same⟩
      | ok level =>
          exact ⟨rfl, rfl, same⟩
  | setLevel form =>
      rw [Session.step, Session.step]
      cases form.level? with
      | error name =>
          exact ⟨rfl, rfl, same⟩
      | ok level =>
          exact ⟨rfl, rfl, same.table, same.sources, same.ready⟩

/-- What a run preserves: sessions that differ in their narrators alone. -/
theorem after_unheard
    (same : SameUnheard session other)
    (steps : List Step) :
    SameUnheard (session.after steps) (other.after steps) := by
  induction steps generalizing session other with
  | nil =>
      exact same
  | cons step steps inductionHypothesis =>
      exact inductionHypothesis (step_unheard same step).left

/--
Listening never interferes. Two sessions with different narrators answer all
steps alike and are left alike, and so is a roll that they come to. The roll goes
as it goes with a notebook in front of its source, and what is told of it is in
that notebook.
-/
theorem evaluate_undisturbed
    {σ : Type}
    (source : Source σ)
    (state : σ)
    (session : Session)
    (narrator other : Option Narrator)
    (earlier : List Step)
    (rules : Rules)
    (code : DiceCode)
    (choice : Option SourcePlan) :
    let heard := (session.withNarrator narrator).after earlier
    let made := heard.step (.evaluate (.built code) rules choice)
    let also :=
      ((session.withNarrator other).after earlier).step (.evaluate (.built code) rules choice)
    let (handle, seated) := heard.seat choice
    let rolled := (Rack.source handle).evaluate rules code seated.rack
    let noted := (Rack.source handle).recorded.evaluate rules code { inner := seated.rack }
    AnsweredAlike made also ∧
      made.1.reply = (rolled.outcome.map Reply.number).mapError Trouble.failure ∧
      made.2.table = { seated with rack := rolled.left } ∧
      Traced heard.narrator rolled noted made.1.spoken ∧
      Traced narrator
        (source.evaluate rules code state)
        (source.recorded.evaluate rules code { inner := state })
        (told narrator (source.evaluate rules code state).remarks) := by
  have same : SameUnheard (session.withNarrator narrator) (session.withNarrator other) :=
    ⟨rfl, rfl, rfl⟩
  refine ⟨?_, rfl, rfl, ?_, ?_⟩
  · exact step_unheard (after_unheard same earlier) _
  · exact (Rack.source _).evaluate_traced rules code _ _
  · exact source.evaluate_traced rules code state narrator

/-- Two dice, of which the second shows a face that it does not have. -/
theorem evaluate_undisturbed_secondFace :
    let start := withSources pairTable [("script", .well (.script [5, 7] 0))] none
    let step := Step.evaluate (.built { factors := [{ count := 2 }] }) {} (some (.named "script"))
    let listening : Narrator := { threshold := 2 }
    let made := (start.withNarrator (some listening)).step step
    made.1.reply = .error (.failure (.fault (.impossible 7 6))) ∧
      made.1.reply = ((start.withNarrator none).step step).1.reply ∧
      made.1.spoken = "Rolled: 5\n" := by
  intro start step listening made
  obtain ⟨alike, -, -, traced, -⟩ :=
    evaluate_undisturbed (Rack.source ⟨0, []⟩) {} start (some listening) none [] {}
      { factors := [{ count := 2 }] } (some (.named "script"))
  have heard : FacesHeard (some listening) :=
    ⟨listening, rfl, rfl, Int.le_refl 2⟩
  obtain ⟨earlier, values, spoken⟩ := traced.allButLast heard 7 6 rfl
  change [5] ++ [7] = earlier ++ [7] at values
  obtain rfl := List.append_cancel_right values
  exact ⟨rfl, alike.reply, spoken⟩

end Session

end Tabletop
