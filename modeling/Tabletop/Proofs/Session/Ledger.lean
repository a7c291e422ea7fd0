import Tabletop.Proofs.Session.BehindHandle
import Tabletop.Proofs.Throws.Log

namespace Tabletop

/-!
# The draws of a rack

A draw goes through a handle, asks for a die, and is answered or refused. A rack
accounts for some draws if every script has handed out its faces from the front,
one for each answered draw from it, and every notebook has grown at its end by
the answered draws that were made through it. A single draw is accounted for
(`draw_accounts`), draws one after the other are (`Accounts.trans`), and so are
all draws of a throw, whatever it comes to (`alike_logged`).
-/

/-- A draw: the handle that it was made through, the die that was asked for, and the answer. -/
structure Draw where
  handle : Handle
  sides : Int
  answer : Except Refusal Int

namespace Draw

/-- What a notebook holds of a draw: nothing of a refusal, and any face, the die's or not. -/
def note? (draw : Draw) : Option (Int × Int) :=
  draw.answer.toOption.map fun face => (draw.sides, face)

end Draw

/-- The faces that a well has handed out in some draws, in order. -/
def handedOut
    (well : Nat)
    (draws : List Draw) :
    List Int :=
  (draws.filter fun draw => draw.handle.well = well).filterMap (·.answer.toOption)

/-- The sides and faces of the answered draws that were made through a notebook, in order. -/
def noted
    (notebook : Nat)
    (draws : List Draw) :
    List (Int × Int) :=
  (draws.filter fun draw => notebook ∈ draw.handle.notebooks).filterMap Draw.note?

section

variable (place : Nat) (earlier later : List Draw)

@[simp] theorem noted_nil :
    noted place [] = [] :=
  rfl

theorem handedOut_append :
    handedOut place (earlier ++ later) = handedOut place earlier ++ handedOut place later := by
  simp [handedOut]

theorem noted_append :
    noted place (earlier ++ later) = noted place earlier ++ noted place later := by
  simp [noted]

variable {place} {handle : Handle} {sides face : Int} {refusal : Refusal}

theorem handedOut_refused :
    handedOut place [⟨handle, sides, .error refusal⟩] = [] := by
  by_cases same : handle.well = place <;> simp [handedOut, same, Except.toOption]

theorem handedOut_other (other : handle.well ≠ place) :
    handedOut place [⟨handle, sides, .ok face⟩] = [] := by
  simp [handedOut, other]

theorem handedOut_answered :
    handedOut handle.well [⟨handle, sides, .ok face⟩] = [face] := by
  simp [handedOut, Except.toOption]

theorem noted_refused :
    noted place [⟨handle, sides, .error refusal⟩] = [] := by
  by_cases member : place ∈ handle.notebooks <;>
    simp [noted, member, Draw.note?, Except.toOption]

theorem noted_answered :
    noted place [⟨handle, sides, .ok face⟩] =
      if place ∈ handle.notebooks then [(sides, face)] else [] := by
  by_cases member : place ∈ handle.notebooks <;>
    simp [noted, member, Draw.note?, Except.toOption]

end

namespace Rack

/--
Whether a rack is left by some draws on another: no script lost or repeated a
face, one that ran dry stays dry, and the notebooks hold the answered draws.
-/
structure Accounts
    (before : Rack)
    (draws : List Draw)
    (after : Rack) :
    Prop where
  script :
    ∀ {place : Nat} {faces : List Int} {given : Nat},
      before.wells[place]? = some (.script faces given) →
      ∃ left,
        faces = handedOut place draws ++ left ∧
          after.wells[place]? = some (.script left (given + (handedOut place draws).length))
  dry :
    ∀ {place : Nat} {faces : List Int} {given : Nat} {draw : Draw} {refusal : Refusal},
      before.wells[place]? = some (.script faces given) →
      draw ∈ draws →
      draw.handle.well = place →
      draw.answer = .error refusal →
      refusal = .forDie draw.sides (.exhausted (given + faces.length)) ∧
        after.wells[place]? = some (.script [] (given + faces.length))
  notebook :
    ∀ {place : Nat} {notebook : Notebook},
      before.notebooks[place]? = some notebook →
      after.notebooks[place]? = some (notebook ++ (noted place draws).toArray)

namespace Accounts

variable {before middle after : Rack} {earlier later : List Draw}

theorem refl (rack : Rack) : rack.Accounts [] rack where
  script stands := ⟨_, rfl, stands⟩
  dry _ member := absurd member List.not_mem_nil
  notebook lies := by
    simp [lies]

/-- What is accounted for in turn is accounted for as a whole. -/
theorem trans
    (first : before.Accounts earlier middle)
    (second : middle.Accounts later after) :
    before.Accounts (earlier ++ later) after where
  script {place faces given} stands := by
    obtain ⟨rest, shape, standsBetween⟩ := first.script stands
    obtain ⟨left, restShape, standsAfter⟩ := second.script standsBetween
    refine ⟨left, ?_, ?_⟩
    · rw [handedOut_append, List.append_assoc, ← restShape, ← shape]
    · rw [standsAfter, handedOut_append, List.length_append, Nat.add_assoc]
  dry {place faces given draw refusal} stands member through refused := by
    obtain ⟨rest, shape, standsBetween⟩ := first.script stands
    rcases List.mem_append.mp member with drawnEarlier | drawnLater
    · obtain ⟨told, dryBetween⟩ := first.dry stands drawnEarlier through refused
      obtain ⟨left, nothing, standsAfter⟩ := second.script dryBetween
      obtain ⟨none, rfl⟩ := List.append_eq_nil_iff.mp nothing.symm
      rw [none] at standsAfter
      exact ⟨told, standsAfter⟩
    · have dryAfter := second.dry standsBetween drawnLater through refused
      have whole :
          given + (handedOut place earlier).length + rest.length = given + faces.length := by
        rw [shape, List.length_append, Nat.add_assoc]
      rw [whole] at dryAfter
      exact dryAfter
  notebook {place notebook} lies := by
    rw [second.notebook (first.notebook lies), noted_append, Array.append_assoc]
    simp only [List.append_toArray]

/-- No notebook is lost. -/
theorem notebooks_size (accounts : before.Accounts earlier after) :
    before.notebooks.size ≤ after.notebooks.size := by
  apply Nat.le_of_not_lt
  intro smaller
  have lies := accounts.notebook (Array.getElem?_eq_getElem smaller)
  rw [Array.getElem?_eq_none (Nat.le_refl _)] at lies
  cases lies

end Accounts

/-- Writing into different notebooks adds one line to each of them and to no other. -/
theorem foldl_write_notebook
    {notebooks : List Nat}
    (distinct : notebooks.Nodup)
    (roll : Int × Int)
    (rack : Rack)
    (place : Nat) :
    (notebooks.foldl (write · roll ·) rack).notebooks[place]? =
      (rack.notebooks[place]?).map fun notebook =>
        if place ∈ notebooks then notebook.push roll else notebook := by
  induction notebooks generalizing rack with
  | nil =>
      simp
  | cons first notebooks inductionHypothesis =>
      obtain ⟨notAgain, distinctRest⟩ := List.nodup_cons.mp distinct
      rw [List.foldl_cons, inductionHypothesis distinctRest]
      change ((rack.notebooks.modify first (·.push roll))[place]?).map _ = _
      rw [Array.getElem?_modify]
      by_cases same : first = place
      · subst same
        cases rack.notebooks[first]? <;> simp [notAgain]
      · simp [same, Ne.symm same]

section

variable {handle : Handle} {rack : Rack} (sides : Int)

/-- A draw changes no well but the one behind the handle. -/
theorem draw_other_well
    {place : Nat}
    (other : handle.well ≠ place) :
    (rack.draw handle sides).2.wells[place]? = rack.wells[place]? := by
  unfold draw
  cases rack.wells[handle.well]? with
  | none =>
      rfl
  | some well =>
      dsimp only
      rcases well.draw sides with ⟨refusal | face, left⟩
      · exact Array.getElem?_setIfInBounds_ne other
      · dsimp only
        rw [foldl_write_wells]
        exact Array.getElem?_setIfInBounds_ne other

/-- A draw that is answered adds a line to each notebook in front of the handle, a refusal none. -/
theorem draw_notebook
    (distinct : handle.notebooks.Nodup)
    {place : Nat}
    {notebook : Notebook}
    (lies : rack.notebooks[place]? = some notebook) :
    (rack.draw handle sides).2.notebooks[place]? =
      some (notebook ++ (noted place [⟨handle, sides, (rack.draw handle sides).1⟩]).toArray) := by
  unfold draw
  cases rack.wells[handle.well]? with
  | none =>
      simp [noted_refused, lies]
  | some well =>
      dsimp only
      rcases well.draw sides with ⟨refusal | face, left⟩
      · simp [noted_refused, lies]
      · dsimp only
        rw [foldl_write_notebook distinct, noted_answered, lies]
        by_cases member : place ∈ handle.notebooks
        · simp [member]
        · simp [member]

/-- Drawing from a script takes its first face, or finds none and leaves it dry. -/
theorem draw_script
    {faces : List Int}
    {given : Nat}
    (stands : rack.wells[handle.well]? = some (.script faces given)) :
    (∃ face left,
        faces = face :: left ∧
          (rack.draw handle sides).1 = .ok face ∧
          (rack.draw handle sides).2.wells[handle.well]? = some (.script left (given + 1))) ∨
      (faces = [] ∧
        (rack.draw handle sides).1 = .error (.forDie sides (.exhausted given)) ∧
        (rack.draw handle sides).2.wells[handle.well]? = some (.script [] given)) := by
  have answer := draw_answer stands sides
  have well := draw_well stands sides
  cases faces with
  | nil =>
      exact .inr ⟨rfl, answer, well⟩
  | cons face left =>
      exact .inl ⟨face, left, rfl, answer, well⟩

/-- A single draw is accounted for. -/
theorem draw_accounts
    (distinct : handle.notebooks.Nodup) :
    rack.Accounts
      [⟨handle, sides, (rack.draw handle sides).1⟩]
      (rack.draw handle sides).2 where
  script {place faces given} stands := by
    by_cases same : handle.well = place
    · subst same
      rcases draw_script sides stands with ⟨face, left, shape, answer, well⟩ | ⟨rfl, answer, well⟩
      · rw [answer, handedOut_answered]
        exact ⟨left, shape, well⟩
      · rw [answer, handedOut_refused]
        exact ⟨[], rfl, well⟩
    · have nothing : handedOut place [⟨handle, sides, (rack.draw handle sides).1⟩] = [] := by
        cases (rack.draw handle sides).1 with
        | error refusal =>
            exact handedOut_refused
        | ok face =>
            exact handedOut_other same
      rw [nothing, draw_other_well sides same]
      exact ⟨faces, rfl, stands⟩
  dry {place faces given draw refusal} stands member through refused := by
    obtain rfl := List.mem_singleton.mp member
    subst through
    rcases draw_script sides stands with ⟨face, left, shape, answer, well⟩ | ⟨rfl, answer, well⟩
    · rw [answer] at refused
      cases refused
    · rw [answer] at refused
      cases refused
      exact ⟨rfl, well⟩
  notebook lies := draw_notebook sides distinct lies

end

end Rack

/-- The draws of a log that was kept of a handle. -/
def Logged.draws
    (logged : Logged Rack)
    (handle : Handle) :
    List Draw :=
  logged.log.map fun (sides, answer) => ⟨handle, sides, answer⟩

namespace Rack

/-- A rack whose draws through a handle are in the log and accounted for. -/
structure LoggedFrom
    (start : Rack)
    (handle : Handle)
    (logged : Logged Rack)
    (rack : Rack) :
    Prop where
  inner : logged.inner = rack
  accounts : start.Accounts (logged.draws handle) rack

theorem LoggedFrom.start
    (rack : Rack)
    (handle : Handle) :
    rack.LoggedFrom handle { inner := rack } rack where
  inner := rfl
  accounts := .refl rack

/-- A handle cannot be told from itself with a log, and the log accounts for the rack. -/
theorem alike_logged
    {handle : Handle}
    (distinct : handle.notebooks.Nodup)
    (start : Rack) :
    (source handle).logged.Alike (source handle) (start.LoggedFrom handle) where
  answer sides logged rack related := by
    rw [← related.inner]
    rfl
  left sides logged rack related := by
    obtain ⟨rfl, accounts⟩ := related
    refine ⟨rfl, ?_⟩
    have whole := accounts.trans (draw_accounts sides distinct)
    have drawn :
        ((source handle).logged.draw sides logged).2.draws handle =
          logged.draws handle ++ [⟨handle, sides, (logged.inner.draw handle sides).1⟩] :=
      List.map_append
    rw [drawn]
    exact whole
  streak related := congrArg (streak _) related.inner

end Rack

end Tabletop
