import Tabletop.Session.Table

namespace Tabletop

/-!
# Sessions

A session is a table with names: sources that stay on the rack, codes that are
kept ready with their rules, and a narrator. It goes on in steps. A step that
fails has the effects it had until then and does not end the session.
-/

/-- How a source for a step is described. -/
inductive SourcePlan where
  /-- A source of the session that goes on from where it was left. -/
  | named (name : String)
  /-- A new well. -/
  | well (well : Well)
  /-- A new generator of the operating system. -/
  | system
  /-- A new notebook in front of another source. -/
  | recording (inner : SourcePlan)
  deriving Repr, DecidableEq, Inhabited

/-- A code as a text that is still to be read, or as a value. -/
inductive CodeForm where
  | written (text : String)
  | built (code : DiceCode)
  deriving Repr, DecidableEq, Inhabited

namespace CodeForm

/-- The code that is meant. -/
def code? : CodeForm → Except Misread DiceCode
  | written text => DiceCode.read? text
  | built code => .ok code

/-- The entries made when the code is read in full. -/
def entries : CodeForm → List Entry
  | written text =>
      match DiceCode.read? text with
      | .ok code => [readEntry text code]
      | .error _ => []
  | built _ => []

end CodeForm

/-- The level of a remark or the threshold of a narrator, by its name or as a number. -/
inductive LevelForm where
  | named (name : String)
  | numbered (level : Int)
  deriving Repr, DecidableEq, Inhabited

namespace LevelForm

/-- The level that is meant, or the name that is unknown. -/
def level? : LevelForm → Except String Int
  | named name =>
      match Loudness.ofName? name with
      | some loudness => .ok loudness.rank
      | none => .error name
  | numbered level =>
      .ok level

end LevelForm

/-- One step of a session. A step without a source gets a new generator. -/
inductive Step where
  | roll (code : String) (rules : Rules) (source : Option SourcePlan)
  | report (code : String) (rules : Rules) (source : Option SourcePlan)
  | evaluate (code : CodeForm) (rules : Rules) (source : Option SourcePlan)
  /-- Keeps a code ready under a name, with the rules that hold for it. -/
  | prepare (name : String) (code : CodeForm) (rules : Rules)
  /-- Rolls a code that was kept ready. -/
  | perform (name : String) (source : Option SourcePlan)
  /-- Throws one factor of a code that was kept ready. -/
  | performFactor (name : String) (index : Nat) (source : Option SourcePlan)
  /-- Throws one position under the rules of a code that was kept ready. -/
  | performDie (name : String) (sides : Int) (explode : Bool) (source : Option SourcePlan)
  /-- Throws two six-sided dice as tens and units. -/
  | performPair (source : Option SourcePlan)
  /-- Draws one face without a look at it. -/
  | draw (sides : Int) (source : Option SourcePlan)
  /-- Has the narrator pass on a remark of a level. -/
  | say (level : LevelForm) (text : String)
  | setLevel (level : LevelForm)
  deriving Repr, DecidableEq, Inhabited

/-- What a step that succeeds is answered with. -/
inductive Reply where
  | number (value : Int)
  | report (report : Report)
  | rules (rules : Rules)
  | done
  deriving Repr, DecidableEq, Inhabited

/-- Why a step has no answer. -/
inductive Trouble where
  | failure (failure : Failure)
  | unknownLevel (name : String)
  | unknownCode (name : String)
  deriving Repr, DecidableEq, Inhabited

namespace Trouble

/-- The message of the trouble. -/
def message : Trouble → String
  | failure f => f.message
  | unknownLevel name => Loudness.unknownMessage name
  | unknownCode name => "No code is kept ready as " ++ Text.quoted name ++ "."

end Trouble

/-- What a step leaves to be seen: its answer, the text that was passed on, and the journal. -/
structure Turn where
  reply : Except Trouble Reply
  spoken : String := ""
  entries : List Entry := []

/-- A table with names. -/
structure Session where
  table : Table
  sources : List (String × Handle) := []
  ready : List (String × DiceCode × Rules) := []
  narrator : Option Narrator := none

namespace Session

/--
Finds or makes the source that a plan describes.

A name that is not known stands for a script without faces.
-/
def openPlan
    (session : Session) :
    SourcePlan → Handle × Table
  | .named name =>
      match session.sources.lookup name with
      | some handle =>
          (handle, session.table)
      | none =>
          let (handle, rack) := session.table.rack.addWell (.script [] 0)
          (handle, { session.table with rack := rack })
  | .well well =>
      let (handle, rack) := session.table.rack.addWell well
      (handle, { session.table with rack := rack })
  | .system =>
      session.table.addGenerator
  | .recording inner =>
      let (handle, table) := session.openPlan inner
      let (handle, rack) := table.rack.addNotebook handle
      (handle, { table with rack := rack })

/-- The source of a step, if the step names one. -/
def openChoice
    (session : Session) :
    Option SourcePlan → Option Handle × Table
  | some plan =>
      let (handle, table) := session.openPlan plan
      (some handle, table)
  | none =>
      (none, session.table)

/-- Puts a source on the rack under a name, in place of an older one of that name. -/
def addSource
    (session : Session)
    (name : String)
    (plan : SourcePlan) :
    Session :=
  let (handle, table) := session.openPlan plan
  { session with
    table := table
    sources := session.sources.filter (·.1 != name) ++ [(name, handle)] }

/-- Gives a session a narrator, in place of an older one. -/
def addNarrator
    (session : Session)
    (threshold : LevelForm)
    (muted : Bool) :
    Except Trouble Session :=
  match threshold.level? with
  | .ok level => .ok { session with narrator := some { threshold := level, muted := muted } }
  | .error name => .error (.unknownLevel name)

/-- The text that the session's narrator makes of some remarks. -/
def tell
    (session : Session)
    (remarks : List Remark) :
    String :=
  match session.narrator with
  | some narrator => narrator.transcript remarks
  | none => ""

/-- Ends a step that was made on the table. -/
def finish
    {α : Type}
    (session : Session)
    (reply : α → Reply)
    (passage : Passage Table α) :
    Turn × Session :=
  ({ reply := (passage.outcome.map reply).mapError Trouble.failure
     spoken := session.tell passage.remarks
     entries := passage.entries },
    { session with table := passage.left })

/-- Throws dice with the source of a step and ends the step. -/
def throwWith
    (session : Session)
    (choice : Option SourcePlan)
    (throw : Source Rack → Hand Rack → Thrown Rack Int) :
    Turn × Session :=
  let (chosen, table) := session.openChoice choice
  let (handle, table) := table.choose chosen
  session.finish Reply.number <|
    table.onRack fun rack =>
      (throw (Rack.source handle) { source := rack }).passage

/-- A step with a code that was kept ready. -/
def withReady
    (session : Session)
    (name : String)
    (step : DiceCode → Rules → Turn × Session) :
    Turn × Session :=
  match session.ready.lookup name with
  | some (code, rules) => step code rules
  | none => ({ reply := .error (.unknownCode name) }, session)

/-- Makes one step. -/
def step (session : Session) : Step → Turn × Session
  | .roll code rules choice =>
      let (chosen, table) := session.openChoice choice
      session.finish Reply.number (table.rollText chosen rules code)
  | .report code rules choice =>
      let (chosen, table) := session.openChoice choice
      session.finish Reply.report (table.report chosen rules code)
  | .evaluate form rules choice =>
      let (chosen, table) := session.openChoice choice
      match form.code? with
      | .error misread =>
          session.finish Reply.number (.failed (.misread misread) table)
      | .ok code =>
          let passage := table.evaluate chosen rules code
          session.finish Reply.number { passage with entries := form.entries ++ passage.entries }
  | .prepare name form rules =>
      match form.code? with
      | .error misread =>
          session.finish Reply.number (.failed (.misread misread) session.table)
      | .ok code =>
          let rules := rules.forCode code
          ({ reply := .ok (.rules rules), entries := form.entries },
            { session with
              ready := session.ready.filter (·.1 != name) ++ [(name, code, rules)] })
  | .perform name choice =>
      session.withReady name fun code rules =>
        let (chosen, table) := session.openChoice choice
        session.finish Reply.number (table.evaluate chosen rules code)
  | .performFactor name index choice =>
      session.withReady name fun code rules =>
        session.throwWith choice fun source hand =>
          match code.factors[index]? with
          | some factor => source.throwFactor rules factor hand
          | none => ⟨.ok 0, hand⟩
  | .performDie name sides explode choice =>
      session.withReady name fun _ rules =>
        session.throwWith choice fun source hand =>
          source.throw ({ rules with explode := explode }.position sides) hand
  | .performPair choice =>
      session.throwWith choice fun source hand =>
        source.throw .pair hand
  | .draw sides choice =>
      let (chosen, table) := session.openChoice choice
      let (handle, table) := table.choose chosen
      session.finish Reply.number <|
        table.onRack fun rack =>
          let (answer, rack) := rack.draw handle sides
          { outcome := answer.mapError fun refusal => .fault (.refused refusal)
            left := rack }
  | .say form text =>
      match form.level? with
      | .ok level =>
          ({ reply := .ok .done, spoken := session.tell [⟨level, text⟩] }, session)
      | .error name =>
          ({ reply := .error (.unknownLevel name) }, session)
  | .setLevel form =>
      match form.level? with
      | .ok level =>
          ({ reply := .ok (.number level) },
            { session with
              narrator := session.narrator.map fun narrator =>
                { narrator with threshold := level } })
      | .error name =>
          ({ reply := .error (.unknownLevel name) }, session)

/-- Makes steps one after the other. -/
def run
    (session : Session) :
    List Step → List (Turn × Session)
  | [] => []
  | step :: rest =>
      let made := session.step step
      made :: made.2.run rest

end Session

end Tabletop
