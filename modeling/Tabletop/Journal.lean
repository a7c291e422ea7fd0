import Tabletop.Text.Capital
import Tabletop.Text.Numeral

namespace Tabletop

/-!
# The journal

Entries for the people who maintain the program. An entry is made on a channel
with a severity. A desk decides which entries are written: it looks after one
channel and all channels below it, and every entry it admits is written once by
each of its writers. `configure_configure` says that only the last way of
configuring a desk counts.
-/

/-- The channel that the desk looks after. -/
def Channel.all : String := "diecodes"

/-- The channel of the reader of dice codes. -/
def Channel.reader : String := Channel.all ++ ".parser"

/-- The channel of whoever throws the dice. -/
def Channel.thrower : String := Channel.all ++ ".executor"

/-- The channel of the command line. -/
def Channel.commandLine : String := Channel.all ++ ".cli"

/-- One entry of the journal, with the name of the error that caused it, if one did. -/
structure Entry where
  channel : String
  severity : Int
  message : String
  cause : Option String := none
  deriving Repr, DecidableEq, Inhabited

namespace Severity

def debug : Int := 10

def info : Int := 20

def warning : Int := 30

def error : Int := 40

def critical : Int := 50

/-- Severities that have a name, with the name that is shown first. -/
def names : List (String × Int) :=
  [("CRITICAL", critical), ("FATAL", critical), ("ERROR", error), ("WARNING", warning),
    ("WARN", warning), ("INFO", info), ("DEBUG", debug), ("NOTSET", 0)]

/-- The severity of a given name. -/
def ofName? (name : String) : Option Int :=
  names.lookup name

/-- The name of a severity; one without a name is shown by its number. -/
def name (severity : Int) : String :=
  match names.find? fun entry => entry.2 = severity with
  | some entry => entry.1
  | none => "Level " ++ Text.showInt severity

end Severity

namespace Entry

/--
The line that stands for the trace of an error. A trace has lines of its own for
every call on its way, and these are no part of what is said here: where the error
output is spoken of, this line is meant in their place.
-/
def traceLine (error : String) : String :=
  "<traceback " ++ error ++ ">\n"

/-- The text that an entry is written as: a line, and another one for its cause. -/
def text (entry : Entry) : String :=
  "[" ++ Severity.name entry.severity ++ "] [" ++ entry.channel ++ "] " ++ entry.message ++ "\n" ++
    (entry.cause.map traceLine).getD ""

end Entry

/-- How a least severity is asked for. -/
inductive Threshold where
  | named (name : String)
  | numbered (level : Int)
  | unstated
  deriving Repr, DecidableEq, Inhabited

namespace Threshold

/-- The least severity that is meant; a name that is not known means warnings. -/
def level : Threshold → Int
  | named name =>
      (Severity.ofName? (Text.capitals name)).getD Severity.warning
  | numbered level =>
      level
  | unstated =>
      Severity.warning

end Threshold

/--
Where entries arrive: the least severity, the number of writers, and whether
entries are passed on.
-/
structure Desk where
  level : Int := 0
  writers : Nat := 0
  passesOn : Bool := true
  deriving Repr, DecidableEq, Inhabited

namespace Desk

/-- Dismisses all writers, takes on a new one, and sets the least severity. Nothing is passed on. -/
def configure
    (threshold : Threshold)
    (desk : Desk) :
    Desk :=
  let cleared := { desk with writers := 0 }
  let staffed := { cleared with writers := cleared.writers + 1 }
  { staffed with
    level := threshold.level
    passesOn := false }

/-- The severity that counts where a desk has none of its own. -/
def inheritedLevel : Int := Severity.warning

/-- The least severity that the desk admits. -/
def effectiveLevel (desk : Desk) : Int :=
  if desk.level = 0 then inheritedLevel else desk.level

/-- Whether a channel is the desk's own or lies below it. -/
def oversees (channel : String) : Bool :=
  channel = Channel.all || (Channel.all ++ ".").toList.isPrefixOf channel.toList

/-- Whether an entry is written. No desk admits a severity of zero or less. -/
def admits
    (desk : Desk)
    (entry : Entry) :
    Bool :=
  oversees entry.channel && decide (0 < entry.severity) &&
    decide (desk.effectiveLevel ≤ entry.severity)

/-- The texts written for one entry. -/
def textsFor
    (desk : Desk)
    (entry : Entry) :
    List String :=
  if desk.admits entry then List.replicate desk.writers entry.text else []

/-- The text written for a list of entries. -/
def written
    (desk : Desk)
    (entries : List Entry) :
    String :=
  String.join (entries.flatMap desk.textsFor)

theorem written_cons
    (desk : Desk)
    (entry : Entry)
    (entries : List Entry) :
    desk.written (entry :: entries) = desk.written [entry] ++ desk.written entries := by
  simp [written]

/-- An entry below the severity that is admitted is not written. -/
theorem written_of_below
    {desk : Desk}
    {entry : Entry}
    (below : entry.severity < desk.effectiveLevel) :
    desk.written [entry] = "" := by
  have notAdmitted : desk.admits entry = false := by
    unfold admits
    rw [decide_eq_false (Int.not_le.mpr below), Bool.and_false]
  simp [written, textsFor, notAdmitted]

theorem configure_configure
    (first second : Threshold)
    (desk : Desk) :
    configure second (configure first desk) = configure second desk :=
  rfl

end Desk

end Tabletop
