import Tabletop.Command.Run
import Tabletop.Source.Well

namespace Tabletop.Program

/-!
# The program

The outermost layer: it fetches what a run is given, and writes what a run
leaves to be seen.
-/

/-- How many random numbers are fetched for a run; they are used in a circle. -/
def entropySize : Nat := 8192

/-- Random numbers of 64 bits from the operating system. -/
def fetchEntropy : IO (Array Nat) := do
  let bytes ← IO.getRandomBytes (8 * entropySize).toUSize
  pure <| (Array.range entropySize).map fun i =>
    (bytes.extract (8 * i) (8 * i + 8)).foldl (fun n byte => 256 * n + byte.toNat) 0

/-- The names and values of the environment, where the system shows them. -/
def fetchEnvironment : IO (List (String × String)) := do
  try
    let text ← IO.FS.readFile "/proc/self/environ"
    pure <| (text.splitOn "\x00").filterMap fun entry =>
      match entry.splitOn "=" with
      | name :: value => if name = "" then none else some (name, "=".intercalate value)
      | [] => none
  catch _ =>
    pure []

/-- The text of the file of assignments, if there is one. -/
def fetchFile : IO (Option String) := do
  try
    return some (← IO.FS.readFile ".env")
  catch _ =>
    pure none

/-- All that is left to be read from a stream. -/
def fetchAll (stream : IO.FS.Stream) : IO String := do
  let mut text := ""
  repeat
    let line ← stream.getLine
    if line.isEmpty then
      break
    text := text ++ line
  pure text

/-- The standard input, which is read only where no codes are given. -/
def fetchInput (arguments : List String) : IO String := do
  match Invocation.read? arguments with
  | .ok invocation =>
      if invocation.codes = [] then fetchAll (← IO.getStdin) else pure ""
  | .error _ =>
      pure ""

/-- Writes what a run leaves to be seen and gives its exit status. -/
def present
    {σ : Type}
    (run : Run σ) :
    IO UInt32 := do
  (← IO.getStdout).putStr run.output
  (← IO.getStdout).flush
  (← IO.getStderr).putStr run.errors
  match run.ending with
  | .status status =>
      pure status.toUInt32
  | .escaped failure => do
      (← IO.getStderr).putStrLn failure.message
      pure 1

/-- Fetches what a run is given, and carries its plan out. -/
def runWith (arguments : List String) : IO UInt32 := do
  let surroundings : Surroundings :=
    { arguments := arguments
      input := { text := ← fetchInput arguments }
      preferences :=
        PreferenceSources.read? { environment := ← fetchEnvironment, file := ← fetchFile } }
  match Plan.make? surroundings with
  | .ok plan => do
      let generator := Generator.system (← fetchEntropy)
      present (plan.carryOut Well.source (.generator generator))
  | .error (.dismissed dismissal) =>
      present (dismissal.run ())
  | .error (.preferences faults) => do
      for fault in faults do
        (← IO.getStderr).putStrLn (fault.field ++ ": " ++ fault.cause.message)
      pure 1

end Tabletop.Program

/-- Rolls dice codes from the command line. -/
def main (arguments : List String) : IO UInt32 :=
  Tabletop.Program.runWith arguments
