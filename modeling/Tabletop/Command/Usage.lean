import Tabletop.Command.Switch
import Tabletop.Text.Quoted

namespace Tabletop

/-!
# How to use the command line

The texts that explain the command line, and what is said where it is used
wrongly.
-/

namespace Usage

/-- The name of the program. -/
def program : String := "diecodes"

/-- The line that sums up how the program is called. -/
def line : String :=
  "usage: " ++ program ++ " [-h] [-e] [-6] [-q | -v] [CODE ...]\n"

/-- The text that is shown on request. -/
def help : String :=
  line ++ "\n" ++
    "Roll tabletop dice codes such as 2d6+3, d6xd6, d66 or 3d12-3E.\n\n" ++
    "positional arguments:\n" ++
    "  CODE            dice codes (read from stdin when omitted)\n\n" ++
    "options:\n" ++
    "  -h, --help      show this help message and exit\n" ++
    "  -e, --explode   sixes on a d6 explode for every code\n" ++
    "  -6, --force-66  treat d66 as a real 66-sided die\n" ++
    "  -q, --quiet     print results only\n" ++
    "  -v, --verbose   print every die rolled\n\n" ++
    "diecodes command line.\n\n" ++
    "    diecodes 2d6+3                one code, prints \"===> 9\"\n" ++
    "    diecodes d66 d6xd6            several codes, each echoed before its result\n" ++
    "    diecodes -e 3d6               sixes explode\n" ++
    "    diecodes -6 d66               roll a genuine 66-sided die\n" ++
    "    diecodes -v d6E               show every individual die\n" ++
    "    echo \"d6+1\" | diecodes        no codes: read one per line from stdin\n"

end Usage

/-- How the command line can be used wrongly. -/
inductive Misuse where
  /-- An abbreviation fits several switches. -/
  | ambiguous (word : String) (candidates : List Switch)
  /-- A value is attached to a switch, which takes none. -/
  | attached (switch : Switch) (value : String)
  /-- Two switches exclude each other; the first was already given. -/
  | rivals (given switch : Switch)
  /-- Words are left over. -/
  | leftOver (words : List String)
  deriving Repr, DecidableEq, Inhabited

namespace Misuse

/-- What is wrong. -/
def message : Misuse → String
  | ambiguous word candidates =>
      "ambiguous option: " ++ word ++ " could match " ++
        ", ".intercalate (candidates.map Switch.long)
  | attached switch value =>
      "argument " ++ switch.title ++ ": ignored explicit argument " ++ Text.quoted value
  | rivals given switch =>
      "argument " ++ switch.title ++ ": not allowed with argument " ++ given.title
  | leftOver words =>
      "unrecognized arguments: " ++ " ".intercalate words

/-- The whole text that is shown: how the program is called, then what is wrong. -/
def text (misuse : Misuse) : String :=
  Usage.line ++ Usage.program ++ ": error: " ++ misuse.message ++ "\n"

end Misuse

end Tabletop
