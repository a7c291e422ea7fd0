import Tabletop.Text.Numeral

namespace Tabletop

/-!
# Why a text is not a dice code

The errors that are shown to a user, each with a stable tag, and the one
failure that is not meant for users: a numeral with more digits than this
library converts.
-/

/-- A fault in a text that was meant to be a dice code. -/
inductive CodeError where
  | unparseable (reason : String)
  | unexpectedChar (expected found : String)
  | unexpectedEnd (context : String)
  | trailingInput (remainder : String)
  | badNumber (text : String)
  | tooFewSides
  | noRepeats
  deriving Repr, DecidableEq, Inhabited

namespace CodeError

/-- The stable tag in front of the message. -/
def tag : CodeError → String
  | unparseable _ => "UNPARSEABLE_INPUT"
  | unexpectedChar _ _ => "UNEXPECTED_CHAR"
  | unexpectedEnd _ => "UNEXPECTED_END"
  | trailingInput _ => "TRAILING_INPUT"
  | badNumber _ => "BAD_NUMBER"
  | tooFewSides => "ZERO_OR_ONE_SIDE"
  | noRepeats => "ZERO_REPEATS"

/-- The name under which the journal lists the error. -/
def name : CodeError → String
  | unparseable _ => "DiceError"
  | unexpectedChar _ _ => "UnexpectedCharError"
  | unexpectedEnd _ => "UnexpectedEndOfStringError"
  | trailingInput _ => "UnexpectedTrailingInputError"
  | badNumber _ => "NumberParseError"
  | tooFewSides => "ZeroOrOneSideError"
  | noRepeats => "ZeroRepeatsError"

/-- What is wrong, in one sentence. -/
def detail : CodeError → String
  | unparseable reason =>
      reason
  | unexpectedChar expected found =>
      s!"Expected '{expected}' but found '{found}'."
  | unexpectedEnd context =>
      s!"Unexpected end of input while parsing '{context}'."
  | trailingInput remainder =>
      s!"Unexpected input after the dice code: '{remainder}'."
  | badNumber text =>
      if text.isEmpty then
        "Expected a number but found none."
      else
        s!"'{text}' is not a number between 0 and 255."
  | tooFewSides =>
      "Dice cannot have zero sides or one side."
  | noRepeats =>
      "Repeating zero times is not allowed."

/-- The whole message: the tag in brackets, then the sentence. -/
def message (e : CodeError) : String :=
  s!"[{e.tag}] {e.detail}"

end CodeError

/-- Why reading a dice code fails. -/
inductive Misread where
  /-- The text is not a dice code. -/
  | rejected (error : CodeError)
  /-- A numeral of that many digits is too long to be converted. -/
  | oversized (digits : Nat)
  deriving Repr, DecidableEq, Inhabited

namespace Misread

/-- The message of the failure. -/
def message : Misread → String
  | rejected error =>
      error.message
  | oversized digits =>
      s!"Exceeds the limit ({digitLimit} digits) for integer string conversion: " ++
        s!"value has {digits} digits; use sys.set_int_max_str_digits() to increase the limit"

end Misread

end Tabletop
