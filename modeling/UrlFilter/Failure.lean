import UrlFilter.Numeral.Decimal
import UrlFilter.Numeral.Integer
import UrlFilter.Report
import UrlFilter.Token.Lexer

/-!
# Failures of a filter

Why a text or a token list is not a filter. Failures of the text and of its grammar
are reported with their place; failures to read one literal carry no place.
-/

namespace UrlFilter

open UrlFilter.Numeral UrlFilter.Text

/-- The report of a character that starts no token. -/
def LexicalError.report (error : LexicalError) : Except DescribeError Report :=
  Report.make .lexical ("Unexpected character " ++ quoted error.char.toString)
    (Report.placeDetails error.offset (some error.char.toString) [])

/-- What is wrong with a token where it stands. -/
inductive Objection where
  /-- A token of one certain kind has to stand there. -/
  | expected (kind : Kind)
  /-- The input has to end there. -/
  | trailing
  /-- A group is opened there inside as many groups as the limit allows. -/
  | tooDeep (limit : Int)
  /-- The second comparison of a between clause has to stand there. -/
  | notBetween
  /-- A comparison has to stand there. -/
  | notComparison
  /-- A literal has to stand there. -/
  | notLiteral
deriving DecidableEq, Repr

/-- Tokens that do not form a filter. -/
inductive GrammarError where
  /-- The input ends too early, perhaps where a token of one certain kind has to stand. -/
  | endOfInput (expected : Option Kind) (offset : Int)
  /-- A token does not belong where it stands. -/
  | unexpected (objection : Objection) (token : Token)
deriving DecidableEq, Repr

namespace GrammarError

/-- The wording of an objection to a token. -/
def objectionMessage (tokenText : String) : Objection → String
  | .expected kind => "Expected " ++ kind.name ++ ", got " ++ quoted tokenText
  | .trailing => "Unexpected token " ++ quoted tokenText ++ ", end of input expected"
  | .tooDeep _ => "Nesting too deep"
  | .notBetween => "Invalid between syntax, expected '<' or '<=', got " ++ quoted tokenText
  | .notComparison => "Unsupported operator " ++ quoted tokenText
  | .notLiteral => "Unexpected literal " ++ quoted tokenText

/-- The details of an objection beyond its place. -/
def objectionDetails : Objection → Table Value
  | .tooDeep limit => [("limit", .int limit)]
  | _ => []

/-- The wording of the failure. -/
def message : GrammarError → String
  | .endOfInput none _ => "Unexpected end of input"
  | .endOfInput (some kind) _ => "Unexpected end of input, expected " ++ kind.name
  | .unexpected objection token => objectionMessage token.text objection

/-- The details of the failure, its place first. -/
def details : GrammarError → Table Value
  | .endOfInput _ offset => Report.placeDetails offset none []
  | .unexpected objection token =>
    Report.placeDetails token.offset (some token.text) (objectionDetails objection)

/-- The report of tokens that do not form a filter. -/
def report (error : GrammarError) : Except DescribeError Report :=
  Report.make .grammar error.message error.details

end GrammarError

/-- Why there is no filter. -/
inductive ParseFailure where
  | lexical (error : LexicalError)
  | grammar (error : GrammarError)
  | integer (error : IntegerError)
  | decimal (error : DecimalError)
  | flag (error : FlagError)
  /-- A keyword that asks for no presence stands where one that does has to. -/
  | keyword (text : String)
deriving DecidableEq, Repr

/-- The report of a failure, if failures of its form are reported. -/
def ParseFailure.report? : ParseFailure → Option (Except DescribeError Report)
  | .lexical error => some error.report
  | .grammar error => some error.report
  | .integer _ | .decimal _ | .flag _ | .keyword _ => none

end UrlFilter
