import UrlFilter.Text.Quoted

/-!
# Regular-expression literals

A literal keeps its pattern as it is written and a list of flags. It is written
between slashes, with the flags after the second one.
-/

namespace UrlFilter

open UrlFilter.Text

/-- A flag of a regular-expression literal. -/
inductive RegexFlag where
  | ignoreCase
  | multiLine
  | dotAll
  | verbose
  | unicode
deriving DecidableEq, Repr

namespace RegexFlag

/-- The letter that writes a flag. -/
def letter : RegexFlag → Char
  | .ignoreCase => 'i'
  | .multiLine => 'm'
  | .dotAll => 's'
  | .verbose => 'x'
  | .unicode => 'u'

/-- The flag that a letter writes. -/
def ofLetter? : Char → Option RegexFlag
  | 'i' => some .ignoreCase
  | 'm' => some .multiLine
  | 's' => some .dotAll
  | 'x' => some .verbose
  | 'u' => some .unicode
  | _ => none

/-- The name of the matching mode that a flag selects. -/
def mode : RegexFlag → String
  | .ignoreCase => "IGNORECASE"
  | .multiLine => "MULTILINE"
  | .dotAll => "DOTALL"
  | .verbose => "VERBOSE"
  | .unicode => "UNICODE"

/-- The letter writes some flag. -/
def isLetter (c : Char) : Bool :=
  (ofLetter? c).isSome

/-- The letter of a flag stands for it. -/
@[simp] theorem ofLetter?_letter (flag : RegexFlag) : ofLetter? flag.letter = some flag := by
  cases flag <;> rfl

end RegexFlag

/-- A letter that writes no flag. -/
structure FlagError where
  letter : Char
deriving DecidableEq, Repr

/-- The wording of the failure. -/
def FlagError.message (error : FlagError) : String :=
  "Unsupported regex flag " ++ quoted error.letter.toString ++ ", expected one of 'imsux'"

/-- A regular-expression literal. -/
structure Regex where
  pattern : String
  flags : List RegexFlag
deriving DecidableEq, Repr

namespace Regex

/-- Reads flags, up to the first letter that is none. -/
def readFlags : List Char → Except FlagError (List RegexFlag)
  | [] => .ok []
  | c :: rest =>
    match RegexFlag.ofLetter? c with
    | some flag => (readFlags rest).map (flag :: ·)
    | none => .error ⟨c⟩

/-- The literal with a pattern and flags given by their letters. -/
def ofParts (pattern flags : String) : Except FlagError Regex :=
  (readFlags flags.toList).map fun parsed => ⟨pattern, parsed⟩

/-- The pattern and the flags of a written literal: what stands between the first
character and the last slash, and what follows that slash. Text without a slash is
its own flags, and its pattern is the text without its two ends. -/
def splitSource (source : List Char) : List Char × List Char :=
  let afterSlash := (source.reverse.takeWhile (· != '/')).reverse
  if afterSlash.length = source.length then (source.dropLast.drop 1, source)
  else ((source.take (source.length - afterSlash.length - 1)).drop 1, afterSlash)

/-- Reads a literal as it is written. -/
def ofSource (source : String) : Except FlagError Regex :=
  let (pattern, flags) := splitSource source.toList
  ofParts (String.ofList pattern) (String.ofList flags)

/-- The letters of the flags. -/
def flagText (regex : Regex) : String :=
  String.ofList (regex.flags.map RegexFlag.letter)

/-- The literal as it is written. -/
def source (regex : Regex) : String :=
  "/" ++ regex.pattern ++ "/" ++ regex.flagText

/-- The literal as descriptions show it. -/
def describe (regex : Regex) : String :=
  "RegexLiteral(pattern=" ++ quoted regex.pattern ++ ", flags=" ++ quoted regex.flagText ++ ")"

/-- The names of the matching modes in force. Matching by Unicode rules always is. -/
def modes (regex : Regex) : List String :=
  ([RegexFlag.ignoreCase, .multiLine, .dotAll, .verbose].filter regex.flags.contains
    ++ [RegexFlag.unicode]).map RegexFlag.mode

end Regex

end UrlFilter
