import UrlFilter.Text.Separated

/-!
# The journal

Records of what happens carry a level and the name of their logger. All loggers live
under one namespace. Recording is set up once, and later requests to do so change
nothing.
-/

namespace UrlFilter

/-- How much a record matters. -/
inductive Level where
  | debug
  | info
  | warning
  | error
  | critical
deriving DecidableEq, Repr

namespace Level

/-- Every level, the least first. -/
def all : List Level :=
  [.debug, .info, .warning, .error, .critical]

/-- The name of a level. -/
def name : Level → String
  | .debug => "DEBUG"
  | .info => "INFO"
  | .warning => "WARNING"
  | .error => "ERROR"
  | .critical => "CRITICAL"

/-- The capital of a letter in a level's name. The dotless i has the capital I. -/
def capital (c : Char) : Char :=
  if c = 'ı' then 'I' else c.toUpper

/-- The level with a name in either case; any other text stands for `info`. -/
def ofName (name : String) : Level :=
  let capitals := String.ofList (name.toList.map capital)
  (all.find? fun level => level.name = capitals).getD .info

end Level

/-- One record. -/
structure LogRecord where
  level : Level
  logger : String
  message : String
deriving DecidableEq, Repr

/-- The namespace of all loggers. -/
def loggerRoot : String := "urlql"

/-- The full name of a logger: names outside the namespace are put into it, and a missing
or empty name stands for the namespace itself. -/
def loggerName (name : Option String) : String :=
  match name with
  | none => loggerRoot
  | some name =>
    if name.isEmpty then loggerRoot
    else if name = loggerRoot ∨ (loggerRoot ++ ".").toList.isPrefixOf name.toList then name
    else loggerRoot ++ "." ++ name

/-- A message template with its placeholders `%s` filled in, in order; `%%` stands for
one percent sign. -/
def fillPlaceholders : List Char → List String → List Char
  | '%' :: 's' :: rest, argument :: arguments =>
    argument.toList ++ fillPlaceholders rest arguments
  | '%' :: '%' :: rest, arguments => '%' :: fillPlaceholders rest arguments
  | c :: rest, arguments => c :: fillPlaceholders rest arguments
  | [], _ => []

/-- A message. Without arguments a template stands for itself. -/
def formatMessage (template : String) (arguments : List String) : String :=
  if arguments.isEmpty then template
  else String.ofList (fillPlaceholders template.toList arguments)

/-- The state of recording. -/
structure Journal where
  /-- Recording is set up. -/
  configured : Bool
  /-- The name of the level at which general messages are recorded. -/
  levelName : String
deriving DecidableEq, Repr

namespace Journal

/-- Sets up recording at a level, unless that has been done; says at which level it is
set up now. -/
def configure (journal : Journal) (levelName : String) : Journal × Option Level :=
  if journal.configured then (journal, none)
  else ({ journal with configured := true }, some (Level.ofName levelName))

/-- The level of general messages. -/
def messageLevel (journal : Journal) : Level :=
  Level.ofName journal.levelName

end Journal

end UrlFilter
