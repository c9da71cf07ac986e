import DocumentGateway.Number.Digits
import DocumentGateway.Run
import DocumentGateway.Text.Digit
import DocumentGateway.Text.WordCharacter

namespace DocumentGateway

/-!
# Logging

Reports go to two logs: lines about what is read and sent, and the timings of operations, which go
on to the first log unless they have a file of their own.  A log lets a record through that is of
its level or above.  The handlers of a log write every record let through, each in its format; what
no handler takes is written bare when it is a warning or worse.
-/

/-- The two logs. -/
inductive Log where
  | main
  | performance
deriving DecidableEq

def Log.name : Log → String
  | main => "mlclient"
  | performance => "mlclient.performance"

/-- A record in a log. -/
structure LogRecord where
  log : Log
  level : Int
  message : Text
deriving DecidableEq

/-- How the logs are set up. -/
structure Logging where
  level : Int
  formats : List Text
  performanceLevel : Int
  performanceFormats : List Text
  isPropagated : Bool
  isInitialized : Bool
deriving DecidableEq

namespace Logging

/-- Nothing is set up. -/
def initial : Logging :=
  ⟨0, [], 0, [], true, false⟩

def debugLevel : Int := 10

def defaultLevel : Int := 20

/-- The level of what is written without any handler, and of a log that has no level. -/
def warningLevel : Int := 30

def defaultFormat : Text :=
  "%(asctime)s %(levelname)s %(filename)s:%(lineno)d %(message)s"

def bareFormat : Text :=
  "%(message)s"

/-- What becomes of a file for timings: none is asked for, or it can or cannot be opened. -/
inductive PerformanceFile where
  | unwanted
  | opened
  | refused (path : Text)
deriving DecidableEq

/-- Whether a code point is a decimal digit of some script. -/
def isDecimal (p : CodePoint) : Bool :=
  p.char?.any fun c => (decimalDigit? c).isSome

/-- Whether a code point ends a conversion: a percent sign or one of some letters, of either case.
The letters I with and without a dot and the long s count as cases of theirs. -/
def isConversionEnd (p : CodePoint) : Bool :=
  p.char?.any fun c =>
    "diouxefgcrsa%".toList.contains c.toLower || ['\u0130', '\u0131', '\u017F'].contains c

/-- A width or a precision at the front of a conversion, taken off. -/
def dropWidth : Text → Text
  | .scalar '*' :: rest => rest
  | t => t.dropWhile isDecimal

/-- A precision with its point at the front of a conversion, taken off. -/
def dropPrecision : Text → Text
  | .scalar '.' :: rest =>
    if rest.head?.any fun p => p == .scalar '*' || isDecimal p then dropWidth rest
    else .scalar '.' :: rest
  | t => t

/-- Whether a text begins with a conversion: flags, a width, a precision and an end. -/
def isConversion (t : Text) : Bool :=
  let behindFlags := t.dropWhile (Text.ofString "#0+ -").contains
  (dropPrecision (dropWidth behindFlags)).head?.any isConversionEnd

/-- Whether a text begins with the place of a field. -/
def isField : Text → Bool
  | .scalar '%' :: .scalar '(' :: rest =>
    match rest.takeWhile CodePoint.isWord, rest.dropWhile CodePoint.isWord with
    | _ :: _, .scalar ')' :: behind => isConversion behind
    | _, _ => false
  | _ => false

/-- Whether a text is a format: the place of a field stands somewhere in it. -/
def isFormat : Text → Bool
  | [] => false
  | p :: rest => isField (p :: rest) || isFormat rest

/-- The levels that have names. -/
def levelNames : List (Text × Int) :=
  [("CRITICAL", 50), ("FATAL", 50), ("ERROR", 40), ("WARNING", 30), ("WARN", 30), ("INFO", 20),
    ("DEBUG", 10), ("NOTSET", 0)]

/-- The level that a value is: a number, or the name of one. -/
def levelOf : Value → Except Fault Int
  | .int i => .ok i
  | .bool b => .ok (if b then 1 else 0)
  | .text name =>
    match levelNames.find? fun entry => entry.1 = name with
    | some entry => .ok entry.2
    | none => .error (.unknownLevel name)
  | v => .error (.levelKind v)

/-- Set up the logs, once.  An empty format stands for the bare one, and what is no format is
refused before anything is changed.  What is no level is found out only after the first log has its
handler, and a file that cannot be opened only after it has its level too. -/
def setUp (l : Logging) (level : Value) (format : Text) (file : PerformanceFile) :
    Logging × Except Fault Unit :=
  let chosen := if format.isEmpty then bareFormat else format
  if l.isInitialized then (l, .ok ())
  else if !isFormat chosen then (l, .error (.logFormat chosen))
  else
    let withHandler := { l with formats := l.formats ++ [chosen] }
    match levelOf level with
    | .error fault => (withHandler, .error fault)
    | .ok number =>
      let withMain := { withHandler with level := number }
      match file with
      | .unwanted => ({ withMain with isInitialized := true }, .ok ())
      | .refused path => (withMain, .error (.cannotOpen path))
      | .opened =>
        ({ withMain with
            performanceLevel := debugLevel
            performanceFormats := l.performanceFormats ++ [bareFormat]
            isPropagated := false
            isInitialized := true }, .ok ())

/-- The level from which on a log lets records through.  The log of timings that has none takes
that of the other. -/
def effectiveLevel (l : Logging) (log : Log) : Int :=
  let mainLevel := if l.level = 0 then warningLevel else l.level
  match log with
  | .main => mainLevel
  | .performance => if l.performanceLevel = 0 then mainLevel else l.performanceLevel

def levelName (level : Int) : Text :=
  let known := [(50, "CRITICAL"), (40, "ERROR"), (30, "WARNING"), (20, "INFO"), (10, "DEBUG"),
    (0, "NOTSET")]
  match known.find? fun entry => entry.1 = level with
  | some entry => entry.2
  | none => "Level " ++ Text.ofChars (integerDigits level)

/-- A record in a format.  The level, the name of the log and the message have places in it, and a
percent sign is written twice. -/
def render (e : LogRecord) : Text → Text
  | [] => []
  | p :: rest =>
    let fields : List (Text × Text) := [
      ("%(levelname)s", levelName e.level), ("%(name)s", e.log.name),
      ("%(message)s", e.message), ("%%", "%")]
    match fields.find? fun field => field.1.isPrefixOf (p :: rest) with
    | some field => field.2 ++ render e (rest.drop (field.1.length - 1))
    | none => p :: render e rest
termination_by format => format.length

/-- Where lines are written. -/
inductive Target where
  | errors
  | file
deriving DecidableEq

/-- Whether a log lets a record through.  A record of level zero or below never gets through. -/
def letsThrough (l : Logging) (e : LogRecord) : Bool :=
  0 < e.level && l.effectiveLevel e.log ≤ e.level

/-- What is written for a record. -/
def write (l : Logging) (e : LogRecord) : List (Target × Text) :=
  if !l.letsThrough e then []
  else
    let ofMain := l.formats.map fun format => (Target.errors, render e format)
    let all := match e.log with
      | .main => ofMain
      | .performance =>
        l.performanceFormats.map (fun format => (Target.file, render e format)) ++
          if l.isPropagated then ofMain else []
    if all.isEmpty && decide (warningLevel ≤ e.level) then [(.errors, e.message)] else all

/-- The record of a report.  The clock stands still. -/
def entryOf : Event → LogRecord
  | .debug line => ⟨.main, debugLevel, line⟩
  | .timing operation =>
    ⟨.performance, debugLevel, Text.ofString operation.label ++ Text.ofString " 0.000000"⟩

/-- A text with a line feed for each of its line ends: a carriage return ends a line, alone or
before a line feed. -/
def withLineFeeds : Text → Text
  | [] => []
  | .scalar '\r' :: .scalar '\n' :: rest => .scalar '\n' :: withLineFeeds rest
  | .scalar '\r' :: rest => .scalar '\n' :: withLineFeeds rest
  | p :: rest => p :: withLineFeeds rest

/-- The lines of a text, each ended by a line feed. -/
def lines (t : Text) : List Text :=
  go [] t
where
  go (line : Text) : Text → List Text
    | [] => if line.isEmpty then [] else [line]
    | .scalar '\n' :: rest => line :: go [] rest
    | p :: rest => go (line ++ [p]) rest

/-- What a reader finds where something was written.  Among the errors only a line feed ends a line,
in a file a carriage return does too. -/
def linesAt : Target → Text → List Text
  | .errors, t => lines t
  | .file, t => lines (withLineFeeds t)

/-- The lines written somewhere for a list of records. -/
def linesFor (l : Logging) (target : Target) (entries : List LogRecord) : List Text :=
  ((entries.flatMap l.write).filter fun written => written.1 = target).flatMap fun written =>
    linesAt target (written.2 ++ [.scalar '\n'])

end Logging

end DocumentGateway
