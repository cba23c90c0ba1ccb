/-!
# Trace records

Scanning, reading and running leave records behind. Details are recorded only while
tracing is on; a warning is always recorded.
-/
namespace LoopLang

/-- Who speaks in a record. -/
inductive Channel where
  | scanner | reader | machine
  deriving DecidableEq

def Channel.name : Channel → String
  | scanner => "descartes.lexer"
  | reader => "descartes.parser"
  | machine => "descartes.interpreter"

inductive Severity where
  | detail | warning
  deriving DecidableEq

def Severity.name : Severity → String
  | detail => "DEBUG"
  | warning => "WARNING"

structure Record where
  severity : Severity
  channel : Channel
  message : String
  deriving DecidableEq

def Record.line (record : Record) : String :=
  record.channel.name ++ ": " ++ record.message

def Record.text (record : Record) : String :=
  record.severity.name ++ " " ++ record.line

end LoopLang
