/- Messages for the user that do not stop the work. -/
import Prepass.Text.Basic
namespace Prepass

inductive LogLevel where
  | warning
  | error
deriving DecidableEq

structure LogEntry where
  level : LogLevel
  text : Text
deriving DecidableEq

/-- Entries in the order in which they were made. -/
abbrev Log := List LogEntry

end Prepass
