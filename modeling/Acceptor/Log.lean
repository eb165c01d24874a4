/-!
# Log entries

What the library reports while it works, besides its results.  An entry names the part of the
library it comes from, how much it matters, and a message.
-/

namespace Acceptor

/-- The part of the library that reports. -/
inductive LogSource where
  /-- Building a grammar. -/
  | grammar
  /-- Reading a descriptor. -/
  | reader
  /-- Recognizing one input. -/
  | recognizer
  /-- Recognizing a batch. -/
  | batch
  deriving Repr, DecidableEq

/-- How much an entry matters. -/
inductive LogLevel where
  | debug
  | info
  | warning
  deriving Repr, DecidableEq

/-- One entry of the log. -/
structure LogEntry where
  /-- Where it comes from. -/
  source : LogSource
  /-- How much it matters. -/
  level : LogLevel
  /-- What it says. -/
  message : String
  deriving Repr, DecidableEq

end Acceptor
