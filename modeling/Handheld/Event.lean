/-
# Events

What the parts of a console tell a listener: a message with a level and the name of the part it
comes from.
-/

namespace Handheld

/-- How much an event matters. -/
inductive Event.Level where
  | trace | debug | info | warn
deriving DecidableEq, Inhabited

def Event.Level.all : List Event.Level :=
  [trace, debug, info, warn]

def Event.Level.name : Event.Level → String
  | trace => "Trace"
  | debug => "Debug"
  | info => "Info"
  | warn => "Warn"

/-- A message for a listener. -/
structure Event where
  level : Event.Level
  target : String
  message : String
deriving DecidableEq, Inhabited

namespace Event

/-- Whether a text occurs in another. -/
def occursIn (needle : List Char) : List Char → Bool
  | [] => needle.isEmpty
  | c :: text => needle.isPrefixOf (c :: text) || occursIn needle text

/-- Whether an event of a level has a message with a given text in it. -/
def mentions (events : List Event) (level : Level) (needle : String) : Bool :=
  events.any fun e => e.level == level && occursIn needle.toList e.message.toList

end Event

end Handheld
