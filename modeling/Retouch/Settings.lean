/-!
# Settings

What a user has settled about refactorings: which are switched off, which are always
shown as preferred, and how much is written to the log.
-/

set_option autoImplicit false

namespace Retouch

/-- How much is logged, from the most to the least. -/
inductive Level where
  | trace
  | debug
  | info
  | warn
  | error
deriving DecidableEq

namespace Level

def all : List Level := [trace, debug, info, warn, error]

def name : Level → String
  | trace => "trace"
  | debug => "debug"
  | info => "info"
  | warn => "warn"
  | error => "error"

/-- The level of a name that is spelled exactly. -/
def ofName? (name : String) : Option Level := all.find? (·.name == name)

/-- The level that a user asks for.  Capital letters do not matter and one may write
`warning`.  The names are ASCII, and no other letter has one of theirs as its small
form, so lowering the ASCII letters is enough. -/
def parse? (text : String) : Option Level :=
  let lowered := String.ofList (text.toList.map Char.toLower)
  if lowered = "warning" then some warn else ofName? lowered

/-- What is said of a text that names no level. -/
def refusal : String := "Invalid log level"

end Level

/-- Refactorings are named by their identifiers. -/
structure Settings where
  disabled : List String
  preferred : List String
  level : Level
deriving DecidableEq

namespace Settings

/-- Nothing is disabled and nothing preferred. -/
def standard : Settings := ⟨[], [], .info⟩

instance : Inhabited Settings := ⟨standard⟩

def isEnabled (settings : Settings) (id : String) : Bool := !settings.disabled.contains id

/-- Whether a refactoring is shown as preferred, given whether it is by itself. -/
def isPreferred (settings : Settings) (id : String) (byItself : Bool) : Bool :=
  byItself || settings.preferred.contains id

end Settings
end Retouch
