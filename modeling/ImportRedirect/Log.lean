/-!
Lines of the log: a level and a message that begins with the level's sign.
-/

namespace ImportRedirect

inductive Level where
  | info
  | success
  | warning
  | error
  deriving DecidableEq, Repr

namespace Level

def name : Level → String
  | .info => "INFO"
  | .success => "SUCCESS"
  | .warning => "WARNING"
  | .error => "ERROR"

def sign : Level → String
  | .info => "ℹ️  "
  | .success => "✅ "
  | .warning => "⚠️  "
  | .error => "❌ "

end Level

structure LogLine where
  level : Level
  message : String
  deriving DecidableEq, Repr

def LogLine.text (line : LogLine) : String := line.level.sign ++ line.message

end ImportRedirect
