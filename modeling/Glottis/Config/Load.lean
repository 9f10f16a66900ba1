import Glottis.Config.Decode
import Glottis.FileSystem
import Glottis.Text.Quoted

/-!
# Loading a configuration

A configuration comes from a file or from a text given directly, and is the
default one if neither is given.  A loaded configuration has been validated.
-/

namespace Glottis

inductive LoadError (α : Type) where
  | twoSources
  | unreadable (path : String) (cause : FileError)
  | malformed
  | invalid (cause : ConfigError α)
  deriving DecidableEq, Repr

/-- The messages from the outermost context to the cause. -/
def LoadError.chain {α : Type} (write : α → String) : LoadError α → List String
  | twoSources => ["provide either a config file or inline JSON, not both"]
  | unreadable path cause => ["Failed to read config file " ++ Text.quoted path, cause.message]
  | malformed => ["Failed to parse config JSON"]
  | invalid cause => ["Config validation failed", cause.message write]

namespace Config

variable {α : Type} [Scalar α]

/-- The configuration of a text, not yet validated. -/
def ofText (text : String) : Except (LoadError α) (Config α) :=
  match parse? text with
  | some config => .ok config
  | none => .error .malformed

def accept (config : Config α) : Except (LoadError α) (Config α) :=
  match config.validate with
  | .ok () => .ok config
  | .error cause => .error (.invalid cause)

def load (fileSystem : FileSystem) (path text : Option String) :
    Except (LoadError α) (Config α) :=
  match path, text with
  | some _, some _ => .error .twoSources
  | some path, none =>
      match fileSystem.readText path with
      | .error cause => .error (.unreadable path cause)
      | .ok contents => (ofText contents).bind accept
  | none, some text => (ofText text).bind accept
  | none, none => accept .standard

end Config

end Glottis
