/-
Configurations in files. Without a file of their own choice users have the one in their home, and
without that the defaults.
-/
import ScopedRetrieval.Configuration.Coding
import ScopedRetrieval.Volume.Basic

namespace ScopedRetrieval.Configuration

/-- Where the file of a user stands, seen from the home of the user. -/
def homePath (home : String) : String :=
  Volume.Path.join (Volume.Path.join home ".scoperag") "config.toml"

def loadFile (processors : UInt64) (v : Volume) (path : String) :
    Except ConfigurationFault Configuration := do
  parse processors (← (v.readText path).mapError .unreadable)

/-- Reads the configuration in the given file, or in the one at home if there is one, on a machine
with a number of processors. -/
def load (processors : UInt64) (v : Volume) (home : Option String) (path : Option String) :
    Except ConfigurationFault Configuration :=
  match path, home.map homePath with
  | some path, _ => loadFile processors v path
  | none, some path =>
    if v.pathExists path then loadFile processors v path else .ok (builtIn processors)
  | none, none => .ok (builtIn processors)

/-- Writes a configuration to a file, in a directory that is made if need be. -/
def save (v : Volume) (c : Configuration) (path : String) : Except ConfigurationFault Volume := do
  let text ← c.render
  let v ← match Volume.Path.parent? path with
    | none => pure v
    | some directory => (v.makeDirectories directory).mapError .directory
  (v.write path (Text.utf8 text)).mapError .unwritten

end ScopedRetrieval.Configuration
