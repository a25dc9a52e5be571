import DocumentCommand.Config.Basic
import DocumentCommand.Logging.FileSystem
import DocumentCommand.Logging.Record
import DocumentCommand.Logging.Reference

/-!
# Setting up the log

The log of the process has two files that roll when they are full: one for commands and one for
everything else.  Both stand in one directory, have the same level and keep the same number of old
files.  A process sets up its log once; a later attempt keeps what is there, apart from the level.
-/

namespace DocumentCommand.Logging

/-- The least severity that is logged, or nothing at all. -/
inductive Level where
  | off | error | warn | info | debug | trace
deriving DecidableEq, Repr

namespace Level

/-- The levels from the least to the most that is logged. -/
def all : List Level := [.off, .error, .warn, .info, .debug, .trace]

/-- The name of a level. -/
def name : Level → String
  | .off => "OFF"
  | .error => "ERROR"
  | .warn => "WARN"
  | .info => "INFO"
  | .debug => "DEBUG"
  | .trace => "TRACE"

/-- The level that a text names in any case; other texts, and none, stand for `info`. -/
def ofText (text : Option String) : Level :=
  match text with
  | none => .info
  | some t => (all.find? fun l => l.name.toList = t.toList.map Char.toUpper).getD .info

/-- Does the level let records for the developer through? -/
def admitsDebug : Level → Bool
  | .debug | .trace => true
  | _ => false

end Level

/-- A file of the log. -/
structure Appender where
  name : String
  /-- The path of the file, in which variables may be referred to. -/
  path : String
  /-- The path of an old file, with empty braces where its number goes. -/
  rollPattern : String
  /-- How many old files are kept. -/
  keep : UInt32
  /-- The size in bytes at which the file rolls. -/
  rollSize : Nat
deriving DecidableEq, Repr

/-- Records of some targets, and where they go. -/
structure Logger where
  name : String
  level : Level
  /-- Do the records also go where all others go? -/
  additive : Bool
  appenders : List String
deriving DecidableEq, Repr

/-- How the log of a process is set up. -/
structure Setup where
  /-- The directory of the files. -/
  base : String
  rootLevel : Level
  rootAppenders : List String
  loggers : List Logger
  appenders : List Appender
deriving DecidableEq, Repr

namespace Setup

/-- How many old files are kept where nothing else is said. -/
def defaultRetention : UInt64 := 7

/-- The size at which files roll: ten mebibytes. -/
def rollSize : Nat := 10 * 1024 * 1024

/-- A count of 32 bits, the greatest where the given one is too large. -/
def clamp (n : UInt64) : UInt32 :=
  (Integer.uint32? n.toNat).getD (UInt32.ofNat (UInt32.size - 1))

/-- The file of a name in a directory, and how many old ones are kept. -/
def appender (base : String) (keep : UInt32) (name : String) : Appender where
  name := name
  path := Path.join base (name ++ ".log")
  rollPattern := Path.join base (name ++ ".\x7b\x7d.log")
  keep := keep
  rollSize := rollSize

/-- The setup for a directory, a level and a number of old files. -/
def ofOptions (base : String) (level : Option String) (retention : Option UInt64) : Setup :=
  let l := Level.ofText level
  { base := base
    rootLevel := l
    rootAppenders := ["app"]
    loggers := [⟨commandTarget, l, false, ["command"]⟩]
    appenders := ["app", "command"].map (appender base (clamp (retention.getD defaultRetention))) }

end Setup

/-- Makes the directory of a setup and opens the files of its appenders, none where the file system
refuses.  The directory is made as it is written, and the files are opened where the values of the
variables lead. -/
def openFiles (lookup : String → Option String) (s : Setup) (f : FileSystem) :
    Option FileSystem := do
  let f ← f.makePath s.base
  s.appenders.foldlM (fun f a => f.openFile (Reference.expandPath lookup a.path)) f

/-- A setup and the file system with its files.  Where no directory is asked for, the files stand in
the working directory. -/
def build (lookup : String → Option String) (c : Config) (f : FileSystem) :
    Except Error (Setup × FileSystem) :=
  let setup := Setup.ofOptions (c.logDir.getD f.currentPath) c.logLevel c.logRetention
  match openFiles lookup setup f with
  | some f => .ok (setup, f)
  | none => .error .io

/-- What an attempt to set up the log of a process leaves behind. -/
structure Configured where
  fileSystem : FileSystem
  maxLevel : Level
deriving DecidableEq, Repr

/-- The record of an attempt that comes too late. -/
def alreadyInstalled : LogRecord :=
  ⟨.debug, "nexus_model::logger",
    "logger already installed: attempted to set a logger after the logging system was already "
      ++ "initialized"⟩

/-- Sets up the log of a process that has one: the files are opened and the level is taken over, and
the log that is there stays. -/
def configure (lookup : String → Option String) (c : Config) (f : FileSystem) :
    Except Error (Logged Configured) := do
  let (setup, f) ← build lookup c f
  return ⟨⟨f, setup.rootLevel⟩,
    if setup.rootLevel.admitsDebug then [alreadyInstalled] else []⟩

/-- The settings that the environment has by itself.  A count that is no count is none. -/
def settingsOf (lookup : String → Option String) : Config where
  logDir := lookup Config.Field.logDir.envName
  logLevel := lookup Config.Field.logLevel.envName
  logRetention := (lookup Config.Field.logRetention.envName).bind Config.countOfText?

/-- Sets up the log from the environment alone. -/
def configureFromEnv (lookup : String → Option String) (f : FileSystem) :
    Except Error (Logged Configured) :=
  configure lookup (settingsOf lookup) f

end DocumentCommand.Logging
