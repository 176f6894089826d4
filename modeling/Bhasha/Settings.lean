import Bhasha.Files
import Bhasha.Log.Level
import Bhasha.Style
import Bhasha.Toml.Document

/-!
# Settings

Three settings can be given in a TOML document: `log.level`, `log.file` and `dump.style`.  Their
names are matched in any case, and all are strings.  A document is first decoded over the default
settings, then searched for keys that are no settings, and last its values are checked.

Source: benglang, package `config`: `Config`, `Default`, `Load`, `Parse`, `decode` and `Validate`.
-/

namespace Bhasha

/-- The settings as they are given. -/
structure Settings where
  level : Text
  /-- Empty when there is no log file. -/
  logFile : Text
  style : Text
deriving DecidableEq, Repr

namespace Settings

/-- The settings without a document. -/
protected def default : Settings := ⟨text "warn", [], Style.pretty.name⟩

/-- A setting outside its choices. -/
inductive Problem where
  | level (source : Text) (error : LogLevel.Error)
  | style (name : Text)
deriving DecidableEq, Repr

def Problem.message : Problem → Text
  | .level source e => e.message source
  | .style name => text "invalid dump style " ++ Quoted.quote name

/-- Why a text gives no settings. -/
inductive Error where
  /-- The text is no document, or a setting has a value of another type. -/
  | undecodable
  | unknownKeys (keys : List Toml.Key)
  | invalid (problems : List Problem)
deriving DecidableEq, Repr

def Error.message : Error → Text
  | .undecodable => text "decode: malformed settings"
  | .unknownKeys keys => text "unknown keys: " ++ Text.joinWith (text ", ") (keys.map (·.render))
  | .invalid problems => Text.joinLines (problems.map Problem.message)

/-- The problem with the level, if there is one. -/
def levelProblem? (s : Settings) : Option Problem :=
  match LogLevel.read s.level with
  | .ok _ => none
  | .error e => some (.level s.level e)

/-- The problem with the style, if there is one. -/
def styleProblem? (s : Settings) : Option Problem :=
  if (Style.ofName? s.style).isSome then none else some (.style s.style)

def problems (s : Settings) : List Problem := s.levelProblem?.toList ++ s.styleProblem?.toList

/-- Settings without problems. -/
def validate (s : Settings) : Except Error Settings :=
  match s.problems with
  | [] => .ok s
  | found => .error (.invalid found)

/-- The settings of a section. -/
inductive Section where
  | log
  | dump
deriving DecidableEq, Repr

/-- The section with a name, in any case. -/
def Section.ofName? (name : Text) : Option Section :=
  if LetterCase.sameName name (text "log") then some .log
  else if LetterCase.sameName name (text "dump") then some .dump
  else none

/-- The change that a value makes to the setting of a name, if there is such a setting. -/
def Section.setter? (part : Section) (name : Text) : Option (Text → Settings → Settings) :=
  match part with
  | .log =>
    if LetterCase.sameName name (text "level") then some fun value s => { s with level := value }
    else if LetterCase.sameName name (text "file") then
      some fun value s => { s with logFile := value }
    else none
  | .dump =>
    if LetterCase.sameName name (text "style") then some fun value s => { s with style := value }
    else none

/-- Settings with the keys that were decoded into them. -/
structure Decoded where
  settings : Settings
  keys : List Toml.Key

/-- Decodes the entries of a section. None if a setting is no string. -/
def decodeSection? (sectionKey : Text) (part : Section) : Toml.Table → Decoded → Option Decoded
  | [], d => some d
  | (name, node) :: rest, d =>
    match part.setter? name, node with
    | none, _ => decodeSection? sectionKey part rest d
    | some set, .string value =>
      decodeSection? sectionKey part rest
        ⟨set value d.settings, d.keys ++ [[sectionKey, name]]⟩
    | some _, _ => none

/-- Decodes the sections of a document. None if a section is no table. -/
def decode? : Toml.Table → Decoded → Option Decoded
  | [], d => some d
  | (name, node) :: rest, d =>
    match Section.ofName? name, node with
    | none, _ => decode? rest d
    | some part, .table entries => do
      let d ← decodeSection? name part entries { d with keys := d.keys ++ [[name]] }
      decode? rest d
    | some _, _ => none

/-- Reads settings from a text. -/
def read (source : Text) : Except Error Settings :=
  match Toml.Document.read? source with
  | none => .error .undecodable
  | some document =>
    match decode? document.root ⟨.default, []⟩ with
    | none => .error .undecodable
    | some decoded =>
      match document.listed.filter (!decoded.keys.contains ·) with
      | [] => decoded.settings.validate
      | unknown => .error (.unknownKeys unknown)

/-- Why a file gives no settings. -/
inductive LoadError where
  | unreadable (path : Text) (failure : FileFailure)
  | within (path : Text) (error : Error)
deriving DecidableEq, Repr

def LoadError.message : LoadError → Text
  | .unreadable path failure =>
    text "read config " ++ Quoted.quote path ++ text ": " ++ failure.message
  | .within path e => text "config " ++ Quoted.quote path ++ text ": " ++ e.message

/-- Settings from a file; the default ones if the path is empty. -/
def load {m : Type → Type} [Monad m] (readFile : Text → m (Except FileFailure Text)) (path : Text) :
    m (Except LoadError Settings) := do
  if path.isEmpty then pure (.ok .default)
  else
    match ← readFile path with
    | .error failure => pure (.error (.unreadable path failure))
    | .ok source =>
      match read source with
      | .error e => pure (.error (.within path e))
      | .ok settings => pure (.ok settings)

end Settings

end Bhasha
