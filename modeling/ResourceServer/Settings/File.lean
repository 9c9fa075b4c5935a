import ResourceServer.Settings.Reader
import ResourceServer.Yaml.Document

/-!
# Settings from files

The text of a settings file may name the directory of the file and variables of the environment. The
directory is put in first, then every variable once: what a variable brings into the text is not looked at
again. The settings are the whole document, or its section of the name `nexrest`.
-/

namespace ResourceServer

/-- A settings file: where it is, and its text if it is there at all. -/
structure SettingsFile where
  path : String
  directory : String
  text : Option String
deriving Repr, Inhabited

/-- The variables of an environment. -/
abbrev Variables := List (String × String)

namespace SettingsFile

/-- A text in which all line breaks are line feeds. -/
def withLineFeeds : List Char → List Char
  | '\r' :: '\n' :: rest => '\n' :: withLineFeeds rest
  | '\r' :: rest => '\n' :: withLineFeeds rest
  | character :: rest => character :: withLineFeeds rest
  | [] => []

/-- The mark that stands for the directory of the file. -/
def directoryMark : List Char := "$\x7bthis_file_dir\x7d".toList

/-- What a variable is marked by in front of its name. -/
def variableMark : List Char := "$\x7benv.".toList

/-- Whether a name can start with a character. -/
def startsName (character : Char) : Bool := character.isAlpha || character == '_'

/-- Whether a name can go on with a character. -/
def continuesName (character : Char) : Bool := character.isAlphanum || character == '_'

/-- The name of the variable that is marked at the start of a text, and what follows the mark. -/
def variableAt? (characters : List Char) : Option (String × List Char) :=
  if variableMark.isPrefixOf characters then
    let rest := characters.drop variableMark.length
    let name := rest.takeWhile continuesName
    match rest.dropWhile continuesName with
    | '\x7d' :: following =>
        if name.head?.any startsName then some (String.ofList name, following) else none
    | _ => none
  else none

/-- Puts the directory of the file into its text. -/
def withDirectory (directory : List Char) (characters : List Char) : (budget : Nat) → List Char
  | 0 => characters
  | budget + 1 =>
      if directoryMark.isPrefixOf characters then
        directory ++ withDirectory directory (characters.drop directoryMark.length) budget
      else
        match characters with
        | [] => []
        | character :: rest => character :: withDirectory directory rest budget

/-- Puts the values of variables into a text. -/
def withVariables (environment : Variables) (characters : List Char) :
    (budget : Nat) → Except Error (List Char)
  | 0 => .ok characters
  | budget + 1 =>
      match variableAt? characters, characters with
      | some (name, rest), _ =>
          match environment.lookup name with
          | none => .error (.configuration (.unsetVariable name))
          | some value => (withVariables environment rest budget).map (value.toList ++ ·)
      | none, [] => .ok []
      | none, character :: rest => (withVariables environment rest budget).map (character :: ·)

/-- The text of a file with everything put in that it names. -/
def expanded (environment : Variables) (directory text : String) : Except Error String := do
  let characters := withLineFeeds text.toList
  let placed := withDirectory directory.toList characters characters.length
  let filled ← withVariables environment placed placed.length
  .ok (String.ofList filled)

/-- What a file says; nothing when there is nothing in it. -/
def source (environment : Variables) (file : SettingsFile) : Except Error (Option Yaml.Source) :=
  match file.text with
  | none => .error (.plain .missingFile)
  | some text => do
      let text ← expanded environment file.directory text
      Yaml.Source.ofText text

/-- The value of what a file says. -/
def value (environment : Variables) (file : SettingsFile) : Except Error Value := do
  match ← file.source environment with
  | none => .ok .null
  | some source => source.value

/-- How many levels of a document settings can have: the section, a part of it, and a setting there. -/
def levels : Nat := 3

/-- The error that a failure to read a file amounts to. -/
def toConfigurationError (path : String) : Error → Error
  | .plain .missingFile => .configuration (.missingFile path)
  | .document fault => if fault.stage?.isSome then .configuration .malformedYaml else .document fault
  | error => error

end SettingsFile

/-- The settings in a file. A file that says nothing leaves every default. -/
def Settings.ofFile (environment : Variables) (file : SettingsFile) : Except Error Settings := do
  let source ← (file.source environment).mapError (SettingsFile.toConfigurationError file.path)
  let document : Option Document := source.map fun source => source.document SettingsFile.levels
  match document with
  | none => .ok {}
  | some (.scalar (.value .null)) => .ok {}
  | some (.mapping entries) =>
      match Document.find? "nexrest" entries with
      | none => ofEntries entries
      | some (.mapping settings) => ofEntries settings
      | some _ => .error (.configuration .sectionNotMapping)
  | _ => .error (.configuration (.fileNotMapping file.path))

end ResourceServer
