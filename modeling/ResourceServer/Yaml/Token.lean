import ResourceServer.Yaml.Fault

/-!
# Tokens of configuration text

Brackets and indicators, the starts and ends that indentation implies, and the scalars, anchors, aliases and
tags between them.
-/

namespace ResourceServer.Yaml

/-- A tag as it is written: behind a declared handle, or in full. -/
structure WrittenTag where
  handle : Option String
  suffix : String
deriving DecidableEq, Repr, Inhabited

/-- A token. -/
inductive Token
  /-- A directive that only needs to be well formed. -/
  | directive
  /-- A directive that says the version of the language. -/
  | version (major : Nat)
  /-- A directive that declares a handle for tags. -/
  | handle (handle meaning : String)
  | documentStart
  | documentEnd
  | blockSequenceStart
  | blockMappingStart
  | blockEnd
  | flowSequenceStart
  | flowSequenceEnd
  | flowMappingStart
  | flowMappingEnd
  | flowEntry
  | blockEntry
  | key
  | value
  | alias (name : String)
  | anchor (name : String)
  | tag (tag : WrittenTag)
  | scalar (text : String) (isPlain : Bool)
deriving DecidableEq, Repr, Inhabited

end ResourceServer.Yaml
