/-!
# Faults of configuration text

Every reason for which a configuration text cannot be read. Most of them arise at one of five stages: a text
consists of allowed characters, these form tokens, the tokens follow the grammar, the names in it refer to
something, and every node has a meaning.
-/

namespace ResourceServer.Yaml

/-- A stage of reading a configuration text. -/
inductive Stage
  | characters
  | tokens
  | grammar
  | references
  | meaning
deriving DecidableEq, Repr

/-- Why a configuration text cannot be read. -/
inductive Fault
  /-- A character that may not occur in a text at all. -/
  | unprintable
  /-- A character with which no token can start. -/
  | strayCharacter
  /-- A key without its colon. -/
  | missingColon
  /-- An entry of a sequence, a key or a value where none may stand. -/
  | misplaced
  /-- A quoted scalar without its closing quote, or with a document mark in it. -/
  | unclosedQuote
  /-- An escape that stands for no character. -/
  | unknownEscape
  /-- An escape by a code that is beyond the last character. -/
  | codeBeyondCharacters
  /-- An escape by a code that is too great for a code. -/
  | codeTooGreat
  /-- A block scalar whose first line holds more than its indicators. -/
  | blockHeader
  /-- An anchor or alias without a proper name. -/
  | anchorName
  /-- A tag that is not written properly. -/
  | tagForm
  /-- A directive that is not written properly. -/
  | directiveForm
  /-- A directive that occurs twice, or asks for another version of the language. -/
  | unfitDirective
  /-- A tag whose handle is not declared. -/
  | undeclaredHandle
  /-- Directives that no document follows. -/
  | missingDocument
  /-- A collection that is not closed, or with a separator missing. -/
  | unclosedCollection
  /-- No content where there must be some. -/
  | missingContent
  /-- An alias of no anchor. -/
  | unknownAlias
  /-- An anchor that is set twice. -/
  | repeatedAnchor
  /-- More than one document. -/
  | severalDocuments
  /-- A tag without a meaning. -/
  | unknownTag
  /-- A node of another kind than its tag asks for. -/
  | kindMismatch
  /-- A key that is a collection. -/
  | collectionKey
  /-- Bytes that are not written properly. -/
  | malformedBytes
  /-- A node that is nested too deeply, or inside of itself. -/
  | tooDeep
deriving DecidableEq, Repr

namespace Fault

/-- The stage at which a fault arises; a fault of single characters or of size belongs to none. -/
def stage? : Fault → Option Stage
  | .unprintable => some .characters
  | .strayCharacter | .missingColon | .misplaced | .unclosedQuote | .unknownEscape | .blockHeader
  | .anchorName | .tagForm | .directiveForm => some .tokens
  | .unfitDirective | .undeclaredHandle | .missingDocument | .unclosedCollection
  | .missingContent => some .grammar
  | .unknownAlias | .repeatedAnchor | .severalDocuments => some .references
  | .unknownTag | .kindMismatch | .collectionKey | .malformedBytes => some .meaning
  | .codeBeyondCharacters | .codeTooGreat | .tooDeep => none

/-- The wording of a fault; most have none. -/
def message : Fault → String
  | .codeBeyondCharacters => "chr() arg not in range(0x110000)"
  | _ => ""

end Fault

end ResourceServer.Yaml
