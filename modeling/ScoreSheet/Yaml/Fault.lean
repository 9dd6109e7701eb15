set_option autoImplicit false

namespace ScoreSheet.Yaml

inductive Fault where
  | tabIndentation | crowdedComment | shallowContent | contentBehindMarker
  | openBracket | strayBracket | mixedBrackets | deepBrackets | badDirective
  | shallowFlow | dashInFlow | tabInPlain | unexpectedStart (c : Char)
  | openQuote | markerInQuotes | shallowQuoted | tabInQuotes
  | unknownEscape | missingDigits | noCharacter | contentBehindQuote
  | zeroIndent | contentBehindHeader | tabBeforeBlock | unevenBlock
  | dashInBrackets | strayDash | tabBehindDash
  | strayKey | missingBlank | tabBehindKey | brokenKey | missingColon
  | strayValue | tabBehindColon | distantColon | colonBeforeBracket
  | unnamedAnchor | unknownAnchor | crowdedTag
  | missingDocument | manyDocuments | missingContent
  | missingItem | missingKey | openList | openMapping
  | nullKey | nestedKey | repeatedKey (key : String) | notMergeable
deriving DecidableEq

namespace Fault

def message : Fault → String
  | tabIndentation => "tabs disallowed within this context (block indentation)"
  | crowdedComment => "comments must be separated from other tokens by whitespace"
  | shallowContent => "invalid indentation"
  | contentBehindMarker => "invalid content after document end marker"
  | openBracket => "unclosed bracket"
  | strayBracket => "misplaced bracket"
  | mixedBrackets => "mismatched bracket"
  | deepBrackets => "recursion limit exceeded"
  | badDirective => "while scanning a directive, found unexpected content"
  | shallowFlow => "invalid indentation in flow construct"
  | dashInFlow => "plain scalar cannot start with '-' followed by ,[]\x7b\x7d"
  | tabInPlain => "while scanning a plain scalar, found a tab"
  | unexpectedStart c => s!"unexpected character: '{c}'"
  | openQuote => "unclosed quote"
  | markerInQuotes => "while scanning a quoted scalar, found unexpected document indicator"
  | shallowQuoted => "invalid indentation in quoted scalar"
  | tabInQuotes => "tab cannot be used as indentation"
  | unknownEscape => "while parsing a quoted scalar, found unknown escape character"
  | missingDigits => "while parsing a quoted scalar, did not find expected hexadecimal number"
  | noCharacter => "while parsing a quoted scalar, found invalid Unicode character escape code"
  | contentBehindQuote => "invalid trailing content after double-quoted scalar"
  | zeroIndent => "while scanning a block scalar, found an indentation indicator equal to 0"
  | contentBehindHeader =>
    "while scanning a block scalar, did not find expected comment or line break"
  | tabBeforeBlock => "a block scalar content cannot start with a tab"
  | unevenBlock => "wrongly indented line in block scalar"
  | dashInBrackets => "\"-\" is only valid inside a block"
  | strayDash => "block sequence entries are not allowed in this context"
  | tabBehindDash => "'-' must be followed by a valid YAML whitespace"
  | strayKey => "mapping keys are not allowed in this context"
  | missingBlank => "expected whitespace"
  | tabBehindKey => "tabs disallowed in this context"
  | brokenKey => "simple key expected"
  | missingColon => "simple key expect ':'"
  | strayValue => "mapping values are not allowed in this context"
  | tabBehindColon => "':' must be followed by a valid YAML whitespace"
  | distantColon => "illegal placement of ':' indicator"
  | colonBeforeBracket => "':' may not precede any of [\x7b in flow mapping"
  | unnamedAnchor =>
    "while scanning an anchor or alias, did not find expected alphabetic or numeric character"
  | unknownAnchor => "while parsing node, found unknown anchor"
  | crowdedTag => "while scanning a tag, did not find expected whitespace or line break"
  | missingDocument => "did not find expected <document start>"
  | manyDocuments => "multiple YAML documents detected"
  | missingContent => "while parsing a node, did not find expected node content"
  | missingItem => "while parsing a block collection, did not find expected '-' indicator"
  | missingKey => "while parsing a block mapping, did not find expected key"
  | openList => "while parsing a flow sequence, expected ',' or ']'"
  | openMapping => "while parsing a flow mapping, did not find expected ',' or '\x7d'"
  | nullKey => "cannot deserialize null into string"
  | nestedKey => "expected string scalar"
  | repeatedKey key => s!"duplicate mapping key: {key}"
  | notMergeable => "merge value must be mapping or sequence of mappings"

end Fault

end ScoreSheet.Yaml
