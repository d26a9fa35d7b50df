import TemplateTree.Delimiter
import TemplateTree.Text.Escaped

namespace TemplateTree

/-- Only a tag that never ends and a declaration that cannot be read are errors.  Everything else
that is not understood stays in the tree as text. -/
inductive Error where
  | unclosedTag (delimiter : Delimiter) (position : Nat)
  | missingTemplateKey
  | missingScopesBracket
  | mismatchedBraces
  | missingTemplatePath
  | malformedType (word : String)
  | noTypes
deriving DecidableEq

namespace Error

def message : Error → String
  | .unclosedTag delimiter position =>
      "unclosed " ++ delimiter.label ++ " tag at byte " ++ toString position
  | .missingTemplateKey => "sw_extends literal missing 'template' key"
  | .missingScopesBracket => "invalid scopes array: missing ']'"
  | .mismatchedBraces =>
      "invalid sw_extends syntax: missing or mismatched braces"
  | .missingTemplatePath => "invalid sw_extends tag: missing template path"
  | .malformedType word => "invalid types format: " ++ Text.quoted word
  | .noTypes => "no types provided"

end Error

end TemplateTree
