import ScoreSheet.Document.Reading
import ScoreSheet.Validation
set_option autoImplicit false

namespace ScoreSheet.Document

inductive LoadError where
  | parse (e : ParseError)
  | validation (v : Violation)

def LoadError.message : LoadError → String
  | parse e => s!"Parse error: {e.message}"
  | validation v => s!"Validation error: {v.message}"

def load (text : String) : Except (List LoadError) (Sheet × List Warning) :=
  match parseSheet text with
  | .error e => .error [.parse e]
  | .ok sheet =>
    let findings := sheet.validate
    if findings.isValid then .ok (sheet, findings.warnings)
    else .error (findings.violations.map .validation)

end ScoreSheet.Document
