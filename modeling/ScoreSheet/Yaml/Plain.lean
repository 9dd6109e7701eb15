import ScoreSheet.Yaml.Source
set_option autoImplicit false

/-! A plain scalar ends before a comment, before a colon that is set apart, inside
brackets before any of their signs, and before a line that is not indented enough. -/
namespace ScoreSheet.Yaml

def plainRun (inFlow : Bool) : List Char → List Char
  | [] => []
  | c :: cs =>
    if isBlank c || isBreak c then []
    else if c = ':' && (isApart cs || inFlow && startsWithFlowSign cs) then []
    else if inFlow && isFlowSign c then []
    else c :: plainRun inFlow cs

/-- Reads a plain scalar whose text so far is `text`, last character first, and whose
gap so far is `gap`. -/
def plainFrom (inFlow : Bool) (indent : Int) :
    Nat → List Char → List Char → Source → Except Fault (List Char × Source)
  | 0, text, _, s => .ok (text.reverse, s)
  | fuel + 1, text, gap, s =>
    if s.atMarker || s.startsWith (· == '#') then .ok (text.reverse, s)
    else if inFlow && s.startsWith (· == '-') && startsWithFlowSign (s.rest.drop 1) then
      .error .dashInFlow
    else
      let run := plainRun inFlow s.rest
      let text := if run.isEmpty then text else run.reverse ++ (gap.reverse ++ text)
      let s := if run.isEmpty then s else s.take run.length
      if !(s.startsWith isBlank || s.startsWith isBreak) then .ok (text.reverse, s)
      else do
        let (gap, s) ← s.passGap indent (·.passLine .tabInPlain) (.blanks [])
        if !inFlow && decide ((s.column : Int) < indent) then .ok (text.reverse, s)
        else plainFrom inFlow indent fuel text gap.text s

def readPlain (inFlow : Bool) (outer : Int) (s : Source) : Except Fault (List Char × Source) :=
  if inFlow ∧ (s.column : Int) < outer + 1 then .error .shallowFlow
  else plainFrom inFlow (outer + 1) (s.size + 1) [] [] s

end ScoreSheet.Yaml
