import ScoreSheet.Yaml.Fault
set_option autoImplicit false

/-! Indentation is shown by tokens: a block collection starts with `sequenceStart` or
`mappingStart` and ends with `blockEnd`. -/
namespace ScoreSheet.Yaml

inductive Token where
  | directive | documentStart | documentEnd
  | sequenceStart | mappingStart | blockEnd
  | listOpen | listClose | bracedOpen | bracedClose
  | comma | item | key | value
  | plain (text : String)
  | quoted (text : String)
  | anchor (name : String)
  | reference (name : String)
  | tag (text : String)
  | stop
  | broken (e : Fault)
deriving DecidableEq

end ScoreSheet.Yaml
