import ScoreSheet.Document.Shape
import ScoreSheet.State.Store
set_option autoImplicit false

namespace ScoreSheet.Document

/-- The name of a kind, also as the only key of an object that says no more. -/
def kind : Decoder ElementKind
  | .string s => ofName s
  | .object [(key, v)] => do
    let k ← ofName key
    match v with
    | .null => .ok k
    | v => .error (.mismatch v .unit)
  | .object _ => .error .notOneKey
  | v => .error (.mismatch v .kind)
where
  ofName (s : String) : Except ShapeError ElementKind :=
    match ElementKind.ofName? s with
    | some k => .ok k
    | none => .error (.unknownKind s)

def datum : Decoder Datum
  | .bool b => .ok (.bool b)
  | .integer n => .ok (.number (Float.ofInt n))
  | .real x => .ok (.number x)
  | .string s => .ok (.text s)
  | v => .error (.noDatum v)

def dictionary {α : Type} (decode : Decoder α) : Decoder (Keyed α) := fun v =>
  (mapping decode v).map Keyed.ofList

def versionForm : Form :=
  ⟨.record "Version",
   [field "major" .required natural, field "minor" .required natural,
    field "patch" .required natural]⟩

def version : Decoder Version := fun v => do
  let ms ← versionForm.members v
  let major ← required ms "major" natural
  let minor ← required ms "minor" natural
  let patch ← required ms "patch" natural
  .ok ⟨major, minor, patch⟩

def pointForm : Form :=
  ⟨.record "Position", [field "x" .required number, field "y" .required number]⟩

def point : Decoder Point := fun v => do
  let ms ← pointForm.members v
  let x ← required ms "x" number
  let y ← required ms "y" number
  .ok ⟨x, y⟩

def sizeForm : Form :=
  ⟨.record "Size", [field "width" .required number, field "height" .required number]⟩

def size : Decoder Size := fun v => do
  let ms ← sizeForm.members v
  let width ← required ms "width" number
  let height ← required ms "height" number
  .ok ⟨width, height⟩

def elementForm : Form :=
  ⟨.record "Element",
   [field "id" .required string, field "type" .required kind,
    field "position" .required point, field "size" .required size,
    field "options" .optional (nullable (sequence datum)),
    field "rules" .defaulted (dictionary string)]⟩

def element : Decoder Element := fun v => do
  let ms ← elementForm.members v
  let id ← required ms "id" string
  let kind ← required ms "type" kind
  let center ← required ms "position" point
  let size ← required ms "size" size
  let options ← optional ms "options" (sequence datum)
  let rules ← withDefault ms "rules" (dictionary string) []
  .ok ⟨id, kind, center, size, options, rules⟩

def functionSourceForm : Form :=
  ⟨.pair "CustomFunctionSource",
   [field "0" .required string, field "1" .required string]⟩

def functionSource : Decoder FunctionSource := fun v => do
  match v with
  | .array _ =>
    let ms ← functionSourceForm.members v
    let parameters ← required ms "0" string
    let body ← required ms "1" string
    .ok ⟨parameters, body⟩
  | v => .error (.mismatch v functionSourceForm.name)

def ruleSetForm : Form :=
  ⟨.record "RuleSet",
   [field "name" .required string,
    field "customFunctions" .defaulted (dictionary functionSource),
    field "winCondition" .optional (nullable string),
    field "loseCondition" .optional (nullable string)]⟩

def ruleSet : Decoder RuleSet := fun v => do
  let ms ← ruleSetForm.members v
  let name ← required ms "name" string
  let functions ← withDefault ms "customFunctions" (dictionary functionSource) []
  let win ← optional ms "winCondition" string
  let lose ← optional ms "loseCondition" string
  .ok ⟨name, functions, win, lose⟩

def sheetForm : Form :=
  ⟨.record "SpielZettelFileInfo",
   [field "name" .required string, field "version" .required version,
    field "ruleSets" .optional (nullable (sequence ruleSet)),
    field "elements" .required (sequence element),
    field "res" .optional (nullable (sequence .ok))]⟩

def sheet : Decoder Sheet := fun v => do
  let ms ← sheetForm.members v
  let name ← required ms "name" string
  let version ← required ms "version" version
  let ruleSets ← optional ms "ruleSets" (sequence ruleSet)
  let elements ← required ms "elements" (sequence element)
  let resources ← optional ms "res" (sequence .ok)
  .ok ⟨name, version, ruleSets, elements, resources⟩

def entryForm : Form :=
  ⟨.record "ElementState",
   [field "id" .required string, field "value" .defaulted (nullable datum),
    field "disabled" .defaulted (nullable boolean)]⟩

def entry : Decoder Entry := fun v => do
  let ms ← entryForm.members v
  let id ← required ms "id" string
  let value ← optional ms "value" datum
  let disabled ← optional ms "disabled" boolean
  .ok ⟨id, value, disabled⟩

end ScoreSheet.Document
