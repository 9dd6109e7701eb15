import Mathlib.Data.List.Forall2
import ScoreSheet.Proofs.Document.Decoded
set_option autoImplicit false

namespace ScoreSheet

/-- The elements are the same, with values that are equal as numbers are. -/
structure Element.Same (e f : Element) : Prop where
  id : e.id = f.id
  kind : e.kind = f.kind
  center : e.center = f.center
  size : e.size = f.size
  options : (e.options == f.options) = true
  rules : e.rules = f.rules

structure Sheet.Same (s t : Sheet) : Prop where
  name : s.name = t.name
  version : s.version = t.version
  ruleSets : s.ruleSets = t.ruleSets
  elements : List.Forall₂ Element.Same s.elements t.elements
  resources : s.resources = t.resources

theorem Element.WellFormed.same_settled {e : Element} (h : e.WellFormed) : e.settled.Same e where
  id := rfl
  kind := rfl
  center := rfl
  size := rfl
  options := by
    unfold settled
    dsimp only
    cases ho : e.options with
    | none => rfl
    | some ds => exact map_beq fun d hd => Document.settled_beq (h.options ds ho d hd)
  rules := rfl

theorem Sheet.WellFormed.same_settled {s : Sheet} (h : s.WellFormed) : s.settled.Same s where
  name := rfl
  version := rfl
  ruleSets := rfl
  elements :=
    List.forall₂_map_left_iff.2 (List.forall₂_same.2 fun e he => (h.elements e he).same_settled)
  resources := rfl

namespace Document
open Json (ReadsBack)

/-- A sheet that has been read is well-formed. -/
theorem parseSheet_wellFormed {text : String} {s : Sheet} (h : parseSheet text = .ok s) :
    s.WellFormed := by
  obtain ⟨v, hv, h⟩ := bind_ok h
  cases v with
  | object ms => exact sheet_wellFormed (mapError_ok h) (Json.parse_fits (parseJson_eq_ok hv))
  | _ => cases h

/-- A sheet that has been read is written as a text of which an equal sheet is read, and
writing that gives the same text, as long as the text of each number that is not written as
a whole one is read as this number. -/
theorem parseSheet_writeSheet {text : String} {s : Sheet} (read : parseSheet text = .ok s)
    (exact_text : ∀ x ∈ (ofSheet s).reals, Number.isFinite x = true → ReadsBack x) :
    ∃ again, parseSheet (writeSheet s) = .ok again ∧ again.Same s ∧
      writeSheet again = writeSheet s := by
  have wellFormed := parseSheet_wellFormed read
  have fits := (ofSheet_fits wellFormed).imp exact_text
  have decoded := sheet_ofSheet wellFormed.version wellFormed.functions
    fun e he => (wellFormed.elements e he).rules
  refine ⟨s.settled, ?_, wellFormed.same_settled, ?_⟩
  · obtain ⟨ms, hms⟩ : ∃ ms, ofSheet s = .object ms := ⟨_, rfl⟩
    unfold parseSheet writeSheet
    rw [hms] at fits decoded ⊢
    rw [parseJson_pretty fits]
    change (sheet (.object ms)).mapError _ = _
    rw [decoded]
    rfl
  · unfold writeSheet
    rw [ofSheet_settled]

def mixedSheet : String :=
  "\x7b\"name\":\"n\",\"version\":[1,2,3],\"ruleSets\":null,\"elements\":[" ++
  "\x7b\"id\":\"a\",\"type\":\"number\",\"position\":[0.5,1],\"size\":[2,3],\"more\":0," ++
  "\"options\":[-0,1,\"x\"]\x7d],\"res\":[null,\x7b\"k\":[1.5,7]\x7d]\x7d"

theorem parseSheet_writeSheet_mixed : ∃ s again, parseSheet mixedSheet = .ok s ∧
    parseSheet (writeSheet s) = .ok again ∧ again.Same s ∧ writeSheet again = writeSheet s := by
  have checked : (match parseSheet mixedSheet with
      | .ok s => decide (∀ x ∈ (ofSheet s).reals, Number.isFinite x = true → ReadsBack x)
      | .error _ => false) = true := by
    decide +kernel
  split at checked
  · rename_i s read
    obtain ⟨again, round_trip⟩ := parseSheet_writeSheet read (of_decide_eq_true checked)
    exact ⟨s, again, read, round_trip⟩
  · cases checked

end Document
end ScoreSheet
