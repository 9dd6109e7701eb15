import ScoreSheet.Proofs.Document.Decoded
import ScoreSheet.Proofs.State.Pruning
set_option autoImplicit false

namespace ScoreSheet

theorem Datum.isKept_settled (d : Datum) : d.settled.isKept = d.isKept := by
  cases d <;> rfl

theorem Entry.prune?_settled (e : Entry) : e.settled.prune? = e.prune?.map Entry.settled := by
  have kept : (e.value.map Datum.settled).filter Datum.isKept =
      (e.value.filter Datum.isKept).map Datum.settled := by
    cases e.value with
    | none => rfl
    | some d =>
      rw [Option.map_some, Option.filter_some, Option.filter_some, Datum.isKept_settled]
      split <;> rfl
  unfold prune? settled
  dsimp only
  rw [kept, Option.isNone_map]
  split <;> rfl

theorem prune_settled (entries : List Entry) :
    prune (entries.map Entry.settled) = (prune entries).map Entry.settled := by
  unfold prune
  rw [List.filterMap_map, List.map_filterMap]
  exact congrArg (List.filterMap · entries) (funext Entry.prune?_settled)

namespace Document
open Json (ReadsBack Fits nestingLimit)

theorem prune?_isFinite {e f : Entry} (h : ∀ d ∈ e.value, d.IsFinite) (hf : e.prune? = some f) :
    ∀ d ∈ f.value, d.IsFinite := by
  unfold Entry.prune? at hf
  dsimp only at hf
  split at hf
  · cases hf
  · cases hf
    exact fun d hd => h d (Option.filter_eq_some_iff.1 hd).1

theorem parseStates_isFinite {text : String} {saved : List Entry}
    (h : parseStates text = .ok saved) : ∀ e ∈ saved, ∀ d ∈ e.value, d.IsFinite := by
  obtain ⟨v, hv, h⟩ := bind_ok h
  cases v with
  | array items =>
    have fits := Json.parse_fits (parseJson_eq_ok hv)
    intro e he
    cases fits with
    | array hi =>
      obtain ⟨w, hw, decoded⟩ := mapM_ok (mapError_ok h) e he
      exact entry_isFinite decoded (hi w hw)
  | _ => cases h

/-- The text of a saved state is read as the entries that are worth saving, with numbers
that are equal to theirs, and saving these gives the same text. The numbers are finite, and
the text of each that is not written as a whole one is read as this number. -/
theorem parseStates_writeStates (entries : List Entry)
    (finite : ∀ e ∈ entries, ∀ x, e.value = some (.number x) → Number.isFinite x = true)
    (exact_text : ∀ x ∈ (listOf ofEntry (prune entries)).reals, Number.isFinite x = true →
      ReadsBack x) :
    ∃ saved, parseStates (writeStates entries) = .ok saved ∧ (saved == prune entries) = true ∧
      writeStates saved = writeStates entries := by
  have worth : ∀ e ∈ prune entries, ∀ d ∈ e.value, d.IsFinite := by
    intro e he
    obtain ⟨f, hf, he⟩ := List.mem_filterMap.1 he
    refine prune?_isFinite (fun d hd x hx => ?_) he
    cases d with
    | number y =>
      cases hx
      exact finite f hf x hd
    | _ => cases hx
  have fits : Fits ReadsBack nestingLimit (listOf ofEntry (prune entries)) :=
    (listOf_fits fun e he => ofEntry_fits (worth e he) 125).imp exact_text
  refine ⟨(prune entries).map Entry.settled, ?_, map_beq fun e he => ?_, ?_⟩
  · unfold parseStates writeStates
    rw [listOf, parseJson_compact fits]
    change (((prune entries).map ofEntry).mapM entry).mapError _ = _
    rw [mapM_map fun e _ => entry_ofEntry e]
    rfl
  · exact entry_beq (worth e he)
  · unfold writeStates
    rw [prune_settled, prune_prune, listOf_map ofEntry_settled]

def mixedEntries : List Entry :=
  [⟨"a", some (.number (-0.0)), none⟩, ⟨"b", some (.text ""), some false⟩,
    ⟨"a", some (.number 0.5), some true⟩]

theorem parseStates_writeStates_mixed :
    ∃ saved, parseStates (writeStates mixedEntries) = .ok saved ∧
      (saved == prune mixedEntries) = true ∧ writeStates saved = writeStates mixedEntries := by
  refine parseStates_writeStates mixedEntries ?_ (by decide +kernel)
  unfold mixedEntries
  simp only [List.forall_mem_cons]
  refine ⟨?_, ?_, ?_, List.forall_mem_nil _⟩
  · rintro x ⟨⟩
    decide
  · rintro x ⟨⟩
  · rintro x ⟨⟩
    decide

end Document
end ScoreSheet
