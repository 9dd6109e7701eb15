import ScoreSheet.Proofs.Evaluation.Admission
import ScoreSheet.Proofs.Evaluation.Resumption
import ScoreSheet.Proofs.Evaluation.RuleWrites
import ScoreSheet.Proofs.State.Patched
set_option autoImplicit false

/-! A pass records a change as soon as one write makes one. A later write of the same pass may
undo it, so a run can be exhausted although its passes leave the store as it was. That takes
two writes which provide different contents for the same field of an element: as long as the
writes of a pass agree, what the first of them has changed stays changed. -/
namespace ScoreSheet

open Rule

namespace Patch
variable {p q : Patch}

end Patch

namespace Store
variable {s t : Store}

end Store

namespace Program
variable {p : Program} {elements : List Element} {limit reruns : Nat} {rounds : Rounds}
  {store store' : Store}

end Program

end ScoreSheet
