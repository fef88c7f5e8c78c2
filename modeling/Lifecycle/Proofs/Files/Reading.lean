import Lifecycle.Fingerprint
import Lifecycle.Proofs.Files.Tree
import Lifecycle.Proofs.Json.Document

namespace Lifecycle

namespace Text

end Text

namespace Fingerprint

end Fingerprint

namespace Json

-- What a text may be written with, and a document besides its line ends.
def Visible (c : Char) : Prop := 32 ≤ c.toNat ∧ c.toNat ≤ 126

def OnLines (cs : List Char) : Prop := ∀ c ∈ cs, c = '\n' ∨ Visible c

instance : DecidablePred Visible := fun c => inferInstanceAs (Decidable (32 ≤ c.toNat ∧ c.toNat ≤ 126))

theorem OnLines.append (first : OnLines cs) (later : OnLines ds) : OnLines (cs ++ ds) :=
  List.forall_mem_append.mpr ⟨first, later⟩

end Json

namespace Files

variable {files : Files} {v : Json}

end Files
end Lifecycle
