import ApiTest.Net.ServeMux

/-! A mux whose handlers are replaced, each by its image. Which patterns go together depends
on the patterns alone, so registering commutes with the replacement. -/

namespace ApiTest.Net

open ApiTest.Text

variable {η θ : Type}

namespace ServeMux

def map (f : η → θ) (mux : ServeMux η) : ServeMux θ where
  entries := mux.entries.map fun e => (e.1, f e.2)
  noConflict := List.pairwise_map.mpr mux.noConflict

section
variable [WildcardNames]

theorem handle_map (f : η → θ) (mux : ServeMux η) (pattern : GoString) (handler : η) :
    (mux.map f).handle pattern (f handler) = (mux.handle pattern handler).map (map f) := by
  unfold handle
  cases parsePattern pattern with
  | none => rfl
  | some p =>
    have hiff : (∀ e ∈ (mux.map f).entries, p.conflictsWith e.1 = false) ↔
        ∀ e ∈ mux.entries, p.conflictsWith e.1 = false := by
      rw [map, List.forall_mem_map]
    dsimp only
    by_cases h : ∀ e ∈ mux.entries, p.conflictsWith e.1 = false
    · rw [dif_pos h, dif_pos (hiff.mpr h)]
      simp [map]
    · rw [dif_neg h, dif_neg (mt hiff.mp h)]
      rfl

theorem handleAll_map (f : η → θ) (mux : ServeMux η) (mounts : List (GoString × η)) :
    (mux.map f).handleAll (mounts.map fun m => (m.1, f m.2)) =
      (mux.handleAll mounts).map (map f) := by
  induction mounts generalizing mux with
  | nil => rfl
  | cons m mounts ih =>
    simp only [handleAll, List.map_cons, List.foldlM_cons, Option.bind_eq_bind] at ih ⊢
    rw [handle_map]
    cases mux.handle m.1 m.2 with
    | none => rfl
    | some mux' => exact ih mux'

end

end ServeMux

end ApiTest.Net
