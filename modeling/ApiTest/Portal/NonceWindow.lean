import ApiTest.Portal.BrowserLogin

/-! The nonce ledger along a history of calls. `consumeNonce` evicts what is past its
lifetime before it looks a nonce up, so what it decides is what the calls so far say.
A blank nonce is refused before anything is evicted. -/

namespace ApiTest.Portal

open Text Audit

/-- A call of `consumeNonce` at a time. -/
abbrev NonceCall := GoString × Time

/-- The ledger behind some calls, from an empty one on. -/
def ledgerAfter (calls : List NonceCall) : List (GoString × Time) :=
  calls.foldl (fun used c => (consumeNonce c.1 c.2 used).2) []

/-- Whether a call that comes behind others returns true. -/
def returnsTrue (earlier : List NonceCall) (c : NonceCall) : Bool :=
  (consumeNonce c.1 c.2 (ledgerAfter earlier)).1

/-- The call is one of those made, and it returned true. -/
def Granted (calls : List NonceCall) (c : NonceCall) : Prop :=
  ∃ before later, calls = before ++ c :: later ∧ returnsTrue before c = true

/-- The calls are made one after the other. -/
def InTime (calls : List NonceCall) : Prop := calls.Pairwise fun a b => a.2 ≤ b.2

instance : DecidablePred InTime := fun _ => inferInstanceAs (Decidable (List.Pairwise _ _))

section Calls
variable {calls : List NonceCall} {c : NonceCall}

theorem ledgerAfter_concat (calls : List NonceCall) (c : NonceCall) :
    ledgerAfter (calls ++ [c]) = (consumeNonce c.1 c.2 (ledgerAfter calls)).2 := by
  rw [ledgerAfter, List.foldl_concat, ledgerAfter]

theorem not_granted_nil (e : NonceCall) : ¬ Granted [] e := by
  rintro ⟨before, later, hsplit, -⟩
  simp at hsplit

theorem granted_concat {e : NonceCall} :
    Granted (calls ++ [c]) e ↔ Granted calls e ∨ returnsTrue calls c = true ∧ e = c := by
  constructor
  · rintro ⟨before, later, hsplit, htrue⟩
    obtain rfl | ⟨later, last, rfl⟩ := later.eq_nil_or_concat
    · obtain ⟨rfl, hlast⟩ := List.append_inj' hsplit rfl
      cases hlast
      exact Or.inr ⟨htrue, rfl⟩
    · have hsplit' : calls ++ [c] = (before ++ e :: later) ++ [last] := by
        rw [hsplit]
        simp
      obtain ⟨rfl, -⟩ := List.append_inj' hsplit' rfl
      exact Or.inl ⟨before, later, rfl, htrue⟩
  · rintro (⟨before, later, rfl, htrue⟩ | ⟨htrue, rfl⟩)
    · exact ⟨before, later ++ [c], by simp, htrue⟩
    · exact ⟨calls, [], rfl, htrue⟩

/-- The last of the calls that are made in time. -/
theorem inTime_concat : InTime (calls ++ [c]) ↔ InTime calls ∧ ∀ d ∈ calls, d.2 ≤ c.2 := by
  rw [InTime, List.pairwise_append]
  simp [InTime]

/-- A nonce that is not blank goes through the ledger. -/
theorem consumeNonce_of_ne {nonce : GoString} (h : nonce ≠ []) (now : Time)
    (used : List (GoString × Time)) :
    consumeNonce nonce now used = Ledger.consume nonceTTL now nonce used := if_neg h

theorem consumeNonce_nil (now : Time) (used : List (GoString × Time)) :
    consumeNonce [] now used = (false, used) := if_pos rfl

/-- The ledger holds the granted calls that are within their lifetime, at any time that
is not before the last call. -/
theorem tracks_ledgerAfter (h : InTime calls) {now : Time} (hnow : ∀ d ∈ calls, d.2 ≤ now) :
    Ledger.Tracks nonceTTL now (Granted calls) (ledgerAfter calls) := by
  induction calls using List.reverseRecOn generalizing now with
  | nil => exact ⟨by simp [ledgerAfter], fun e he => absurd he (not_granted_nil e)⟩
  | append_singleton calls c ih =>
    obtain ⟨hcalls, hlast⟩ := inTime_concat.mp h
    refine Ledger.Tracks.wait ?_ (hnow c (by simp))
    have htracks := ih hcalls hlast
    rw [ledgerAfter_concat]
    by_cases hblank : c.1 = []
    · have hsame : consumeNonce c.1 c.2 (ledgerAfter calls) = (false, ledgerAfter calls) := by
        rw [hblank, consumeNonce_nil]
      have hgranted : Granted (calls ++ [c]) = Granted calls := by
        funext e
        rw [granted_concat, returnsTrue, hsame]
        simp
      rw [hsame, hgranted]
      exact htracks
    · have hconsume := consumeNonce_of_ne hblank c.2 (ledgerAfter calls)
      rw [hconsume]
      refine htracks.consume c.1 fun e => ?_
      rw [granted_concat, returnsTrue, hconsume]

/-- Along any calls in time, a call returns true if and only if its nonce is not blank
and no earlier call returned true for it within ten minutes. Behind a call with a nonce
the ledger holds just the granted calls of the last ten minutes; one without leaves it
as it is. -/
theorem nonce_window_exact {earlier : List NonceCall} {n : GoString} {t : Time}
    (h : InTime (earlier ++ [(n, t)])) :
    (returnsTrue earlier (n, t) = true ↔
      n ≠ [] ∧ ∀ t', Granted earlier (n, t') → ¬ t - t' ≤ nonceTTL) ∧
    (n ≠ [] → ∀ e, e ∈ ledgerAfter (earlier ++ [(n, t)]) ↔
      Granted (earlier ++ [(n, t)]) e ∧ t - e.2 ≤ nonceTTL) ∧
    (n = [] → ledgerAfter (earlier ++ [(n, t)]) = ledgerAfter earlier) := by
  obtain ⟨hearlier, hlast⟩ := inTime_concat.mp h
  have htracks := tracks_ledgerAfter hearlier hlast
  refine ⟨?_, fun hne e => ?_, ?_⟩
  · by_cases hblank : n = []
    · simp [returnsTrue, hblank, consumeNonce_nil]
    · rw [returnsTrue, consumeNonce_of_ne hblank, htracks.fresh_iff, and_iff_right hblank]
      constructor
      · intro hfresh t' hgranted
        exact Int.not_le.mpr (hfresh (n, t') hgranted rfl)
      · rintro hold ⟨n', t'⟩ hgranted rfl
        exact Int.not_le.mp (hold t' hgranted)
  · have hnow : ∀ d ∈ earlier ++ [(n, t)], d.2 ≤ t := by
      intro d hd
      obtain hd | hd := List.mem_append.mp hd
      · exact hlast d hd
      · exact Int.le_of_eq (congrArg Prod.snd (List.mem_singleton.mp hd))
    have hafter := tracks_ledgerAfter h hnow
    refine ⟨fun he => ⟨hafter.sound e he, ?_⟩, fun ⟨hgranted, hage⟩ => hafter.complete e hgranted hage⟩
    rw [ledgerAfter_concat, consumeNonce_of_ne hne] at he
    exact Ledger.age_of_mem_consume (by decide) he
  · rintro rfl
    rw [ledgerAfter_concat, consumeNonce_nil]

end Calls

/-- The same nonce again at the end of its ten minutes, and right after. -/
theorem nonce_refused_within_window :
    InTime ([(lit "n", 0)] ++ [(lit "n", nonceTTL)]) ∧
    returnsTrue [] (lit "n", 0) = true ∧ returnsTrue [(lit "n", 0)] (lit "n", nonceTTL) = false ∧
    (returnsTrue [(lit "n", 0)] (lit "n", nonceTTL) = true ↔
      lit "n" ≠ [] ∧ ∀ t', Granted [(lit "n", 0)] (lit "n", t') → ¬ nonceTTL - t' ≤ nonceTTL) ∧
    returnsTrue [(lit "n", 0)] (lit "n", nonceTTL + 1) = true :=
  ⟨by decide, by decide, by decide, (nonce_window_exact (by decide)).1, by decide⟩

/-- A blank nonce eleven minutes later leaves an entry of eleven minutes. -/
theorem blank_nonce_keeps_stale :
    let calls : List NonceCall := [(lit "n", 0), ([], 660 * 1000000000)]
    InTime calls ∧ (lit "n", 0) ∈ ledgerAfter calls ∧
      nonceTTL < (660 * 1000000000 : ℤ) - 0 := by
  decide

end ApiTest.Portal
