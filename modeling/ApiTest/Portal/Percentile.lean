import Mathlib.Data.Rat.Floor
import ApiTest.Portal.AggregationTotals
import ApiTest.Sorting.Rank

/-! The percentiles of `auditStats`. By the nearest-rank rule the value at `p` of `n`
durations is the one of rank `⌈p n⌉`. The code takes the one at index `⌊p (n - 1)⌋`,
as its test has it; that is the same rank or the one below. All three percentiles are of
the form `c / (c + 1)`, so one count decides for each which of the two it is. -/

namespace ApiTest.Portal

open Text Audit Sorting

/-- The smallest of the durations that at least `p` of them do not exceed. -/
structure NearestRank (durations : List ℤ) (p : ℚ) (d : ℤ) : Prop where
  mem : d ∈ durations
  covers : p * durations.length ≤ durations.countP (· ≤ d)
  least : ∀ d' ∈ durations, p * durations.length ≤ durations.countP (· ≤ d') → d ≤ d'

/-- The smallest of the durations that more than `p` of all but one do not exceed. -/
structure LowerRank (durations : List ℤ) (p : ℚ) (d : ℤ) : Prop where
  mem : d ∈ durations
  covers : p * (durations.length - 1 : ℕ) < durations.countP (· ≤ d)
  least : ∀ d' ∈ durations, p * (durations.length - 1 : ℕ) < durations.countP (· ≤ d') → d ≤ d'

/-- Some duration takes both the rank that the code picks and the next one: at most
`n - n / (c + 1) - 2` are below it, and at least `n - n / (c + 1)` are not above it. -/
def Tied (c : ℕ) (durations : List ℤ) : Prop :=
  ∃ d ∈ durations,
    durations.countP (· < d) + durations.length / (c + 1) + 2 ≤ durations.length ∧
    durations.length ≤ durations.countP (· ≤ d) + durations.length / (c + 1)

instance (c : ℕ) : DecidablePred (Tied c) := fun durations =>
  inferInstanceAs (Decidable (∃ d ∈ durations, _))

/-- The number of durations leaves a remainder of at most one, or the two ranks in
question hold the same duration. -/
def OnRank (c : ℕ) (durations : List ℤ) : Prop :=
  durations.length % (c + 1) ≤ 1 ∨ Tied c durations

instance (c : ℕ) : DecidablePred (OnRank c) := fun _ => inferInstanceAs (Decidable (_ ∨ _))

/-! ### The two ranks -/

section Ranks
variable {c : ℕ}

/-- How many durations cover the fraction `c / (c + 1)` of `n`. -/
theorem covers_iff (n m : ℕ) : (c : ℚ) / (c + 1) * n ≤ m ↔ n ≤ m + n / (c + 1) := by
  have hpos : (0 : ℚ) < (c : ℚ) + 1 := by positivity
  have hnat : (c : ℚ) / (c + 1) * n ≤ m ↔ c * n ≤ m * (c + 1) := by
    rw [div_mul_eq_mul_div, div_le_iff₀ hpos]
    exact_mod_cast Iff.rfl
  have hdiv : n - m ≤ n / (c + 1) ↔ (n - m) * (c + 1) ≤ n := Nat.le_div_iff_mul_le (by omega)
  have hrest : n ≤ m + n / (c + 1) ↔ n - m ≤ n / (c + 1) := Nat.sub_le_iff_le_add'.symm
  rw [hnat, hrest, hdiv, Nat.mul_add, Nat.mul_one, Nat.mul_add, Nat.mul_one, Nat.sub_mul,
    Nat.mul_comm c n]
  obtain hle | hlt := Nat.le_total n m
  · have hmul := Nat.mul_le_mul_right c hle
    omega
  · have hmul := Nat.mul_le_mul_right c hlt
    omega

/-- How many durations are more than that fraction of `n`. -/
theorem exceeds_iff (n m : ℕ) : (c : ℚ) / (c + 1) * n < m ↔ n * c / (c + 1) < m := by
  have hpos : (0 : ℚ) < (c : ℚ) + 1 := by positivity
  rw [div_mul_eq_mul_div, div_lt_iff₀ hpos, Nat.div_lt_iff_lt_mul (Nat.succ_pos c), Nat.mul_comm n]
  exact_mod_cast Iff.rfl

/-- The index of the duration with `q` and `e` others above it. -/
theorem index_of_rest {n q r j e : ℕ} (hn : q * c + q + r = n) (hj : j + q + e + 1 = n)
    (hlow : r ≤ e * c + e + 1) (hhigh : e * c + e < r + c) : (n - 1) * c / (c + 1) = j := by
  have hn' : n - 1 = j + q + e := by omega
  rw [hn']
  apply Nat.div_eq_of_lt_le
  · rw [Nat.mul_add, Nat.add_mul, Nat.add_mul, Nat.mul_one]
    omega
  · rw [Nat.add_mul, Nat.add_mul, Nat.add_mul, Nat.one_mul, Nat.mul_add, Nat.mul_one]
    omega

/-- The index that `percentile` computes. -/
theorem index_eq {n : ℕ} (hn : 0 < n) (hc : 0 < c) :
    (n - 1) * c / (c + 1) + n / (c + 1) + 1 + (if n % (c + 1) ≤ 1 then 0 else 1) = n := by
  have hsplit := Nat.div_add_mod n (c + 1)
  have hmod := Nat.mod_lt n (Nat.succ_pos c)
  set q := n / (c + 1)
  set r := n % (c + 1)
  have hq := Nat.le_mul_of_pos_right q hc
  rw [Nat.add_mul, Nat.one_mul, Nat.mul_comm c q] at hsplit
  split_ifs with hr
  · rw [index_of_rest (j := n - q - 1) (e := 0) hsplit (by omega) (by omega) (by omega)]
    omega
  · rw [index_of_rest (j := n - q - 2) (e := 1) hsplit (by omega) (by omega) (by omega)]
    omega

theorem percentile_eq {l : List ℤ} (hl : l ≠ []) :
    l[(l.length - 1) * c / (c + 1)]? = some (percentile l ((c : ℚ) / (c + 1))) := by
  have hlength := List.length_pos_iff.mpr hl
  have hproduct : ((((l.length : ℤ) - 1 : ℤ) : ℚ) * (c / (c + 1))) =
      (((l.length - 1) * c : ℕ) : ℚ) / ((c + 1 : ℕ) : ℚ) := by
    push_cast [Nat.cast_sub (Nat.one_le_iff_ne_zero.mpr hlength.ne')]
    ring
  have hindex : truncate (((l.length : ℤ) - 1 : ℤ) * ((c : ℚ) / (c + 1))) =
      ((l.length - 1) * c / (c + 1) : ℕ) := by
    rw [hproduct, truncate, if_pos (by positivity)]
    exact (Rat.floor_natCast_div_natCast _ _).trans (Int.natCast_div _ _).symm
  have hle : (l.length - 1) * c / (c + 1) ≤ l.length - 1 :=
    Nat.div_le_of_le_mul (by rw [Nat.mul_comm]; exact Nat.mul_le_mul_right _ (by omega))
  simp only [percentile, if_neg hl, hindex]
  generalize (l.length - 1) * c / (c + 1) = i at hle
  have hlt : i < l.length := by omega
  rw [if_neg (by omega), if_neg (by omega), Int.toNat_natCast, List.getD_eq_getElem?_getD,
    List.getElem?_eq_getElem hlt, Option.getD_some]

end Ranks

/-! ### The rule -/

section Rule
variable {c : ℕ} {durations sorted : List ℤ}

/-- The nearest rank is the duration at index `n - 1 - n / (c + 1)` of the sorted list. -/
theorem nearestRank_iff (hperm : sorted.Perm durations) (hsorted : sorted.Pairwise (· ≤ ·))
    {j : ℕ} (hj : j + 1 + durations.length / (c + 1) = durations.length) (d : ℤ) :
    NearestRank durations ((c : ℚ) / (c + 1)) d ↔ sorted[j]? = some d := by
  have hlt : j < sorted.length := by
    rw [hperm.length_eq]
    exact (Nat.le_add_right _ _).trans hj.le
  have hcovers : ∀ d' : ℤ, (c : ℚ) / (c + 1) * durations.length ≤ durations.countP (· ≤ d') ↔
      sorted[j] ≤ d' := by
    intro d'
    rw [covers_iff, ← lt_countP_le_iff hsorted hlt, hperm.countP_eq]
    generalize durations.length / (c + 1) = k at hj ⊢
    omega
  rw [List.getElem?_eq_getElem hlt, Option.some.injEq]
  constructor
  · intro h
    have hmem : sorted[j] ∈ durations := hperm.mem_iff.mp (List.getElem_mem hlt)
    exact le_antisymm ((hcovers d).mp h.covers)
      (h.least _ hmem ((hcovers _).mpr le_rfl))
  · rintro rfl
    refine ⟨hperm.mem_iff.mp (List.getElem_mem hlt), (hcovers _).mpr le_rfl, ?_⟩
    intro d' _ hd'
    exact (hcovers d').mp hd'

theorem tied_iff (hperm : sorted.Perm durations) (hsorted : sorted.Pairwise (· ≤ ·)) {i : ℕ}
    (hi : i + 2 + durations.length / (c + 1) = durations.length) :
    Tied c durations ↔ sorted[i]? = sorted[i + 1]? := by
  generalize hk : durations.length / (c + 1) = k at hi
  have hlength := hperm.length_eq
  have hlt : i < sorted.length := by omega
  have hlt' : i + 1 < sorted.length := by omega
  rw [List.getElem?_eq_getElem hlt, List.getElem?_eq_getElem hlt', Option.some.injEq]
  have hbounds : ∀ d : ℤ,
      (durations.countP (· < d) + durations.length / (c + 1) + 2 ≤ durations.length ∧
        durations.length ≤ durations.countP (· ≤ d) + durations.length / (c + 1)) ↔
      d ≤ sorted[i] ∧ sorted[i + 1] ≤ d := by
    intro d
    rw [← countP_lt_le_iff hsorted hlt, ← lt_countP_le_iff hsorted hlt', hperm.countP_eq,
      hperm.countP_eq, hk]
    omega
  have hnext : sorted[i] ≤ sorted[i + 1] :=
    List.pairwise_iff_getElem.mp hsorted i (i + 1) hlt hlt' (Nat.lt_succ_self i)
  constructor
  · rintro ⟨d, -, hd⟩
    obtain ⟨hlow, hhigh⟩ := (hbounds d).mp hd
    exact le_antisymm hnext (hhigh.trans hlow)
  · intro heq
    exact ⟨sorted[i], hperm.mem_iff.mp (List.getElem_mem hlt), (hbounds _).mpr ⟨le_rfl, heq.ge⟩⟩

/-- The duration at the index the code computes. -/
theorem percentile_insertionSort (hne : durations ≠ []) :
    (durations.insertionSort (· ≤ ·))[(durations.length - 1) * c / (c + 1)]? =
      some (percentile (durations.insertionSort (· ≤ ·)) ((c : ℚ) / (c + 1))) := by
  have hlength : (durations.insertionSort (· ≤ ·)).length = durations.length :=
    List.length_insertionSort _ _
  have hsne : durations.insertionSort (· ≤ ·) ≠ [] := by
    rw [← List.length_pos_iff, hlength, List.length_pos_iff]
    exact hne
  rw [← percentile_eq hsne, hlength]

/-- What is reported, for any number of durations. -/
theorem percentile_lowerRank (hne : durations ≠ []) :
    LowerRank durations ((c : ℚ) / (c + 1))
      (percentile (durations.insertionSort (· ≤ ·)) ((c : ℚ) / (c + 1))) := by
  have hget := percentile_insertionSort (c := c) hne
  set sorted := durations.insertionSort (· ≤ ·)
  have hperm : sorted.Perm durations := List.perm_insertionSort _ _
  have hsorted : sorted.Pairwise (· ≤ ·) := List.pairwise_insertionSort _ _
  obtain ⟨hlt, hvalue⟩ := List.getElem?_eq_some_iff.mp hget
  have hcovers : ∀ d : ℤ,
      (c : ℚ) / (c + 1) * (durations.length - 1 : ℕ) < durations.countP (· ≤ d) ↔
        percentile sorted ((c : ℚ) / (c + 1)) ≤ d := by
    intro d
    rw [exceeds_iff, ← hvalue, ← lt_countP_le_iff hsorted hlt, hperm.countP_eq]
  refine ⟨hperm.mem_iff.mp (List.mem_of_getElem? hget), (hcovers _).mpr le_rfl, ?_⟩
  intro d _ hd
  exact (hcovers d).mp hd

/-- The reported percentile is the nearest rank if and only if the number of durations
leaves a remainder of at most one or the next duration is the same. -/
theorem percentile_nearestRank_iff (hne : durations ≠ []) (hc : 0 < c) :
    NearestRank durations ((c : ℚ) / (c + 1))
      (percentile (durations.insertionSort (· ≤ ·)) ((c : ℚ) / (c + 1))) ↔ OnRank c durations := by
  have hget := percentile_insertionSort (c := c) hne
  have hindex := index_eq (List.length_pos_iff.mpr hne) hc
  set sorted := durations.insertionSort (· ≤ ·)
  have hperm : sorted.Perm durations := List.perm_insertionSort _ _
  have hsorted : sorted.Pairwise (· ≤ ·) := List.pairwise_insertionSort _ _
  set i := (durations.length - 1) * c / (c + 1)
  rw [OnRank]
  split_ifs at hindex with hr
  · have hj : i + 1 + durations.length / (c + 1) = durations.length := by
      generalize durations.length / (c + 1) = k at hindex ⊢
      omega
    rw [nearestRank_iff hperm hsorted hj]
    exact iff_of_true hget (Or.inl hr)
  · have hi : i + 2 + durations.length / (c + 1) = durations.length := by
      generalize durations.length / (c + 1) = k at hindex ⊢
      omega
    have hj : i + 1 + 1 + durations.length / (c + 1) = durations.length := hi
    rw [nearestRank_iff hperm hsorted hj, tied_iff hperm hsorted hi, ← hget, or_iff_right hr]
    exact eq_comm

/-- A pair leaves a remainder of at most one. -/
theorem onRank_one (durations : List ℤ) : OnRank 1 durations :=
  Or.inl (Nat.lt_succ_iff.mp (Nat.mod_lt _ (by decide)))

end Rule

/-! ### The endpoint -/

section Stats
variable (query : QueryFilter → Except GoString (List Event))
  (parseTime : GoString → Option Time) (q : Values) (now : Time)

/-- For every non-empty answer of `Query`: each percentile is the smallest duration that
more than `p` of all events but one do not exceed. The median is the nearest rank, and the
95th and 99th percentile are if and only if the number of events leaves a remainder of at
most one by 20 and by 100, or the next duration is the same. -/
theorem stats_percentiles {events : List Event} (hne : events ≠ [])
    (hquery : query (timeWindow parseTime q now).1 = .ok events) :
    ∃ stats, auditStats query parseTime q now = .ok stats ∧
      let durations := events.map Event.durationMS
      (LowerRank durations (50 / 100) stats.p50 ∧ LowerRank durations (95 / 100) stats.p95 ∧
        LowerRank durations (99 / 100) stats.p99) ∧
      NearestRank durations (50 / 100) stats.p50 ∧
      (NearestRank durations (95 / 100) stats.p95 ↔ OnRank 19 durations) ∧
      (NearestRank durations (99 / 100) stats.p99 ↔ OnRank 99 durations) := by
  set durations := events.map Event.durationMS with hdurations
  have hne' : durations ≠ [] := by
    rw [hdurations, Ne, List.map_eq_nil_iff]
    exact hne
  have h50 : (50 / 100 : ℚ) = ((1 : ℕ) : ℚ) / ((1 : ℕ) + 1) := by norm_num
  have h95 : (95 / 100 : ℚ) = ((19 : ℕ) : ℚ) / ((19 : ℕ) + 1) := by norm_num
  have h99 : (99 / 100 : ℚ) = ((99 : ℕ) : ℚ) / ((99 : ℕ) + 1) := by norm_num
  have hloop : (statsLoop events).2.2 = durations := congrArg (fun r => r.2.2) (statsLoop_eq events)
  obtain ⟨stats, hok, hp50, hp95, hp99⟩ : ∃ stats, auditStats query parseTime q now = .ok stats ∧
      stats.p50 = percentile ((statsLoop events).2.2.insertionSort (· ≤ ·)) (50 / 100) ∧
      stats.p95 = percentile ((statsLoop events).2.2.insertionSort (· ≤ ·)) (95 / 100) ∧
      stats.p99 = percentile ((statsLoop events).2.2.insertionSort (· ≤ ·)) (99 / 100) := by
    unfold auditStats
    rw [queryWindow_ok hquery]
    exact ⟨_, rfl, rfl, rfl, rfl⟩
  rw [hloop, h50] at hp50
  rw [hloop, h95] at hp95
  rw [hloop, h99] at hp99
  refine ⟨stats, hok, ?_⟩
  rw [hp50, hp95, hp99, h50, h95, h99]
  exact ⟨⟨percentile_lowerRank hne', percentile_lowerRank hne', percentile_lowerRank hne'⟩,
    (percentile_nearestRank_iff hne' (by decide)).mpr (onRank_one durations),
    percentile_nearestRank_iff hne' (by decide), percentile_nearestRank_iff hne' (by decide)⟩

end Stats

/-- Requests of the given durations. -/
def timed (durations : List ℤ) : List Event := durations.map fun d => { durationMS := d }

/-- The ten durations of the test: the 95th and the 99th percentile are reported as 90,
and only nine of the ten requests take no longer than that. -/
theorem ten_durations_below_rank :
    let durations : List ℤ := [10, 20, 30, 40, 50, 60, 70, 80, 90, 100]
    ∃ stats, auditStats (fun _ => .ok (timed durations)) (fun _ => none) [] hour = .ok stats ∧
      stats.p95 = 90 ∧ stats.p99 = 90 ∧ durations.countP (· ≤ 90) = 9 ∧
      ¬ NearestRank durations (95 / 100) stats.p95 ∧ ¬ NearestRank durations (99 / 100) stats.p99 ∧
      NearestRank durations (95 / 100) 100 := by
  intro durations
  have hsorted : durations.Pairwise (· ≤ ·) := by decide
  -- for either fraction the rank is the last one
  have hrank : ∀ {c : ℕ} {p : ℚ}, p = (c : ℚ) / (c + 1) → 9 + 1 + 10 / (c + 1) = 10 → ∀ d,
      (NearestRank durations p d ↔ some 100 = some d) := by
    rintro c p rfl hj d
    exact nearestRank_iff (.refl _) hsorted hj d
  have h95 := @hrank 19 (95 / 100) (by norm_num) (by decide)
  have h99 := @hrank 99 (99 / 100) (by norm_num) (by decide)
  obtain ⟨stats, hok, hp95, hp99⟩ : ∃ stats,
      auditStats (fun _ => .ok (timed durations)) (fun _ => none) [] hour = .ok stats ∧
      stats.p95 = 90 ∧ stats.p99 = 90 := ⟨_, rfl, by decide +kernel, by decide +kernel⟩
  refine ⟨stats, hok, hp95, hp99, by decide, ?_, ?_, (h95 100).mpr rfl⟩
  · rw [hp95, h95]
    decide
  · rw [hp99, h99]
    decide

/-- Twenty-one requests: all three percentiles are on their ranks. -/
theorem even_load_on_rank :
    let events := timed (List.replicate 20 5 ++ [7])
    events ≠ [] ∧ OnRank 19 (events.map Event.durationMS) ∧
    ∃ stats, auditStats (fun _ => .ok events) (fun _ => none) [] hour = .ok stats ∧
      LowerRank (events.map Event.durationMS) (99 / 100) stats.p99 ∧
      NearestRank (events.map Event.durationMS) (50 / 100) stats.p50 ∧
      NearestRank (events.map Event.durationMS) (95 / 100) stats.p95 := by
  intro events
  have hne : events ≠ [] := by simp [events, timed]
  have hrank : OnRank 19 (events.map Event.durationMS) := Or.inl (by decide)
  obtain ⟨stats, hok, ⟨-, -, hlower⟩, h50, h95, -⟩ :=
    stats_percentiles (fun _ => .ok events) (fun _ => none) [] hour hne rfl
  exact ⟨hne, hrank, stats, hok, hlower, h50, h95.mpr hrank⟩

end ApiTest.Portal
