import ApiTest.Dictionary.Basic
import Mathlib.Data.List.Perm.Basic

/-! Multimaps as association lists: a key with the list of its values, in the
order they were added. This is the shape of `url.Values` and `http.Header`. A
multimap is determined by its lookups; building one from pairs and listing its
pairs are inverse to each other up to the order of the keys. -/

namespace ApiTest.Multimap

open Dictionary

variable {κ ν : Type*} [BEq κ] [DecidableEq κ]

/-- Add a value behind those of its key. -/
def add (m : List (κ × List ν)) (k : κ) (v : ν) : List (κ × List ν) :=
  match m.lookup k with
  | none => m ++ [(k, [v])]
  | some _ => m.map fun e => if e.1 = k then (e.1, e.2 ++ [v]) else e

/-- The multimap of a list of pairs. -/
def ofPairs (pairs : List (κ × ν)) : List (κ × List ν) :=
  pairs.foldl (fun m p => add m p.1 p.2) []

/-- The pairs of a multimap, key by key. -/
def toPairs (m : List (κ × List ν)) : List (κ × ν) := m.flatMap fun e => e.2.map (e.1, ·)

/-- The values that a list of pairs has under a key. -/
def valuesOf (pairs : List (κ × ν)) (k : κ) : List ν :=
  (pairs.filter fun p => p.1 = k).map Prod.snd

omit [BEq κ] [DecidableEq κ] in
@[simp] theorem toPairs_cons (e : κ × List ν) (m : List (κ × List ν)) :
    toPairs (e :: m) = e.2.map (e.1, ·) ++ toPairs m := rfl

omit [BEq κ] in
@[simp] theorem valuesOf_append (xs ys : List (κ × ν)) (k : κ) :
    valuesOf (xs ++ ys) k = valuesOf xs k ++ valuesOf ys k := by
  simp [valuesOf]

omit [BEq κ] in
theorem valuesOf_map_mk (k k' : κ) (vs : List ν) :
    valuesOf (vs.map (k, ·)) k' = if k = k' then vs else [] := by
  by_cases h : k = k' <;> simp [valuesOf, h, List.filter_map, Function.comp_def]

omit [DecidableEq κ] in
/-- Changing the values of a key leaves the keys alone. -/
theorem lookup_map_snd [LawfulBEq κ] (f : κ → List ν → List ν) (m : List (κ × List ν)) (k : κ) :
    (m.map fun e => (e.1, f e.1 e.2)).lookup k = (m.lookup k).map (f k) := by
  induction m with
  | nil => rfl
  | cons e m ih =>
    obtain ⟨key, vs⟩ := e
    by_cases h : k = key
    · simp [h]
    · simp [List.lookup_cons, beq_false_of_ne h, ih]

omit [DecidableEq κ] in
theorem lookup_append_of_none {m m' : List (κ × List ν)} {k : κ} (h : m.lookup k = none) :
    (m ++ m').lookup k = m'.lookup k := by
  induction m with
  | nil => rfl
  | cons e m ih =>
    obtain ⟨key, vs⟩ := e
    rw [List.lookup_cons] at h
    rw [List.cons_append, List.lookup_cons]
    split at h
    · cases h
    · exact ih h

omit [BEq κ] [DecidableEq κ] in
/-- The two multimaps have the same keys in the same order, and the same values
under every key that is not hidden. -/
def AgreeOff (hidden : κ → Bool) (m m' : List (κ × List ν)) : Prop :=
  List.Forall₂ (fun e e' => e.1 = e'.1 ∧ (hidden e.1 = false → e.2 = e'.2)) m m'

omit [BEq κ] [DecidableEq κ] in
theorem AgreeOff.refl (hidden : κ → Bool) (m : List (κ × List ν)) : AgreeOff hidden m m :=
  List.forall₂_same.mpr fun _ _ => ⟨rfl, fun _ => rfl⟩

omit [BEq κ] [DecidableEq κ] in
/-- A function of the entries that does not look at hidden values cannot tell the
two apart. -/
theorem AgreeOff.map_eq {β : Type*} {hidden : κ → Bool} {m m' : List (κ × List ν)}
    (h : AgreeOff hidden m m') {f : κ → List ν → β}
    (hf : ∀ k, hidden k = true → ∀ vs vs', f k vs = f k vs') :
    m.map (fun e => f e.1 e.2) = m'.map fun e => f e.1 e.2 := by
  induction h with
  | nil => rfl
  | @cons e e' m m' he _ ih =>
    rw [List.map_cons, List.map_cons, ih, ← he.1]
    cases hk : hidden e.1 with
    | false => rw [he.2 hk]
    | true => rw [hf e.1 hk e.2 e'.2]

omit [DecidableEq κ] in
/-- Selecting by key keeps the values of the selected keys. -/
theorem lookup_filter_key [LawfulBEq κ] (p : κ → Bool) (m : List (κ × List ν)) (k : κ) :
    (m.filter fun e => p e.1).lookup k = if p k then m.lookup k else none := by
  induction m with
  | nil => simp
  | cons e m ih =>
    obtain ⟨key, vs⟩ := e
    rw [List.filter_cons]
    by_cases hk : k = key
    · subst hk
      by_cases hp : p k = true
      · simp [hp]
      · simp only [hp, Bool.false_eq_true, if_false] at ih ⊢
        exact ih
    · have hskip : ((key, vs) :: m).lookup k = m.lookup k := by
        simp [List.lookup_cons, beq_false_of_ne hk]
      rw [hskip, ← ih]
      split_ifs
      · simp [List.lookup_cons, beq_false_of_ne hk]
      · rfl

variable [LawfulBEq κ]

/-- Only the key that a value is added under changes. -/
theorem lookup_add (m : List (κ × List ν)) (k k' : κ) (v : ν) :
    (add m k v).lookup k' =
      if k' = k then some ((m.lookup k).getD [] ++ [v]) else m.lookup k' := by
  unfold add
  cases hk : m.lookup k with
  | none =>
    by_cases h : k' = k
    · subst h
      simp [lookup_append_of_none hk]
    · cases hk' : m.lookup k' with
      | none => simp [lookup_append_of_none hk', h]
      | some vs => simp [List.lookup_append, hk', h]
  | some vs =>
    have hmap : (m.map fun e => if e.1 = k then (e.1, e.2 ++ [v]) else e) =
        m.map fun e => (e.1, if e.1 = k then e.2 ++ [v] else e.2) := by
      apply List.map_congr_left
      intro e _
      split_ifs <;> rfl
    dsimp only
    rw [hmap, lookup_map_snd (fun key vs => if key = k then vs ++ [v] else vs)]
    by_cases h : k' = k
    · subst h
      simp [hk]
    · simp [h]

/-- The multimap of a list of pairs has under each key the values of the pairs. -/
theorem lookup_ofPairs (pairs : List (κ × ν)) (k : κ) :
    ((ofPairs pairs).lookup k).getD [] = valuesOf pairs k := by
  -- the multimap built so far supplies the values before those of the rest
  have hfold : ∀ (pairs : List (κ × ν)) (m : List (κ × List ν)),
      ((pairs.foldl (fun m p => add m p.1 p.2) m).lookup k).getD [] =
        (m.lookup k).getD [] ++ valuesOf pairs k := by
    intro pairs
    induction pairs with
    | nil => simp [valuesOf]
    | cons p pairs ih =>
      intro m
      rw [List.foldl_cons, ih, lookup_add]
      by_cases h : k = p.1
      · simp [valuesOf, h]
      · simp [valuesOf, h, Ne.symm h]
  simpa [ofPairs] using hfold pairs []

/-- Adding a value makes no key occur twice. -/
theorem nodup_add {m : List (κ × List ν)} (h : (m.map Prod.fst).Nodup) (k : κ) (v : ν) :
    ((add m k v).map Prod.fst).Nodup := by
  unfold add
  cases hk : m.lookup k with
  | none =>
    have hnot : k ∉ m.map Prod.fst := by
      intro hmem
      obtain ⟨e, he, rfl⟩ := List.mem_map.mp hmem
      exact absurd (List.lookup_eq_none_iff.mp hk e he) (by simp)
    rw [List.map_append, List.map_cons, List.map_nil, List.nodup_append_comm]
    exact List.nodup_cons.mpr ⟨hnot, h⟩
  | some vs =>
    have hkeys : (m.map fun e => if e.1 = k then (e.1, e.2 ++ [v]) else e).map Prod.fst =
        m.map Prod.fst := by
      rw [List.map_map]
      apply List.map_congr_left
      intro e _
      dsimp only [Function.comp]
      split_ifs <;> rfl
    dsimp only
    rw [hkeys]
    exact h

/-- The keys of a multimap made of pairs are distinct. -/
theorem nodup_ofPairs (pairs : List (κ × ν)) : ((ofPairs pairs).map Prod.fst).Nodup := by
  refine List.foldlRecOn (motive := fun m : List (κ × List ν) => (m.map Prod.fst).Nodup) pairs _
    List.nodup_nil ?_
  intro m hm p _
  exact nodup_add hm p.1 p.2

/-- With distinct keys, the pairs of a multimap under a key are its values. -/
theorem valuesOf_toPairs {m : List (κ × List ν)} (h : (m.map Prod.fst).Nodup) (k : κ) :
    valuesOf (toPairs m) k = (m.lookup k).getD [] := by
  induction m with
  | nil => rfl
  | cons e m ih =>
    obtain ⟨key, vs⟩ := e
    rw [List.map_cons, List.nodup_cons] at h
    rw [toPairs_cons, valuesOf_append, valuesOf_map_mk, ih h.2, List.lookup_cons]
    by_cases hk : key = k
    · have hnone : m.lookup k = none := by
        rw [List.lookup_eq_none_iff]
        intro p hp
        rw [bne_iff_ne]
        intro he
        have hmem : p.1 ∈ m.map Prod.fst := List.mem_map_of_mem hp
        rw [← he, ← hk] at hmem
        exact h.1 hmem
      simp [hk, hnone]
    · simp [hk, beq_false_of_ne (Ne.symm hk)]

omit [DecidableEq κ] in
/-- The order of the keys does not matter. -/
theorem lookup_perm {m m' : List (κ × List ν)} (h : (m.map Prod.fst).Nodup) (hp : m.Perm m')
    (k : κ) : m'.lookup k = m.lookup k := by
  refine Option.ext fun vs => ?_
  rw [← mem_iff_lookup ((hp.map Prod.fst).nodup_iff.mp h), ← mem_iff_lookup h, hp.mem_iff]

/-! ### Repeated keys -/

/-- The entries without those whose key comes again. -/
def keepLast : List (κ × List ν) → List (κ × List ν)
  | [] => []
  | e :: m => if e.1 ∈ m.map Prod.fst then keepLast m else e :: keepLast m

omit [DecidableEq κ] in
theorem mem_of_mem_keepLast {m : List (κ × List ν)} {e : κ × List ν} (h : e ∈ keepLast m) :
    e ∈ m := by
  induction m with
  | nil => exact h
  | cons e' m ih =>
    rw [keepLast] at h
    split_ifs at h
    · exact List.mem_cons_of_mem _ (ih h)
    · obtain rfl | h := List.mem_cons.mp h
      · exact List.mem_cons_self
      · exact List.mem_cons_of_mem _ (ih h)

omit [DecidableEq κ] in
theorem keepLast_of_nodup {m : List (κ × List ν)} (h : (m.map Prod.fst).Nodup) : keepLast m = m := by
  induction m with
  | nil => rfl
  | cons e m ih =>
    rw [List.map_cons, List.nodup_cons] at h
    rw [keepLast, if_neg h.1, ih h.2]

end ApiTest.Multimap
