import ApiTest.Dictionary.Basic
import ApiTest.Endpoints.Document

/-! The operations of the document that `Build` enters. A route writes the operation of
its path and upper-cased method and no other, so a run over routes with distinct paths
and methods enters each operation once; a route whose method is none of the seven of a
path item leaves no operation. `SelfCheck` compares the keys `METHOD PATH`, which does
not tell a blank in a method from the one between method and path. -/

namespace ApiTest.Endpoints

open ApiTest.Text ApiTest.Net ApiTest.Dictionary

variable {ω : Type}

/-- The methods that a path item has a place for. -/
def knownMethods : List GoString :=
  [lit "GET", lit "POST", lit "PUT", lit "PATCH", lit "DELETE", lit "HEAD", lit "OPTIONS"]

theorem knownMethods_nodup : knownMethods.Nodup := by decide

theorem blank_notMem_knownMethods : ∀ m ∈ knownMethods, (0x20 : UInt8) ∉ m := by decide

namespace PathItem

/-- The operation under an upper-case method. -/
def operation (p : PathItem ω) (m : GoString) : Option ω :=
  if m = lit "GET" then p.get
  else if m = lit "POST" then p.post
  else if m = lit "PUT" then p.put
  else if m = lit "PATCH" then p.patch
  else if m = lit "DELETE" then p.delete
  else if m = lit "HEAD" then p.head
  else if m = lit "OPTIONS" then p.options
  else none

@[simp] theorem operation_empty (m : GoString) : ({} : PathItem ω).operation m = none := by
  simp [operation]

theorem operation_of_notMem {p : PathItem ω} {m : GoString} (h : m ∉ knownMethods) :
    p.operation m = none := by
  simp only [knownMethods, List.mem_cons, List.not_mem_nil, or_false, not_or] at h
  simp [operation, h]

theorem methods_eq (p : PathItem ω) :
    p.methods = knownMethods.filter fun m => (p.operation m).isSome := by
  have hget : p.operation (lit "GET") = p.get := rfl
  have hpost : p.operation (lit "POST") = p.post := rfl
  have hput : p.operation (lit "PUT") = p.put := rfl
  have hpatch : p.operation (lit "PATCH") = p.patch := rfl
  have hdelete : p.operation (lit "DELETE") = p.delete := rfl
  have hhead : p.operation (lit "HEAD") = p.head := rfl
  have hoptions : p.operation (lit "OPTIONS") = p.options := rfl
  have hsplit : knownMethods = [lit "GET"] ++ [lit "POST"] ++ [lit "PUT"] ++ [lit "PATCH"] ++
      [lit "DELETE"] ++ [lit "HEAD"] ++ [lit "OPTIONS"] := rfl
  rw [hsplit]
  simp only [methods, List.filter_append, List.filter_singleton, hget, hpost, hput, hpatch,
    hdelete, hhead, hoptions, Bool.cond_eq_ite]

/-- An assignment writes one operation, or none. -/
theorem operation_assignOperation [UnicodeUpper] (p : PathItem ω) (method m : GoString) (op : ω) :
    (p.assignOperation method op).operation m =
      if m = toUpper method ∧ m ∈ knownMethods then some op else p.operation m := by
  unfold assignOperation
  generalize toUpper method = upper
  by_cases hupper : upper ∈ knownMethods
  · by_cases hm : m = upper
    · subst hm
      refine Eq.trans ?_ (if_pos ⟨rfl, hupper⟩).symm
      simp only [knownMethods, List.mem_cons, List.not_mem_nil, or_false] at hupper
      rcases hupper with rfl | rfl | rfl | rfl | rfl | rfl | rfl <;> rfl
    · refine Eq.trans ?_ (if_neg fun h => hm h.1).symm
      simp only [knownMethods, List.mem_cons, List.not_mem_nil, or_false] at hupper
      rcases hupper with rfl | rfl | rfl | rfl | rfl | rfl | rfl <;>
        (repeat rw [if_neg (by decide)]) <;> rw [if_pos rfl] <;> simp only [operation, if_neg hm]
  · have hother : ¬ (m = upper ∧ m ∈ knownMethods) := fun h => hupper (h.1 ▸ h.2)
    refine Eq.trans ?_ (if_neg hother).symm
    simp only [knownMethods, List.mem_cons, List.not_mem_nil, or_false, not_or] at hupper
    simp only [hupper, if_false]

end PathItem

namespace Document

/-- The operation at a path and an upper-case method. -/
def operationAt (doc : Document ω) (path m : GoString) : Option ω :=
  (doc.paths.lookup path).bind (·.operation m)

/-- The methods and paths that have an operation. -/
def keys (doc : Document ω) : List (GoString × GoString) :=
  doc.paths.flatMap fun e => e.2.methods.map fun m => (m, e.1)

theorem routeSet_eq (doc : Document ω) :
    doc.routeSet = doc.keys.map fun k => routeKey k.1 k.2 := by
  simp only [routeSet, keys, List.map_flatMap, List.map_map]
  rfl

theorem mem_keys {doc : Document ω} (h : (doc.paths.map Prod.fst).Nodup) {m path : GoString} :
    (m, path) ∈ doc.keys ↔ (doc.operationAt path m).isSome := by
  unfold keys operationAt
  rw [List.mem_flatMap]
  constructor
  · rintro ⟨⟨path', item⟩, hitem, hm⟩
    obtain ⟨m', hm', heq⟩ := List.mem_map.mp hm
    cases heq
    rw [PathItem.methods_eq, List.mem_filter] at hm'
    rw [(mem_iff_lookup h).mp hitem]
    exact hm'.2
  · intro hop
    obtain ⟨op, hop⟩ := Option.isSome_iff_exists.mp hop
    obtain ⟨item, hitem, hop⟩ := Option.bind_eq_some_iff.mp hop
    refine ⟨(path, item), (mem_iff_lookup h).mpr hitem, List.mem_map.mpr ⟨m, ?_, rfl⟩⟩
    rw [PathItem.methods_eq, List.mem_filter]
    refine ⟨?_, by rw [hop, Option.isSome_some]⟩
    by_contra hm
    rw [PathItem.operation_of_notMem hm] at hop
    cases hop

theorem nodup_keys {doc : Document ω} (h : (doc.paths.map Prod.fst).Nodup) : doc.keys.Nodup := by
  unfold keys
  rw [List.nodup_flatMap]
  constructor
  · intro e _
    rw [PathItem.methods_eq]
    exact (knownMethods_nodup.filter _).map fun m m' heq => (Prod.mk.inj heq).1
  · rw [List.Nodup, List.pairwise_map] at h
    refine h.imp ?_
    intro e e' hne k hk hk'
    obtain ⟨m, -, rfl⟩ := List.mem_map.mp hk
    obtain ⟨m', -, heq⟩ := List.mem_map.mp hk'
    exact hne (Prod.mk.inj heq).2.symm

theorem paths_setPath (doc : Document ω) (path : GoString) (item : PathItem ω) :
    (doc.setPath path item).paths = assign doc.paths path item := by
  unfold setPath assign
  split_ifs <;> rfl

section Run
variable [UnicodeUpper]

theorem paths_addRoute (operationFor : EndpointMeta → ω) (doc : Document ω) (route : EndpointMeta) :
    (doc.addRoute operationFor route).paths = assign doc.paths route.path
      (((doc.paths.lookup route.path).getD {}).assignOperation route.method (operationFor route)) :=
  paths_setPath _ _ _

/-- A route writes the operation of its own path and method. -/
theorem operationAt_addRoute {doc : Document ω} (h : (doc.paths.map Prod.fst).Nodup)
    (operationFor : EndpointMeta → ω) (route : EndpointMeta) (path m : GoString) :
    (doc.addRoute operationFor route).operationAt path m =
      if (m, path) = (toUpper route.method, route.path) ∧ m ∈ knownMethods then
        some (operationFor route)
      else doc.operationAt path m := by
  unfold operationAt
  rw [paths_addRoute, lookup_assign h]
  by_cases hpath : path = route.path
  · subst hpath
    rw [if_pos rfl, Option.bind_some, PathItem.operation_assignOperation]
    simp only [Prod.mk.injEq, and_true]
    congr 1
    cases doc.paths.lookup route.path with
    | none => exact PathItem.operation_empty m
    | some item => rfl
  · rw [if_neg hpath, if_neg fun hkey => hpath (Prod.mk.inj hkey.1).2]

/-- The routes of a list are entered with their operations, one after the other. -/
def enterAll (doc : Document ω) (entries : List (EndpointMeta × ω)) : Document ω :=
  entries.foldl (fun doc e => doc.addRoute (fun _ => e.2) e.1) doc

theorem enterAll_concat (doc : Document ω) (entries : List (EndpointMeta × ω))
    (e : EndpointMeta × ω) :
    doc.enterAll (entries ++ [e]) = (doc.enterAll entries).addRoute (fun _ => e.2) e.1 := by
  simp [enterAll]

theorem nodup_enterAll (entries : List (EndpointMeta × ω)) :
    (((({} : Document ω)).enterAll entries).paths.map Prod.fst).Nodup := by
  induction entries using List.reverseRecOn with
  | nil => exact List.nodup_nil
  | append_singleton entries e ih =>
    rw [enterAll_concat, paths_addRoute]
    exact nodup_assign ih _ _

/-- With distinct methods and paths, the document has the operations of the routes with
a known method and no others. -/
theorem operationAt_enterAll {entries : List (EndpointMeta × ω)}
    (h : (entries.map fun e => (toUpper e.1.method, e.1.path)).Nodup) (path m : GoString) (op : ω) :
    (({} : Document ω).enterAll entries).operationAt path m = some op ↔
      m ∈ knownMethods ∧ ∃ e ∈ entries, (m, path) = (toUpper e.1.method, e.1.path) ∧ e.2 = op := by
  induction entries using List.reverseRecOn with
  | nil => simp [enterAll, operationAt]
  | append_singleton entries e ih =>
    rw [List.map_append, List.map_singleton] at h
    obtain ⟨hentries, -, hdisjoint⟩ := List.nodup_append'.mp h
    rw [enterAll_concat, operationAt_addRoute (nodup_enterAll entries)]
    by_cases hkey : (m, path) = (toUpper e.1.method, e.1.path)
    · -- the last route is the only one with its key
      have hprev : ¬ ∃ e' ∈ entries, (m, path) = (toUpper e'.1.method, e'.1.path) ∧ e'.2 = op := by
        rintro ⟨e', he', hkey', -⟩
        exact hdisjoint (List.mem_map.mpr ⟨e', he', hkey'.symm⟩) (List.mem_singleton.mpr hkey)
      by_cases hm : m ∈ knownMethods
      · rw [if_pos ⟨hkey, hm⟩, Option.some.injEq]
        simp only [hm, true_and, List.mem_append, List.mem_singleton, or_and_right, exists_or, hprev,
          false_or, exists_eq_left]
        exact ⟨fun hop => ⟨hkey, hop⟩, And.right⟩
      · rw [if_neg fun h => hm h.2, ih hentries]
        simp only [hm, false_and]
    · rw [if_neg fun h => hkey h.1, ih hentries]
      simp only [List.mem_append, List.mem_singleton, or_and_right, exists_or, exists_eq_left, hkey,
        false_and, or_false]

theorem mem_keys_enterAll {entries : List (EndpointMeta × ω)}
    (h : (entries.map fun e => (toUpper e.1.method, e.1.path)).Nodup) (m path : GoString) :
    (m, path) ∈ (({} : Document ω).enterAll entries).keys ↔
      m ∈ knownMethods ∧ (m, path) ∈ entries.map fun e => (toUpper e.1.method, e.1.path) := by
  rw [mem_keys (nodup_enterAll entries), Option.isSome_iff_exists]
  simp only [operationAt_enterAll h, exists_and_left, List.mem_map]
  refine and_congr_right fun _ => ⟨?_, ?_⟩
  · rintro ⟨op, e, he, hkey, -⟩
    exact ⟨e, he, hkey.symm⟩
  · rintro ⟨e, he, hkey⟩
    exact ⟨e.2, e, he, hkey.symm, rfl⟩

end Run

end Document

/-! ### The check -/

/-- Two keys are the same although the methods differ if the blank of one is inside the
other's method. -/
theorem routeKey_eq_iff {m m' path path' : GoString} (hm' : (0x20 : UInt8) ∉ m') (hne : m ≠ m') :
    routeKey m path = routeKey m' path' ↔
      ∃ rest, m = m' ++ 0x20 :: rest ∧ path' = rest ++ 0x20 :: path := by
  unfold routeKey
  constructor
  · intro h
    rcases List.append_eq_append_iff.mp h with ⟨front, hfront, hrest⟩ | ⟨front, hfront, hrest⟩
    · cases front with
      | nil => exact absurd (by simpa using hfront.symm) hne
      | cons c front =>
        rw [List.cons_append, List.cons.injEq] at hrest
        rw [← hrest.1] at hfront
        exact absurd (hfront ▸ by simp) hm'
    · cases front with
      | nil => exact absurd (by simpa using hfront) hne
      | cons c front =>
        rw [List.cons_append, List.cons.injEq] at hrest
        exact ⟨front, by rw [hfront, ← hrest.1], hrest.2⟩
  · rintro ⟨rest, rfl, rfl⟩
    simp

section Check
variable [UnicodeUpper]

/-- The method is one of the seven, in whatever case. -/
def EndpointMeta.Known (e : EndpointMeta) : Prop := toUpper e.method ∈ knownMethods

instance : DecidablePred EndpointMeta.Known := fun _ => inferInstanceAs (Decidable (_ ∈ _))

/-- A route with a known method has the key of this one: the path of that route begins
with the end of this method, from a blank on. -/
def Registry.Shadowed (reg : Registry) (e : EndpointMeta) : Prop :=
  ∃ other ∈ reg.all, other.Known ∧ ∃ rest, toUpper e.method = toUpper other.method ++ 0x20 :: rest ∧
    other.path = rest ++ 0x20 :: e.path

variable {reg : Registry} {entries : List (EndpointMeta × ω)}

theorem mem_routeSet_enterAll (h : (entries.map fun e => (toUpper e.1.method, e.1.path)).Nodup)
    (hall : entries.map Prod.fst = reg.all) (key : GoString) :
    key ∈ (({} : Document ω).enterAll entries).routeSet ↔
      ∃ e ∈ reg.all, e.Known ∧ routeKey (toUpper e.method) e.path = key := by
  rw [Document.routeSet_eq, List.mem_map, ← hall]
  constructor
  · rintro ⟨⟨m, path⟩, hkey, rfl⟩
    obtain ⟨hm, hmem⟩ := (Document.mem_keys_enterAll h m path).mp hkey
    obtain ⟨e, he, heq⟩ := List.mem_map.mp hmem
    cases heq
    exact ⟨e.1, List.mem_map_of_mem he, hm, rfl⟩
  · rintro ⟨e, he, hknown, rfl⟩
    obtain ⟨entry, hentry, rfl⟩ := List.mem_map.mp he
    exact ⟨_, (Document.mem_keys_enterAll h _ _).mpr
      ⟨hknown, List.mem_map.mpr ⟨entry, hentry, rfl⟩⟩, rfl⟩

/-- The check passes if each route that left no operation is shadowed. -/
theorem selfCheck_enterAll (h : (entries.map fun e => (toUpper e.1.method, e.1.path)).Nodup)
    (hall : entries.map Prod.fst = reg.all) :
    selfCheck (({} : Document ω).enterAll entries) reg = none ↔
      ∀ e ∈ reg.all, ¬ e.Known → reg.Shadowed e := by
  have hregistry (key : GoString) : key ∈ reg.routeSet ↔
      ∃ e ∈ reg.all, routeKey (toUpper e.method) e.path = key := List.mem_map
  rw [selfCheck_eq_none]
  simp only [mem_routeSet_enterAll h hall, hregistry]
  constructor
  · intro hkeys e he hunknown
    obtain ⟨other, hother, hknown, heq⟩ := (hkeys _).mp ⟨e, he, rfl⟩
    have hne : toUpper e.method ≠ toUpper other.method := by
      intro hm
      rw [EndpointMeta.Known, hm] at hunknown
      exact hunknown hknown
    exact ⟨other, hother, hknown,
      (routeKey_eq_iff (blank_notMem_knownMethods _ hknown) hne).mp heq.symm⟩
  · intro hshadowed key
    refine ⟨?_, fun ⟨e, he, _, heq⟩ => ⟨e, he, heq⟩⟩
    rintro ⟨e, he, rfl⟩
    by_cases hknown : e.Known
    · exact ⟨e, he, hknown, rfl⟩
    · obtain ⟨other, hother, hother', rest, hmethod, hpath⟩ := hshadowed e he hknown
      refine ⟨other, hother, hother', ?_⟩
      rw [hmethod, hpath]
      simp [routeKey]

/-- The check hides that a route was dropped. -/
def Registry.Masked (reg : Registry) : Prop :=
  (∃ e ∈ reg.all, ¬ e.Known) ∧ ∀ e ∈ reg.all, ¬ e.Known → reg.Shadowed e

/-- A method without a blank is not mistaken for another one. -/
theorem Registry.not_masked (h : ∀ e ∈ reg.all, (0x20 : UInt8) ∉ toUpper e.method) :
    ¬ reg.Masked := by
  rintro ⟨⟨e, he, hunknown⟩, hshadowed⟩
  obtain ⟨other, -, -, rest, hmethod, -⟩ := hshadowed e he hunknown
  exact h e he (hmethod ▸ by simp)

end Check

end ApiTest.Endpoints
